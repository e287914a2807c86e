import ChipEight.Log
import ChipEight.Machine.Trace
import ChipEight.Renderer

/-! # Sessions

A session is a machine with a renderer, the key events that wait for it, the counts of the ticks it
was given, and what its last run came to.

What a run finds when it polls is an `Arrival`: a tick, nothing, an interrupt, or something that
happens beside the run and does not end the poll. The arrivals that a run has not come to stay
`queued` until the next one begins.
-/

namespace ChipEight

/-- What the clock asks for: an instruction, or a step of the timers and a new frame. -/
inductive Tick
  | cycle
  | timer
  | other (kind : String)
deriving DecidableEq, Repr

def Tick.ofKind : String → Tick
  | "cycle" => .cycle
  | "timer" => .timer
  | kind => .other kind

/-- What happens beside a run. -/
inductive Happening
  | quit
  | stop
  | post (key : Int) (down : Bool)
  | press (key : Int)
  | release (key : Int)
  | host (e : Window.HostEvent)
deriving DecidableEq, Repr

inductive Arrival
  | tick (t : Tick)
  | nothing
  | interrupt
  | happening (h : Happening)
deriving DecidableEq, Repr

def Arrival.isTick : Arrival → Bool
  | .tick _ => true
  | _ => false

inductive StopReason
  | quit | halted | fault | limit
deriving DecidableEq, Repr

def StopReason.name : StopReason → String
  | .quit => "quit"
  | .halted => "halted"
  | .fault => "fault"
  | .limit => "limit"

structure Session where
  machine : Machine
  renderer : Renderer
  cycleRate : Int
  timerRate : Int
  /-- Key events that wait for the next cycle. -/
  pending : List KeyEvent
  /-- Cycle ticks served without an error. -/
  cycles : Nat
  timerTicks : Nat
  /-- The fault that ended the last run. -/
  fault : Option Fault
  /-- Why the last run that came to an end of its own did so. -/
  stopReason : Option StopReason
  /-- The next look at the stop conditions says quit. -/
  stopFlag : Bool
  ticking : Bool
  queued : List Arrival
  log : Log

namespace Session

inductive RateError
  | notPositive
deriving DecidableEq, Repr

def RateError.message : RateError → String
  | .notPositive => "tick rates must be positive"

def usualCycleRate : Int := 500

def usualTimerRate : Int := 60

/-- The ticks among what is queued. -/
def ticksQueued (s : Session) : Nat := s.queued.countP Arrival.isTick

/-- A session before its first tick. -/
def ofRates (machine : Machine) (renderer : Renderer) (cycleRate timerRate : Int)
    (threshold : Log.Level) : Session where
  machine := machine
  renderer := renderer
  cycleRate := cycleRate
  timerRate := timerRate
  pending := []
  cycles := 0
  timerTicks := 0
  fault := none
  stopReason := none
  stopFlag := false
  ticking := false
  queued := []
  log := .new threshold

/-- The same, if both rates are positive. -/
def new (machine : Machine) (renderer : Renderer) (cycleRate timerRate : Int)
    (threshold : Log.Level) : Except RateError Session :=
  if cycleRate ≤ 0 ∨ timerRate ≤ 0 then .error .notPositive
  else .ok (ofRates machine renderer cycleRate timerRate threshold)

/-- The session afterwards, or as it was if the program is too large. -/
def load (s : Session) (program : List UInt8) : Session × Option Machine.Oversize :=
  match s.machine.loadLogged program s.log with
  | (.error e, _) => (s, some e)
  | (.ok machine, log) => ({ s with machine, log }, none)

def post (s : Session) (e : KeyEvent) : Session := { s with pending := s.pending ++ [e.masked] }

inductive StartError
  | alreadyTicking
deriving DecidableEq, Repr

def StartError.message : StartError → String
  | .alreadyTicking => "tick sources already running"

/-- Starts the clock with nothing queued. With the stop flag up the clock stops at once. -/
def start (s : Session) : Session × Option StartError :=
  if s.ticking then (s, some .alreadyTicking)
  else ({ s with ticking := !s.stopFlag, queued := [] }, none)

/-- Stops the clock, and the next run before it does anything. -/
def stop (s : Session) : Session := { s with stopFlag := true, ticking := false }

/-- Why a tick cannot be served, or something cannot happen. -/
inductive Failure
  | machine (e : Machine.Error)
  | window (e : Window.Error)
  | unknownTick (kind : String)
  /-- The renderer does not take such a thing. -/
  | unsupported
deriving DecidableEq, Repr

/-- The session with another renderer, if there is one. -/
def setRenderer? (s : Session) : Option Renderer → Except Failure Session
  | none => .error .unsupported
  | some renderer => .ok { s with renderer }

/-- Something happens. What cannot happen changes nothing. -/
def receive (s : Session) : Happening → Except Failure Session
  | .quit => s.setRenderer? (s.renderer.setQuit? true)
  | .stop => .ok s.stop
  | .post key down => .ok (s.post ⟨key, down⟩)
  | .press key => s.setRenderer? (s.renderer.receiveKey? ⟨key, true⟩)
  | .release key => s.setRenderer? (s.renderer.receiveKey? ⟨key, false⟩)
  | .host e =>
    match s.renderer.receiveHost e with
    | .error e => .error (.window e)
    | .ok renderer => .ok { s with renderer }

end Session

end ChipEight
