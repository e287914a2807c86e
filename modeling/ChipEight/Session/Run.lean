import ChipEight.Session.Tick

/-! # Runs

A run serves ticks in the order of their arrival until a stop condition holds, a fault ends it, or
something escapes it: an interrupt, a tick that cannot be served, or something that cannot happen.
The stop conditions are looked at before each poll. When the arrivals are used up the run is stopped
as `stop` would stop it.
-/

namespace ChipEight.Session

inductive Ending
  | stopped (reason : StopReason)
  | interrupted
  | failed (e : Failure)
deriving DecidableEq, Repr

/-- The first of quit, halted and limit that holds. -/
def stopCondition? (limit : Option Int) (s : Session) : Option StopReason :=
  if s.stopFlag ∨ s.renderer.quitRequested then some .quit
  else if s.machine.halted then some .halted
  else if limit.any fun (n : Int) => n ≤ s.cycles then some .limit
  else none

/-- Serves a tick within a run, which a fault ends. -/
def turn (s : Session) (t : Tick) : Session × Option Ending :=
  match s.handle t with
  | (s, none) => (s, none)
  | (s, some (.machine (.fault f))) =>
    ({ s with fault := some f, log := s.log.add ⟨.error, .scheduler, "fatal: " ++ f.message⟩ },
      some (.stopped .fault))
  | (s, some e) => (s, some (.failed e))

/-- From a poll on. What is not come to is queued. -/
def serve (limit : Option Int) : List Arrival → Session → Session × Ending
  | [], s => ({ s.stop with queued := [] }, .stopped .quit)
  | .happening h :: rest, s =>
    match s.receive h with
    | .error e => ({ s with queued := rest }, .failed e)
    | .ok s => serve limit rest s
  | .interrupt :: rest, s => ({ s with queued := rest }, .interrupted)
  | .nothing :: rest, s =>
    match s.stopCondition? limit with
    | some reason => ({ s with queued := rest }, .stopped reason)
    | none => serve limit rest s
  | .tick t :: rest, s =>
    match s.turn t with
    | (s, some ending) => ({ s with queued := rest }, ending)
    | (s, none) =>
      match s.stopCondition? limit with
      | some reason => ({ s with queued := rest }, .stopped reason)
      | none => serve limit rest s

/-- Forgets the last fault and queues the arrivals. -/
def begin (s : Session) (arrivals : List Arrival) : Session :=
  { s with
    fault := none
    queued := arrivals
    log := s.log.add ⟨.info, .scheduler,
      "scheduler started: " ++ toString s.cycleRate ++ " Hz cycles, " ++ toString s.timerRate ++
        " Hz timers"⟩ }

def stoppedMessage (s : Session) (reason : StopReason) : String :=
  "scheduler stopped (" ++ reason.name ++ ") after " ++ toString s.cycles ++ " cycles, " ++
    toString s.timerTicks ++ " timer ticks, " ++ toString s.ticksQueued ++ " ticks still queued"

/-- The clock stops and the stop flag is taken back. A run that something escaped leaves the stop
reason of the run before. -/
def finish (s : Session) (ending : Ending) : Session :=
  let s := { s with stopFlag := false, ticking := false }
  match ending with
  | .stopped reason =>
    { s with
      stopReason := some reason
      log := s.log.add ⟨.info, .scheduler, s.stoppedMessage reason⟩ }
  | _ => s

/-- From the first look at the stop conditions on. -/
def proceed (s : Session) (arrivals : List Arrival) (limit : Option Int) : Session × Ending :=
  match s.stopCondition? limit with
  | some reason => (s, .stopped reason)
  | none => serve limit arrivals s

def run (s : Session) (arrivals : List Arrival) (limit : Option Int) : Session × Ending :=
  let (s, ending) := (s.begin arrivals).proceed arrivals limit
  (s.finish ending, ending)

/-- A run on the clock, which must not run already. What the clock sends is served as it comes, so
that nothing is queued. -/
def runOnClock (s : Session) (arrivals : List Arrival) (limit : Option Int) :
    Session × Except StartError Ending :=
  if s.ticking then ({ s with fault := none }, .error .alreadyTicking)
  else
    let (s, ending) := (s.begin []).proceed arrivals limit
    (({ s with queued := [] }).finish ending, .ok ending)

end ChipEight.Session
