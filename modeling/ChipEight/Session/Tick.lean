import ChipEight.Machine.Timers
import ChipEight.Session
import ChipEight.Text.Quoted

/-! # Serving ticks

A cycle tick moves the waiting key events into the keypad, those posted before those of the
renderer, and executes one instruction. A timer tick counts the timers down and presents the screen.
-/

namespace ChipEight.Session

def unknownTickMessage (kind : String) : String := "unknown tick kind " ++ Text.quoted kind

/-- Polls the renderer and applies all events that wait. -/
def drain (s : Session) : Session × Option Failure :=
  match s.renderer.poll with
  | .error e => (s, some (.window e))
  | .ok (events, renderer) =>
    let waiting := s.pending ++ events.map KeyEvent.masked
    let keypad := waiting.foldl Keypad.apply s.machine.keypad
    ({ s with renderer, pending := [], machine := { s.machine with keypad } }, none)

/-- One instruction, and its records. -/
def step (s : Session) : Session × Option Failure :=
  match s.machine.stepLogged s.log with
  | ((machine, none), log) => ({ s with machine, log, cycles := s.cycles + 1 }, none)
  | ((machine, some e), log) => ({ s with machine, log }, some (.machine e))

def serveCycle (s : Session) : Session × Option Failure :=
  match s.drain with
  | (s, some e) => (s, some e)
  | (s, none) => s.step

def serveTimer (s : Session) : Session × Option Failure :=
  let machine := s.machine.tick
  let (renderer, e) := s.renderer.present machine.screen.frame
  ({ s with machine, renderer, timerTicks := s.timerTicks + 1 }, e.map .window)

def handle (s : Session) : Tick → Session × Option Failure
  | .cycle => s.serveCycle
  | .timer => s.serveTimer
  | .other kind => (s, some (.unknownTick kind))

end ChipEight.Session
