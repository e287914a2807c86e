import ChipEight.Application
import ChipEight.Desktop

/-! # The command line

Runs the program on the clock of this computer. It has no window system and no mixer, so programs
run with `--headless` or are listed with `--disasm`.
-/

namespace ChipEight.Main

/-- What a file that cannot be read says to the program. -/
def openError : IO.Error → OpenError
  | .permissionDenied .. => .denied
  | .inappropriateType _ code _ => if code = 21 then .isDirectory else .notDirectory
  | .otherError code text => .other code.toNat text
  | _ => .notFound

/-- The file as it is now, whichever way the program asks for it. -/
def readNow (path : String) : IO (Except OpenError (List UInt8)) := do
  if path.toList.contains '\x00' then return .error .embeddedNul
  try
    let content ← IO.FS.readBinFile path
    return .ok content.toList
  catch e => return .error (openError e)

/-- The file that the command line names. -/
def romOf (args : List String) : String :=
  match Options.parse .current args with
  | .ok (.run o) => o.rom
  | _ => ""

/-- Bytes that a seed scatters. -/
def scattered (seed : UInt64) : ByteSource :=
  ⟨fun (k : Nat) => (mixHash seed k.toUInt64).toNat % 256, 0⟩

def host (rom : String) : IO Host := do
  let content ← readNow rom
  let seed ← IO.rand 0 0xFFFFFFFFFFFFFFFF
  return {
    dialect := .current
    read := fun _ => content
    windows := .unavailable "No available video device"
    toolkit := Desktop.toolkit
    mixer := .unavailable "No available audio device"
    random := scattered seed.toUInt64
    encodes := fun _ => true }

/-- Prints the records that were kept, and forgets them. -/
def printLog (s : Session) : IO Session := do
  IO.eprint s.log.text
  return { s with log := s.log.clear }

/-- When tick number `n` of a rate is due, in milliseconds from the beginning. -/
def due (rate : Int) (n : Nat) : Nat := (n + 1) * 1000 / rate.toNat

/-- Serves ticks as they fall due, `cycles` and `timers` being how many of each there were. -/
partial def pace (limit : Option Int) (begun cycles timers : Nat) (s : Session) :
    IO (Session × Session.Ending) := do
  match s.stopCondition? limit with
  | some reason => return (s, .stopped reason)
  | none =>
    let cycleDue := due s.cycleRate cycles
    let timerDue := due s.timerRate timers
    let isTimer := timerDue ≤ cycleDue
    let wait := begun + min cycleDue timerDue - (← IO.monoMsNow)
    if 0 < wait then IO.sleep wait.toUInt32
    let (s, ending) := s.turn (if isTimer then .timer else .cycle)
    let s ← printLog s
    match ending with
    | some ending => return (s, ending)
    | none =>
      if isTimer then pace limit begun cycles (timers + 1) s
      else pace limit begun (cycles + 1) timers s

def exitCode : Application.Ending → UInt32
  | .exit code => code.toUInt32
  | .escaped _ => 1

def printBoth (out err : String) : IO Unit := do
  IO.print out
  IO.eprint err

def finish (o : Application.Outcome) : IO UInt32 := do
  printBoth o.out o.err
  return exitCode o.ending

def program (args : List String) : IO UInt32 := do
  match Application.launch (← host (romOf args)) args with
  | .error outcome => finish outcome
  | .ok r =>
    if r.options.isBlank .maxCycles then return ← finish (r.abandon [])
    printBoth r.out r.err
    let s ← printLog (r.session.begin [])
    let (s, ending) ← pace r.options.maxCycles (← IO.monoMsNow) 0 0 s
    finish ({ r with out := "", err := "" }.conclude (s.finish ending) ending)

end ChipEight.Main

def main (args : List String) : IO UInt32 := ChipEight.Main.program args
