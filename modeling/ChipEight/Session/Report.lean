import ChipEight.Machine.Report
import ChipEight.Session

/-! # The session report

The register report of the machine, its cycle count and key wait, and then the tick counts, the stop
reason and the keys that are down.
-/

namespace ChipEight.Session

def flagText (b : Bool) : String := if b then "True" else "False"

def keysText (s : Session) : String :=
  match s.machine.keypad.keysDown with
  | [] => "none"
  | keys => String.intercalate " " (keys.map fun key => String.singleton (Hex.upperDigit key))

def stopText (s : Session) : String :=
  match s.stopReason with
  | none => "N/A"
  | some reason => reason.name

def report (s : Session) : String :=
  String.intercalate "\n"
    ["=== Registers ===", s.machine.report,
      "  Cycles: " ++ toString s.machine.cycles ++ "  Waiting for key: " ++
        flagText s.machine.waiting,
      "", "=== Scheduler ===",
      "  cycle ticks=" ++ toString s.cycles ++ " timer ticks=" ++ toString s.timerTicks ++
        " queued=" ++ toString s.ticksQueued ++ " stop=" ++ s.stopText,
      "  keys down: " ++ s.keysText]

end ChipEight.Session
