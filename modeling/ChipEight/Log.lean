/-! # Log records

A log keeps the records at or above its threshold. What is done never depends on what is kept.
-/

namespace ChipEight

namespace Log

inductive Level
  | trace | debug | info | warning | error | critical
deriving DecidableEq, Repr

/-- The usual numbers of the levels; a trace record is finer than a debug record. No record is
critical, so a log with that threshold keeps nothing. -/
def Level.number : Level → Nat
  | .trace => 5
  | .debug => 10
  | .info => 20
  | .warning => 30
  | .error => 40
  | .critical => 50

def Level.name : Level → String
  | .trace => "TRACE"
  | .debug => "DEBUG"
  | .info => "INFO"
  | .warning => "WARNING"
  | .error => "ERROR"
  | .critical => "CRITICAL"

/-- Who writes a record. -/
inductive Source
  | machine | scheduler
deriving DecidableEq, Repr

def Source.name : Source → String
  | .machine => "chip8"
  | .scheduler => "system"

structure Record where
  level : Level
  source : Source
  message : String
deriving DecidableEq, Repr

/-- The level is padded to five columns. -/
def Record.line (r : Record) : String :=
  String.ofList (r.level.name.toList.rightpad 5 ' ') ++ " " ++ r.source.name ++ ": " ++ r.message

end Log

structure Log where
  threshold : Log.Level
  records : Array Log.Record
deriving DecidableEq

namespace Log

def new (threshold : Level) : Log := ⟨threshold, #[]⟩

def add (l : Log) (r : Record) : Log :=
  if l.threshold.number ≤ r.level.number then { l with records := l.records.push r } else l

def clear (l : Log) : Log := { l with records := #[] }

/-- Lines of text, each with a line feed. -/
def text (l : Log) : String := String.join (l.records.toList.map fun r => r.line ++ "\n")

/-- How often a user asked for more decides the threshold: warnings, then progress, then a trace. -/
def thresholdFor (verbosity : Int) : Level :=
  if 2 ≤ verbosity then .trace else if verbosity = 1 then .info else .warning

end Log

end ChipEight
