import ChipEight.CommandLine.Scan
import ChipEight.Session
import ChipEight.Text.Integer

/-! # The options of the program

The operand is the file with the program image. Values are read in the order in which they stand,
the last one of an option counts, and each `-v` asks for more of the log. An option that was left
blank last, which the early reader lets pass, has no value that could be used.
-/

namespace ChipEight

namespace Options

inductive Key
  | help | scale | headless | maxCycles | cycleRate | timerRate | mute | keys | listing | verbose
deriving DecidableEq, Repr

end Options

structure Options where
  rom : String := ""
  scale : Int := Window.usualScale
  headless : Bool := false
  maxCycles : Option Int := none
  cycleRate : Int := Session.usualCycleRate
  timerRate : Int := Session.usualTimerRate
  mute : Bool := false
  /-- The names of the host keys, separated by commas. -/
  keys : Option String := none
  listing : Bool := false
  verbosity : Nat := 0
  /-- The options that were left blank. -/
  blank : List Options.Key := []
deriving DecidableEq, Repr

namespace Options

def grammar (d : CommandLine.Dialect) : CommandLine.Grammar Key where
  dialect := d
  specs :=
    [⟨.help, ["-h", "--help"], false⟩, ⟨.scale, ["--scale"], true⟩,
      ⟨.headless, ["--headless"], false⟩, ⟨.maxCycles, ["--max-cycles"], true⟩,
      ⟨.cycleRate, ["--cycle-hz"], true⟩, ⟨.timerRate, ["--timer-hz"], true⟩,
      ⟨.mute, ["--mute"], false⟩, ⟨.keys, ["--keys"], true⟩, ⟨.listing, ["--disasm"], false⟩,
      ⟨.verbose, ["-v", "--verbose"], false⟩]
  operand := "rom"

inductive Error
  | usage (e : CommandLine.UsageError)
  /-- A value that is no integer. -/
  | notInteger (names : List String) (value : String)
deriving DecidableEq, Repr

def Error.message : Error → String
  | .usage e => e.message
  | .notInteger names value =>
    CommandLine.blame names ("invalid int value: " ++ Text.quoted value)

/-- What the user asks for. -/
inductive Request
  | run (o : Options)
  | help
deriving DecidableEq, Repr

def setFlag (o : Options) : Key → Options
  | .headless => { o with headless := true }
  | .mute => { o with mute := true }
  | .listing => { o with listing := true }
  | .verbose => { o with verbosity := o.verbosity + 1 }
  | _ => o

def setNumber (o : Options) (n : Int) : Key → Options
  | .scale => { o with scale := n }
  | .maxCycles => { o with maxCycles := some n }
  | .cycleRate => { o with cycleRate := n }
  | .timerRate => { o with timerRate := n }
  | _ => o

/-- The option has no value from now on. -/
def setBlank (o : Options) (key : Key) : Options := { o with blank := key :: o.blank }

/-- The option has a value again. -/
def fill (o : Options) (key : Key) : Options := { o with blank := o.blank.filter (· ≠ key) }

/-- Acts in order. A call for help ends the reading, and so does a value that cannot be read. -/
def interpret (o : Options) : List (CommandLine.Action Key) → Option CommandLine.UsageError →
    Except Error Request
  | [], some e => .error (.usage e)
  | [], none => .ok (.run o)
  | .operand text :: rest, e => { o with rom := text }.interpret rest e
  | .flag s :: rest, e => if s.key = .help then .ok .help else (o.setFlag s.key).interpret rest e
  | .blank s :: rest, e => (o.setBlank s.key).interpret rest e
  | .value s text :: rest, e =>
    if s.key = .keys then ({ o with keys := some text }.fill s.key).interpret rest e
    else
      match Text.integer? text with
      | none => .error (.notInteger s.names text)
      | some n => ((o.setNumber n s.key).fill s.key).interpret rest e

def parse (d : CommandLine.Dialect) (args : List String) : Except Error Request :=
  let (actions, e) := (grammar d).read args
  interpret {} actions e

/-- What is wrong with the rates, of which the cycle rate is looked at first. -/
inductive RateError
  | blank (key : Key)
  | notPositive
deriving DecidableEq, Repr

def rateMessage : String := "--cycle-hz and --timer-hz must be positive"

def isBlank (o : Options) (key : Key) : Bool := o.blank.contains key

def rateError? (o : Options) : Option RateError :=
  if o.isBlank .cycleRate then some (.blank .cycleRate)
  else if o.cycleRate ≤ 0 then some .notPositive
  else if o.isBlank .timerRate then some (.blank .timerRate)
  else if o.timerRate ≤ 0 then some .notPositive
  else none

end Options

end ChipEight
