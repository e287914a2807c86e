import ChipEight.Text.Digit
import ChipEight.Text.Quoted

/-! # Words of a command line

A grammar has options, which begin with a dash, and one operand. An option is a flag or takes one
value. Each argument is a word of one of four sorts: the separator `--`, a plain word, a use of an
option, or a word that looks like an option and is none.

A name that begins with two dashes may be shortened as long as one name only begins so, and may
carry its value after an equals sign. A name of one dash and one letter may carry its value right
behind it or after an equals sign, or further flags right behind it. A negative number and a text
with a blank in it are plain words.

Of the readers of such words there are two, which differ in what they make of an attached text: see
`Dialect`.
-/

namespace ChipEight

namespace CommandLine

/-- Which reader it is. -/
inductive Dialect
  /-- Behind an equals sign there is a value, also if it looks like a separator. Behind a flag there
  are further flags, and what is left of the text at the first letter that is none is left over. -/
  | current
  /-- Behind a flag of one dash there are further flags, after an equals sign too, and a letter that
  is none is refused. An option with a separator attached is left blank. -/
  | early
deriving DecidableEq, Repr

/-- An option with all its names. -/
structure Spec (κ : Type) where
  key : κ
  names : List String
  takesValue : Bool

structure Grammar (κ : Type) where
  specs : List (Spec κ)
  operand : String
  dialect : Dialect

/-- A text that stands behind an option's name in the same argument. -/
inductive Attached
  | none
  /-- Behind a name of one dash: a value, or the letters of further flags. -/
  | glued (text : List Char)
  /-- Behind an equals sign: a value. -/
  | equated (text : List Char)
deriving DecidableEq

structure Use (κ : Type) where
  spec : Spec κ
  attached : Attached

inductive Word (κ : Type)
  | separator
  | plain (text : String)
  | use (u : Use κ)
  | unknown (text : String)

inductive UsageError
  /-- The word could mean each of these options. -/
  | ambiguous (word : String) (candidates : List String)
  | missingValue (names : List String)
  /-- A flag with a value behind it. -/
  | strayValue (names : List String) (value : String)
  | missingOperand (operand : String)
  | unrecognized (words : List String)
deriving DecidableEq, Repr

def blame (names : List String) (text : String) : String :=
  "argument " ++ String.intercalate "/" names ++ ": " ++ text

def UsageError.message : UsageError → String
  | .ambiguous word candidates =>
    "ambiguous option: " ++ word ++ " could match " ++ String.intercalate ", " candidates
  | .missingValue names => blame names "expected one argument"
  | .strayValue names value => blame names ("ignored explicit argument " ++ Text.quoted value)
  | .missingOperand operand => "the following arguments are required: " ++ operand
  | .unrecognized words => "unrecognized arguments: " ++ String.intercalate " " words

/-- What stands before the first equals sign, and what behind it. -/
def splitAssignment (cs : List Char) : List Char × Option (List Char) :=
  match cs.dropWhile (· != '=') with
  | [] => (cs, none)
  | _ :: value => (cs.takeWhile (· != '='), some value)

/-- What the text after an equals sign, if there is one, is to the name in front. To the early
reader no text at all behind a name of one dash is an empty value. -/
def Attached.ofAssigned (d : Dialect) (name : List Char) : Option (List Char) → Attached
  | Option.none => .none
  | some value =>
    if d = .early ∧ value ≠ [] ∧ ¬['-', '-'] <+: name then .glued value else .equated value

/-- A minus sign, then digits with at most one point before the last of them. A line feed may
follow. -/
def isNegativeNumber (cs : List Char) : Bool :=
  match cs with
  | '-' :: body =>
    let body := if body.getLast? = some '\n' then body.dropLast else body
    match body.dropWhile Text.isDigit with
    | [] => !body.isEmpty
    | '.' :: fraction => !fraction.isEmpty && fraction.all Text.isDigit
    | _ => false
  | _ => false

namespace Grammar

variable {κ : Type}

/-- All names in their order, each with its option. -/
def entries (g : Grammar κ) : List (String × Spec κ) :=
  g.specs.flatMap fun s => s.names.map fun name => (name, s)

def find? (g : Grammar κ) (name : List Char) : Option (Spec κ) :=
  g.entries.lookup (String.ofList name)

/-- The names that a word may be short for, or a letter with something glued to it. -/
def candidates (g : Grammar κ) (cs : List Char) : List (String × Use κ) :=
  match cs with
  | '-' :: '-' :: _ =>
    let (stem, value) := splitAssignment cs
    (g.entries.filter fun e => stem.isPrefixOf e.1.toList).map fun e =>
      (e.1, ⟨e.2, .ofAssigned g.dialect stem value⟩)
  | _ =>
    g.entries.filterMap fun e =>
      if e.1.toList = cs.take 2 then some (e.1, ⟨e.2, .glued (cs.drop 2)⟩)
      else if cs.isPrefixOf e.1.toList then some (e.1, ⟨e.2, .none⟩)
      else none

/-- The sort of an argument that begins with a dash and is no option's full name. -/
def classifyDashed (g : Grammar κ) (cs : List Char) : Except UsageError (Word κ) :=
  let text := String.ofList cs
  match g.candidates cs with
  | [] =>
    if isNegativeNumber cs || cs.contains ' ' then .ok (.plain text) else .ok (.unknown text)
  | [(_, u)] => .ok (.use u)
  | several => .error (.ambiguous text (several.map (·.1)))

def classifyChars (g : Grammar κ) (cs : List Char) : Except UsageError (Word κ) :=
  match cs with
  | '-' :: _ :: _ =>
    match g.find? cs with
    | some s => .ok (.use ⟨s, .none⟩)
    | none =>
      match splitAssignment cs with
      | (name, some value) =>
        match g.find? name with
        | some s => .ok (.use ⟨s, .ofAssigned g.dialect name (some value)⟩)
        | none => g.classifyDashed cs
      | (_, none) => g.classifyDashed cs
  | _ => .ok (.plain (String.ofList cs))

/-- The words of the arguments. Behind the separator all are plain. -/
def classify (g : Grammar κ) : List String → Except UsageError (List (Word κ))
  | [] => .ok []
  | "--" :: rest => .ok (.separator :: rest.map .plain)
  | arg :: rest => do return (← g.classifyChars arg.toList) :: (← g.classify rest)

end Grammar

end CommandLine

end ChipEight
