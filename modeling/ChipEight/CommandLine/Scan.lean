import ChipEight.CommandLine

/-! # Reading a command line

Words are read from left to right: an option takes the plain word behind it as its value, the first
plain word that is left is the operand, and all else is unrecognized. The result is a list of
actions in the order of their words and, if the reading fails, the error, which comes after the
actions of the words before it.

A separator that is a word never is a value.
-/

namespace ChipEight.CommandLine

inductive Action (κ : Type)
  | flag (s : Spec κ)
  | value (s : Spec κ) (text : String)
  /-- An option that takes a value, with none, which is up to the early reader. -/
  | blank (s : Spec κ)
  | operand (text : String)

/-- What a use of an option comes to, apart from the flags glued together in front. -/
inductive Last (κ : Type)
  /-- An option with nothing attached. -/
  | bare (s : Spec κ)
  /-- An option with a value attached. -/
  | given (s : Spec κ) (text : List Char)
  /-- A dash and letters that are no flags. -/
  | leftOver (text : List Char)
  | refused (e : UsageError)

/-- The place of the operand. A separator right before or right behind the operand belongs to it. -/
inductive Place
  | empty
  /-- The operand was the word before. -/
  | fresh
  | filled
deriving DecidableEq

/-- The place when a word comes that is no operand. -/
def Place.next : Place → Place
  | .empty => .empty
  | _ => .filled

namespace Grammar

variable {κ : Type}

/-- A flag with a text behind it that is no further flag. -/
def stray (s : Spec κ) (text : List Char) : UsageError :=
  .strayValue s.names (String.ofList text)

/-- An option with a text behind an equals sign. -/
def equate (s : Spec κ) (text : List Char) : Last κ :=
  if s.takesValue then .given s text else .refused (stray s text)

/-- Flags that are glued together, up to one that takes the rest as its value. -/
def unglue (g : Grammar κ) (s : Spec κ) : List Char → List (Spec κ) × Last κ
  | [] => ([], .bare s)
  | c :: rest =>
    if s.takesValue then ([], .given s (c :: rest))
    else
      match g.dialect, g.find? ['-', c], rest with
      | .early, none, _ => ([], .refused (stray s (c :: rest)))
      | .current, none, _ =>
        if c = '-' then ([], .refused (stray s (c :: rest)))
        else ([s], .leftOver ('-' :: c :: rest))
      | .current, some s', '=' :: text => ([s], equate s' text)
      | _, some s', _ =>
        let (flags, last) := g.unglue s' rest
        (s :: flags, last)

def unfold (g : Grammar κ) (u : Use κ) : List (Spec κ) × Last κ :=
  match u.attached with
  | .none => ([], .bare u.spec)
  | .equated text => ([], equate u.spec text)
  | .glued text => g.unglue u.spec text

/-- What an attached value does. -/
def assign (g : Grammar κ) (s : Spec κ) (text : List Char) : Action κ :=
  if g.dialect = .early ∧ text = ['-', '-'] then .blank s else .value s (String.ofList text)

/-- What is wrong when all words are read: the operand is missing, or words are left over. -/
def leftOver (g : Grammar κ) (place : Place) (extras : List String) : Option UsageError :=
  if place = .empty then some (.missingOperand g.operand)
  else if extras.isEmpty then none
  else some (.unrecognized extras)

def after (actions : List (Action κ)) (r : List (Action κ) × Option UsageError) :
    List (Action κ) × Option UsageError :=
  (actions ++ r.1, r.2)

/-- `extras` are the words left over so far. -/
def scan (g : Grammar κ) (place : Place) (extras : List String) :
    List (Word κ) → List (Action κ) × Option UsageError
  | [] => ([], g.leftOver place extras)
  | .plain text :: rest =>
    if place = .empty then after [.operand text] (g.scan .fresh extras rest)
    else g.scan .filled (extras ++ [text]) rest
  | .separator :: rest =>
    match place with
    | .fresh => g.scan .filled extras rest
    | .filled => g.scan .filled (extras ++ ["--"]) rest
    | .empty =>
      -- All words behind the separator are plain, so the next one is the operand if there is one.
      g.scan .empty (if rest.isEmpty then extras ++ ["--"] else extras) rest
  | .unknown text :: rest => g.scan place.next (extras ++ [text]) rest
  | .use u :: rest =>
    let (flags, last) := g.unfold u
    let flags := flags.map Action.flag
    match last with
    | .refused e => ([], some e)
    | .leftOver text =>
      after flags (g.scan place.next (extras ++ [String.ofList text]) rest)
    | .given s text => after (flags ++ [g.assign s text]) (g.scan place.next extras rest)
    | .bare s =>
      if s.takesValue then
        match rest with
        | .plain text :: rest' =>
          after (flags ++ [.value s text]) (g.scan place.next extras rest')
        | _ => ([], some (.missingValue s.names))
      else after (flags ++ [.flag s]) (g.scan place.next extras rest)

/-- An ambiguous word is found before anything acts. -/
def read (g : Grammar κ) (args : List String) : List (Action κ) × Option UsageError :=
  match g.classify args with
  | .error e => ([], some e)
  | .ok words => g.scan .empty [] words

end Grammar

end ChipEight.CommandLine
