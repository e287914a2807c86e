import ChipEight.Text.Blank
import ChipEight.Text.Digit

/-! # Reading integers

An integer is written as digits of any script, with single underscores between digits if one likes,
a sign in front and white space around. The separator controls of ASCII do not count as white space
here. A number of more than 4300 digits is refused.
-/

namespace ChipEight.Text

/-- The white space that may stand around a number. -/
def isMargin (c : Char) : Bool := isBlank c && !(0x1C ≤ c.toNat && c.toNat ≤ 0x1F)

/-- The longest number that is read. -/
def maxDigits : Nat := 4300

/-- The digits' values, where an underscore may follow the digit before it and a digit follows. -/
def digits? : List Char → Option (List Nat)
  | [] => none
  | c :: rest => do
    let d ← digit? c
    match rest with
    | [] => return [d]
    | '_' :: rest' => return d :: (← digits? rest')
    | c' :: rest' => return d :: (← digits? (c' :: rest'))

def natural? (cs : List Char) : Option Nat := do
  let ds ← digits? cs
  guard (ds.length ≤ maxDigits)
  return ds.foldl (fun n d => 10 * n + d) 0

/-- The text without the white space around it. -/
def trimMargins (cs : List Char) : List Char :=
  (((cs.dropWhile isMargin).reverse).dropWhile isMargin).reverse

def integer? (s : String) : Option Int :=
  match trimMargins s.toList with
  | '-' :: cs => (natural? cs).map fun n => -(n : Int)
  | '+' :: cs => (natural? cs).map fun n => (n : Int)
  | cs => (natural? cs).map fun n => (n : Int)

end ChipEight.Text
