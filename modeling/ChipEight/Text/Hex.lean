/-! # Hexadecimal numerals

`Hex.padded w n` writes `n` in lower case with at least `w` digits, `Hex.literal w n` puts `0x` in
front, and `Hex.signed w v` and `Hex.signedLiteral w v` count a minus sign as one of the `w`
columns. `Hex.value` reads digits back: `value_digits` and `value_paddedDigits` say that writing
loses nothing.
-/

namespace ChipEight.Hex

/-- The digit for `d`, which is below 16. -/
def digit (d : Nat) : Char :=
  if d < 10 then Char.ofNat (48 + d) else Char.ofNat (87 + d)

/-- The upper-case digit for `d`, which names a register or a key. -/
def upperDigit (d : Fin 16) : Char :=
  if d.val < 10 then Char.ofNat (48 + d.val) else Char.ofNat (55 + d.val)

def digits (n : Nat) : List Char :=
  if n < 16 then [digit n] else digits (n / 16) ++ [digit (n % 16)]
termination_by n

def paddedDigits (width n : Nat) : List Char :=
  (digits n).leftpad width '0'

def padded (width n : Nat) : String :=
  String.ofList (paddedDigits width n)

def literal (width n : Nat) : String :=
  "0x" ++ padded width n

def signed (width : Nat) (v : Int) : String :=
  if v < 0 then "-" ++ padded (width - 1) v.natAbs else padded width v.natAbs

def signedLiteral (width : Nat) (v : Int) : String :=
  if v < 0 then "-" ++ literal (width - 1) v.natAbs else literal width v.natAbs

/-- The number that a digit of either case stands for. -/
def digitValue (c : Char) : Nat :=
  if c.val < 58 then c.toNat - 48 else if c.val < 71 then c.toNat - 55 else c.toNat - 87

def value (cs : List Char) : Nat :=
  cs.foldl (fun n c => 16 * n + digitValue c) 0

theorem digitValue_digit {d : Nat} (h : d < 16) : digitValue (digit d) = d := by
  have : ∀ d : Fin 16, digitValue (digit d.val) = d.val := by decide
  exact this ⟨d, h⟩

theorem value_append_singleton (cs : List Char) (c : Char) :
    value (cs ++ [c]) = 16 * value cs + digitValue c := by
  simp [value, List.foldl_append]

theorem value_digits (n : Nat) : value (digits n) = n := by
  fun_induction digits n with
  | case1 n h => simp [value, digitValue_digit h]
  | case2 n h ih =>
    rw [value_append_singleton, ih, digitValue_digit (Nat.mod_lt _ (by decide))]
    omega

theorem value_replicate_zero_append (k : Nat) (cs : List Char) :
    value (List.replicate k '0' ++ cs) = value cs := by
  induction k with
  | zero => rfl
  | succ k ih =>
    rw [List.replicate_succ, List.cons_append]
    simpa [value, digitValue] using ih

theorem value_paddedDigits (width n : Nat) : value (paddedDigits width n) = n := by
  simp [paddedDigits, List.leftpad, value_replicate_zero_append, value_digits]

end ChipEight.Hex
