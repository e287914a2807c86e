import ChipEight.Text.Hex
import ChipEight.Word

/-! # Instruction words

An opcode is a 16-bit word, read as four nibbles from the high end: `kind`, `x`, `y` and `n`; `nn`
is the low byte and `nnn` the low twelve bits. Every integer gives an opcode, by its low sixteen
bits.
-/

namespace ChipEight

/-- Names one of the sixteen registers V0 to VF. -/
abbrev Register := Fin 16

theorem Register.lt (x : Register) : x.val < 16 := x.isLt

/-- An instruction's one-byte operand. -/
abbrev Immediate := Fin 256

/-- An instruction's twelve-bit operand. -/
abbrev Address := Fin 4096

structure Opcode where
  val : Nat
  val_lt : val < 65536
deriving DecidableEq

namespace Opcode

def ofInt (v : Int) : Opcode := ⟨low16 v, low16_lt v⟩

/-- The word whose high byte comes first; of each integer the low eight bits count. -/
def ofBytes (high low : Int) : Opcode := ofInt (low8 high * 256 + low8 low)

def kind (w : Opcode) : Nat := w.val / 4096
def x (w : Opcode) : Register := Fin.ofNat 16 (w.val / 256)
def y (w : Opcode) : Register := Fin.ofNat 16 (w.val / 16)
def n (w : Opcode) : Fin 16 := Fin.ofNat 16 w.val
def nn (w : Opcode) : Immediate := Fin.ofNat 256 w.val
def nnn (w : Opcode) : Address := Fin.ofNat 4096 w.val

/-- The word and its fields, spelled out. -/
def describe (w : Opcode) : String :=
  "Instruction(opcode=" ++ Hex.literal 4 w.val ++ ", kind=" ++ Hex.literal 1 w.kind ++
    ", x=" ++ Hex.literal 1 w.x ++ ", y=" ++ Hex.literal 1 w.y ++ ", n=" ++ Hex.literal 1 w.n ++
    ", nn=" ++ Hex.literal 2 w.nn ++ ", nnn=" ++ Hex.literal 3 w.nnn ++ ")"

@[ext] theorem ext {a b : Opcode} (h : a.val = b.val) : a = b := by
  cases a; cases b; cases h; rfl

theorem val_ofInt (v : Int) : (ofInt v).val = low16 v := rfl

theorem val_ofBytes {high low : Nat} (hh : high < 256) (hl : low < 256) :
    (ofBytes high low).val = high * 256 + low := by
  rw [ofBytes, val_ofInt, low8_of_lt hh, low8_of_lt hl, low16]
  omega

end Opcode

end ChipEight
