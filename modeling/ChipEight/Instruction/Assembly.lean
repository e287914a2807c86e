import ChipEight.Opcode

/-! # Assembly text

How a word is written: a mnemonic, then its operands, registers as `V0` to `VF`, bytes with two
hexadecimal digits and addresses with three. What is no instruction is written as a data word, `DW`.
-/

namespace ChipEight

namespace Assembly

def register (x : Register) : String := "V" ++ String.singleton (Hex.upperDigit x)

def byte (nn : Immediate) : String := Hex.literal 2 nn

def address (nnn : Address) : String := Hex.literal 3 nnn

/-- The mnemonic `name` with its operands. -/
def unary (name operand : String) : String := name ++ " " ++ operand

def binary (name left right : String) : String := name ++ " " ++ left ++ ", " ++ right

/-- The mnemonics of the `8XY` family. -/
def aluName? : Nat → Option String
  | 0x0 => some "LD"
  | 0x1 => some "OR"
  | 0x2 => some "AND"
  | 0x3 => some "XOR"
  | 0x4 => some "ADD"
  | 0x5 => some "SUB"
  | 0x6 => some "SHR"
  | 0x7 => some "SUBN"
  | 0xE => some "SHL"
  | _ => none

/-- The forms of the `FX` family, with the register filled in. -/
def misc? (x : Register) : Nat → Option String
  | 0x07 => some (binary "LD" (register x) "DT")
  | 0x0A => some (binary "LD" (register x) "K")
  | 0x15 => some (binary "LD" "DT" (register x))
  | 0x18 => some (binary "LD" "ST" (register x))
  | 0x1E => some (binary "ADD" "I" (register x))
  | 0x29 => some (binary "LD" "F" (register x))
  | 0x33 => some (binary "LD" "B" (register x))
  | 0x55 => some (binary "LD" "[I]" (register x))
  | 0x65 => some (binary "LD" (register x) "[I]")
  | _ => none

def data (w : Opcode) : String := unary "DW" (Hex.literal 4 w.val)

/-- The words of the `0` family: two have a name of their own. -/
def sys (w : Opcode) : String :=
  if w.val = 0x00E0 then "CLS" else if w.val = 0x00EE then "RET" else unary "SYS" (address w.nnn)

/-- A shift is written with the register that it works on, whatever the word names besides. -/
def alu (w : Opcode) : String :=
  match aluName? w.n.val with
  | some name =>
    if name = "SHR" ∨ name = "SHL" then unary name (register w.x)
    else binary name (register w.x) (register w.y)
  | none => data w

def key (w : Opcode) : String :=
  if w.nn.val = 0x9E then unary "SKP" (register w.x)
  else if w.nn.val = 0xA1 then unary "SKNP" (register w.x)
  else data w

end Assembly

open Assembly in
def disassemble (w : Opcode) : String :=
  match w.kind with
  | 0x0 => sys w
  | 0x1 => unary "JP" (address w.nnn)
  | 0x2 => unary "CALL" (address w.nnn)
  | 0x3 => binary "SE" (register w.x) (byte w.nn)
  | 0x4 => binary "SNE" (register w.x) (byte w.nn)
  | 0x5 => binary "SE" (register w.x) (register w.y)
  | 0x6 => binary "LD" (register w.x) (byte w.nn)
  | 0x7 => binary "ADD" (register w.x) (byte w.nn)
  | 0x8 => alu w
  | 0x9 => binary "SNE" (register w.x) (register w.y)
  | 0xA => binary "LD" "I" (address w.nnn)
  | 0xB => binary "JP" "V0" (address w.nnn)
  | 0xC => binary "RND" (register w.x) (byte w.nn)
  | 0xD => binary "DRW" (register w.x) (register w.y) ++ ", " ++ toString w.n.val
  | 0xE => key w
  | _ => (misc? w.x w.nn.val).getD (data w)

end ChipEight
