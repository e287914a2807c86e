import ChipEight.Opcode

/-! # Instructions

`Instruction.decode` is total: a word that is no instruction of the machine decodes to `data`, and a
word of the `0NNN` family other than `00E0` and `00EE` to `sys`, a call into host code that the
machine ignores. Operands that an instruction does not look at are not kept, so words that do the
same thing decode to the same instruction.
-/

namespace ChipEight

/-- The register-to-register operations that leave their result in the first register. -/
inductive Alu
  | ld | or | and | xor | add | sub | subn
deriving DecidableEq, Repr

/-- The operations on one register of the `FX` family. -/
inductive Misc
  | readDelay
  | waitKey
  | setDelay
  | setSound
  | addIndex
  | glyph
  | decimal
  | store
  | load
deriving DecidableEq, Repr

inductive Instruction
  | sys (nnn : Address)
  | cls
  | ret
  | jp (nnn : Address)
  | call (nnn : Address)
  | seByte (x : Register) (nn : Immediate)
  | sneByte (x : Register) (nn : Immediate)
  | se (x y : Register)
  | ldByte (x : Register) (nn : Immediate)
  | addByte (x : Register) (nn : Immediate)
  | alu (op : Alu) (x y : Register)
  | shr (x : Register)
  | shl (x : Register)
  | sne (x y : Register)
  | ldIndex (nnn : Address)
  | jpV0 (nnn : Address)
  | rnd (x : Register) (nn : Immediate)
  | drw (x y : Register) (n : Fin 16)
  | skp (x : Register)
  | sknp (x : Register)
  | misc (op : Misc) (x : Register)
  | data (w : Opcode)
deriving DecidableEq

namespace Instruction

def decodeSys (w : Opcode) : Instruction :=
  if w.val = 0x00E0 then .cls else if w.val = 0x00EE then .ret else .sys w.nnn

def decodeAlu (w : Opcode) : Instruction :=
  match w.n.val with
  | 0x0 => .alu .ld w.x w.y
  | 0x1 => .alu .or w.x w.y
  | 0x2 => .alu .and w.x w.y
  | 0x3 => .alu .xor w.x w.y
  | 0x4 => .alu .add w.x w.y
  | 0x5 => .alu .sub w.x w.y
  | 0x6 => .shr w.x
  | 0x7 => .alu .subn w.x w.y
  | 0xE => .shl w.x
  | _ => .data w

def decodeKey (w : Opcode) : Instruction :=
  if w.nn.val = 0x9E then .skp w.x else if w.nn.val = 0xA1 then .sknp w.x else .data w

def decodeMisc (w : Opcode) : Instruction :=
  match w.nn.val with
  | 0x07 => .misc .readDelay w.x
  | 0x0A => .misc .waitKey w.x
  | 0x15 => .misc .setDelay w.x
  | 0x18 => .misc .setSound w.x
  | 0x1E => .misc .addIndex w.x
  | 0x29 => .misc .glyph w.x
  | 0x33 => .misc .decimal w.x
  | 0x55 => .misc .store w.x
  | 0x65 => .misc .load w.x
  | _ => .data w

def decode (w : Opcode) : Instruction :=
  match w.kind with
  | 0x0 => decodeSys w
  | 0x1 => .jp w.nnn
  | 0x2 => .call w.nnn
  | 0x3 => .seByte w.x w.nn
  | 0x4 => .sneByte w.x w.nn
  | 0x5 => .se w.x w.y
  | 0x6 => .ldByte w.x w.nn
  | 0x7 => .addByte w.x w.nn
  | 0x8 => decodeAlu w
  | 0x9 => .sne w.x w.y
  | 0xA => .ldIndex w.nnn
  | 0xB => .jpV0 w.nnn
  | 0xC => .rnd w.x w.nn
  | 0xD => .drw w.x w.y w.n
  | 0xE => decodeKey w
  | _ => decodeMisc w

end Instruction

end ChipEight
