import ChipEight.Instruction.Assembly

/-! # Listings

A program image is listed two bytes to a line, high byte first, each line with its address, the
word in four digits and the assembly text. An odd last byte has a line of its own, `DB`.
-/

namespace ChipEight

namespace Listing

/-- The line of a word. The address may be negative. -/
def wordLine (address : Int) (w : Opcode) : String :=
  Hex.signed 3 address ++ ": " ++ Hex.padded 4 w.val ++ "  " ++ disassemble w

def byteLine (address : Int) (b : UInt8) : String :=
  Hex.signed 3 address ++ ": " ++ Hex.padded 2 b.toNat ++ "    DB " ++ Hex.literal 2 b.toNat

/-- The lines of an image whose first byte stands at `base`. -/
def lines (base : Int) : List UInt8 → List String
  | [] => []
  | [b] => [byteLine base b]
  | high :: low :: rest =>
    wordLine base (.ofBytes high.toNat low.toNat) :: lines (base + 2) rest

end Listing

end ChipEight
