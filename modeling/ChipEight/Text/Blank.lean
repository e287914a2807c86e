/-! # White space

The white space of Unicode together with the four separator controls U+001C to U+001F. Zero-width
characters are not white space. `strip` takes it off both ends of a text.
-/

namespace ChipEight.Text

def isBlank (c : Char) : Bool :=
  let v := c.toNat
  (0x09 ≤ v && v ≤ 0x0D) || (0x1C ≤ v && v ≤ 0x20) || v == 0x85 || v == 0xA0 || v == 0x1680 ||
    (0x2000 ≤ v && v ≤ 0x200A) || v == 0x2028 || v == 0x2029 || v == 0x202F || v == 0x205F ||
    v == 0x3000

def stripChars (cs : List Char) : List Char :=
  (((cs.dropWhile isBlank).reverse).dropWhile isBlank).reverse

def strip (s : String) : String := String.ofList (stripChars s.toList)

end ChipEight.Text
