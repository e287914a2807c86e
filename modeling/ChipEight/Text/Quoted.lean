import ChipEight.Text.Hex
import ChipEight.Text.Printable

/-! # Quoted text

A text between quotes, single ones unless it holds single quotes and no double ones. The quote, the
backslash and the characters that are not printable are escaped.
-/

namespace ChipEight.Text

/-- The quote that a text is put in. -/
def quoteFor (cs : List Char) : Char :=
  if cs.contains '\'' && !cs.contains '"' then '"' else '\''

def escape (quote c : Char) : List Char :=
  if c = quote || c = '\\' then ['\\', c]
  else if c = '\t' then ['\\', 't']
  else if c = '\n' then ['\\', 'n']
  else if c = '\r' then ['\\', 'r']
  else if isPrintable c then [c]
  else if c.toNat < 0x100 then ['\\', 'x'] ++ Hex.paddedDigits 2 c.toNat
  else if c.toNat < 0x10000 then ['\\', 'u'] ++ Hex.paddedDigits 4 c.toNat
  else ['\\', 'U'] ++ Hex.paddedDigits 8 c.toNat

def quotedChars (cs : List Char) : List Char :=
  let quote := quoteFor cs
  quote :: cs.flatMap (escape quote) ++ [quote]

def quoted (s : String) : String := String.ofList (quotedChars s.toList)

end ChipEight.Text
