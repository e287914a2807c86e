import ChipEight.Machine

/-! # The register report

Two rows of registers, a row with the program counter, the index and the timers, and the call stack
from its oldest entry on.
-/

namespace ChipEight.Machine

def registerField (m : Machine) (r : Register) : String :=
  "V" ++ String.singleton (Hex.upperDigit r) ++ "=" ++ Hex.signedLiteral 2 (m.v.get r)

def registerRow (m : Machine) (rs : List Register) : String :=
  "  " ++ String.intercalate "  " (rs.map m.registerField)

def stackText (m : Machine) : String :=
  if m.stack = [] then "(empty)"
  else String.intercalate " " (m.stack.reverse.map (Hex.signedLiteral 3))

def report (m : Machine) : String :=
  String.intercalate "\n"
    [m.registerRow ((List.finRange 16).take 8), m.registerRow ((List.finRange 16).drop 8),
      "  PC=" ++ Hex.signedLiteral 3 m.pc ++ "  I=" ++ Hex.signedLiteral 3 m.i ++
        "  DT=" ++ toString m.delay ++ "  ST=" ++ toString m.sound,
      "  STACK[" ++ toString m.stack.length ++ "] = " ++ m.stackText]

end ChipEight.Machine
