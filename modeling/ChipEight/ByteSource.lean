import ChipEight.Word

/-! # Byte sources

Where random bytes come from: an endless sequence and how many of it are used up.
-/

namespace ChipEight

structure ByteSource where
  /-- The byte that is handed out as number `k`, counting from zero. -/
  byte : Nat → Nat
  used : Nat

namespace ByteSource

def zeros : ByteSource := ⟨fun _ => 0, 0⟩

/-- The low bytes of the given numbers, over and over. No numbers at all give zeros. -/
def cycle (values : List Int) : ByteSource :=
  ⟨fun k => low8 (values.getD (k % values.length) 0), 0⟩

def next (s : ByteSource) : Nat × ByteSource := (s.byte s.used % 256, { s with used := s.used + 1 })

end ByteSource

end ChipEight
