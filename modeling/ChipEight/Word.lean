/-! # Bytes and words

The machine works on integers; `low8` and `low16` are the reductions that its instructions apply.
Every integer is read as an endless row of bits in two's complement: `bitAnd`, `bitOr` and `bitXor`
combine two rows bit by bit, and `signed32` keeps the low 32 bits as a signed number.
-/

namespace ChipEight

def low8 (v : Int) : Nat := (v % 256).toNat

def low16 (v : Int) : Nat := (v % 65536).toNat

-- Named, with the zero that `Fin.ofNat` asks for: all registers, keys and addresses share these
-- two.
instance neZero_sixteen : @NeZero Nat Zero.ofOfNat0 16 := ⟨by decide⟩

instance neZero_cells : @NeZero Nat Zero.ofOfNat0 4096 := ⟨by decide⟩

/-- The low four bits: a register, or a key of the keypad. -/
def nibble (v : Int) : Fin 16 := Fin.ofNat 16 (v % 16).toNat

/-- The low 32 bits, read as a signed number. -/
def signed32 (v : Int) : Int := v.bmod 0x100000000

def Fits32 (v : Int) : Prop := -0x80000000 ≤ v ∧ v < 0x80000000

instance (v : Int) : Decidable (Fits32 v) := inferInstanceAs (Decidable (_ ∧ _))

def Fits64 (v : Int) : Prop := -0x8000000000000000 ≤ v ∧ v < 0x8000000000000000

instance (v : Int) : Decidable (Fits64 v) := inferInstanceAs (Decidable (_ ∧ _))

/-- The bits of `m` that `n` has not. -/
def bitsWithout (m n : Nat) : Nat := m ^^^ (m &&& n)

def bitAnd : Int → Int → Int
  | .ofNat m, .ofNat n => .ofNat (m &&& n)
  | .ofNat m, .negSucc n => .ofNat (bitsWithout m n)
  | .negSucc m, .ofNat n => .ofNat (bitsWithout n m)
  | .negSucc m, .negSucc n => .negSucc (m ||| n)

def bitOr : Int → Int → Int
  | .ofNat m, .ofNat n => .ofNat (m ||| n)
  | .ofNat m, .negSucc n => .negSucc (bitsWithout n m)
  | .negSucc m, .ofNat n => .negSucc (bitsWithout m n)
  | .negSucc m, .negSucc n => .negSucc (m &&& n)

def bitXor : Int → Int → Int
  | .ofNat m, .ofNat n => .ofNat (m ^^^ n)
  | .ofNat m, .negSucc n => .negSucc (m ^^^ n)
  | .negSucc m, .ofNat n => .negSucc (m ^^^ n)
  | .negSucc m, .negSucc n => .ofNat (m ^^^ n)

theorem bitAnd_natCast (m n : Nat) : bitAnd m n = (m &&& n : Nat) := rfl

theorem bitOr_natCast (m n : Nat) : bitOr m n = (m ||| n : Nat) := rfl

theorem bitXor_natCast (m n : Nat) : bitXor m n = (m ^^^ n : Nat) := rfl

theorem low8_lt (v : Int) : low8 v < 256 := by unfold low8; omega

theorem low16_lt (v : Int) : low16 v < 65536 := by unfold low16; omega

theorem low8_natCast (n : Nat) : low8 n = n % 256 := by unfold low8; omega

theorem low16_natCast (n : Nat) : low16 n = n % 65536 := by unfold low16; omega

theorem low8_of_lt {n : Nat} (h : n < 256) : low8 n = n := by
  rw [low8_natCast, Nat.mod_eq_of_lt h]

theorem low16_of_lt {n : Nat} (h : n < 65536) : low16 n = n := by
  rw [low16_natCast, Nat.mod_eq_of_lt h]

end ChipEight
