import ChipEight.Text.Hex
import Mathlib.Algebra.Group.Nat.Defs

/-! # The digits of hexadecimal numerals

A numeral is made of the sixteen digits (`mem_paddedDigits`), and padding makes it exactly as long
as the width if the number fits (`length_paddedDigits`). Numerals with a sign are read back by
`signedValue`, and bytes that are written with two digits each by `bytes?`.
-/

namespace ChipEight.Hex

theorem mem_digits {c : Char} {n : Nat} (h : c ∈ digits n) : ∃ d < 16, c = digit d := by
  fun_induction digits n with
  | case1 n hn => exact ⟨n, hn, List.mem_singleton.1 h⟩
  | case2 n _ ih =>
    rcases List.mem_append.1 h with h | h
    · exact ih h
    · exact ⟨n % 16, Nat.mod_lt _ (by decide), List.mem_singleton.1 h⟩

theorem mem_paddedDigits {c : Char} {width n : Nat} (h : c ∈ paddedDigits width n) :
    ∃ d < 16, c = digit d := by
  rcases List.mem_append.1 h with h | h
  · exact ⟨0, by decide, (List.mem_replicate.1 h).2⟩
  · exact mem_digits h

theorem length_digits_le {width n : Nat} (h : n < 16 ^ (width + 1)) :
    (digits n).length ≤ width + 1 := by
  induction width generalizing n with
  | zero =>
    have hn : n < 16 := h
    rw [digits, if_pos hn]
    exact Nat.le_refl 1
  | succ width ih =>
    rw [digits]
    split
    · exact Nat.le_add_left 1 _
    · rw [List.length_append]
      exact Nat.succ_le_succ (ih
        (Nat.div_lt_of_lt_mul (by rw [Nat.pow_succ, Nat.mul_comm] at h; exact h)))

theorem length_paddedDigits {width n : Nat} (h : n < 16 ^ (width + 1)) :
    (paddedDigits (width + 1) n).length = width + 1 := by
  rw [paddedDigits, List.length_leftpad]
  exact Nat.max_eq_left (length_digits_le h)

theorem notMem_paddedDigits {c : Char} (hdigit : ∀ d < 16, digit d ≠ c) (width n : Nat) :
    c ∉ paddedDigits width n := by
  intro h
  obtain ⟨d, hd, heq⟩ := mem_paddedDigits h
  exact hdigit d hd heq.symm

theorem paddedDigits_inj {width width' n n' : Nat}
    (h : paddedDigits width n = paddedDigits width' n') : n = n' := by
  rw [← value_paddedDigits width n, h, value_paddedDigits]

theorem toList_literal (width n : Nat) :
    (literal width n).toList = '0' :: 'x' :: paddedDigits width n := by
  simp [literal, padded]

/-! ### Signs -/

/-- The number that digits stand for, behind a minus sign or without one. -/
def signedValue : List Char → Int
  | '-' :: cs => -(value cs : Int)
  | cs => value cs

theorem signedValue_of_notMem {cs : List Char} (h : '-' ∉ cs) : signedValue cs = value cs := by
  unfold signedValue
  split
  · exact absurd (List.mem_cons_self ..) h
  · rfl

theorem toList_signed (width : Nat) (v : Int) :
    (signed width v).toList =
      if v < 0 then '-' :: paddedDigits (width - 1) v.natAbs else paddedDigits width v.natAbs := by
  unfold signed
  split <;> simp [padded]

theorem signedValue_signed (width : Nat) (v : Int) : signedValue (signed width v).toList = v := by
  rw [toList_signed]
  split
  · rw [signedValue, value_paddedDigits]; omega
  · rw [signedValue_of_notMem (notMem_paddedDigits (by decide) _ _), value_paddedDigits]; omega

theorem notMem_signed {c : Char} (hsign : c ≠ '-') (hdigit : ∀ d < 16, digit d ≠ c) (width : Nat)
    (v : Int) : c ∉ (signed width v).toList := by
  rw [toList_signed]
  split
  · exact fun h => (List.mem_cons.1 h).elim hsign (notMem_paddedDigits hdigit _ _)
  · exact notMem_paddedDigits hdigit _ _

section
variable {c : Char} {width : Nat} {v v' : Int}

theorem toList_signedLiteral (width : Nat) (v : Int) :
    (signedLiteral width v).toList =
      if v < 0 then '-' :: '0' :: 'x' :: paddedDigits (width - 1) v.natAbs
      else '0' :: 'x' :: paddedDigits width v.natAbs := by
  unfold signedLiteral
  split <;> simp [toList_literal]

theorem notMem_signedLiteral (hsign : c ≠ '-') (hmark : c ≠ 'x') (hdigit : ∀ d < 16, digit d ≠ c)
    (width : Nat) (v : Int) : c ∉ (signedLiteral width v).toList := by
  have hzero : c ≠ '0' := (hdigit 0 (by decide)).symm
  rw [toList_signedLiteral]
  split <;> simp [hsign, hmark, hzero, notMem_paddedDigits hdigit]

theorem head?_signedLiteral (width : Nat) (v : Int) :
    (signedLiteral width v).toList.head? = some '-' ∨
    (signedLiteral width v).toList.head? = some '0' := by
  rw [toList_signedLiteral]
  split
  · exact .inl rfl
  · exact .inr rfl

theorem signedLiteral_inj : signedLiteral width v = signedLiteral width v' ↔ v = v' := by
  refine ⟨fun h => ?_, fun h => by rw [h]⟩
  have hchars := congrArg String.toList h
  rw [toList_signedLiteral, toList_signedLiteral] at hchars
  split at hchars <;> split at hchars
  · simp only [List.cons.injEq, true_and] at hchars
    have habs : v.natAbs = v'.natAbs := paddedDigits_inj hchars
    omega
  · cases hchars
  · cases hchars
  · simp only [List.cons.injEq, true_and] at hchars
    have habs : v.natAbs = v'.natAbs := paddedDigits_inj hchars
    omega

end

/-! ### Bytes -/

/-- The number that a lower-case digit stands for. -/
def nibble? (c : Char) : Option (Fin 16) := (List.finRange 16).find? fun d => digit d = c

/-- The bytes that pairs of lower-case digits stand for, if there is nothing else. -/
def bytes? : List Char → Option (List UInt8)
  | [] => some []
  | [_] => none
  | h :: l :: cs => do
    let high ← nibble? h
    let low ← nibble? l
    let rest ← bytes? cs
    return .ofNat (16 * high + low) :: rest

theorem nibble?_digit {d : Nat} (h : d < 16) : nibble? (digit d) = some ⟨d, h⟩ := by
  have : ∀ d : Fin 16, nibble? (digit d) = some d := by decide
  exact this ⟨d, h⟩

theorem paddedDigits_one {n : Nat} (h : n < 16) : paddedDigits 1 n = [digit n] := by
  rw [paddedDigits, digits, if_pos h]; rfl

/-- The last digit stands behind the others, of which there is at least one. -/
theorem paddedDigits_succ (width n : Nat) :
    paddedDigits (width + 2) n = paddedDigits (width + 1) (n / 16) ++ [digit (n % 16)] := by
  unfold paddedDigits
  by_cases h : n < 16
  · have hzero : n / 16 = 0 := Nat.div_eq_of_lt h
    rw [hzero, Nat.mod_eq_of_lt h, digits, if_pos h, digits, if_pos (by decide)]
    have hpad : List.replicate (width + 1) '0' = List.replicate width '0' ++ [digit 0] :=
      List.replicate_succ'
    simp only [List.leftpad, List.length_singleton, Nat.add_sub_cancel, ← hpad]
    rfl
  · have hwidth :
        width + 2 - ((digits (n / 16)).length + 1) = width + 1 - (digits (n / 16)).length := by
      omega
    rw [digits, if_neg h, List.leftpad, List.leftpad, List.length_append,
      List.length_singleton, hwidth, List.append_assoc]

theorem paddedDigits_byte {b : Nat} (h : b < 256) :
    paddedDigits 2 b = [digit (b / 16), digit (b % 16)] := by
  rw [paddedDigits_succ, paddedDigits_one (by omega)]; rfl

/-- A word is written as its bytes are, the high one first. -/
theorem paddedDigits_word (high : Nat) {low : Nat} (hl : low < 256) :
    paddedDigits 4 (high * 256 + low) = paddedDigits 2 high ++ paddedDigits 2 low := by
  have h₁ : (high * 256 + low) / 16 / 16 = high := by omega
  have h₂ : (high * 256 + low) / 16 % 16 = low / 16 := by omega
  have h₃ : (high * 256 + low) % 16 = low % 16 := by omega
  rw [paddedDigits_succ, paddedDigits_succ, h₁, h₂, h₃, paddedDigits_byte hl, List.append_assoc]
  rfl

theorem bytes?_byte_append (b : UInt8) (cs : List Char) :
    bytes? (paddedDigits 2 b.toNat ++ cs) = (bytes? cs).map (b :: ·) := by
  have hb : b.toNat < 256 := b.toNat_lt
  have hval : UInt8.ofNat (16 * (b.toNat / 16) + b.toNat % 16) = b := by
    rw [Nat.div_add_mod, UInt8.ofNat_toNat]
  rw [paddedDigits_byte hb]
  simp only [List.cons_append, List.nil_append, bytes?,
    nibble?_digit (by omega : b.toNat / 16 < 16),
    nibble?_digit (Nat.mod_lt _ (by decide)), Option.bind_eq_bind, Option.bind_some, hval]
  cases bytes? cs <;> rfl

end ChipEight.Hex
