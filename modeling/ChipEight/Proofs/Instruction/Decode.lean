import ChipEight.Instruction

/-! # Which words decode to an instruction

The leading nibble of a word decides the family that it belongs to (`leading_decode`); within a
family the words of one instruction are told apart by the low nibbles.
-/

namespace ChipEight

theorem Opcode.kind_lt (w : Opcode) : w.kind < 16 := by
  have := w.val_lt
  simp only [kind]; omega

/-- The low byte of the words that decode to an operation. -/
def Misc.low : Misc → Nat
  | .readDelay => 0x07
  | .waitKey => 0x0A
  | .setDelay => 0x15
  | .setSound => 0x18
  | .addIndex => 0x1E
  | .glyph => 0x29
  | .decimal => 0x33
  | .store => 0x55
  | .load => 0x65

namespace Instruction

/-- The leading nibble of the words that decode to an instruction. -/
def leading : Instruction → Nat
  | .sys _ | .cls | .ret => 0x0
  | .jp _ => 0x1
  | .call _ => 0x2
  | .seByte _ _ => 0x3
  | .sneByte _ _ => 0x4
  | .se _ _ => 0x5
  | .ldByte _ _ => 0x6
  | .addByte _ _ => 0x7
  | .alu _ _ _ | .shr _ | .shl _ => 0x8
  | .sne _ _ => 0x9
  | .ldIndex _ => 0xA
  | .jpV0 _ => 0xB
  | .rnd _ _ => 0xC
  | .drw _ _ _ => 0xD
  | .skp _ | .sknp _ => 0xE
  | .misc _ _ => 0xF
  | .data w => w.kind

variable {w : Opcode}

theorem leading_decodeSys (w : Opcode) : (decodeSys w).leading = 0x0 := by
  unfold decodeSys; split
  · rfl
  · split <;> rfl

theorem leading_decodeAlu (hw : w.kind = 0x8) : (decodeAlu w).leading = 0x8 := by
  unfold decodeAlu; split <;> first | rfl | exact hw

theorem leading_decodeKey (hw : w.kind = 0xE) : (decodeKey w).leading = 0xE := by
  unfold decodeKey; split
  · rfl
  · split
    · rfl
    · exact hw

theorem leading_decodeMisc (hw : w.kind = 0xF) : (decodeMisc w).leading = 0xF := by
  unfold decodeMisc; split <;> first | rfl | exact hw

theorem leading_decode (w : Opcode) : (decode w).leading = w.kind := by
  unfold decode; split
  case h_1 hk => rw [leading_decodeSys, hk]
  case h_9 hk => rw [leading_decodeAlu hk, hk]
  case h_15 hk => rw [leading_decodeKey hk, hk]
  case h_16 =>
    have := w.kind_lt
    have hk : w.kind = 0xF := by grind
    rw [leading_decodeMisc hk, hk]
  all_goals next hk => exact hk.symm

theorem kind_of_decode {ins : Instruction} (h : decode w = ins) : w.kind = ins.leading := by
  rw [← leading_decode, h]

theorem decode_of_kind_eq_zero (hk : w.kind = 0x0) : decode w = decodeSys w := by
  simp only [decode, hk]

theorem decode_of_kind_eq_key (hk : w.kind = 0xE) : decode w = decodeKey w := by
  simp only [decode, hk]

theorem decode_of_kind_eq_misc (hk : w.kind = 0xF) : decode w = decodeMisc w := by
  simp only [decode, hk]

theorem decode_eq_ret_iff : decode w = .ret ↔ w.val = 0x00EE := by
  constructor
  · intro h
    rw [decode_of_kind_eq_zero (kind_of_decode h), decodeSys] at h
    split at h
    · cases h
    · split at h
      · assumption
      · cases h
  · intro h
    have hk : w.kind = 0x0 := by simp only [Opcode.kind, h]
    rw [decode_of_kind_eq_zero hk, decodeSys, h]; rfl

theorem decode_eq_call_iff {nnn : Address} : decode w = .call nnn ↔ w.kind = 0x2 ∧ w.nnn = nnn := by
  constructor
  · intro h
    have hk : w.kind = 0x2 := kind_of_decode h
    simp only [decode, hk, call.injEq] at h
    exact ⟨hk, h⟩
  · rintro ⟨hk, rfl⟩
    simp only [decode, hk]

theorem decode_eq_rnd_iff {x : Register} {nn : Immediate} :
    decode w = .rnd x nn ↔ w.kind = 0xC ∧ w.x = x ∧ w.nn = nn := by
  constructor
  · intro h
    have hk : w.kind = 0xC := kind_of_decode h
    simp only [decode, hk, rnd.injEq] at h
    exact ⟨hk, h⟩
  · rintro ⟨hk, rfl, rfl⟩
    simp only [decode, hk]

theorem decode_eq_skp_iff {x : Register} :
    decode w = .skp x ↔ w.kind = 0xE ∧ w.nn.val = 0x9E ∧ w.x = x := by
  constructor
  · intro h
    have hk : w.kind = 0xE := kind_of_decode h
    rw [decode_of_kind_eq_key hk, decodeKey] at h
    split at h
    next hn => cases h; exact ⟨hk, hn, rfl⟩
    · split at h <;> cases h
  · rintro ⟨hk, hn, rfl⟩
    rw [decode_of_kind_eq_key hk, decodeKey, if_pos hn]

theorem decode_eq_sknp_iff {x : Register} :
    decode w = .sknp x ↔ w.kind = 0xE ∧ w.nn.val = 0xA1 ∧ w.x = x := by
  constructor
  · intro h
    have hk : w.kind = 0xE := kind_of_decode h
    rw [decode_of_kind_eq_key hk, decodeKey] at h
    split at h
    · cases h
    · split at h
      next hn => cases h; exact ⟨hk, hn, rfl⟩
      · cases h
  · rintro ⟨hk, hn, rfl⟩
    rw [decode_of_kind_eq_key hk, decodeKey, hn]; rfl

theorem decode_eq_misc_iff {op : Misc} {x : Register} :
    decode w = .misc op x ↔ w.kind = 0xF ∧ w.nn.val = op.low ∧ w.x = x := by
  constructor
  · intro h
    have hk : w.kind = 0xF := kind_of_decode h
    rw [decode_of_kind_eq_misc hk, decodeMisc] at h
    split at h <;> cases h
    all_goals next hn => exact ⟨hk, hn, rfl⟩
  · rintro ⟨hk, hn, rfl⟩
    rw [decode_of_kind_eq_misc hk, decodeMisc, hn]
    cases op <;> rfl

end Instruction

end ChipEight
