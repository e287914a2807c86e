import ChipEight.Proofs.Screen.Draw
import Mathlib.Data.List.GetD
import Mathlib.Data.List.Nodup

/-! # A sprite, pixel by pixel

A sprite whose corner has no negative coordinate comes to each pixel at most once (`nodup_strokes`),
and it comes to pixel `(i, j)` of the screen if `Sprite.bit` says so. So the screen after the
drawing is the exclusive or of what it showed and the bits of the sprite (`WellFormed.lit_put_bit`),
and a collision is a pixel that was lit and has its bit set (`WellFormed.collided_put_iff`): a pixel
that was flipped is not looked at again.
-/

namespace ChipEight

/-- The bit of a sprite that falls on pixel `(i, j)`: eight bits of each row, the high one at the
left. -/
def Sprite.bit (p : Sprite) (i j : Int) : Bool :=
  decide (0 ≤ i - p.x ∧ i - p.x ≤ 7 ∧ 0 ≤ j - p.y) &&
    (p.rows.getD (j - p.y).toNat 0).testBit (7 - (i - p.x)).toNat

theorem Sprite.bit_iff {p : Sprite} {i j : Int} :
    p.bit i j = true ↔ (0 ≤ i - p.x ∧ i - p.x ≤ 7 ∧ 0 ≤ j - p.y) ∧
      (p.rows.getD (j - p.y).toNat 0).testBit (7 - (i - p.x)).toNat = true := by
  rw [bit, Bool.and_eq_true, decide_eq_true_iff]

namespace Screen

theorem nodup_rowStrokes (width x y : Int) (bits : Nat) : (rowStrokes width x y bits).Nodup := by
  refine (List.nodup_range.filter _).map fun a b hab => ?_
  have hx : x + (a : Int) = x + b := congrArg Prod.fst hab
  omega

theorem nodup_strokes (width height x y : Int) (rows : List Nat) :
    (strokes width height x y rows).Nodup := by
  refine List.nodup_flatMap.2 ⟨fun row _ => nodup_rowStrokes .., ?_⟩
  have hplaces : ((rows.take (height - y).toNat).zipIdx.map Prod.snd).Nodup := by
    rw [List.zipIdx_map_snd]
    exact List.nodup_range'
  refine (List.pairwise_map.1 hplaces).imp fun {a b} hab =>
    List.disjoint_left.2 fun q ha hb => hab ?_
  obtain ⟨_, -, -, -, rfl⟩ := mem_rowStrokes.1 ha
  obtain ⟨_, -, -, -, hq⟩ := mem_rowStrokes.1 hb
  have hy : y + (a.2 : Int) = y + b.2 := congrArg Prod.snd hq
  omega

theorem mem_strokes_iff_bit {p : Sprite} {width height i j : Int} (hi : i < width)
    (hj : j < height) :
    (i, j) ∈ p.strokes width height ↔ p.bit i j = true := by
  rw [Sprite.strokes, mem_strokes, Sprite.bit_iff]
  constructor
  · rintro ⟨dx, dy, bits, hdx, hrow, hbit, -, -, hq⟩
    obtain ⟨rfl, rfl⟩ := Prod.mk.inj hq
    have hcolumn : (7 - (p.x + dx - p.x)).toNat = 7 - dx := by omega
    have hplace : (p.y + dy - p.y).toNat = dy := by omega
    refine ⟨by omega, ?_⟩
    rw [hcolumn, hplace, List.getD_eq_getElem?_getD, hrow, Option.getD_some]
    exact hbit
  · rintro ⟨⟨hleft, hright, hup⟩, hbit⟩
    refine ⟨(i - p.x).toNat, (j - p.y).toNat, p.rows.getD (j - p.y).toNat 0, by omega, ?_, ?_,
      by omega, by omega, Prod.ext_iff.2 ⟨by simp only; omega, by simp only; omega⟩⟩
    · -- below the last row there is no bit that is set
      have hrow : (j - p.y).toNat < p.rows.length := by
        by_contra hlow
        rw [List.getD_eq_default _ _ (by omega), Nat.zero_testBit] at hbit
        cases hbit
      rw [List.getD_eq_getElem _ _ hrow]
      exact List.getElem?_eq_getElem hrow
    · have hcolumn : 7 - (i - p.x).toNat = (7 - (i - p.x)).toNat := by omega
      rw [hcolumn]
      exact hbit

namespace WellFormed
variable {s : Screen}

/-- Pixels of the screen, flipped once each. -/
theorem flipAll_of_nodup (h : s.WellFormed) (collided : Bool) {ps : List (Int × Int)}
    (hps : ∀ p ∈ ps, s.Within p) (hnodup : ps.Nodup) :
    (flipAll collided s ps).collided = (collided || ps.any fun p => s.lit p.1.toNat p.2.toNat) ∧
      ∀ i j : Nat, (flipAll collided s ps).screen.lit i j =
        (s.lit i j ^^ decide (((i : Int), (j : Int)) ∈ ps)) := by
  induction ps generalizing collided s with
  | nil => exact ⟨(Bool.or_false _).symm, fun i j => (Bool.xor_false _).symm⟩
  | cons p ps ih =>
    obtain ⟨hp, hps⟩ := List.forall_mem_cons.1 hps
    obtain ⟨hnotMem, hnodup⟩ := List.nodup_cons.1 hnodup
    have hcell : s.cell? p.1 p.2 = some (p.1.toNat, p.2.toNat) := h.cell?_eq hp
    have hflip : ∀ i j : Nat, (s.flip p.1.toNat p.2.toNat).lit i j =
        (s.lit i j ^^ decide (((i : Int), (j : Int)) = p)) := by
      intro i j
      obtain ⟨hx, hw, hy, hh⟩ := hp
      rw [h.lit_flip (c := (p.1.toNat, p.2.toNat)) (by simp only; omega) (by simp only; omega)]
      refine congrArg _ (Bool.eq_iff_iff.2 ?_)
      rw [beq_iff_eq, decide_eq_true_iff, Prod.ext_iff, Prod.ext_iff]
      simp only
      omega
    obtain ⟨hcollided, hlit⟩ :=
      ih (h.flip p.1.toNat p.2.toNat) (collided || s.lit p.1.toNat p.2.toNat) hps hnodup
    simp only [flipAll, hcell]
    constructor
    · -- what comes later is as it was before `p` was flipped
      have hlater : (ps.any fun q => (s.flip p.1.toNat p.2.toNat).lit q.1.toNat q.2.toNat) =
          ps.any fun q => s.lit q.1.toNat q.2.toNat := by
        rw [Bool.eq_iff_iff, List.any_eq_true, List.any_eq_true]
        refine exists_congr fun q => and_congr_right fun hq => ?_
        obtain ⟨hx, -, hy, -⟩ := hps q hq
        have hne : ((q.1.toNat : Int), (q.2.toNat : Int)) ≠ p := by
          rw [Int.toNat_of_nonneg hx, Int.toNat_of_nonneg hy]
          exact fun heq => hnotMem (heq ▸ hq)
        rw [hflip, decide_eq_false hne, Bool.xor_false]
      rw [hcollided, hlater, List.any_cons, Bool.or_assoc]
    · intro i j
      rw [hlit, hflip, Bool.xor_assoc]
      refine congrArg _ ?_
      by_cases heq : ((i : Int), (j : Int)) = p
      · rw [decide_eq_true heq, heq, decide_eq_false hnotMem,
          decide_eq_true (List.mem_cons_self ..)]; rfl
      · rw [decide_eq_false heq, Bool.false_xor]
        exact decide_eq_decide.2 (by rw [List.mem_cons, or_iff_right heq])

variable {p : Sprite}

theorem put_spec (h : s.WellFormed) (hx : 0 ≤ p.x) (hy : 0 ≤ p.y) :
    (s.put p).collided = ((p.strokes s.width s.height).any fun q => s.lit q.1.toNat q.2.toNat) ∧
      ∀ i j : Nat, (s.put p).screen.lit i j =
        (s.lit i j ^^ decide (((i : Int), (j : Int)) ∈ p.strokes s.width s.height)) :=
  h.flipAll_of_nodup false (fun _ => within_of_mem_strokes hx hy) (nodup_strokes ..)

theorem lit_put_bit (h : s.WellFormed) (hx : 0 ≤ p.x) (hy : 0 ≤ p.y) {i j : Nat} (hi : i < s.width)
    (hj : j < s.height) : (s.put p).screen.lit i j = (s.lit i j ^^ p.bit i j) := by
  rw [(h.put_spec hx hy).2]
  refine congrArg _ (Bool.eq_iff_iff.2 ?_)
  rw [decide_eq_true_iff]
  exact mem_strokes_iff_bit hi hj

theorem collided_put_iff (h : s.WellFormed) (hx : 0 ≤ p.x) (hy : 0 ≤ p.y) :
    (s.put p).collided = true ↔
      ∃ i j : Nat, i < s.width ∧ j < s.height ∧ s.lit i j = true ∧ p.bit i j = true := by
  rw [(h.put_spec hx hy).1, List.any_eq_true]
  constructor
  · rintro ⟨⟨x, y⟩, hq, hlit⟩
    obtain ⟨hx, hw, hy, hh⟩ := within_of_mem_strokes hx hy hq
    simp only at hx hw hy hh
    lift x to Nat using hx
    lift y to Nat using hy
    exact ⟨x, y, hw, hh, hlit, (mem_strokes_iff_bit hw hh).1 hq⟩
  · rintro ⟨i, j, hi, hj, hlit, hbit⟩
    exact ⟨(i, j), (mem_strokes_iff_bit hi hj).2 hbit, hlit⟩

end WellFormed

end Screen

end ChipEight
