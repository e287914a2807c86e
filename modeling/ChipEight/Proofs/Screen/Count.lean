import ChipEight.Proofs.Screen.Pixels
import Mathlib.Algebra.BigOperators.Group.Finset.Piecewise
import Mathlib.Algebra.BigOperators.Group.Finset.Sigma
import Mathlib.Algebra.BigOperators.Ring.Finset

/-! # Drawing, pixel by pixel and in numbers

`cells` are the pixels of a screen, and `litCount` counts those of them that are lit
(`WellFormed.litCount_eq`). A sprite whose corner has no negative coordinate flips exactly the
pixels at which it has a set bit, on a screen of any size: those that were lit go dark, which is a
collision, and the others are lit (`draw_pointwise`).
-/

namespace ChipEight

theorem sum_map_eq_sum_range {α : Type} (f : α → Nat) (d : α) (l : List α) :
    (l.map f).sum = ∑ k ∈ Finset.range l.length, f (l.getD k d) := by
  induction l with
  | nil => rfl
  | cons a l ih =>
    rw [List.map_cons, List.sum_cons, List.length_cons, Finset.sum_range_succ', ih, Nat.add_comm]
    rfl

theorem count_true_eq_sum (bs : List Bool) : bs.count true = (bs.map Bool.toNat).sum := by
  induction bs with
  | nil => rfl
  | cons b bs ih =>
    rw [List.count_cons, ih, List.map_cons, List.sum_cons, Nat.add_comm]
    cases b <;> rfl

namespace Screen

/-- The pixels, by column and row. -/
def cells (s : Screen) : Finset (Nat × Nat) :=
  Finset.range s.width.toNat ×ˢ Finset.range s.height.toNat

theorem mem_cells {s : Screen} {c : Nat × Nat} :
    c ∈ s.cells ↔ (c.1 : Int) < s.width ∧ (c.2 : Int) < s.height := by
  rw [cells, Finset.mem_product, Finset.mem_range, Finset.mem_range]
  omega

/-- The pixels that the second screen shows as the first does not. -/
def flipped (s t : Screen) : Finset (Nat × Nat) :=
  s.cells.filter fun c => t.lit c.1 c.2 ≠ s.lit c.1 c.2

theorem mem_flipped {s t : Screen} {c : Nat × Nat} :
    c ∈ s.flipped t ↔ c ∈ s.cells ∧ t.lit c.1 c.2 ≠ s.lit c.1 c.2 := Finset.mem_filter

theorem litCount_eq_sum (s : Screen) :
    s.litCount = (s.columns.toList.map fun column => column.count true).sum := by
  rw [litCount, ← Array.foldl_toList, List.sum_eq_foldl, List.foldl_map]

namespace WellFormed
variable {s : Screen}

theorem count_column (h : s.WellFormed) {i : Nat} (hi : i < s.width.toNat) :
    (s.columns.getD i #[]).count true = ∑ j ∈ Finset.range s.height.toNat, (s.lit i j).toNat := by
  obtain ⟨column, hcolumn, hsize⟩ := h.getElem?_columns hi
  have hgetD : s.columns.getD i #[] = column := by
    rw [Array.getD_eq_getD_getElem?, hcolumn, Option.getD_some]
  rw [hgetD, ← Array.count_toList, count_true_eq_sum, sum_map_eq_sum_range _ false,
    Array.length_toList, hsize]
  refine Finset.sum_congr rfl fun j _ => ?_
  rw [lit, hgetD, Array.getD_eq_getD_getElem?, List.getD_eq_getElem?_getD, Array.getElem?_toList]

theorem litCount_eq (h : s.WellFormed) : s.litCount = ∑ c ∈ s.cells, (s.lit c.1 c.2).toNat := by
  rw [litCount_eq_sum, sum_map_eq_sum_range _ #[], Array.length_toList, h.size_columns, cells,
    Finset.sum_product]
  refine Finset.sum_congr rfl fun i hi => ?_
  rw [← h.count_column (Finset.mem_range.1 hi), List.getD_eq_getElem?_getD, Array.getElem?_toList,
    ← Array.getD_eq_getD_getElem?]

/-- Of two screens of one size the second has lit what the first has and what was flipped, but for
the pixels that are in both. -/
theorem litCount_add (h : s.WellFormed) {t : Screen} (ht : t.WellFormed)
    (hcells : t.cells = s.cells) :
    t.litCount + 2 * ((s.flipped t).filter fun c => s.lit c.1 c.2).card =
      s.litCount + (s.flipped t).card := by
  have hpixel (a b : Bool) :
      b.toNat + 2 * (if b ≠ a ∧ a then 1 else 0) = a.toNat + if b ≠ a then 1 else 0 := by
    cases a <;> cases b <;> rfl
  rw [h.litCount_eq, ht.litCount_eq, hcells, flipped, Finset.filter_filter, Finset.card_filter,
    Finset.card_filter, Finset.mul_sum, ← Finset.sum_add_distrib, ← Finset.sum_add_distrib]
  exact Finset.sum_congr rfl fun c _ => hpixel _ _

end WellFormed

variable {s : Screen}

theorem cells_put (s : Screen) (p : Sprite) : (s.put p).screen.cells = s.cells := by
  rw [cells, cells, width_put, height_put]

/-- The sprite has a row and a bit for the pixel, and the bit is set. -/
theorem bit_iff_of_row (p : Sprite) (c : Nat × Nat) :
    p.bit c.1 c.2 = true ↔ 0 ≤ c.1 - p.x ∧ c.1 - p.x ≤ 7 ∧ 0 ≤ c.2 - p.y ∧
      c.2 - p.y < p.rows.length ∧
      (p.rows.getD (c.2 - p.y).toNat 0).testBit (7 - (c.1 - p.x)).toNat = true := by
  rw [Sprite.bit_iff]
  constructor
  · rintro ⟨⟨hleft, hright, hup⟩, hbit⟩
    refine ⟨hleft, hright, hup, ?_, hbit⟩
    by_contra hlow
    rw [List.getD_eq_default _ _ (by omega), Nat.zero_testBit] at hbit
    cases hbit
  · rintro ⟨hleft, hright, hup, -, hbit⟩
    exact ⟨⟨hleft, hright, hup⟩, hbit⟩

/-- A drawing stays on the screen and flips the pixels at which the sprite has a set bit, and no
others. It collides if one of them was lit, and the number of lit pixels grows by those that were
dark and falls by those that were lit. -/
theorem draw_pointwise (hs : s.WellFormed) {x y : Int} (hx : 0 ≤ x) (hy : 0 ≤ y) (rows : List Nat) :
    let drawing := s.draw x y rows
    let flipped := s.flipped drawing.screen
    drawing.offScreen = false ∧
    (drawing.screen.WellFormed ∧ drawing.screen.width = s.width ∧
      drawing.screen.height = s.height) ∧
    (∀ c ∈ s.cells, c ∈ flipped ↔ 0 ≤ c.1 - x ∧ c.1 - x ≤ 7 ∧ 0 ≤ c.2 - y ∧ c.2 - y < rows.length ∧
      (rows.getD (c.2 - y).toNat 0).testBit (7 - (c.1 - x)).toNat = true) ∧
    (drawing.collided = true ↔ ∃ c ∈ flipped, s.lit c.1 c.2 = true) ∧
    (drawing.screen.litCount : Int) =
      s.litCount + flipped.card - 2 * (flipped.filter fun c => s.lit c.1 c.2).card := by
  intro drawing flipped
  let p : Sprite := ⟨x, y, rows⟩
  have hwellFormed : drawing.screen.WellFormed := hs.put p
  have hflipped (c : Nat × Nat) (hc : c ∈ s.cells) : c ∈ flipped ↔ p.bit c.1 c.2 = true := by
    obtain ⟨hi, hj⟩ := mem_cells.1 hc
    have hlit : drawing.screen.lit c.1 c.2 = (s.lit c.1 c.2 ^^ p.bit c.1 c.2) :=
      hs.lit_put_bit (p := p) hx hy hi hj
    rw [mem_flipped, and_iff_right hc, hlit]
    cases s.lit c.1 c.2 <;> cases p.bit c.1 c.2 <;> decide
  refine ⟨hs.offScreen_draw rows hx hy, ⟨hwellFormed, s.width_put p, s.height_put p⟩,
    fun c hc => ?_, ?_, ?_⟩
  · exact (hflipped c hc).trans (bit_iff_of_row p c)
  · refine (hs.collided_put_iff (p := p) hx hy).trans ?_
    constructor
    · rintro ⟨i, j, hi, hj, hlit, hbit⟩
      exact ⟨(i, j), (hflipped _ (mem_cells.2 ⟨hi, hj⟩)).2 hbit, hlit⟩
    · rintro ⟨c, hc, hlit⟩
      have hcell := (mem_flipped.1 hc).1
      obtain ⟨hi, hj⟩ := mem_cells.1 hcell
      exact ⟨c.1, c.2, hi, hj, hlit, (hflipped c hcell).1 hc⟩
  · have hcount : drawing.screen.litCount + 2 * (flipped.filter fun c => s.lit c.1 c.2).card =
        s.litCount + flipped.card := hs.litCount_add hwellFormed (s.cells_put p)
    omega

/-- Three columns, of which the sprite has the last two, and of its two rows the second is past the
lower edge. One of the two pixels was lit. -/
theorem draw_pointwise_of_narrow :
    let s := (blank 3 2).flip 2 1
    let drawing := s.draw 1 1 [0xC0, 0xFF]
    s.WellFormed ∧ drawing.offScreen = false ∧ (1, 1) ∈ s.flipped drawing.screen ∧
      (0, 1) ∉ s.flipped drawing.screen ∧ drawing.collided = true ∧
      (drawing.screen.litCount : Int) = s.litCount + 2 - 2 := by
  intro s drawing
  have hs : s.WellFormed := (blank_wellFormed 3 2).flip 2 1
  obtain ⟨hoff, -, hflipped, hcollided, hcount⟩ :=
    draw_pointwise hs (x := 1) (y := 1) (by decide) (by decide) [0xC0, 0xFF]
  have hmem : (1, 1) ∈ s.cells ∧ (2, 1) ∈ s.cells ∧ (0, 1) ∈ s.cells := by decide
  obtain ⟨hleft, hright, hbeside⟩ := hmem
  have hcards : (s.flipped drawing.screen).card = 2 ∧
      ((s.flipped drawing.screen).filter fun c => s.lit c.1 c.2).card = 1 := by decide +kernel
  refine ⟨hs, hoff, (hflipped _ hleft).2 (by decide), fun hno => ?_, ?_, ?_⟩
  · exact absurd ((hflipped _ hbeside).1 hno) (by decide)
  · exact hcollided.2 ⟨(2, 1), (hflipped _ hright).2 (by decide), by decide⟩
  · rw [hcount, hcards.1, hcards.2]
    rfl

end Screen

end ChipEight
