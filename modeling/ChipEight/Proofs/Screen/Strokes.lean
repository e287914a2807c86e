import ChipEight.Screen

/-! # Strokes and clipping

`mem_strokes` names the pixels that a sprite reaches. A sprite whose corner has no negative
coordinate is clipped at all four edges, so `WellFormed.offScreen_draw`: drawing it never leaves the
screen.
-/

namespace ChipEight.Screen

theorem mem_rowStrokes {width x y : Int} {bits : Nat} {p : Int × Int} :
    p ∈ rowStrokes width x y bits ↔
      ∃ dx : Nat, dx < 8 ∧ x + dx < width ∧ bits.testBit (7 - dx) ∧ p = (x + dx, y) := by
  simp only [rowStrokes, List.mem_map, List.mem_filter, List.mem_range, Bool.and_eq_true,
    decide_eq_true_eq]
  constructor
  · rintro ⟨dx, ⟨hdx, hw, hb⟩, rfl⟩
    exact ⟨dx, hdx, hw, hb, rfl⟩
  · rintro ⟨dx, hdx, hw, hb, rfl⟩
    exact ⟨dx, ⟨hdx, hw, hb⟩, rfl⟩

theorem mem_strokes {width height x y : Int} {rows : List Nat} {p : Int × Int} :
    p ∈ strokes width height x y rows ↔
      ∃ dx dy bits : Nat, dx < 8 ∧ rows[dy]? = some bits ∧ bits.testBit (7 - dx) ∧
        x + dx < width ∧ y + dy < height ∧ p = (x + dx, y + dy) := by
  simp only [strokes, List.mem_flatMap, Prod.exists, List.mem_zipIdx_iff_getElem?, mem_rowStrokes,
    List.getElem?_take, Option.ite_none_right_eq_some]
  constructor
  · rintro ⟨bits, dy, ⟨hdy, hr⟩, dx, hdx, hw, hb, rfl⟩
    exact ⟨dx, dy, bits, hdx, hr, hb, hw, by omega, rfl⟩
  · rintro ⟨dx, dy, bits, hdx, hr, hb, hw, hh, rfl⟩
    exact ⟨bits, dy, ⟨by omega, hr⟩, dx, hdx, hw, hb, rfl⟩

/-- The coordinates name a pixel, counted from the upper left corner. -/
def Within (s : Screen) (p : Int × Int) : Prop :=
  0 ≤ p.1 ∧ p.1 < s.width ∧ 0 ≤ p.2 ∧ p.2 < s.height

theorem within_of_mem_strokes {s : Screen} {x y : Int} {rows : List Nat} {p : Int × Int}
    (hx : 0 ≤ x) (hy : 0 ≤ y) (hp : p ∈ strokes s.width s.height x y rows) : s.Within p := by
  obtain ⟨dx, dy, _, _, _, _, hw, hh, rfl⟩ := mem_strokes.1 hp
  exact ⟨by simp only; omega, hw, by simp only; omega, hh⟩

theorem place?_of_lt {n : Nat} {i : Int} (h0 : 0 ≤ i) (hn : i < n) : place? n i = some i.toNat := by
  simp only [place?, h0, hn, and_self, ↓reduceIte]

section
variable {s : Screen}

theorem WellFormed.cell?_eq (h : s.WellFormed) {x y : Int} (hp : s.Within (x, y)) :
    s.cell? x y = some (x.toNat, y.toNat) := by
  obtain ⟨hx, hw, hy, hh⟩ := hp
  simp only at hx hw hy hh
  have hlt : x.toNat < s.columns.size := by rw [h.size_columns]; omega
  have hcol : (s.columns.getD x.toNat #[]).size = s.height.toNat := by
    rw [Array.getD_eq_getD_getElem?, Array.getElem?_eq_getElem hlt, Option.getD_some]
    exact h.size_column _ (Array.getElem_mem hlt)
  have hpx : place? s.columns.size x = some x.toNat := place?_of_lt hx (by omega)
  have hpy : place? s.height.toNat y = some y.toNat := place?_of_lt hy (by omega)
  rw [cell?, hpx, Option.bind_eq_bind, Option.bind_some, hcol, hpy]
  rfl

/-- What holds of a screen and survives each flip holds after a drawing, however far it comes. -/
theorem flipAll_induction {P : Screen → Prop} (hflip : ∀ s i j, P s → P (s.flip i j))
    (ps : List (Int × Int)) (collided : Bool) (h : P s) : P (flipAll collided s ps).screen := by
  induction ps generalizing collided s with
  | nil => exact h
  | cons p ps ih =>
    simp only [flipAll]
    split
    · exact h
    · exact ih _ (hflip _ _ _ h)

theorem WellFormed.draw (h : s.WellFormed) (x y : Int) (rows : List Nat) :
    (s.draw x y rows).screen.WellFormed :=
  flipAll_induction (fun _ i j hs => hs.flip i j) _ _ h

theorem width_draw (s : Screen) (x y : Int) (rows : List Nat) :
    (s.draw x y rows).screen.width = s.width :=
  flipAll_induction (P := fun t => t.width = s.width) (fun _ _ _ ht => ht) _ _ rfl

theorem height_draw (s : Screen) (x y : Int) (rows : List Nat) :
    (s.draw x y rows).screen.height = s.height :=
  flipAll_induction (P := fun t => t.height = s.height) (fun _ _ _ ht => ht) _ _ rfl

theorem WellFormed.offScreen_flipAll (h : s.WellFormed) {ps : List (Int × Int)} (collided : Bool)
    (hps : ∀ p ∈ ps, s.Within p) : (flipAll collided s ps).offScreen = false := by
  induction ps generalizing collided s with
  | nil => rfl
  | cons p ps ih =>
    have hcell : s.cell? p.1 p.2 = some (p.1.toNat, p.2.toNat) :=
      h.cell?_eq (hps p (List.mem_cons_self ..))
    simp only [flipAll, hcell]
    exact ih (h.flip _ _) _ fun q hq => hps q (List.mem_cons_of_mem _ hq)

theorem WellFormed.offScreen_draw (h : s.WellFormed) {x y : Int} (rows : List Nat) (hx : 0 ≤ x)
    (hy : 0 ≤ y) : (s.draw x y rows).offScreen = false :=
  h.offScreen_flipAll _ fun _ hp => within_of_mem_strokes hx hy hp

end

end ChipEight.Screen
