import ChipEight.Proofs.Screen.Strokes
import Mathlib.Data.List.Perm.Basic

/-! # Drawing is exclusive or

Of a screen a drawing reads its size only: the size says at which pixels its strokes come out, by
`spots`, and whether one of them comes out nowhere, which ends it. A pixel changes if it is come to
an odd number of times (`WellFormed.lit_put`), which on a narrow screen one row of a sprite may do
twice. So a sprite drawn again is undone, and of several sprites the order does not matter.
-/

namespace ChipEight

/-- A sprite, and where its corner goes. -/
structure Sprite where
  x : Int
  y : Int
  rows : List Nat

namespace Screen

/-- Column and row of the pixel that a point names among so many columns and rows. -/
def spot? (width height : Nat) (p : Int × Int) : Option (Nat × Nat) := do
  let i ← place? width p.1
  let j ← place? height p.2
  return (i, j)

/-- The pixels that points name in turn, up to the first point that names none. -/
def spots (width height : Nat) : List (Int × Int) → List (Nat × Nat)
  | [] => []
  | p :: ps =>
    match spot? width height p with
    | none => []
    | some c => c :: spots width height ps

end Screen

namespace Sprite

def strokes (p : Sprite) (width height : Int) : List (Int × Int) :=
  Screen.strokes width height p.x p.y p.rows

/-- A stroke comes out nowhere on a screen of this size. -/
def leaves (p : Sprite) (width height : Int) : Bool :=
  (p.strokes width height).any fun q => (Screen.spot? width.toNat height.toNat q).isNone

/-- The strokes on a screen of this size come to pixel `(i, j)` an odd number of times. -/
def flips (p : Sprite) (width height : Int) (i j : Nat) : Bool :=
  (Screen.spots width.toNat height.toNat (p.strokes width height)).count (i, j) % 2 = 1

end Sprite

namespace Screen

def put (s : Screen) (p : Sprite) : Drawing := s.draw p.x p.y p.rows

/-- The drawings of several sprites, one after the other. -/
def drawings (s : Screen) : List Sprite → List Drawing
  | [] => []
  | p :: ps => s.put p :: (s.put p).screen.drawings ps

/-- The screen after several sprites. -/
def putAll (s : Screen) (ps : List Sprite) : Screen := ps.foldl (fun s p => (s.put p).screen) s

theorem place?_lt {n k : Nat} {i : Int} (h : place? n i = some k) : k < n := by
  simp only [place?] at h
  split at h
  · cases h; omega
  · split at h
    · cases h; omega
    · cases h

theorem spot?_lt {width height : Nat} {p : Int × Int} {c : Nat × Nat}
    (h : spot? width height p = some c) : c.1 < width ∧ c.2 < height := by
  obtain ⟨i, hi, h⟩ := Option.bind_eq_some_iff.1 h
  obtain ⟨j, hj, h⟩ := Option.bind_eq_some_iff.1 h
  cases h
  exact ⟨place?_lt hi, place?_lt hj⟩

theorem width_flip (s : Screen) (i j : Nat) : (s.flip i j).width = s.width := rfl

theorem height_flip (s : Screen) (i j : Nat) : (s.flip i j).height = s.height := rfl

namespace WellFormed
variable {s t : Screen}

theorem getElem?_columns (h : s.WellFormed) {i : Nat} (hi : i < s.width.toNat) :
    ∃ column, s.columns[i]? = some column ∧ column.size = s.height.toNat := by
  have hlt : i < s.columns.size := by rw [h.size_columns]; exact hi
  exact ⟨_, Array.getElem?_eq_getElem hlt, h.size_column _ (Array.getElem_mem hlt)⟩

theorem cell?_eq_spot? (h : s.WellFormed) (x y : Int) :
    s.cell? x y = spot? s.width.toNat s.height.toNat (x, y) := by
  simp only [cell?, spot?, h.size_columns]
  cases hi : place? s.width.toNat x with
  | none => rfl
  | some i =>
    obtain ⟨column, hcolumn, hsize⟩ := h.getElem?_columns (place?_lt hi)
    simp only [Option.bind_eq_bind, Option.bind_some, Array.getD_eq_getD_getElem?, hcolumn,
      Option.getD_some, hsize]

theorem lit_flip (h : s.WellFormed) {c : Nat × Nat} (hi : c.1 < s.width.toNat)
    (hj : c.2 < s.height.toNat) (k l : Nat) :
    (s.flip c.1 c.2).lit k l = (s.lit k l ^^ c == (k, l)) := by
  obtain ⟨i, j⟩ := c
  simp only [lit, Screen.flip, Array.getD_eq_getD_getElem?, Array.getElem?_modify]
  by_cases hik : i = k
  · subst hik
    obtain ⟨column, hcolumn, hsize⟩ := h.getElem?_columns hi
    simp only [hcolumn, if_true, Option.map_some, Option.getD_some, Array.getElem?_modify]
    by_cases hjl : j = l
    · subst hjl
      have hlt : j < column.size := by rw [hsize]; exact hj
      simp [Array.getElem?_eq_getElem hlt]
    · have hne : ((i, j) == (i, l)) = false := by simp [hjl]
      rw [hne, if_neg hjl, Bool.xor_false]
  · have hne : ((i, j) == (k, l)) = false := by simp [hik]
    rw [hne, if_neg hik, Bool.xor_false]

/-- Screens of one size that show the same are the same. -/
theorem eq_of_lit (hs : s.WellFormed) (ht : t.WellFormed) (hw : s.width = t.width)
    (hh : s.height = t.height) (hlit : ∀ i j, s.lit i j = t.lit i j) : s = t := by
  have hcolumns : s.columns = t.columns := by
    apply Array.ext
    · rw [hs.size_columns, ht.size_columns, hw]
    intro i hi hi'
    have hsize := hs.size_column _ (Array.getElem_mem hi)
    have hsize' := ht.size_column _ (Array.getElem_mem hi')
    apply Array.ext
    · rw [hsize, hsize', hh]
    intro j hj hj'
    have hpixel := hlit i j
    simp only [lit, Array.getD_eq_getD_getElem?, Array.getElem?_eq_getElem hi,
      Array.getElem?_eq_getElem hi', Option.getD_some, Array.getElem?_eq_getElem hj,
      Array.getElem?_eq_getElem hj'] at hpixel
    exact hpixel
  obtain ⟨_, _, _⟩ := s
  obtain ⟨_, _, _⟩ := t
  simp only at hw hh hcolumns
  subst hw hh hcolumns
  rfl

theorem flipAll_spec (h : s.WellFormed) (collided : Bool) (ps : List (Int × Int)) :
    (flipAll collided s ps).offScreen =
        ps.any (fun p => (spot? s.width.toNat s.height.toNat p).isNone) ∧
      ∀ i j, (flipAll collided s ps).screen.lit i j =
        (s.lit i j ^^ (spots s.width.toNat s.height.toNat ps).count (i, j) % 2 = 1) := by
  induction ps generalizing collided s with
  | nil => exact ⟨rfl, fun i j => by simp [flipAll, spots]⟩
  | cons p ps ih =>
    rw [List.any_cons, flipAll, spots, h.cell?_eq_spot?]
    cases hc : spot? s.width.toNat s.height.toNat p with
    | none => exact ⟨rfl, fun i j => by simp⟩
    | some c =>
      obtain ⟨hi, hj⟩ := spot?_lt hc
      obtain ⟨hoff, hlit⟩ := ih (h.flip c.1 c.2) (collided || s.lit c.1 c.2)
      refine ⟨hoff, fun k l => ?_⟩
      rw [hlit, width_flip, height_flip, h.lit_flip hi hj, List.count_cons, Bool.xor_assoc]
      congr 1
      -- one pixel more turns odd into even and even into odd
      cases c == (k, l) with
      | true =>
        rw [if_pos rfl, Bool.true_xor, ← decide_not]
        exact decide_eq_decide.2 (by omega)
      | false => rw [if_neg Bool.false_ne_true, Bool.false_xor]; rfl

theorem lit_put (h : s.WellFormed) (p : Sprite) (i j : Nat) :
    (s.put p).screen.lit i j = (s.lit i j ^^ p.flips s.width s.height i j) :=
  (h.flipAll_spec false _).2 i j

theorem offScreen_put (h : s.WellFormed) (p : Sprite) :
    (s.put p).offScreen = p.leaves s.width s.height :=
  (h.flipAll_spec false _).1

theorem put (h : s.WellFormed) (p : Sprite) : (s.put p).screen.WellFormed := h.draw _ _ _

end WellFormed

theorem width_put (s : Screen) (p : Sprite) : (s.put p).screen.width = s.width := s.width_draw _ _ _

theorem height_put (s : Screen) (p : Sprite) :
    (s.put p).screen.height = s.height := s.height_draw _ _ _

namespace WellFormed
variable {s : Screen}

theorem put_put (h : s.WellFormed) (p : Sprite) : ((s.put p).screen.put p).screen = s := by
  refine eq_of_lit ((h.put p).put p) h ?_ ?_ fun i j => ?_
  · rw [width_put, width_put]
  · rw [height_put, height_put]
  · rw [(h.put p).lit_put, h.lit_put, width_put, height_put, Bool.xor_assoc, Bool.xor_self,
      Bool.xor_false]

theorem put_comm (h : s.WellFormed) (p q : Sprite) :
    ((s.put p).screen.put q).screen = ((s.put q).screen.put p).screen := by
  refine eq_of_lit ((h.put p).put q) ((h.put q).put p) ?_ ?_ fun i j => ?_
  · simp only [width_put]
  · simp only [height_put]
  · rw [(h.put p).lit_put, (h.put q).lit_put, h.lit_put, h.lit_put]
    simp only [width_put, height_put]
    rw [Bool.xor_right_comm]

theorem putAll_perm (h : s.WellFormed) {ps qs : List Sprite} (hperm : ps.Perm qs) :
    s.putAll ps = s.putAll qs := by
  induction hperm generalizing s with
  | nil => rfl
  | cons p _ ih => exact ih (h.put p)
  | swap p q ps =>
    show (((s.put q).screen.put p).screen.putAll ps) = (((s.put p).screen.put q).screen.putAll ps)
    rw [h.put_comm q p]
  | trans _ _ ih₁ ih₂ => exact (ih₁ h).trans (ih₂ h)

theorem offScreen_drawings (h : s.WellFormed) (ps : List Sprite) :
    (s.drawings ps).map Drawing.offScreen = ps.map fun p => (s.put p).offScreen := by
  have hleaves : (s.drawings ps).map Drawing.offScreen =
      ps.map fun p => p.leaves s.width s.height := by
    induction ps generalizing s with
    | nil => rfl
    | cons p ps ih =>
      rw [drawings, List.map_cons, List.map_cons, h.offScreen_put, ih (h.put p),
        width_put, height_put]
  rw [hleaves]
  exact List.map_congr_left fun p _ => (h.offScreen_put p).symm

end WellFormed

/-- What a drawing flips, and whether it leaves the screen, depend on the sprite and the size of the
screen only. A sprite drawn twice is undone, and sprites may be drawn in any order, each of them
leaving the screen or not as it would alone. -/
theorem draw_exclusive {s : Screen} (hs : s.WellFormed) :
    (∀ p : Sprite, (s.put p).offScreen = p.leaves s.width s.height ∧
      ∀ i j, (s.put p).screen.lit i j = (s.lit i j ^^ p.flips s.width s.height i j)) ∧
    (∀ p : Sprite, ((s.put p).screen.put p).screen = s ∧
      ((s.put p).screen.put p).offScreen = (s.put p).offScreen) ∧
    ∀ ps : List Sprite, (∀ qs, ps.Perm qs → s.putAll ps = s.putAll qs) ∧
      (s.drawings ps).map Drawing.offScreen = ps.map fun p => (s.put p).offScreen := by
  refine ⟨fun p => ⟨hs.offScreen_put p, hs.lit_put p⟩, fun p => ⟨hs.put_put p, ?_⟩,
    fun ps => ⟨fun qs => hs.putAll_perm, hs.offScreen_drawings ps⟩⟩
  rw [(hs.put p).offScreen_put, hs.offScreen_put, width_put, height_put]

/-- On three columns a row of four pixels comes to one of them twice. The second sprite flips a
pixel in its first row and leaves the screen in the second one. -/
theorem draw_exclusive_of_narrow :
    let s := (blank 3 2).flip 1 0
    let p : Sprite := ⟨-2, 1, [0xF0]⟩
    let q : Sprite := ⟨-4, 0, [0x40, 0x80]⟩
    s.WellFormed ∧ ((s.put p).screen.lit 0 1, (s.put p).screen.lit 1 1) = (true, false) ∧
      (s.put q).screen ≠ s ∧ ((s.put q).screen.put q).screen = s ∧
      ((s.put q).screen.put q).offScreen = true ∧ s.putAll [p, q, p] = s.putAll [q, p, p] ∧
      (s.drawings [p, q]).map Drawing.offScreen = [false, true] := by
  intro s p q
  have hs : s.WellFormed := (blank_wellFormed 3 2).flip 1 0
  obtain ⟨hput, htwice, hall⟩ := draw_exclusive hs
  obtain ⟨hback, hoff⟩ := htwice q
  have hp : ((s.put p).screen.lit 0 1, (s.put p).screen.lit 1 1) = (true, false) := by
    rw [(hput p).2, (hput p).2]; decide
  have hstays : (s.put p).offScreen = false := by rw [(hput p).1]; decide
  have hleaves : (s.put q).offScreen = true := by rw [(hput q).1]; decide
  refine ⟨hs, hp, by decide, hback, hoff.trans hleaves, (hall [p, q, p]).1 _ (.swap q p [p]), ?_⟩
  rw [(hall [p, q]).2, List.map_cons, List.map_singleton, hstays, hleaves]

end Screen

end ChipEight
