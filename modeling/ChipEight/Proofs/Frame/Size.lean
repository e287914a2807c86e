import ChipEight.Screen
import Mathlib.Algebra.BigOperators.Group.List.Basic
import Mathlib.Data.List.GetD

/-! # Sizes of frames

A frame of some size has as many columns as it is wide, and as many bytes in each of them as it is
high (`Frame.HasSize`). Of the bytes written one after the other, that of column `x` and row `y` is
then found by its number (`HasSize.getD_flatten`). Whoever shares them out anew sees only how many
columns there were and how many bytes in all (`Frame.Fills`). The frame of a screen has the size of
the screen, and a byte for each pixel (`Screen.byte_frame`).
-/

namespace ChipEight

namespace Frame

/-- The frame has `w` columns of `h` bytes. -/
def HasSize (w h : Nat) (f : Frame) : Prop := f.length = w ∧ ∀ column ∈ f, column.length = h

/-- The frame has `w` columns, and as many bytes as `w` columns of `h` bytes. -/
def Fills (w h : Nat) (f : Frame) : Prop := f.length = w ∧ f.flatten.length = w * h

instance (w h : Nat) (f : Frame) : Decidable (f.Fills w h) := inferInstanceAs (Decidable (_ ∧ _))

/-- The byte of column `x` and row `y`. -/
def byte (f : Frame) (x y : Nat) : UInt8 := (f.getD x []).getD y 0

namespace HasSize
variable {w h : Nat} {f : Frame}

theorem length_flatten (hf : f.HasSize w h) : f.flatten.length = w * h := by
  have hmap : f.map List.length = List.replicate w h :=
    List.eq_replicate_iff.2 ⟨by rw [List.length_map, hf.1], by simpa using hf.2⟩
  rw [List.length_flatten, hmap, List.sum_replicate_nat]

/-- The columns stand one behind the other. -/
theorem getD_flatten (hf : f.HasSize w h) (x : Nat) {y : Nat} (hy : y < h) :
    f.flatten.getD (x * h + y) 0 = f.byte x y := by
  obtain ⟨-, hcolumns⟩ := hf
  induction f generalizing x with
  | nil => rfl
  | cons column f ih =>
    rw [List.forall_mem_cons] at hcolumns
    rw [List.flatten_cons]
    cases x with
    | zero =>
      rw [Nat.zero_mul, Nat.zero_add, List.getD_append _ _ _ _ (by omega)]
      rfl
    | succ x =>
      have hplace : (x + 1) * h + y - column.length = x * h + y := by
        rw [hcolumns.1, Nat.succ_mul]
        omega
      rw [List.getD_append_right _ _ _ _ (by rw [hcolumns.1, Nat.succ_mul]; omega), hplace]
      exact ih x hcolumns.2

end HasSize

end Frame

namespace Screen

theorem WellFormed.frame_hasSize {s : Screen} (h : s.WellFormed) :
    s.frame.HasSize s.width.toNat s.height.toNat := by
  refine ⟨by simp [frame, h.size_columns], fun column hc => ?_⟩
  obtain ⟨c, hmem, rfl⟩ := List.mem_map.1 hc
  rw [List.length_map, Array.length_toList]
  exact h.size_column c (Array.mem_toList_iff.1 hmem)

/-- A pixel is a byte of the frame, which is one if the pixel is lit. -/
theorem byte_frame (s : Screen) (x y : Nat) : s.frame.byte x y = if s.lit x y then 1 else 0 := by
  simp only [Frame.byte, frame, lit, List.getD_eq_getElem?_getD, Array.getD_eq_getD_getElem?,
    List.getElem?_map, Array.getElem?_toList]
  cases s.columns[x]? with
  | none => simp
  | some column => cases h : column[y]? <;> simp [h]

end Screen

end ChipEight
