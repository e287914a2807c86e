import ChipEight.Desktop
import ChipEight.Proofs.Frame.Size

/-! # What is known of a toolkit

What a window relies on is stated about any toolkit: that it paints what it is given
(`Toolkit.Paints`), that it refuses what does not fit (`Toolkit.Refuses`), and that a surface, or a
window with its surface, has the size that was asked for (`Toolkit.Provides`, `Toolkit.Fits`). The
desktop paints (`Desktop.paints`), and it has the windows that it is asked for if their sides fit 32
bits (`Desktop.fits`). An image that is one pixel wide or high it repeats, where `Desktop.strict`
refuses it.
-/

namespace ChipEight

namespace Grid
variable {α : Type}

/-- The grids have the same size and the same cells. -/
structure Agrees (g g' : Grid α) : Prop where
  width : g.width = g'.width
  height : g.height = g'.height
  cell : ∀ x y : Nat, x < g'.width → y < g'.height → g.cell x y = g'.cell x y

/-- Each cell as a square of `c` by `c` cells. -/
def magnify (c : Nat) (g : Grid α) : Grid α :=
  ⟨c * g.width, c * g.height, fun x y => g.cell (x / c) (y / c)⟩

theorem Agrees.trans {g g' g'' : Grid α} (h : g.Agrees g') (h' : g'.Agrees g'') : g.Agrees g'' where
  width := h.width.trans h'.width
  height := h.height.trans h'.height
  cell x y hx hy :=
    (h.cell x y (h'.width ▸ hx) (h'.height ▸ hy)).trans (h'.cell x y hx hy)

theorem Agrees.map {β : Type} (f : α → β) {g g' : Grid α} (h : g.Agrees g') :
    (g.map f).Agrees (g'.map f) :=
  ⟨h.width, h.height, fun x y hx hy => congrArg f (h.cell x y hx hy)⟩

theorem Agrees.magnify {g g' : Grid α} (h : g.Agrees g') (c : Nat) :
    (g.magnify c).Agrees (g'.magnify c) where
  width := congrArg (c * ·) h.width
  height := congrArg (c * ·) h.height
  cell _ _ hx hy := h.cell _ _ (Nat.div_lt_of_lt_mul hx) (Nat.div_lt_of_lt_mul hy)

end Grid

namespace Toolkit

/-- Bytes that can be shared out among columns go to one column after the other. A surface keeps its
size, and an image of this size is on it afterwards. An image that is stretched has the size asked
for, and each of its pixels is a square if this is a multiple of its own. -/
structure Paints (kit : Toolkit) : Prop where
  shareOut : ∀ {bytes : List UInt8} {columns rows : Nat}, 0 < columns → 0 < rows →
    bytes.length = columns * rows → ∃ g, kit.shareOut bytes columns = .ok g ∧
      g.Agrees ⟨columns, rows, fun x y => bytes.getD (x * rows + y) 0⟩
  blit_size : ∀ {surface image painted : Image}, kit.blit surface image = .ok painted →
    painted.width = surface.width ∧ painted.height = surface.height
  blit : ∀ surface image : Image, image.width = surface.width → image.height = surface.height →
    ∃ painted, kit.blit surface image = .ok painted ∧ painted.Agrees image
  stretch_size : ∀ (image : Image) (width height : Nat),
    (kit.stretch image width height).width = width ∧
      (kit.stretch image width height).height = height
  stretch : ∀ (image : Image) {c : Nat}, 0 < c →
    (kit.stretch image (c * image.width) (c * image.height)).Agrees (image.magnify c)

/-- Bytes are shared out among as many columns as asked for, or not at all, and an image of another
size is not copied onto a surface. -/
structure Refuses (kit : Toolkit) : Prop where
  shareOut : ∀ {bytes : List UInt8} {columns : Nat} {g : Grid UInt8},
    kit.shareOut bytes columns = .ok g → g.width = columns ∧ bytes.length = columns * g.height
  shareOut_error : ∀ {bytes : List UInt8} {columns : Nat} {e : Error},
    kit.shareOut bytes columns = .error e → ∃ text, e = .value text
  blit : ∀ surface image : Image,
    ¬ (image.width = surface.width ∧ image.height = surface.height) →
      ∃ text, kit.blit surface image = .error (.value text)

/-- There is a surface of this size. -/
def Provides (kit : Toolkit) (width height : Int) : Prop :=
  ∃ surface, kit.newSurface width height = .ok surface ∧
    (surface.width : Int) = width ∧ (surface.height : Int) = height

/-- A window for frames of this size and scale has the size that is asked for, if it opens, and
there is a surface of the size of the frames. -/
def Fits (kit : Toolkit) (width height scale : Int) : Prop :=
  ∀ size : Nat × Nat, kit.openWindow (width * scale) (height * scale) = .ok size →
    (size.1 : Int) = width * scale ∧ (size.2 : Int) = height * scale ∧ kit.Provides width height

end Toolkit

namespace Desktop

theorem shareOut_eq_ok_iff {bytes : List UInt8} {columns : Nat} {g : Grid UInt8} :
    shareOut bytes columns = .ok g ↔
      columns ≠ 0 ∧ bytes.length % columns = 0 ∧
        g = ⟨columns, bytes.length / columns,
          fun x y => bytes.toArray.getD (x * (bytes.length / columns) + y) 0⟩ := by
  unfold shareOut
  split
  next h => exact ⟨nofun, fun h' => absurd h (by tauto)⟩
  next h =>
    rw [not_or, not_not] at h
    rw [Except.ok.injEq]
    exact ⟨fun heq => ⟨h.1, h.2, heq.symm⟩, fun h' => h'.2.2.symm⟩

theorem blit_size {surface image painted : Image} (h : blit surface image = .ok painted) :
    painted.width = surface.width ∧ painted.height = surface.height := by
  unfold blit at h
  split at h <;> cases h
  exact ⟨rfl, rfl⟩

theorem blit_of_size {surface image : Image} (hw : image.width = surface.width)
    (hh : image.height = surface.height) :
    ∃ painted, blit surface image = .ok painted ∧ painted.Agrees image := by
  refine ⟨_, if_pos ⟨.inl hw, .inl hh⟩, hw.symm, hh.symm, fun x y hx hy => ?_⟩
  -- of an image that is one pixel wide there is column 0 only, so it makes no difference
  have hx' : (if image.width = 1 then 0 else x) = x := by split <;> omega
  have hy' : (if image.height = 1 then 0 else y) = y := by split <;> omega
  exact congrArg₂ image.cell hx' hy'

theorem stretch_magnify (image : Image) (c : Nat) :
    (stretch image (c * image.width) (c * image.height)).Agrees (image.magnify c) := by
  refine ⟨rfl, rfl, fun x y hx hy => ?_⟩
  have hpos : 0 < image.width ∧ 0 < image.height :=
    ⟨Nat.pos_of_lt_mul_left hx, Nat.pos_of_lt_mul_left hy⟩
  have hne : ¬ (image.width = 0 ∨ image.height = 0) := by omega
  simp only [stretch, if_neg hne, Nat.mul_div_mul_right _ c hpos.1,
    Nat.mul_div_mul_right _ c hpos.2]
  rfl

theorem signed32_of_lt {v : Int} (h₀ : 0 ≤ v) (h : v < 0x80000000) : signed32 v = v :=
  Int.bmod_eq_of_le (by omega) (by omega)

section
variable {width height : Int} {size : Nat × Nat}

theorem openWindow_of_lt (hw : 0 < width) (hh : 0 < height) (hw' : width < 0x80000000)
    (hh' : height < 0x80000000) (h : openWindow width height = .ok size) :
    (size.1 : Int) = width ∧ (size.2 : Int) = height ∧ width ≤ 16384 ∧ height ≤ 16384 := by
  have hside : maxSide = 16384 := rfl
  simp only [openWindow, signed32_of_lt (by omega) hw', signed32_of_lt (by omega) hh'] at h
  split_ifs at h with hfits hneg hzero hlarge
  · omega
  · cases h
    simp only
    omega

theorem provides (hw : 0 < width) (hh : 0 < height) (hw' : width ≤ 16384) (hh' : height ≤ 16384) :
    toolkit.Provides width height := by
  have hsize := And.intro (Int.toNat_of_nonneg (Int.le_of_lt hw))
    (Int.toNat_of_nonneg (Int.le_of_lt hh))
  refine ⟨.filled width.toNat height.toNat ⟨0, 0, 0⟩, ?_, hsize⟩
  have hwidth : signed32 width = width := signed32_of_lt (by omega) (by omega)
  have hheight : signed32 height = height := signed32_of_lt (by omega) (by omega)
  have harea : width * height ≤ 16384 * 16384 := Int.mul_le_mul hw' hh' (by omega) (by decide)
  have hassoc : 4 * width * height = 4 * (width * height) := Int.mul_assoc 4 width height
  simp only [toolkit, newSurface, hwidth, hheight, hassoc]
  rw [if_neg (by omega), if_neg (by omega)]

/-- Larger windows may have another size than was asked for. -/
theorem fits {scale : Int} (hw : 0 < width) (hh : 0 < height) (hscale : 0 < scale)
    (hw' : width * scale < 0x80000000) (hh' : height * scale < 0x80000000) :
    toolkit.Fits width height scale := by
  intro size hsize
  obtain ⟨hwide, hhigh, hle, hle'⟩ :=
    openWindow_of_lt (Int.mul_pos hw hscale) (Int.mul_pos hh hscale) hw' hh' hsize
  have hside {side : Int} (hpos : 0 < side) : side ≤ side * scale := by
    have hmul : side * 1 ≤ side * scale := Int.mul_le_mul_of_nonneg_left (by omega) (by omega)
    rwa [Int.mul_one] at hmul
  exact ⟨hwide, hhigh, provides hw hh (Int.le_trans (hside hw) hle) (Int.le_trans (hside hh) hle')⟩

end

theorem paints : toolkit.Paints where
  shareOut {bytes columns rows} hcolumns _ hlen := by
    have hdiv : bytes.length / columns = rows := by rw [hlen, Nat.mul_div_cancel_left rows hcolumns]
    have hmod : bytes.length % columns = 0 := by rw [hlen, Nat.mul_mod_right]
    refine ⟨_, shareOut_eq_ok_iff.2 ⟨by omega, hmod, rfl⟩, rfl, hdiv, fun x y _ _ => ?_⟩
    simp only [hdiv, Array.getD_eq_getD_getElem?, List.getElem?_toArray, List.getD_eq_getElem?_getD]
  blit_size := blit_size
  blit _ _ := blit_of_size
  stretch_size _ _ _ := ⟨rfl, rfl⟩
  stretch image c _ := stretch_magnify image c

/-- The toolkit of a desktop that copies images only onto surfaces of their size. -/
def strict : Toolkit :=
  { toolkit with
    blit := fun surface image =>
      if image.width = surface.width ∧ image.height = surface.height then blit surface image
      else .error (.value "array must match surface dimensions") }

theorem strict_fits_iff {width height scale : Int} :
    strict.Fits width height scale ↔ toolkit.Fits width height scale := Iff.rfl

theorem strict_paints : strict.Paints :=
  { paints with
    blit_size := fun {surface image painted} h => by
      simp only [strict] at h
      split at h
      · exact blit_size h
      · cases h
    blit := fun surface image hw hh => by
      simp only [strict, if_pos (And.intro hw hh)]
      exact blit_of_size hw hh }

theorem strict_refuses : strict.Refuses where
  shareOut {bytes columns g} h := by
    obtain ⟨-, hmod, rfl⟩ := shareOut_eq_ok_iff.1 h
    exact ⟨rfl, (Nat.mul_div_cancel' (Nat.dvd_of_mod_eq_zero hmod)).symm⟩
  shareOut_error {bytes columns e} h := by
    simp only [strict, toolkit, shareOut] at h
    split at h <;> cases h
    exact ⟨_, rfl⟩
  blit _ _ h := ⟨_, if_neg h⟩

end Desktop

end ChipEight
