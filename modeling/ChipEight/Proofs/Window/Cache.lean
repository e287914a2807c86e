import ChipEight.Proofs.Toolkit
import ChipEight.Proofs.Window.Life

/-! # Windows that paint only what is new

A frame that equals the one remembered is not painted, and yet the window shows it: on a toolkit
that paints, a window is as large as it was asked to be, has a surface for its frames, and shows the
frame that it remembers if that is of its size (`Sound`), whatever is done with it (`Sound.live`).
So after every frame of its size an open window shows this frame, each byte as a square
(`present_shows`).
-/

namespace ChipEight.Window

/-- A frame as an image, a pixel to each byte. -/
def picture (width height : Nat) (f : Frame) : Image :=
  ⟨width, height, fun x y => colourOf (f.byte x y)⟩

section
variable {w : Window} {f : Frame} {surface image : Image}

/-- A frame is painted if its bytes can be shared out, and what comes of them copied onto the
surface. -/
theorem paint_eq_ok_iff (hcanvas : w.canvas = some surface) :
    w.paint f = .ok image ↔ ∃ bytes, w.kit.shareOut f.flatten f.length = .ok bytes ∧
      w.kit.blit surface (bytes.map colourOf) = .ok image := by
  simp only [paint, hcanvas]
  cases w.kit.shareOut f.flatten f.length with
  | error e => exact ⟨nofun, fun ⟨_, h, _⟩ => nomatch h⟩
  | ok bytes =>
    simp only [Except.ok.injEq, exists_eq_left']
    cases w.kit.blit surface (bytes.map colourOf) with
    | error e => exact ⟨nofun, nofun⟩
    | ok painted => simp only [Except.mapError, Except.ok.injEq]

theorem paint_of_hasSize (hkit : w.kit.Paints) (hcanvas : w.canvas = some surface)
    (hf : f.HasSize surface.width surface.height) (hw : 0 < surface.width)
    (hh : 0 < surface.height) :
    ∃ image, w.paint f = .ok image ∧ image.Agrees (picture surface.width surface.height f) := by
  obtain ⟨bytes, hbytes, hagrees⟩ := hkit.shareOut hw hh hf.length_flatten
  rw [← hf.1] at hbytes
  obtain ⟨image, himage, hsame⟩ :=
    hkit.blit surface (bytes.map colourOf) hagrees.width hagrees.height
  refine ⟨image, (paint_eq_ok_iff hcanvas).2 ⟨bytes, hbytes, himage⟩, ?_⟩
  refine (hsame.trans (hagrees.map colourOf)).trans ⟨rfl, rfl, fun x y _ hy => ?_⟩
  exact congrArg colourOf (hf.getD_flatten x hy)

theorem paint_size (hkit : w.kit.Paints) (hcanvas : w.canvas = some surface)
    (hpaint : w.paint f = .ok image) :
    image.width = surface.width ∧ image.height = surface.height := by
  obtain ⟨bytes, -, hblit⟩ := (paint_eq_ok_iff hcanvas).1 hpaint
  exact hkit.blit_size hblit

end

/-- The toolkit paints, and the window is as large as it was asked to be, with a surface for its
frames. It shows what it remembers, if that is a frame of its size. -/
structure Sound (w : Window) : Prop where
  paints : w.kit.Paints
  fits : w.kit.Fits w.width w.height w.scale
  scale_pos : 0 < w.scale
  size : ∀ face, w.face = some face →
    (face.width : Int) = w.width * w.scale ∧ (face.height : Int) = w.height * w.scale
  surface : ∀ face, w.face = some face → ∃ surface, w.canvas = some surface ∧
    (surface.width : Int) = w.width ∧ (surface.height : Int) = w.height
  fresh : 0 < w.width → 0 < w.height → ∀ face f, w.face = some face → w.last = some f →
    f.HasSize w.width.toNat w.height.toNat →
      face.Agrees ((picture w.width.toNat w.height.toNat f).magnify w.scale)

namespace Sound
variable {w : Window} {f : Frame} {face : Image}

/-- A frame of the window's size can be painted, and stretched over the window it fills it. -/
theorem paint (h : w.Sound) (hw : 0 < w.width) (hh : 0 < w.height) (hface : w.face = some face)
    (hf : f.HasSize w.width.toNat w.height.toNat) :
    ∃ image, w.paint f = .ok image ∧ (w.kit.stretch image face.width face.height).Agrees
      ((picture w.width.toNat w.height.toNat f).magnify w.scale) := by
  obtain ⟨surface, hcanvas, hsw, hsh⟩ := h.surface face hface
  obtain ⟨hfw, hfh⟩ := h.size face hface
  have hwidth : w.width.toNat = surface.width := by omega
  have hheight : w.height.toNat = surface.height := by omega
  rw [hwidth, hheight] at hf ⊢
  obtain ⟨image, hpaint, hagrees⟩ :=
    paint_of_hasSize h.paints hcanvas hf (by omega) (by omega)
  have himage := paint_size h.paints hcanvas hpaint
  have hwide : face.width = w.scale * image.width := by
    rw [himage.1, ← Int.natCast_inj, Int.natCast_mul, hfw, hsw, Int.mul_comm]
  have hhigh : face.height = w.scale * image.height := by
    rw [himage.2, ← Int.natCast_inj, Int.natCast_mul, hfh, hsh, Int.mul_comm]
  refine ⟨image, hpaint, ?_⟩
  rw [hwide, hhigh]
  exact (h.paints.stretch image h.scale_pos).trans (hagrees.magnify _)

theorem openOn (h : w.Sound) (windows : WindowSystem) : (w.openOn windows).1.Sound := by
  have hopening := w.opening windows
  generalize w.openOn windows = out at hopening
  cases hopening with
  | refused => exact { h with }
  | frameless hsize hsurface =>
    -- a toolkit that has such a window has a surface for it
    obtain ⟨-, -, surface, hok, -⟩ := h.fits _ hsize
    cases hsurface.symm.trans hok
  | @opened size surface hsize hsurface =>
    obtain ⟨hwidth, hheight, surface', hok, hfits⟩ := h.fits _ hsize
    cases hsurface.symm.trans hok
    refine { h with size := ?_, surface := ?_, fresh := nofun }
    · rintro _ ⟨⟩
      exact ⟨hwidth, hheight⟩
    · rintro _ ⟨⟩
      exact ⟨surface, rfl, hfits⟩

theorem present (h : w.Sound) (f : Frame) : (w.present f).1.Sound := by
  have hpresenting := w.presenting f
  generalize w.present f = out at hpresenting
  cases hpresenting with
  | unseen => exact h
  | skipped => exact { h with }
  | refused hface _ hpaint =>
    refine { h with fresh := ?_ }
    rintro hw hh face' f' hface' ⟨⟩ hf
    obtain ⟨image, hok, -⟩ := h.paint hw hh hface' hf
    cases hpaint.symm.trans hok
  | @painted face canvas hface _ hpaint =>
    obtain ⟨surface, hcanvas, hsurface⟩ := h.surface face hface
    obtain ⟨hwidth, hheight⟩ := paint_size h.paints hcanvas hpaint
    obtain ⟨hwide, hhigh⟩ := h.paints.stretch_size canvas face.width face.height
    refine { h with size := ?_, surface := ?_, fresh := ?_ }
    · rintro _ ⟨⟩
      rw [hwide, hhigh]
      exact h.size face hface
    · rintro _ -
      exact ⟨canvas, rfl, by rw [hwidth, hheight]; exact hsurface⟩
    · rintro hw hh _ f' ⟨⟩ ⟨⟩ hf
      obtain ⟨image, hok, hshows⟩ := h.paint hw hh hface hf
      cases hpaint.symm.trans hok
      exact hshows

theorem obey (h : w.Sound) (c : Call) : (w.obey c).Sound := by
  cases c with
  | openOn windows => exact h.openOn windows
  | close =>
    show w.close.Sound
    unfold close
    split
    · exact { h with size := nofun, surface := nofun, fresh := nofun }
    · exact h
  | present f => exact h.present f
  | poll =>
    rw [obey_poll]
    split
    · exact { h with }
    · exact h
  | receive e =>
    obtain ⟨events, he⟩ := w.obey_receive_frame e
    rw [he]
    exact { h with }
  | setLayout layout => exact { h with }

theorem live (h : w.Sound) (cs : List Call) : (w.live cs).Sound :=
  List.foldlRecOn (motive := Sound) cs _ h fun _ hw c _ => hw.obey c

/-- A frame of the window's size is shown afterwards, even if it was not painted. -/
theorem present_spec (h : w.Sound) (hw : 0 < w.width) (hh : 0 < w.height) (hopen : w.isOpen = true)
    (hf : f.HasSize w.width.toNat w.height.toNat) :
    (w.present f).2 = none ∧
      (w.present f).1.frames + (w.present f).1.skipped = w.frames + w.skipped + 1 ∧
      ∃ face, (w.present f).1.face = some face ∧
        face.Agrees ((picture w.width.toNat w.height.toNat f).magnify w.scale) := by
  have hpresenting := w.presenting f
  generalize w.present f = out at hpresenting
  cases hpresenting with
  | unseen hface =>
    rw [isOpen, hface] at hopen
    cases hopen
  | skipped hface hlast => exact ⟨rfl, rfl, _, hface, h.fresh hw hh _ f hface hlast hf⟩
  | refused hface _ hpaint =>
    obtain ⟨image, hok, -⟩ := h.paint hw hh hface hf
    cases hpaint.symm.trans hok
  | painted hface _ hpaint =>
    obtain ⟨image, hok, hshows⟩ := h.paint hw hh hface hf
    cases hpaint.symm.trans hok
    exact ⟨rfl, Nat.add_right_comm _ _ _, _, rfl, hshows⟩

end Sound

theorem sound_new {kit : Toolkit} {scale width height : Int} (hkit : kit.Paints)
    (hfits : kit.Fits width height (max 1 scale)) (layout : KeyLayout) :
    (new kit layout scale width height).Sound where
  paints := hkit
  fits := by
    have hscale : ((max 1 scale).toNat : Int) = max 1 scale := Int.toNat_of_nonneg (by omega)
    show kit.Fits width height ((max 1 scale).toNat : Int)
    rwa [hscale]
  scale_pos := by show 0 < (max 1 scale).toNat; omega
  size := nofun
  surface := nofun
  fresh := nofun

/-- Whatever has been done with a window, a frame of its size is taken while it is open, painted or
passed over, and the window shows this frame afterwards, each byte as a square of the scale. -/
theorem present_shows {kit : Toolkit} (hkit : kit.Paints) {width height : Nat} (hw : 0 < width)
    (hh : 0 < height) {scale : Int} (hfits : kit.Fits width height (max 1 scale))
    (layout : KeyLayout) (calls : List Call) {f : Frame} (hf : f.HasSize width height) :
    let w := (new kit layout scale width height).live calls
    let c := (max 1 scale).toNat
    w.isOpen = true →
      let shown := (w.present f).1
      (w.present f).2 = none ∧ shown.frames + shown.skipped = w.frames + w.skipped + 1 ∧
      ∃ face, shown.face = some face ∧ face.width = c * width ∧ face.height = c * height ∧
        ∀ x y : Nat, x < c * width → y < c * height →
          face.cell x y = if f.byte (x / c) (y / c) ≠ 0 then foreground else background := by
  intro w c hopen shown
  have hsound : w.Sound := (sound_new hkit hfits layout).live calls
  have hshape : w.shape = (kit, c, (width : Int), (height : Int)) := shape_live _ calls
  simp only [shape, Prod.mk.injEq] at hshape
  obtain ⟨-, hscale, hwidth, hheight⟩ := hshape
  have hspec := hsound.present_spec (f := f) (by omega) (by omega) hopen
  rw [hwidth, hheight, hscale, Int.toNat_natCast, Int.toNat_natCast] at hspec
  obtain ⟨hnone, hcount, face, hface, hagrees⟩ := hspec hf
  exact ⟨hnone, hcount, face, hface, hagrees.width, hagrees.height, hagrees.cell⟩

/-- The frame is passed over, after one that was refused and an attempt to open that failed, and is
shown. -/
theorem present_shows_of_skipped :
    let f : Frame := [[0, 1], [255, 0]]
    let calls : List Call := [.openOn .ready, .present [[1, 1, 1]], .present f,
      .openOn (.unavailable "busy"), .poll]
    let w := (new Desktop.toolkit .standard 3 2 2).live calls
    Desktop.toolkit.Fits 2 2 3 ∧ f.HasSize 2 2 ∧ w.isOpen = true ∧ (w.present f).2 = none ∧
      (w.present f).1.skipped = 1 ∧ ∃ face, (w.present f).1.face = some face ∧
        face.width = 6 ∧ face.height = 6 ∧ face.cell 4 1 = ⟨255, 255, 255⟩ ∧
        face.cell 4 3 = ⟨0, 0, 0⟩ := by
  intro f calls w
  have hfits : Desktop.toolkit.Fits 2 2 3 :=
    Desktop.fits (by decide) (by decide) (by decide) (by decide) (by decide)
  have hf : f.HasSize 2 2 := ⟨rfl, by decide⟩
  have hopen : w.isOpen = true := by decide +kernel
  obtain ⟨hnone, -, face, hface, hwidth, hheight, hcells⟩ :=
    present_shows Desktop.paints (by decide) (by decide) hfits .standard calls hf hopen
  refine ⟨hfits, hf, hopen, hnone, by decide +kernel, face, hface, hwidth, hheight, ?_, ?_⟩
  · exact hcells 4 1 (by decide) (by decide)
  · exact hcells 4 3 (by decide) (by decide)

end ChipEight.Window
