import ChipEight.Desktop.Keys
import ChipEight.Window

/-! # The toolkit of a desktop

Sizes are signed numbers of 32 bits, whatever was asked for, so that a window may come out smaller
than it was meant to be. An image that is one pixel wide or high is repeated over a surface that is
wider or higher. Each pixel of a stretched image shows the pixel that lies at the same fraction of
the width and of the height.
-/

namespace ChipEight.Desktop

/-- The longest side of a window. -/
def maxSide : Int := 16384

/-- The size of a window when nothing is asked for. -/
def size : Nat × Nat := (1024, 768)

/-- A side of zero becomes one. -/
def openWindow (width height : Int) : Except Toolkit.Error (Nat × Nat) :=
  let w := signed32 width
  let h := signed32 height
  if ¬(Fits64 width ∧ Fits64 height) then .error (.other "type")
  else if w < 0 ∨ h < 0 then .error (.refused "Cannot set negative sized display mode")
  else if w = 0 ∧ h = 0 then .ok size
  else if maxSide < w ∨ maxSide < h then .error (.refused "Window is too large.")
  else .ok (max 1 w.toNat, max 1 h.toNat)

/-- A pixel takes four bytes, a row has less than 2 to the 31 of them, and for 2 to the 36 there is
no room. -/
def newSurface (width height : Int) : Except Toolkit.Error Image :=
  let w := signed32 width
  let h := signed32 height
  if w < 0 ∨ h < 0 then .error (.refused "Invalid resolution for Surface")
  else if 0x80000000 ≤ 4 * w ∨ 0x1000000000 ≤ 4 * w * h then .error (.refused "Out of memory")
  else .ok (.filled w.toNat h.toNat ⟨0, 0, 0⟩)

def shareOut (bytes : List UInt8) (columns : Nat) : Except Toolkit.Error (Grid UInt8) :=
  if columns = 0 ∨ bytes.length % columns ≠ 0 then
    .error (.value ("cannot reshape array of size " ++ toString bytes.length ++ " into shape (" ++
      toString columns ++ ",newaxis)"))
  else
    let rows := bytes.length / columns
    let cells := bytes.toArray
    .ok ⟨columns, rows, fun x y => cells.getD (x * rows + y) 0⟩

/-- The sides agree, where a side of one pixel counts as any. -/
def Alike (surface image : Image) : Prop :=
  (image.width = surface.width ∨ image.width = 1) ∧
    (image.height = surface.height ∨ image.height = 1)

instance (surface image : Image) : Decidable (Alike surface image) :=
  inferInstanceAs (Decidable (_ ∧ _))

def blit (surface image : Image) : Except Toolkit.Error Image :=
  if Alike surface image then
    .ok ⟨surface.width, surface.height, fun x y =>
      image.cell (if image.width = 1 then 0 else x) (if image.height = 1 then 0 else y)⟩
  else .error (.value "array must match surface dimensions")

/-- An image without pixels shows as black. -/
def stretch (image : Image) (width height : Nat) : Image :=
  ⟨width, height, fun x y =>
    if image.width = 0 ∨ image.height = 0 then ⟨0, 0, 0⟩
    else image.cell (x * image.width / width) (y * image.height / height)⟩

def toolkit : Toolkit where
  openWindow := openWindow
  newSurface := newSurface
  shareOut := shareOut
  blit := blit
  stretch := stretch
  keyName := Keys.name
  escape := Keys.escape

inductive PixelError
  | closed
  /-- A coordinate beyond 32 bits. -/
  | oversize
  | outside
deriving DecidableEq, Repr

/-- The colour of the window pixel at `(x, y)`. -/
def pixel (w : Window) (x y : Int) : Except PixelError Colour :=
  match w.face with
  | none => .error .closed
  | some face =>
    if ¬(Fits32 x ∧ Fits32 y) then .error .oversize
    else if 0 ≤ x ∧ x < face.width ∧ 0 ≤ y ∧ y < face.height then .ok (face.cell x.toNat y.toNat)
    else .error .outside

end ChipEight.Desktop
