import ChipEight.Frame
import ChipEight.Word

/-! # The screen

A grid of pixels, kept column by column. `Screen.draw` exclusive-ors a sprite into it: each row byte
is eight pixels wide, its high bit at the left. Pixels past the right or the lower edge are clipped.
Coordinates may be negative: those down to minus the size count from the end, and one further out
ends the drawing when a set bit reaches it. What was drawn before then stays.

The pixels that a drawing reaches, `strokes`, do not depend on what the screen shows.
-/

namespace ChipEight

structure Screen where
  width : Int
  height : Int
  columns : Array (Array Bool)
deriving DecidableEq

namespace Screen

inductive SizeError
  | negativeHeight
  /-- A height beyond 64 bits. -/
  | oversize
  /-- There is no room for a single column. -/
  | memory
deriving DecidableEq, Repr

def SizeError.message? : SizeError → Option String
  | .negativeHeight => some "negative count"
  | _ => none

/-- A dark screen. Without columns the height may be any number. -/
def blank (width height : Int) : Screen :=
  ⟨width, height,
    if 0 < width then Array.replicate width.toNat (Array.replicate height.toNat false) else #[]⟩

/-- A dark screen. A negative width means that there are no columns; the height is looked at if
there are any. -/
def ofSize (width height : Int) : Except SizeError Screen :=
  if width ≤ 0 then .ok (blank width height)
  else if ¬Fits64 height then .error .oversize
  else if height < 0 then .error .negativeHeight
  else if 0x1000000000 ≤ height then .error .memory
  else .ok (blank width height)

def clear (s : Screen) : Screen := blank s.width s.height

/-- The columns have the size that the screen says. -/
structure WellFormed (s : Screen) : Prop where
  size_columns : s.columns.size = s.width.toNat
  size_column : ∀ column ∈ s.columns, column.size = s.height.toNat

/-- The place that coordinate `i` names among `n`, counting from the end if it is negative. -/
def place? (n : Nat) (i : Int) : Option Nat :=
  if 0 ≤ i ∧ i < n then some i.toNat
  else if i < 0 ∧ -(n : Int) ≤ i then some (i + n).toNat
  else none

/-- Column and row of the pixel at `(x, y)`, if there is one. -/
def cell? (s : Screen) (x y : Int) : Option (Nat × Nat) := do
  let i ← place? s.columns.size x
  let j ← place? (s.columns.getD i #[]).size y
  return (i, j)

def lit (s : Screen) (i j : Nat) : Bool := (s.columns.getD i #[]).getD j false

def pixel? (s : Screen) (x y : Int) : Option Bool :=
  (s.cell? x y).map fun c => s.lit c.1 c.2

def flip (s : Screen) (i j : Nat) : Screen :=
  { s with columns := s.columns.modify i (·.modify j (!·)) }

/-- The coordinates of the set bits of one row byte at `(x, y)`, from left to right. -/
def rowStrokes (width x y : Int) (bits : Nat) : List (Int × Int) :=
  ((List.range 8).filter fun (dx : Nat) => x + dx < width && bits.testBit (7 - dx)).map
    fun (dx : Nat) => (x + dx, y)

/-- The pixels that a sprite reaches with its corner at `(x, y)`, row by row, clipped at the right
and the lower edge. -/
def strokes (width height x y : Int) (rows : List Nat) : List (Int × Int) :=
  (rows.take (height - y).toNat).zipIdx.flatMap fun (bits, dy) => rowStrokes width x (y + dy) bits

/-- A screen after drawing: whether a lit pixel went dark, and whether the drawing left the screen
and ended there. -/
structure Drawing where
  screen : Screen
  collided : Bool
  offScreen : Bool
deriving DecidableEq

/-- Flips pixels in turn, as far as the screen has them; `collided` is what happened before. -/
def flipAll (collided : Bool) (s : Screen) : List (Int × Int) → Drawing
  | [] => ⟨s, collided, false⟩
  | (x, y) :: rest =>
    match s.cell? x y with
    | none => ⟨s, collided, true⟩
    | some (i, j) => flipAll (collided || s.lit i j) (s.flip i j) rest

def draw (s : Screen) (x y : Int) (rows : List Nat) : Drawing :=
  flipAll false s (strokes s.width s.height x y rows)

def frame (s : Screen) : Frame := s.columns.toList.map (·.toList.map fun b => if b then 1 else 0)

def litCount (s : Screen) : Nat := s.columns.foldl (fun lit column => lit + column.count true) 0

theorem blank_wellFormed (width height : Int) : (blank width height).WellFormed where
  size_columns := by
    unfold blank
    split
    · simp
    · simp only [Array.size_empty]; omega
  size_column := by
    unfold blank
    split <;> simp +contextual [Array.mem_replicate]

theorem WellFormed.flip {s : Screen} (h : s.WellFormed) (i j : Nat) : (s.flip i j).WellFormed where
  size_columns := by simp [Screen.flip, h.size_columns]
  size_column := by
    intro column hc
    obtain ⟨k, hk, rfl⟩ := Array.mem_iff_getElem.1 hc
    simp only [Screen.flip] at hk ⊢
    rw [Array.getElem_modify]
    split
    · rw [Array.size_modify]; exact h.size_column _ (Array.getElem_mem _)
    · exact h.size_column _ (Array.getElem_mem _)

end Screen

end ChipEight
