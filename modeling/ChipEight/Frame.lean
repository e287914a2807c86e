/-! # Frames

A frame is a picture as it is handed to a renderer: one list of bytes per column, from left to
right, each from top to bottom. A byte other than zero is a lit pixel. `Frame.render` writes a frame
as rows of text.
-/

namespace ChipEight

abbrev Frame := List (List UInt8)

namespace Frame

/-- A frame with a column too short for the rows that the first column gives. -/
inductive RenderError
  | shortColumn
deriving DecidableEq, Repr

/-- What row `y` shows, one text per column, unless a column ends above it. -/
def row? (on off : String) (y : Nat) (columns : List (Array UInt8)) : Option (List String) :=
  columns.mapM fun column => column[y]?.map fun b => if b ≠ 0 then on else off

/-- The rows, as many as the first column has bytes. Longer columns are cut. -/
def rows? (on off : String) (f : Frame) : Option (List String) :=
  match f with
  | [] => some []
  | first :: _ =>
    let columns := f.map List.toArray
    (List.range first.length).mapM fun y => (row? on off y columns).map String.join

/-- The rows, joined by line feeds. -/
def render (f : Frame) (on off : String) : Except RenderError String :=
  match f.rows? on off with
  | none => .error .shortColumn
  | some rows => .ok (String.intercalate "\n" rows)

end Frame

end ChipEight
