/-! # Toolkits

What a host offers to a program with a window: the window itself, surfaces to paint on, images that
are copied and stretched, and names for its keys. All of it is the toolkit's own affair, so a window
is given one and asks nothing else of the host.
-/

namespace ChipEight

structure Colour where
  red : UInt8
  green : UInt8
  blue : UInt8
deriving DecidableEq, Repr

/-- Cells in columns and rows. What `cell` says of places outside is of no concern. -/
structure Grid (α : Type) where
  width : Nat
  height : Nat
  cell : Nat → Nat → α

namespace Grid

def filled {α : Type} (width height : Nat) (a : α) : Grid α := ⟨width, height, fun _ _ => a⟩

def map {α β : Type} (f : α → β) (g : Grid α) : Grid β :=
  ⟨g.width, g.height, fun x y => f (g.cell x y)⟩

end Grid

abbrev Image := Grid Colour

namespace Toolkit

/-- Why a toolkit does not do what it is asked to do. -/
inductive Error
  /-- It says so itself. -/
  | refused (text : String)
  /-- It does not take such a value. -/
  | value (text : String)
  /-- Anything else. -/
  | other (kind : String)
deriving DecidableEq, Repr

def Error.message? : Error → Option String
  | .value text => some text
  | _ => none

end Toolkit

structure Toolkit where
  /-- Opens a window that can be resized, asked for a width and a height. The size that it has. -/
  openWindow : Int → Int → Except Toolkit.Error (Nat × Nat)
  /-- A surface of a width and a height. -/
  newSurface : Int → Int → Except Toolkit.Error Image
  /-- Shares out bytes among so many columns, one column after the other. -/
  shareOut : List UInt8 → Nat → Except Toolkit.Error (Grid UInt8)
  /-- The surface with an image copied onto it. -/
  blit : Image → Image → Except Toolkit.Error Image
  /-- The image stretched to a width and a height. -/
  stretch : Image → Nat → Nat → Image
  /-- What the key of a code is called. -/
  keyName : Int → String
  /-- The code of the Escape key. -/
  escape : Int

end ChipEight
