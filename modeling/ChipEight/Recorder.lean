import ChipEight.Frame
import ChipEight.Keypad
import ChipEight.Word

/-! # Recorders

A recorder shows nothing. It counts the frames that it is handed and keeps the last of them, as many
as its capacity says, and it hands on the key events that it was given.
-/

namespace ChipEight

structure Recorder where
  /-- How many frames are kept; all of them if there is no number. -/
  capacity : Option Nat
  /-- The frames kept, the oldest first. -/
  kept : List Frame
  frames : Nat
  quitRequested : Bool
  events : List KeyEvent

namespace Recorder

inductive CapacityError
  | negative
  /-- A number beyond 64 bits. -/
  | oversize
deriving DecidableEq, Repr

def CapacityError.message? : CapacityError → Option String
  | .negative => some "maxlen must be non-negative"
  | .oversize => none

def usualCapacity : Nat := 120

def new (capacity : Option Nat) : Recorder := ⟨capacity, [], 0, false, []⟩

def ofCapacity : Option Int → Except CapacityError Recorder
  | none => .ok (new none)
  | some n =>
    if ¬Fits64 n then .error .oversize
    else if n < 0 then .error .negative
    else .ok (new (some n.toNat))

/-- The last frames, as many as may be kept. -/
def keepLast (capacity : Option Nat) (frames : List Frame) : List Frame :=
  match capacity with
  | none => frames
  | some n => frames.drop (frames.length - n)

def present (r : Recorder) (f : Frame) : Recorder :=
  { r with kept := keepLast r.capacity (r.kept ++ [f]), frames := r.frames + 1 }

def last? (r : Recorder) : Option Frame := r.kept.getLast?

def receive (r : Recorder) (e : KeyEvent) : Recorder := { r with events := r.events ++ [e] }

def poll (r : Recorder) : List KeyEvent × Recorder := (r.events, { r with events := [] })

end Recorder

end ChipEight
