import ChipEight.Word

/-! # The keypad

Sixteen keys, each up or down. A key is named by any integer, of which the low four bits count.
-/

namespace ChipEight

structure Keypad where
  latches : Vector Bool 16
deriving DecidableEq

structure KeyEvent where
  key : Int
  down : Bool
deriving DecidableEq, Repr

namespace KeyEvent

/-- The event with its key named by four bits. -/
def masked (e : KeyEvent) : KeyEvent := { e with key := (nibble e.key).val }

end KeyEvent

namespace Keypad

def released : Keypad := ⟨Vector.replicate 16 false⟩

def isDown (k : Keypad) (key : Int) : Bool := k.latches.get (nibble key)

def set (k : Keypad) (key : Int) (down : Bool) : Keypad := ⟨k.latches.set (nibble key) down⟩

def apply (k : Keypad) (e : KeyEvent) : Keypad := k.set e.key e.down

def keysDown (k : Keypad) : List (Fin 16) := (List.finRange 16).filter k.latches.get

def firstDown? (k : Keypad) : Option (Fin 16) := k.keysDown.head?

end Keypad

end ChipEight
