import ChipEight.Audio
import ChipEight.ByteSource
import ChipEight.Font
import ChipEight.Keypad
import ChipEight.Memory
import ChipEight.Opcode
import ChipEight.Screen

/-! # The machine

Memory, sixteen registers V0 to VF, the index I, the program counter, a call stack of at most
sixteen return addresses, two timers, and the devices that the machine owns.

Registers, addresses and timers are plain integers, and each instruction says which of its results
it reduces. `Machine.WellFormed` states the ranges that come out of well-formed machines; a machine
that was set up out of these ranges computes with its integers as they are.
-/

namespace ChipEight

def programStart : Nat := 0x200

/-- The largest program that fits between `programStart` and the end of memory. -/
def maxProgramSize : Nat := memorySize - programStart

def stackDepth : Nat := 16

def screenWidth : Nat := 64

def screenHeight : Nat := 32

structure Machine where
  memory : Memory
  v : Vector Int 16
  i : Int
  pc : Int
  /-- The return addresses, the latest first. -/
  stack : List Int
  delay : Int
  sound : Int
  screen : Screen
  keypad : Keypad
  audio : Audio
  random : ByteSource
  /-- The instructions executed without an error. -/
  cycles : Nat
  /-- The last key wait found no key. -/
  waiting : Bool

/-- Fatal errors of a program, each with the address of the instruction. -/
inductive Fault
  | stackUnderflow (pc : Nat)
  | stackOverflow (pc : Nat)
deriving DecidableEq, Repr

namespace Fault

def pc : Fault → Nat
  | .stackUnderflow pc => pc
  | .stackOverflow pc => pc

def message : Fault → String
  | .stackUnderflow pc => "RET with empty call stack @ " ++ Hex.literal 3 pc
  | .stackOverflow pc =>
    "CALL exceeds stack depth " ++ toString stackDepth ++ " @ " ++ Hex.literal 3 pc

end Fault

namespace Machine

/-- What ends a step. A sprite that leaves the screen cannot be drawn on a well-formed machine. -/
inductive Error
  | fault (f : Fault)
  | offScreen
deriving DecidableEq, Repr

structure Oversize where
  size : Nat
deriving DecidableEq, Repr

def Oversize.message (e : Oversize) : String :=
  "program is " ++ toString e.size ++ " bytes; at most " ++ toString maxProgramSize ++
    " bytes fit in " ++ toString memorySize ++ " bytes of memory"

/-- Copies glyphs into memory. Glyphs past the end of memory are dropped. -/
def loadFont (m : Machine) (font : List UInt8) : Machine :=
  { m with memory := m.memory.overlay Font.base font }

/-- A machine before its first instruction, with the font in memory. -/
def fresh (audio : Audio) (random : ByteSource) : Machine :=
  loadFont
    { memory := .empty
      v := Vector.replicate 16 0
      i := 0
      pc := programStart
      stack := []
      delay := 0
      sound := 0
      screen := .blank screenWidth screenHeight
      keypad := .released
      audio := audio
      random := random
      cycles := 0
      waiting := false }
    Font.glyphs

def load (m : Machine) (program : List UInt8) : Except Oversize Machine :=
  if program.length > maxProgramSize then .error ⟨program.length⟩
  else .ok { m with memory := m.memory.overlay programStart program }

def halted (m : Machine) : Bool := memorySize ≤ m.pc

def keySet (m : Machine) (key : Int) (down : Bool) : Machine :=
  { m with keypad := m.keypad.set key down }

/-- The address of the instruction that was fetched last. -/
def fetchedFrom (m : Machine) : Nat := low16 (m.pc - 2)

def push (m : Machine) (address : Int) : Except Fault Machine :=
  if stackDepth ≤ m.stack.length then .error (.stackOverflow m.fetchedFrom)
  else .ok { m with stack := address :: m.stack }

def pop (m : Machine) : Except Fault (Int × Machine) :=
  match m.stack with
  | [] => .error (.stackUnderflow m.fetchedFrom)
  | address :: rest => .ok (address, { m with stack := rest })

def opcodeAt (m : Machine) : Opcode := .ofBytes (m.memory.read m.pc) (m.memory.read (m.pc + 1))

def advance (m : Machine) : Machine := { m with pc := low16 (m.pc + 2) }

def fetch (m : Machine) : Opcode × Machine := (m.opcodeAt, m.advance)

/-- The ranges in which a program keeps its machine. -/
structure WellFormed (m : Machine) : Prop where
  memory_lt : ∀ a : Fin 4096, m.memory.cells[a] < 256
  v_mem : ∀ x : Register, 0 ≤ m.v[x] ∧ m.v[x] < 256
  i_mem : 0 ≤ m.i ∧ m.i < 65536
  pc_mem : 0 ≤ m.pc ∧ m.pc < 65536
  stack_le : m.stack.length ≤ stackDepth
  stack_mem : ∀ a ∈ m.stack, 0 ≤ a ∧ a < 65536
  delay_mem : 0 ≤ m.delay ∧ m.delay < 256
  sound_mem : 0 ≤ m.sound ∧ m.sound < 256
  screen_width : m.screen.width = screenWidth
  screen_height : m.screen.height = screenHeight
  screen_wellFormed : m.screen.WellFormed

end Machine

end ChipEight
