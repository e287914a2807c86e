import ChipEight.Machine.Step
import ChipEight.Proofs.Machine.Tick

/-! # Events

The life of a machine as a list: instructions, ticks of the timers and keys, in any order
(`Machine.run`), and what its owner may do besides, loading programs and writing to memory
(`Machine.live`). An instruction that ends in an error is an event like any other, after which the
machine goes on. `Machine.stepping` are the machines on which a run executes its instructions. Ticks
and keys, which come between, leave the `core` of a machine as it is.
-/

namespace ChipEight

inductive Event
  /-- One instruction. -/
  | step
  /-- One step of the timers. -/
  | tick
  /-- A key goes up or down. -/
  | key (e : KeyEvent)
deriving DecidableEq

inductive Action
  | event (e : Event)
  | load (program : List UInt8)
  | write (address value : Int)

namespace Machine

def on (m : Machine) : Event → Machine
  | .step => m.step.1
  | .tick => m.tick
  | .key e => m.keySet e.key e.down

def run (m : Machine) (es : List Event) : Machine := es.foldl on m

/-- A program that is refused changes nothing. -/
def act (m : Machine) : Action → Machine
  | .event e => m.on e
  | .load program =>
    match m.load program with
    | .ok m' => m'
    | .error _ => m
  | .write address value => { m with memory := m.memory.write address value }

def live (m : Machine) (as : List Action) : Machine := as.foldl act m

/-- The machines that the instructions of a run start from, in order. -/
def stepping (m : Machine) : List Event → List Machine
  | [] => []
  | .step :: es => m :: m.step.1.stepping es
  | e :: es => (m.on e).stepping es

/-- What the outside does not reach but through the instructions that read it: all of a machine but
its timers, keys, random bytes, audio and key wait. -/
structure Core where
  memory : Memory
  v : Vector Int 16
  i : Int
  pc : Int
  stack : List Int
  screen : Screen
  cycles : Nat

def core (m : Machine) : Core := ⟨m.memory, m.v, m.i, m.pc, m.stack, m.screen, m.cycles⟩

section
variable (m : Machine)

theorem run_cons (e : Event) (es : List Event) : m.run (e :: es) = (m.on e).run es := rfl

theorem run_append (es fs : List Event) : m.run (es ++ fs) = (m.run es).run fs := List.foldl_append

theorem stepping_cons_of_ne {e : Event} (he : e ≠ .step) (es : List Event) :
    m.stepping (e :: es) = (m.on e).stepping es := by
  cases e with
  | step => exact absurd rfl he
  | tick => rfl
  | key e => rfl

theorem stepping_append (es fs : List Event) :
    m.stepping (es ++ fs) = m.stepping es ++ (m.run es).stepping fs := by
  induction es generalizing m with
  | nil => rfl
  | cons e es ih =>
    by_cases he : e = .step
    · subst he
      rw [List.cons_append, stepping, stepping, ih, List.cons_append]; rfl
    · rw [List.cons_append, stepping_cons_of_ne m he, stepping_cons_of_ne m he, ih, run_cons]

theorem length_stepping (es : List Event) : (m.stepping es).length = es.count .step := by
  induction es generalizing m with
  | nil => rfl
  | cons e es ih =>
    by_cases he : e = .step
    · rw [he, stepping, List.length_cons, ih, List.count_cons_self]
    · rw [stepping_cons_of_ne m he, ih, List.count_cons_of_ne he]

theorem core_tick : m.tick.core = m.core := by rw [tick_eq]; rfl

theorem core_on_of_ne {e : Event} (he : e ≠ .step) : (m.on e).core = m.core := by
  cases e with
  | step => exact absurd rfl he
  | tick => exact m.core_tick
  | key e => rfl

end

end Machine

end ChipEight
