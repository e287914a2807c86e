import ChipEight.Machine.Trace

/-! # The records of a step

A step leaves the record of the instruction and, if it is a key wait that takes a key, the record of
that key (`stepRecords`). What the step does is the same whatever is logged (`stepLogged_eq`).
-/

namespace ChipEight

def Log.addAll (l : Log) (rs : List Log.Record) : Log := rs.foldl Log.add l

namespace Machine

def traceRecord (m : Machine) : Log.Record := ⟨.trace, .machine, m.traceMessage⟩

/-- The record of a key that was taken, with the register that got it. -/
def latchRecord (latch : Fin 16 × Register) : Log.Record :=
  ⟨.debug, .machine, latchMessage latch.1 latch.2⟩

/-- The key that the next step takes, with the register that gets it. -/
def latch? (m : Machine) : Option (Fin 16 × Register) :=
  match Instruction.decode m.opcodeAt with
  | .misc .waitKey x => m.keypad.firstDown?.map fun key => (key, x)
  | _ => none

/-- The records of the next step. -/
def stepRecords (m : Machine) : List Log.Record :=
  m.traceRecord :: (m.latch?.map latchRecord).toList

theorem executeLogged_waitKey (m : Machine) (log : Log) (x : Register) :
    m.executeLogged log (.misc .waitKey x) = (m.execute (.misc .waitKey x),
      log.addAll (m.keypad.firstDown?.map fun key => latchRecord (key, x)).toList) := by
  simp only [executeLogged, waitKeyLogged]
  cases m.keypad.firstDown? <;> rfl

theorem executeLogged_of_ne {instruction : Instruction} (h : ∀ x, instruction ≠ .misc .waitKey x)
    (m : Machine) (log : Log) :
    m.executeLogged log instruction = (m.execute instruction, log) := by
  unfold executeLogged
  split
  next x => exact absurd rfl (h x)
  · rfl

theorem executeLogged_advance (m : Machine) (log : Log) :
    m.advance.executeLogged log (.decode m.opcodeAt) =
      (m.advance.execute (.decode m.opcodeAt), log.addAll (m.latch?.map latchRecord).toList) := by
  unfold latch?
  split
  next x hdecode =>
    rw [hdecode, executeLogged_waitKey, Option.map_map]
    rfl
  next hne => exact executeLogged_of_ne hne m.advance log

/-- The log is written to and not looked at. -/
theorem stepLogged_eq (m : Machine) (log : Log) :
    m.stepLogged log = (m.step, log.addAll m.stepRecords) := by
  simp only [stepLogged, executeLogged_advance, step]
  rcases m.advance.execute (.decode m.opcodeAt) with ⟨m', _ | e⟩ <;> rfl

end Machine

end ChipEight
