import ChipEight.Machine.Step
import ChipEight.Proofs.Instruction.Decode

/-! # What a step does

A step executes what is decoded at the program counter, which has moved on by then, and counts it if
it succeeds (`step_eq`). Of the instructions only `2NNN` and `00EE` touch the call stack, by one
entry at its top, and either not at all or as they should (`step_stack`).
-/

namespace ChipEight.Machine

variable (m : Machine)

/-- What the instruction at the program counter leaves, and its error, before it is counted. -/
def executed : Machine × Option Error := m.advance.execute (.decode m.opcodeAt)

theorem step_eq :
    m.step =
      ({ m.executed.1 with
          cycles := m.executed.1.cycles + if m.executed.2.isNone then 1 else 0 },
        m.executed.2) := by
  unfold step executed
  split
  next heq => rw [heq]; rfl
  next heq => rw [heq]; rfl

theorem error_step : m.step.2 = m.executed.2 := by rw [step_eq]

theorem step_of_error {n : Machine} {e : Error} (h : m.executed = (n, some e)) :
    m.step = (n, some e) := by
  rw [step_eq, h]
  rfl

theorem step_of_ok {n : Machine} (h : m.executed = (n, none)) :
    m.step = ({ n with cycles := n.cycles + 1 }, none) := by
  rw [step_eq, h]
  rfl

theorem get_setV (x r : Register) (value : Int) :
    (m.setV x value).v.get r = if r = x then value else m.v.get r := by
  show (m.v.set x value x.lt)[r] = if r = x then value else m.v[r]
  simp only [Fin.getElem_fin, Vector.getElem_set, Fin.ext_iff, eq_comm]

theorem get_setFlagged (flag : Bool) (x r : Register) (value : Int) :
    (m.setFlagged flag x value).v.get r =
      if r = x then value else if r = 0xF then flag.toNat else m.v.get r := by
  rw [setFlagged, get_setV, get_setV]

theorem execute_ret :
    m.execute .ret =
      match m.stack with
      | [] => (m, some (.fault (.stackUnderflow m.fetchedFrom)))
      | a :: rest => ({ m with pc := a, stack := rest }, none) := by
  cases hs : m.stack <;> simp only [execute, pop, hs]

theorem execute_call (nnn : Address) :
    m.execute (.call nnn) =
      if stackDepth ≤ m.stack.length then (m, some (.fault (.stackOverflow m.fetchedFrom)))
      else ({ m with pc := nnn, stack := m.pc :: m.stack }, none) := by
  by_cases hfull : stackDepth ≤ m.stack.length <;> simp only [execute, push, hfull, ↓reduceIte]

theorem stack_skipIf (c : Bool) : (m.skipIf c).stack = m.stack := by
  unfold skipIf; split <;> rfl

theorem stack_execute {ins : Instruction} (hret : ins ≠ .ret) (hcall : ∀ nnn, ins ≠ .call nnn) :
    (m.execute ins).1.stack = m.stack := by
  cases ins with
  | ret => exact absurd rfl hret
  | call nnn => exact absurd rfl (hcall nnn)
  | seByte | sneByte | se | sne | skp | sknp => exact m.stack_skipIf _
  | alu op => cases op <;> rfl
  | drw => simp only [execute, executeDraw]; split <;> rfl
  | misc op =>
    cases op with
    | waitKey => simp only [execute, executeMisc, waitKey]; split <;> rfl
    | _ => rfl
  | _ => rfl

/-- An instruction other than a key wait leaves the keypad and the audio alone, and whether the
machine waits. -/
theorem execute_frame {ins : Instruction} (hwait : ∀ x, ins ≠ .misc .waitKey x) :
    ∃ memory v i pc stack delay sound screen random,
      (m.execute ins).1 = { m with memory, v, i, pc, stack, delay, sound, screen, random } := by
  cases ins with
  | seByte | sneByte | se | sne | skp | sknp =>
    simp only [execute, skipIf]
    split <;> exact ⟨_, _, _, _, _, _, _, _, _, rfl⟩
  | ret => rw [execute_ret]; split <;> exact ⟨_, _, _, _, _, _, _, _, _, rfl⟩
  | call => rw [execute_call]; split <;> exact ⟨_, _, _, _, _, _, _, _, _, rfl⟩
  | drw => simp only [execute, executeDraw]; split <;> exact ⟨_, _, _, _, _, _, _, _, _, rfl⟩
  | alu op => cases op <;> exact ⟨_, _, _, _, _, _, _, _, _, rfl⟩
  | misc op x =>
    cases op with
    | waitKey => exact absurd rfl (hwait x)
    | _ => exact ⟨_, _, _, _, _, _, _, _, _, rfl⟩
  | _ => exact ⟨_, _, _, _, _, _, _, _, _, rfl⟩

/-- The call stack after a step: as it was, or after a call, or after a return. -/
theorem step_stack :
    m.step.1.stack = m.stack ∨
      (m.opcodeAt.kind = 0x2 ∧ m.step.2 = none ∧
        m.step.1.stack = (low16 (m.pc + 2) : Int) :: m.stack) ∨
      (m.opcodeAt.val = 0x00EE ∧ m.step.2 = none ∧
        m.stack = m.step.1.pc :: m.step.1.stack) := by
  simp only [step_eq, executed]
  by_cases hret : Instruction.decode m.opcodeAt = .ret
  · rw [hret, execute_ret]
    cases hs : m.stack with
    | nil => left; simp only [advance, hs]
    | cons a rest =>
      right; right
      have hs' : m.advance.stack = a :: rest := hs
      rw [hs']
      exact ⟨Instruction.decode_eq_ret_iff.1 hret, rfl, rfl⟩
  by_cases hcall : ∃ nnn, Instruction.decode m.opcodeAt = .call nnn
  · obtain ⟨nnn, hcall⟩ := hcall
    rw [hcall, execute_call]
    by_cases hfull : stackDepth ≤ m.advance.stack.length
    · left; rw [if_pos hfull]; rfl
    · right; left
      rw [if_neg hfull]
      exact ⟨(Instruction.decode_eq_call_iff.1 hcall).1, rfl, rfl⟩
  · left
    exact stack_execute _ hret fun nnn h => hcall ⟨nnn, h⟩

end ChipEight.Machine
