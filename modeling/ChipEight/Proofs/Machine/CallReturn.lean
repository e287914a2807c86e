import ChipEight.Proofs.Machine.Event
import ChipEight.Proofs.Machine.Step
import Mathlib.Data.List.Infix

/-! # Calls and returns

A call puts its return address on the stack, and the entries from there down stay as they are for as
long as the stack is deeper than before the call, whatever the program does. What brings the stack
back to its old depth is the return that goes with the call (`run_call`).
-/

namespace ChipEight.Machine

variable {m : Machine} {r : Int} {s : List Int}

theorem stack_on_of_ne (m : Machine) {e : Event} (he : e ≠ .step) : (m.on e).stack = m.stack :=
  congrArg Core.stack (m.core_on_of_ne he)

/-- One event above the entry `r`: it stays, or a return takes it off the stack. -/
theorem on_of_suffix (h : r :: s <:+ m.stack) (e : Event) :
    r :: s <:+ (m.on e).stack ∨
      e = .step ∧ m.opcodeAt.val = 0x00EE ∧ m.step.2 = none ∧
        (m.on e).stack = s ∧ (m.on e).pc = r := by
  by_cases he : e = .step
  · subst he
    rcases m.step_stack with hs | ⟨-, -, hs⟩ | ⟨hret, hok, hs⟩
    · left
      show r :: s <:+ m.step.1.stack
      rw [hs]; exact h
    · left
      show r :: s <:+ m.step.1.stack
      rw [hs]; exact h.trans (List.suffix_cons ..)
    · rw [hs] at h
      rcases List.suffix_cons_iff.1 h with heq | h
      · obtain ⟨rfl, rfl⟩ := List.cons.inj heq
        exact .inr ⟨rfl, hret, hok, rfl, rfl⟩
      · exact .inl h
  · left
    rw [stack_on_of_ne m he]; exact h

theorem run_of_suffix (h : r :: s <:+ m.stack) (es : List Event)
    (hdeep : ∀ fs, fs <+: es → s.length < (m.run fs).stack.length) :
    r :: s <:+ (m.run es).stack := by
  induction es generalizing m with
  | nil => exact h
  | cons e es ih =>
    have hnext : r :: s <:+ (m.on e).stack := by
      rcases on_of_suffix h e with h | ⟨-, -, -, hs, -⟩
      · exact h
      · have hlt : s.length < (m.on e).stack.length := hdeep [e] ⟨es, rfl⟩
        rw [hs] at hlt
        exact absurd hlt (Nat.lt_irrefl _)
    exact ih hnext fun fs hfs => hdeep (e :: fs) (List.cons_prefix_cons.2 ⟨rfl, hfs⟩)

theorem step_call (hcall : m.opcodeAt.kind = 0x2) (hok : m.step.2 = none) :
    m.step.1.stack = (low16 (m.pc + 2) : Int) :: m.stack := by
  have hdec : Instruction.decode m.opcodeAt = .call m.opcodeAt.nnn :=
    Instruction.decode_eq_call_iff.2 ⟨hcall, rfl⟩
  simp only [step_eq, executed, hdec, execute_call] at hok ⊢
  by_cases hfull : stackDepth ≤ m.advance.stack.length
  · rw [if_pos hfull] at hok; cases hok
  · rw [if_neg hfull]; rfl

/-- While the stack is deeper than before a call, the return address of the call and all that was
below it are still there, and only a return brings the stack back: to what it was, behind the
call. -/
theorem run_call (hcall : m.opcodeAt.kind = 0x2) (hok : m.step.2 = none) (es : List Event)
    (hdeep : ∀ fs, fs <+: es → m.stack.length < (m.step.1.run fs).stack.length) :
    (low16 (m.pc + 2) : Int) :: m.stack <:+ (m.step.1.run es).stack ∧
      ∀ e, ((m.step.1.run es).on e).stack.length ≤ m.stack.length →
        e = .step ∧ (m.step.1.run es).opcodeAt.val = 0x00EE ∧ (m.step.1.run es).step.2 = none ∧
          ((m.step.1.run es).on e).stack = m.stack ∧
          ((m.step.1.run es).on e).pc = low16 (m.pc + 2) := by
  have hpush : (low16 (m.pc + 2) : Int) :: m.stack <:+ m.step.1.stack := by
    rw [step_call hcall hok]
  have hrun := run_of_suffix hpush es hdeep
  refine ⟨hrun, fun e hle => ?_⟩
  rcases on_of_suffix hrun e with hstay | hret
  · have hlt := hstay.length_le
    simp only [List.length_cons] at hlt
    omega
  · exact hret

/-- A subroutine that calls another one, with a tick on the way. -/
theorem run_call_nested :
    let m := (fresh .silent .zeros).act
      (.load [0x22, 0x04, 0x00, 0x00, 0x22, 0x08, 0x00, 0xEE, 0x00, 0xEE])
    m.opcodeAt.kind = 0x2 ∧ m.step.2 = none ∧
      [(0x202 : Int)] <:+ (m.step.1.run [.step, .tick, .step]).stack ∧
      (m.step.1.run [.step, .tick, .step]).opcodeAt.val = 0x00EE ∧
      ((m.step.1.run [.step, .tick, .step]).on .step).pc = 0x202 := by
  intro m
  have hm : m.opcodeAt.kind = 0x2 ∧ m.step.2 = none ∧
      (∀ fs ∈ List.inits [Event.step, .tick, .step],
        m.stack.length < (m.step.1.run fs).stack.length) ∧
      ((m.step.1.run [.step, .tick, .step]).on .step).stack.length ≤ m.stack.length := by
    decide +kernel
  obtain ⟨hcall, hok, hdeep, hback⟩ := hm
  obtain ⟨hsuf, hret⟩ := run_call hcall hok [.step, .tick, .step] fun fs hfs =>
    hdeep fs ((List.mem_inits fs _).2 hfs)
  obtain ⟨-, hop, -, -, hpc⟩ := hret .step hback
  exact ⟨hcall, hok, hsuf, hop, hpc⟩

end ChipEight.Machine
