import ChipEight.Proofs.Machine.WellFormed

/-! # How far the program counter gets

`Goes` are the ways on from an instruction. If the instruction lies in memory, the program counter
stays below `0x10FF` and what a call puts on the stack below `0x1002` (`Contained.step`): the
furthest jump is `BFFF` with `0xFF` in V0, and the furthest call is one at the last address. In
these bounds the program counter is advanced, and set back, without being reduced (`pc_exact`).
-/

namespace ChipEight.Machine

/-- Where the program counter may be after an instruction that was fetched. -/
inductive Goes (m : Machine) : Int → Prop
  | on : m.Goes m.pc
  | skip : m.Goes m.advance.pc
  | again : m.Goes m.fetchedFrom
  | jump (nnn : Address) : m.Goes nnn
  | jumpV0 (nnn : Address) : m.Goes (nnn + m.v.get 0)
  | back {a : Int} (mem : a ∈ m.stack) : m.Goes a

theorem goes_skipIf (m : Machine) (c : Bool) : m.Goes (m.skipIf c).pc := by
  unfold skipIf
  split
  · exact .skip
  · exact .on

theorem goes_execute (m : Machine) (ins : Instruction) : m.Goes (m.execute ins).1.pc := by
  cases ins with
  | jp nnn => exact .jump nnn
  | jpV0 nnn => exact .jumpV0 nnn
  | seByte | sneByte | se | sne | skp | sknp => exact m.goes_skipIf _
  | ret =>
    rw [execute_ret]
    split
    · exact .on
    next hs => exact .back (by rw [hs]; exact List.mem_cons_self ..)
  | call nnn =>
    rw [execute_call]
    split
    · exact .on
    · exact .jump nnn
  | drw => simp only [execute, executeDraw]; split <;> exact .on
  | alu op => cases op <;> exact .on
  | misc op =>
    cases op with
    | waitKey =>
      simp only [execute, executeMisc, waitKey]
      split
      · exact .again
      · exact .on
    | _ => exact .on
  | _ => exact .on

/-- The ranges in which a machine stays whose instructions all lie in memory. -/
structure Contained (m : Machine) : Prop where
  wellFormed : m.WellFormed
  pc_le : m.pc ≤ 0x10FE
  stack_le : ∀ a ∈ m.stack, a ≤ 0x1001

variable {m : Machine}

theorem pc_exact (h : 0 ≤ m.pc) (hpc : m.pc < 4096) :
    m.advance.pc = m.pc + 2 ∧ m.advance.advance.pc = m.pc + 4 ∧ m.advance.fetchedFrom = m.pc := by
  simp only [advance, fetchedFrom, low16]
  omega

/-- Loading changes the memory alone. -/
theorem load_frame {program : List UInt8} {m' : Machine} (h : m.load program = .ok m') :
    ∃ memory, m' = { m with memory } := by
  unfold Machine.load at h
  split at h <;> cases h
  exact ⟨_, rfl⟩

theorem fresh_contained (audio : Audio) (random : ByteSource) : (fresh audio random).Contained where
  wellFormed := fresh_wellFormed audio random
  pc_le := show (programStart : Int) ≤ 0x10FE by decide
  stack_le _ ha := absurd ha List.not_mem_nil

namespace Contained

/-- What leaves the core as it is keeps a machine contained. -/
theorem of_core {m' : Machine} (h : m.Contained) (hm : m'.WellFormed) (hcore : m'.core = m.core) :
    m'.Contained := by
  have hpc : m'.pc = m.pc := congrArg Core.pc hcore
  have hstack : m'.stack = m.stack := congrArg Core.stack hcore
  exact ⟨hm, hpc ▸ h.pc_le, hstack ▸ h.stack_le⟩

theorem keypad (h : m.Contained) (keypad : Keypad) : Contained { m with keypad } :=
  h.of_core { h.wellFormed with } rfl

theorem tick (h : m.Contained) : m.tick.Contained := h.of_core h.wellFormed.tick m.core_tick

theorem load (h : m.Contained) {program : List UInt8} {m' : Machine}
    (hm : m.load program = .ok m') : m'.Contained := by
  have hwf := h.wellFormed.load hm
  obtain ⟨_, rfl⟩ := load_frame hm
  exact ⟨hwf, h.pc_le, h.stack_le⟩

theorem step (h : m.Contained) (hpc : m.pc < 4096) : m.step.1.Contained := by
  have hwf := h.wellFormed
  obtain ⟨hnext, hskip, hagain⟩ := pc_exact hwf.pc_mem.1 hpc
  refine ⟨hwf.step, ?_, ?_⟩
  · have hgoes : m.advance.Goes m.step.1.pc := by
      rw [step_eq]
      exact m.advance.goes_execute _
    generalize m.step.1.pc = p at hgoes
    cases hgoes with
    | on => omega
    | skip => omega
    | again => omega
    | jump nnn => have := nnn.isLt; omega
    | jumpV0 nnn =>
      have hv : m.advance.v.get 0 < 256 := (hwf.get_mem 0).2
      have := nnn.isLt
      omega
    | back hmem => have := h.stack_le p hmem; omega
  · rcases m.step_stack with hs | ⟨-, -, hs⟩ | ⟨-, -, hs⟩
    · rw [hs]; exact h.stack_le
    · rw [hs]
      refine List.forall_mem_cons.2 ⟨?_, h.stack_le⟩
      have hpushed : (low16 (m.pc + 2) : Int) = m.pc + 2 := hnext
      omega
    · have hall := h.stack_le
      rw [hs] at hall
      exact (List.forall_mem_cons.1 hall).2

end Contained

end ChipEight.Machine
