import ChipEight.Proofs.Machine.KeyWait

/-! # Faults

A step on a machine with a screen to draw on ends in a fault if it returns with no call on the stack
or calls with no room left on it, and in no error otherwise (`error_eq_none`). The instruction was
fetched by then, and nothing else has happened; the fault gives its address, which is computed back
from the program counter (`faults_exactly`).
-/

namespace ChipEight

/-- There is a pixel for a sprite to start on, and the columns have the size that the screen
says. -/
structure Screen.Drawable (s : Screen) : Prop where
  wellFormed : s.WellFormed
  width_pos : 0 < s.width
  height_pos : 0 < s.height

namespace Machine

variable {m : Machine}

theorem WellFormed.drawable (hm : m.WellFormed) : m.screen.Drawable where
  wellFormed := hm.screen_wellFormed
  width_pos := by rw [hm.screen_width]; decide
  height_pos := by rw [hm.screen_height]; decide

theorem executeDraw_ok (hd : m.screen.Drawable) (x y : Register) (n : Fin 16) :
    (m.executeDraw x y n).2 = none := by
  have hx : 0 ≤ m.v.get x % m.screen.width := Int.emod_nonneg _ hd.width_pos.ne'
  have hy : 0 ≤ m.v.get y % m.screen.height := Int.emod_nonneg _ hd.height_pos.ne'
  have hoff := hd.wellFormed.offScreen_draw (m.memory.slice m.i n.val) hx hy
  simp only [executeDraw, hoff, Bool.false_eq_true, ↓reduceIte]

theorem execute_ok (hd : m.screen.Drawable) {ins : Instruction} (hret : ins ≠ .ret)
    (hcall : ∀ nnn, ins ≠ .call nnn) : (m.execute ins).2 = none := by
  cases ins with
  | ret => exact absurd rfl hret
  | call nnn => exact absurd rfl (hcall nnn)
  | drw x y n => exact executeDraw_ok hd x y n
  | _ => rfl

theorem executed_ret (hword : m.opcodeAt.val = 0x00EE) : m.executed = m.advance.execute .ret :=
  congrArg _ (Instruction.decode_eq_ret_iff.2 hword)

theorem executed_call (hkind : m.opcodeAt.kind = 0x2) :
    m.executed = m.advance.execute (.call m.opcodeAt.nnn) :=
  congrArg _ (Instruction.decode_eq_call_iff.2 ⟨hkind, rfl⟩)

theorem step_of_underflow (hword : m.opcodeAt.val = 0x00EE) (hempty : m.stack = []) :
    m.step = (m.advance, some (.fault (.stackUnderflow m.advance.fetchedFrom))) := by
  have hexec := executed_ret hword
  have hstack : m.advance.stack = [] := hempty
  rw [execute_ret, hstack] at hexec
  exact m.step_of_error hexec

theorem step_of_full (hkind : m.opcodeAt.kind = 0x2) (hfull : stackDepth ≤ m.stack.length) :
    m.step = (m.advance, some (.fault (.stackOverflow m.advance.fetchedFrom))) := by
  have hexec := executed_call hkind
  have hdepth : stackDepth ≤ m.advance.stack.length := hfull
  rw [execute_call, if_pos hdepth] at hexec
  exact m.step_of_error hexec

theorem step_of_overflow (hkind : m.opcodeAt.kind = 0x2) (hfull : m.stack.length = 16) :
    m.step = (m.advance, some (.fault (.stackOverflow m.advance.fetchedFrom))) :=
  step_of_full hkind hfull.ge

/-- The instruction that comes next returns with nothing on the call stack, or calls with no room
left on it. -/
def Faults (m : Machine) : Prop :=
  m.opcodeAt.val = 0x00EE ∧ m.stack = [] ∨ m.opcodeAt.kind = 0x2 ∧ stackDepth ≤ m.stack.length

theorem step_of_faults (h : m.Faults) : ∃ f, m.step = (m.advance, some (.fault f)) := by
  rcases h with ⟨hword, hempty⟩ | ⟨hkind, hfull⟩
  · exact ⟨_, step_of_underflow hword hempty⟩
  · exact ⟨_, step_of_full hkind hfull⟩

theorem error_eq_none (hd : m.screen.Drawable) (h : ¬ m.Faults) : m.step.2 = none := by
  rw [error_step]
  by_cases hword : m.opcodeAt.val = 0x00EE
  · rw [executed_ret hword, execute_ret]
    cases hs : m.advance.stack with
    | nil => exact absurd (.inl ⟨hword, hs⟩) h
    | cons => rfl
  by_cases hkind : m.opcodeAt.kind = 0x2
  · have hroom : ¬ stackDepth ≤ m.advance.stack.length := fun hfull => h (.inr ⟨hkind, hfull⟩)
    rw [executed_call hkind, execute_call, if_neg hroom]
  · have hscreen : m.advance.screen.Drawable := hd
    refine execute_ok hscreen (mt Instruction.decode_eq_ret_iff.1 hword) ?_
    intro nnn hcall
    exact hkind (Instruction.decode_eq_call_iff.1 hcall).1

theorem WellFormed.error_eq_none (hm : m.WellFormed)
    (hunder : ¬ (m.opcodeAt.val = 0x00EE ∧ m.stack = []))
    (hover : ¬ (m.opcodeAt.kind = 0x2 ∧ m.stack.length = 16)) : m.step.2 = none := by
  refine Machine.error_eq_none hm.drawable ?_
  rintro (hreturn | ⟨hkind, hfull⟩)
  · exact hunder hreturn
  · exact hover ⟨hkind, Nat.le_antisymm hm.stack_le hfull⟩

/-- A return on an empty stack, a call on a full one, or a step that does not fail. -/
theorem WellFormed.fault_cases (hm : m.WellFormed) :
    (m.opcodeAt.val = 0x00EE ∧ m.stack = []) ∨ (m.opcodeAt.kind = 0x2 ∧ m.stack.length = 16) ∨
      m.step.2 = none := by
  by_cases hunder : m.opcodeAt.val = 0x00EE ∧ m.stack = []
  · exact .inl hunder
  by_cases hover : m.opcodeAt.kind = 0x2 ∧ m.stack.length = 16
  · exact .inr (.inl hover)
  · exact .inr (.inr (hm.error_eq_none hunder hover))

theorem WellFormed.fetchedFrom_eq (hm : m.WellFormed) : (m.advance.fetchedFrom : Int) = m.pc := by
  have := hm.pc_mem
  rw [fetchedFrom_advance, low16]
  omega

theorem WellFormed.underflow_iff (hm : m.WellFormed) (p : Nat) :
    m.step.2 = some (.fault (.stackUnderflow p)) ↔
      m.opcodeAt.val = 0x00EE ∧ m.stack = [] ∧ p = m.pc := by
  have hfetched := hm.fetchedFrom_eq
  constructor
  · intro herror
    rcases hm.fault_cases with ⟨hword, hempty⟩ | ⟨hkind, hfull⟩ | hok
    · rw [step_of_underflow hword hempty] at herror
      cases herror
      exact ⟨hword, hempty, hfetched⟩
    · rw [step_of_overflow hkind hfull] at herror
      cases herror
    · cases hok.symm.trans herror
  · rintro ⟨hword, hempty, hp⟩
    have hpc : m.advance.fetchedFrom = p := by omega
    rw [step_of_underflow hword hempty, hpc]

theorem WellFormed.overflow_iff (hm : m.WellFormed) (p : Nat) :
    m.step.2 = some (.fault (.stackOverflow p)) ↔
      m.opcodeAt.kind = 0x2 ∧ m.stack.length = 16 ∧ p = m.pc := by
  have hfetched := hm.fetchedFrom_eq
  constructor
  · intro herror
    rcases hm.fault_cases with ⟨hword, hempty⟩ | ⟨hkind, hfull⟩ | hok
    · rw [step_of_underflow hword hempty] at herror
      cases herror
    · rw [step_of_overflow hkind hfull] at herror
      cases herror
      exact ⟨hkind, hfull, hfetched⟩
    · cases hok.symm.trans herror
  · rintro ⟨hkind, hfull, hp⟩
    have hpc : m.advance.fetchedFrom = p := by omega
    rw [step_of_overflow hkind hfull, hpc]

/-- A step ends in an underflow exactly if it returns on an empty stack, in an overflow exactly if
it calls on a stack of sixteen, and in no other error. Then the fault has the address of the
instruction, and the machine is as it was but for the program counter, which has moved on. -/
theorem faults_exactly (hm : m.WellFormed) :
    (∀ p : Nat, m.step.2 = some (.fault (.stackUnderflow p)) ↔
      m.opcodeAt.val = 0x00EE ∧ m.stack = [] ∧ p = m.pc) ∧
    (∀ p : Nat, m.step.2 = some (.fault (.stackOverflow p)) ↔
      m.opcodeAt.kind = 0x2 ∧ m.stack.length = 16 ∧ p = m.pc) ∧
    (m.step.2 = none ↔
      ¬ (m.opcodeAt.val = 0x00EE ∧ m.stack = []) ∧
        ¬ (m.opcodeAt.kind = 0x2 ∧ m.stack.length = 16)) ∧
    ∀ e, m.step.2 = some e →
      (∃ f, e = .fault f ∧ f.pc = m.pc) ∧ m.step.1 = { m with pc := (m.pc + 2) % 65536 } := by
  have hadvance : m.advance = { m with pc := (m.pc + 2) % 65536 } := by
    rw [← natCast_low16]
    rfl
  refine ⟨hm.underflow_iff, hm.overflow_iff, ⟨?_, ?_⟩, ?_⟩
  · intro hok
    constructor
    · rintro ⟨hword, hempty⟩
      rw [step_of_underflow hword hempty] at hok
      cases hok
    · rintro ⟨hkind, hfull⟩
      rw [step_of_overflow hkind hfull] at hok
      cases hok
  · rintro ⟨hunder, hover⟩
    exact hm.error_eq_none hunder hover
  · intro e herror
    rcases hm.fault_cases with ⟨hword, hempty⟩ | ⟨hkind, hfull⟩ | hok
    · rw [step_of_underflow hword hempty] at herror ⊢
      cases herror
      exact ⟨⟨_, rfl, hm.fetchedFrom_eq⟩, hadvance⟩
    · rw [step_of_overflow hkind hfull] at herror ⊢
      cases herror
      exact ⟨⟨_, rfl, hm.fetchedFrom_eq⟩, hadvance⟩
    · cases hok.symm.trans herror

/-- A call on a full stack at the last address but one, from where the program counter comes back to
zero. -/
theorem faults_exactly_at_top :
    let m := { (fresh .silent .zeros).live [.write 0xFFFE 0x23, .write 0xFFFF 0x45] with
      pc := 0xFFFE, stack := List.replicate 16 0x300 }
    m.WellFormed ∧ m.opcodeAt.kind = 0x2 ∧ m.stack.length = 16 ∧
      m.step.2 = some (.fault (.stackOverflow 0xFFFE)) ∧ m.step.1.pc = 0 ∧
        m.step.1.stack = m.stack := by
  intro m
  have hlive : ((fresh .silent .zeros).live [.write 0xFFFE 0x23, .write 0xFFFF 0x45]).WellFormed :=
    (fresh_wellFormed _ _).live _
  have hstack : ∀ a ∈ List.replicate 16 (0x300 : Int), 0 ≤ a ∧ a < 65536 := by decide
  have hm : m.WellFormed :=
    { hlive.pc (p := 0xFFFE) (by decide) with stack_le := Nat.le_refl 16, stack_mem := hstack }
  have hkind : m.opcodeAt.kind = 0x2 := by decide +kernel
  obtain ⟨-, hover, -, hafter⟩ := faults_exactly hm
  have hfault := (hover 0xFFFE).2 ⟨hkind, rfl, rfl⟩
  obtain ⟨-, hstep⟩ := hafter _ hfault
  refine ⟨hm, hkind, rfl, hfault, ?_, ?_⟩
  · rw [hstep]
    rfl
  · rw [hstep]

end Machine

end ChipEight
