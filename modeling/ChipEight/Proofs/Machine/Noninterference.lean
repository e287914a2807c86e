import ChipEight.Proofs.Machine.Event
import ChipEight.Proofs.Machine.Step

/-! # Where the outside comes in

Timers, keys and random bytes reach the rest of a machine through `FX07`, `FX0A`, `EX9E`, `EXA1` and
`CXNN` only (`Opcode.ReadsInput`). Two machines that agree on the rest, their `core`, agree on it
after each instruction of a run without these, however ticks and keys fall between the instructions
(`outcomes_eq`). What is executed is itself read from the memory that they share, so the condition
on the first run carries over to the second one step by step.
-/

namespace ChipEight

/-- The word is an instruction that looks at a timer, a key or a random byte. -/
def Opcode.ReadsInput (w : Opcode) : Prop :=
  w.kind = 0xC ∨ w.kind = 0xE ∧ (w.nn.val = 0x9E ∨ w.nn.val = 0xA1) ∨
    w.kind = 0xF ∧ (w.nn.val = 0x07 ∨ w.nn.val = 0x0A)

instance (w : Opcode) : Decidable w.ReadsInput := inferInstanceAs (Decidable (_ ∨ _))

/-- The same of an instruction. -/
def Instruction.ReadsInput : Instruction → Prop
  | .rnd _ _ | .skp _ | .sknp _ | .misc .readDelay _ | .misc .waitKey _ => True
  | _ => False

theorem Instruction.readsInput_of_decode {w : Opcode} (h : (decode w).ReadsInput) :
    w.ReadsInput := by
  generalize hdec : decode w = ins at h
  cases ins with
  | rnd => exact .inl (decode_eq_rnd_iff.1 hdec).1
  | skp =>
    obtain ⟨hk, hn, -⟩ := decode_eq_skp_iff.1 hdec
    exact .inr (.inl ⟨hk, .inl hn⟩)
  | sknp =>
    obtain ⟨hk, hn, -⟩ := decode_eq_sknp_iff.1 hdec
    exact .inr (.inl ⟨hk, .inr hn⟩)
  | misc op =>
    obtain ⟨hk, hn, -⟩ := decode_eq_misc_iff.1 hdec
    cases op with
    | readDelay => exact .inr (.inr ⟨hk, .inl hn⟩)
    | waitKey => exact .inr (.inr ⟨hk, .inr hn⟩)
    | _ => exact h.elim
  | _ => exact h.elim

namespace Machine

/-- What is to be seen of a step: the core after it, and its error. -/
def outcome (m : Machine) : Core × Option Error := (m.step.1.core, m.step.2)

variable {m m' : Machine}

theorem core_advance (h : m.core = m'.core) : m.advance.core = m'.advance.core := by
  simp only [core, Core.mk.injEq] at h
  simp only [core, advance, h]

theorem opcodeAt_eq (h : m.core = m'.core) : m.opcodeAt = m'.opcodeAt := by
  simp only [core, Core.mk.injEq] at h
  simp only [opcodeAt, h]

theorem execute_eq (h : m.core = m'.core) {ins : Instruction} (hin : ¬ ins.ReadsInput) :
    (m.execute ins).1.core = (m'.execute ins).1.core ∧ (m.execute ins).2 = (m'.execute ins).2 := by
  rw [← Prod.mk.injEq]
  obtain ⟨memory, v, i, pc, stack, _, _, screen, _, _, _, cycles, _⟩ := m
  obtain ⟨_, _, _, _, _, _, _, _, _, _, _, _, _⟩ := m'
  simp only [core, Core.mk.injEq] at h
  obtain ⟨rfl, rfl, rfl, rfl, rfl, rfl, rfl⟩ := h
  cases ins with
  | rnd | skp | sknp => exact absurd trivial hin
  | seByte | sneByte | se | sne =>
    unfold execute skipIf
    dsimp only
    split <;> rfl
  | ret => rw [execute_ret, execute_ret]; cases stack <;> rfl
  | call => rw [execute_call, execute_call]; dsimp only; split <;> rfl
  | drw => unfold execute executeDraw; dsimp only; split <;> rfl
  | alu op => cases op <;> rfl
  | misc op =>
    cases op with
    | readDelay | waitKey => exact absurd trivial hin
    | _ => rfl
  | _ => rfl

theorem outcome_eq (h : m.core = m'.core) (hin : ¬ m.opcodeAt.ReadsInput) :
    m.outcome = m'.outcome := by
  have hdec : ¬ (Instruction.decode m.opcodeAt).ReadsInput :=
    fun hr => hin (Instruction.readsInput_of_decode hr)
  obtain ⟨hcore, herr⟩ := execute_eq (core_advance h) hdec
  simp only [core, Core.mk.injEq] at hcore
  simp only [outcome, step_eq, executed, ← opcodeAt_eq h, core, herr, hcore]

theorem core_run_of_notMem {es : List Event} (hes : Event.step ∉ es) :
    (m.run es).core = m.core := by
  induction es generalizing m with
  | nil => rfl
  | cons e es ih =>
    rw [List.mem_cons, not_or] at hes
    rw [run_cons, ih hes.2, core_on_of_ne m (Ne.symm hes.1)]

theorem stepping_append_of_notMem {es : List Event} (hes : Event.step ∉ es) (fs : List Event) :
    m.stepping (es ++ fs) = (m.run es).stepping fs := by
  have hnil : m.stepping es = [] :=
    List.eq_nil_of_length_eq_zero (by rw [length_stepping, List.count_eq_zero.2 hes])
  rw [stepping_append, hnil, List.nil_append]

/-- Two machines with the same core that execute equally many instructions, none of which reads the
outside on the first machine, show the same after each of them, whatever ticks and keys come
between. -/
theorem outcomes_eq (h : m.core = m'.core) (es es' : List Event)
    (hcount : es.count .step = es'.count .step)
    (hin : ∀ n ∈ m.stepping es, ¬ n.opcodeAt.ReadsInput) :
    (m.stepping es).map outcome = (m'.stepping es').map outcome := by
  induction es generalizing m m' es' with
  | nil =>
    have hnil : m'.stepping es' = [] :=
      List.eq_nil_of_length_eq_zero (by rw [length_stepping, ← hcount]; rfl)
    rw [hnil]; rfl
  | cons e es ih =>
    by_cases he : e = .step
    · subst he
      rw [List.count_cons_self] at hcount
      -- the second run comes to its own step after ticks and keys, which leave the core alone
      have hmem : Event.step ∈ es' := List.count_pos_iff.1 (by omega)
      obtain ⟨as, bs, rfl, has⟩ := List.eq_append_cons_of_mem hmem
      rw [List.count_append, List.count_eq_zero.2 has, List.count_cons_self] at hcount
      have hcore : m.core = (m'.run as).core := by rw [core_run_of_notMem has, h]
      have hout : m.outcome = (m'.run as).outcome :=
        outcome_eq hcore (hin m (List.mem_cons_self ..))
      rw [stepping_append_of_notMem has, stepping, stepping, List.map_cons, List.map_cons, hout]
      refine congrArg _ (ih (congrArg Prod.fst hout) bs (by omega) fun n hn => ?_)
      exact hin n (List.mem_cons_of_mem _ hn)
    · rw [stepping_cons_of_ne m he] at hin ⊢
      rw [List.count_cons_of_ne he] at hcount
      exact ih ((core_on_of_ne m he).trans h) es' hcount hin

/-- A program that sets V0 and the delay timer, once on a machine at rest and once with a key down,
both timers running and other random bytes. -/
theorem outcomes_eq_of_setDelay :
    let m := (fresh .silent .zeros).act (.load [0x60, 0x05, 0xF0, 0x15])
    let m' := { m with
      delay := 7, sound := 3, keypad := Keypad.released.set 4 true, random := .cycle [9],
      waiting := true }
    let es := [Event.step, .step]
    let es' := [Event.tick, .key ⟨4, false⟩, .step, .tick, .step]
    m.core = m'.core ∧ es.count .step = es'.count .step ∧
      (∀ n ∈ m.stepping es, ¬ n.opcodeAt.ReadsInput) ∧
      (m.stepping es).map outcome = (m'.stepping es').map outcome := by
  intro m m' es es'
  have hrest : ∀ n : Machine, n.core = { n with
      delay := 7, sound := 3, keypad := Keypad.released.set 4 true, random := .cycle [9],
      waiting := true }.core := fun _ => rfl
  have hcore : m.core = m'.core := hrest m
  have hcount : es.count .step = es'.count .step := by decide
  have hin : ∀ n ∈ m.stepping es, ¬ n.opcodeAt.ReadsInput := by decide +kernel
  exact ⟨hcore, hcount, hin, outcomes_eq hcore es es' hcount hin⟩

end Machine

end ChipEight
