import ChipEight.Proofs.Keypad
import ChipEight.Proofs.Machine.Records
import ChipEight.Proofs.Machine.WellFormed
import Mathlib.Data.List.Induction

/-! # Waiting for a key

`FX0A` either finds no key down and is executed again (`step_of_waits`), or takes the lowest one
(`step_of_firstDown?`); no other instruction touches the keypad or the waiting flag
(`step_of_not_isKeyWait`). So a machine that waits stays as it is but for its timers and counters,
until a key comes (`run_of_waits`), and the flag says of each machine in a run whether the
instruction executed last is one that found no key, which is then still the one at the program
counter (`waiting_run`).
-/

namespace ChipEight

/-- The word is `FX0A`. -/
def Opcode.IsKeyWait (w : Opcode) : Prop := w.kind = 0xF ∧ w.nn.val = 0x0A

instance (w : Opcode) : Decidable w.IsKeyWait := inferInstanceAs (Decidable (_ ∧ _))

namespace Machine

/-- The next instruction is a key wait, and no key is down. -/
structure Waits (m : Machine) : Prop where
  word : m.opcodeAt.IsKeyWait
  up : m.keypad.AllUp

instance (m : Machine) : Decidable m.Waits :=
  decidable_of_iff (m.opcodeAt.IsKeyWait ∧ m.keypad.AllUp)
    ⟨fun h => ⟨h.1, h.2⟩, fun h => ⟨h.1, h.2⟩⟩

variable {m : Machine}

theorem fetchedFrom_advance (m : Machine) : m.advance.fetchedFrom = low16 m.pc := by
  simp only [fetchedFrom, advance, low16]
  omega

/-- A key wait that finds a key, one that finds none, or another instruction. -/
theorem keyWait_cases (m : Machine) :
    (m.opcodeAt.IsKeyWait ∧ ∃ j, m.keypad.firstDown? = some j ∧ m.keypad.Lowest j) ∨ m.Waits ∨
      ¬ m.opcodeAt.IsKeyWait := by
  by_cases hword : m.opcodeAt.IsKeyWait
  · rcases m.keypad.lowest_or_allUp with hfound | hup
    · exact .inl ⟨hword, hfound⟩
    · exact .inr (.inl ⟨hword, hup⟩)
  · exact .inr (.inr hword)

theorem decode_of_isKeyWait (h : m.opcodeAt.IsKeyWait) :
    Instruction.decode m.opcodeAt = .misc .waitKey m.opcodeAt.x :=
  Instruction.decode_eq_misc_iff.2 ⟨h.1, h.2, rfl⟩

theorem decode_ne_waitKey (h : ¬ m.opcodeAt.IsKeyWait) (x : Register) :
    Instruction.decode m.opcodeAt ≠ .misc .waitKey x := by
  intro hx
  obtain ⟨hkind, hlow, -⟩ := Instruction.decode_eq_misc_iff.1 hx
  exact h ⟨hkind, hlow⟩

theorem latch?_of_isKeyWait (h : m.opcodeAt.IsKeyWait) :
    m.latch? = m.keypad.firstDown?.map fun key => (key, m.opcodeAt.x) := by
  rw [latch?, decode_of_isKeyWait h]

theorem latch?_of_not_isKeyWait (h : ¬ m.opcodeAt.IsKeyWait) : m.latch? = none := by
  unfold latch?
  split
  next x hx => exact absurd hx (decode_ne_waitKey h x)
  · rfl

theorem step_of_waits (h : m.Waits) :
    m.step = ({ m with pc := low16 m.pc, waiting := true, cycles := m.cycles + 1 }, none) := by
  have hnone : m.advance.keypad.firstDown? = none := Keypad.firstDown?_eq_none_iff.2 h.up
  rw [step_eq, executed, decode_of_isKeyWait h.word]
  simp only [execute, executeMisc, waitKey, hnone, fetchedFrom_advance]
  rfl

theorem step_of_firstDown? (h : m.opcodeAt.IsKeyWait) {k : Fin 16}
    (hk : m.keypad.firstDown? = some k) :
    m.step =
      ({ m with
          v := (m.setV m.opcodeAt.x k.val).v
          pc := low16 (m.pc + 2)
          keypad := m.keypad.set k.val false
          waiting := false
          cycles := m.cycles + 1 }, none) := by
  have hsome : m.advance.keypad.firstDown? = some k := hk
  rw [step_eq, executed, decode_of_isKeyWait h]
  simp only [execute, executeMisc, waitKey, hsome]
  rfl

theorem step_of_not_isKeyWait (h : ¬ m.opcodeAt.IsKeyWait) :
    m.step.1.keypad = m.keypad ∧ m.step.1.waiting = m.waiting := by
  obtain ⟨_, _, _, _, _, _, _, _, _, hframe⟩ := m.advance.execute_frame (decode_ne_waitKey h)
  rw [step_eq, executed, hframe]
  exact ⟨rfl, rfl⟩

/-- A step signals nothing. -/
theorem audio_step (m : Machine) : m.step.1.audio = m.audio := by
  rcases m.keyWait_cases with ⟨hword, j, hj, -⟩ | hw | hword
  · rw [step_of_firstDown? hword hj]
  · rw [step_of_waits hw]
  · obtain ⟨_, _, _, _, _, _, _, _, _, hframe⟩ := m.advance.execute_frame (decode_ne_waitKey hword)
    rw [step_eq, executed, hframe]
    rfl

theorem waiting_on_of_ne (m : Machine) {e : Event} (he : e ≠ .step) :
    (m.on e).waiting = m.waiting := by
  cases e with
  | step => exact absurd rfl he
  | tick => show m.tick.waiting = m.waiting; rw [tick_eq]
  | key e => rfl

theorem pc_on_of_ne (m : Machine) {e : Event} (he : e ≠ .step) :
    (m.on e).pc = m.pc ∧ (m.on e).opcodeAt = m.opcodeAt := by
  have hcore := m.core_on_of_ne he
  simp only [core, Core.mk.injEq] at hcore
  simp only [opcodeAt, hcore, and_self]

/-- The machine after so many steps and ticks in a key wait. -/
def idled (m : Machine) (steps ticks : Nat) (audio : Audio) : Machine :=
  { m with
    cycles := m.cycles + steps
    delay := max 0 (m.delay - ticks)
    sound := max 0 (m.sound - ticks)
    waiting := m.waiting || decide (0 < steps)
    audio }

theorem idled_idled (m : Machine) (a b c d : Nat) (audio audio' : Audio) :
    (m.idled a b audio).idled c d audio' = m.idled (a + c) (b + d) audio' := by
  have hdelay : max 0 (max 0 (m.delay - b) - d) = max 0 (m.delay - (b + d : Nat)) := by omega
  have hsound : max 0 (max 0 (m.sound - b) - d) = max 0 (m.sound - (b + d : Nat)) := by omega
  have hflag : (m.waiting || decide (0 < a) || decide (0 < c)) =
      (m.waiting || decide (0 < a + c)) := by
    rw [Bool.or_assoc, ← Bool.decide_or, decide_eq_decide.2 (by omega : 0 < a ∨ 0 < c ↔ 0 < a + c)]
  simp only [idled, hdelay, hsound, hflag, Nat.add_assoc]

theorem idled_of_no_tick (hm : m.WellFormed) (a : Nat) (audio : Audio) :
    m.idled a 0 audio =
      { m with cycles := m.cycles + a, waiting := m.waiting || decide (0 < a), audio } := by
  have hdelay : max 0 (m.delay - (0 : Nat)) = m.delay := by have := hm.delay_mem; omega
  have hsound : max 0 (m.sound - (0 : Nat)) = m.sound := by have := hm.sound_mem; omega
  simp only [idled, hdelay, hsound]

theorem step_eq_idled (hm : m.WellFormed) (hw : m.Waits) : m.step.1 = m.idled 1 0 m.audio := by
  have hpc : (low16 m.pc : Int) = m.pc := by have := hm.pc_mem; unfold low16; omega
  rw [step_of_waits hw, hpc, idled_of_no_tick hm, decide_eq_true Nat.one_pos, Bool.or_true]

theorem tick_eq_idled (hm : m.WellFormed) : ∃ audio, m.tick = m.idled 0 1 audio := by
  refine ⟨m.tickSignals.foldl Audio.signal m.audio, ?_⟩
  rw [tick_eq, countDown_eq_max hm.delay_mem.1, countDown_eq_max hm.sound_mem.1, idled,
    decide_eq_false (Nat.lt_irrefl 0), Bool.or_false]
  rfl

/-- Without keys a machine that waits goes on waiting. -/
theorem run_of_waits (hm : m.WellFormed) (hw : m.Waits) {es : List Event}
    (hes : ∀ e, Event.key e ∉ es) :
    ∃ audio, m.run es = m.idled (es.count .step) (es.count .tick) audio := by
  induction es generalizing m with
  | nil => exact ⟨m.audio, by rw [List.count_nil, List.count_nil, idled_of_no_tick hm]; simp; rfl⟩
  | cons e es ih =>
    have hrest : ∀ e, Event.key e ∉ es := fun e he => hes e (List.mem_cons_of_mem _ he)
    -- an event of the wait is an idle one, and what follows idles on from there
    have hgo : ∀ a b audio, m.on e = m.idled a b audio →
        ∃ audio, m.run (e :: es) = m.idled (a + es.count .step) (b + es.count .tick) audio := by
      intro a b audio hon
      have hw' : (m.on e).Waits := by rw [hon]; exact ⟨hw.word, hw.up⟩
      obtain ⟨audio', hrun⟩ := ih (hm.on e) hw' hrest
      refine ⟨audio', ?_⟩
      rw [run_cons, hrun, hon, idled_idled]
    cases e with
    | key e => exact absurd (List.mem_cons_self ..) (hes e)
    | step =>
      rw [List.count_cons_self, List.count_cons_of_ne (by decide), Nat.add_comm]
      have h := hgo 1 0 m.audio (step_eq_idled hm hw)
      rwa [Nat.zero_add] at h
    | tick =>
      obtain ⟨audio, hon⟩ := tick_eq_idled hm
      rw [List.count_cons_self, List.count_cons_of_ne (by decide),
        Nat.add_comm (es.count Event.tick)]
      have h := hgo 0 1 audio hon
      rwa [Nat.zero_add] at h

/-- If the flag is not stale before a step, it tells after it whether the step found no key. -/
theorem waiting_step_iff (h : m.waiting = true → m.opcodeAt.IsKeyWait) :
    m.step.1.waiting = true ↔ m.Waits := by
  rcases m.keyWait_cases with ⟨hword, j, hj, hlow⟩ | hw | hword
  · rw [step_of_firstDown? hword hj]
    exact ⟨nofun, fun hw => absurd hw.up hlow.not_allUp⟩
  · rw [step_of_waits hw]
    exact ⟨fun _ => hw, fun _ => rfl⟩
  · rw [(step_of_not_isKeyWait hword).2]
    exact ⟨fun hflag => absurd (h hflag) hword, fun hw => absurd hw.word hword⟩

/-- On a machine that was well-formed and not waiting to begin with, the flag tells whether the
instruction executed last found no key; if so, that instruction is still the next one. -/
theorem waiting_run (hm : m.WellFormed) (hflag : m.waiting = false) (es : List Event) :
    ((m.run es).waiting = true ↔ ∃ n, (m.stepping es).getLast? = some n ∧ n.Waits) ∧
      ∀ n, (m.stepping es).getLast? = some n → n.Waits →
        (m.run es).pc = n.pc ∧ (m.run es).opcodeAt = n.opcodeAt := by
  induction es using List.reverseRecOn with
  | nil =>
    have hlast : (m.stepping []).getLast? = none := rfl
    have hwaiting : (m.run []).waiting = false := hflag
    rw [hlast, hwaiting]
    refine ⟨⟨nofun, ?_⟩, fun n hn => by cases hn⟩
    rintro ⟨n, hn, -⟩
    cases hn
  | append_singleton es e ih =>
    obtain ⟨hiff, hsame⟩ := ih
    have hrun : m.run (es ++ [e]) = (m.run es).on e := m.run_append es [e]
    rw [hrun, stepping_append]
    by_cases he : e = .step
    · subst he
      have hlast : (m.stepping es ++ (m.run es).stepping [.step]).getLast? = some (m.run es) :=
        List.getLast?_concat
      have hstale : (m.run es).waiting = true → (m.run es).opcodeAt.IsKeyWait := by
        intro hw
        obtain ⟨n, hn, hwaits⟩ := hiff.1 hw
        rw [(hsame n hn hwaits).2]
        exact hwaits.word
      rw [hlast]
      refine ⟨?_, ?_⟩
      · show (m.run es).step.1.waiting = true ↔ _
        rw [waiting_step_iff hstale]
        exact ⟨fun hw => ⟨_, rfl, hw⟩, fun ⟨n, hn, hw⟩ => by cases hn; exact hw⟩
      · rintro n hn hw
        cases hn
        have hon : (m.run es).on .step = (m.run es).idled 1 0 (m.run es).audio :=
          step_eq_idled (hm.run es) hw
        rw [hon]
        exact ⟨rfl, rfl⟩
    · have hnil : (m.run es).stepping [e] = [] := stepping_cons_of_ne _ he []
      obtain ⟨hpc, hop⟩ := pc_on_of_ne (m.run es) he
      rw [hnil, List.append_nil, waiting_on_of_ne _ he, hpc, hop]
      exact ⟨hiff, hsame⟩

theorem waiting_of_load {audio : Audio} {random : ByteSource} {program : List UInt8}
    (h : (fresh audio random).load program = .ok m) : m.waiting = false := by
  unfold load at h
  split at h
  · cases h
  · cases h; rfl

/-- A key wait with no key down is a fixpoint but for timers and counters, and the waiting flag of a
machine that was loaded is up exactly while its last instruction was such a key wait. -/
theorem keyWait_fixpoint :
    (∀ m : Machine, m.WellFormed → m.Waits → ∀ es : List Event, (∀ e, Event.key e ∉ es) →
      ∃ audio, m.run es = m.idled (es.count .step) (es.count .tick) audio) ∧
    ∀ (audio : Audio) (random : ByteSource) (program : List UInt8) (m : Machine),
      (fresh audio random).load program = .ok m → ∀ es : List Event,
        ((m.run es).waiting = true ↔ ∃ n, (m.stepping es).getLast? = some n ∧ n.Waits) ∧
          ∀ n, (m.stepping es).getLast? = some n → n.Waits →
            (m.run es).pc = n.pc ∧ (m.run es).opcodeAt = n.opcodeAt := by
  refine ⟨fun m hm hw es hes => run_of_waits hm hw hes, fun audio random program m hload es => ?_⟩
  have hm : m.WellFormed := (fresh_wellFormed audio random).load hload
  exact waiting_run hm (waiting_of_load hload) es

/-- The wait across the end of the addresses, and a flag that goes up at a step and down with the
key. -/
theorem keyWait_fixpoint_at_top :
    let m := { (fresh .silent .zeros).live [.write 0xFFFF 0xF3, .write 0x10000 0x0A] with
      pc := 0xFFFF, delay := 2 }
    let l := (fresh .silent .zeros).act (.load [0xF3, 0x0A])
    (m.WellFormed ∧ m.Waits ∧ (∀ e, Event.key e ∉ [Event.step, .tick, .step]) ∧
      (m.run [.step, .tick, .step]).pc = 0xFFFF ∧ (m.run [.step, .tick, .step]).cycles = 2 ∧
      (m.run [.step, .tick, .step]).delay = 1) ∧
    (fresh .silent .zeros).load [0xF3, 0x0A] = .ok l ∧
      (l.run [.step, .tick]).waiting = true ∧ (l.run [.step, .tick]).opcodeAt = l.opcodeAt ∧
      ¬ (l.run [.step, .key ⟨-5, true⟩, .step]).waiting = true := by
  intro m l
  obtain ⟨hfix, hlast⟩ := keyWait_fixpoint
  have hlive : ((fresh .silent .zeros).live [.write 0xFFFF 0xF3, .write 0x10000 0x0A]).WellFormed :=
    (fresh_wellFormed _ _).live _
  have hm : m.WellFormed := (hlive.pc (p := 0xFFFF) (by decide)).delay (by decide)
  have hw : m.Waits := by decide +kernel
  have hkeys : ∀ e, Event.key e ∉ [Event.step, .tick, .step] := by simp
  have hload : (fresh .silent .zeros).load [0xF3, 0x0A] = .ok l := rfl
  have hl : l.Waits := by decide +kernel
  obtain ⟨audio, hrun⟩ := hfix m hm hw [.step, .tick, .step] hkeys
  obtain ⟨hup, hsame⟩ := hlast _ _ _ l hload [.step, .tick]
  obtain ⟨hdown, -⟩ := hlast _ _ _ l hload [.step, .key ⟨-5, true⟩, .step]
  refine ⟨⟨hm, hw, hkeys, ?_⟩, hload, hup.2 ⟨l, rfl, hl⟩, (hsame l rfl hl).2, fun h => ?_⟩
  · rw [hrun]
    exact ⟨rfl, rfl, rfl⟩
  · obtain ⟨n, hn, hwaits⟩ := hdown.1 h
    cases hn
    exact absurd hwaits (by decide +kernel)

end Machine

end ChipEight
