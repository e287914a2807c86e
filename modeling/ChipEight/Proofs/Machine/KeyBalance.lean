import ChipEight.Proofs.Machine.KeyWait

/-! # Presses are taken at most once

Of each key, what goes down comes up again in one of two ways, by a key event or by a key wait that
takes it, unless it is still down. `balance_on` says this of one event and `balance_run` of a run;
key waits apart, no instruction touches the keypad, and a key wait that ends takes the lowest key
and no other (`keypad_cases`).
-/

namespace ChipEight.Machine

/-- The moments of a run: each event with the machine that it meets, in order. -/
def moments (m : Machine) : List Event → List (Machine × Event)
  | [] => []
  | e :: es => (m, e) :: (m.on e).moments es

/-- A key event turns key `k` from up to down. -/
def presses (k : Fin 16) : Machine × Event → Bool
  | (m, .key e) => !m.keypad.latches.get k && (m.on (.key e)).keypad.latches.get k
  | _ => false

/-- A key event turns key `k` from down to up. -/
def releases (k : Fin 16) : Machine × Event → Bool
  | (m, .key e) => m.keypad.latches.get k && !(m.on (.key e)).keypad.latches.get k
  | _ => false

/-- The next instruction is a key wait, and the program goes on behind it. -/
def EndsWait (m : Machine) : Prop := m.opcodeAt.IsKeyWait ∧ m.step.1.pc = low16 (m.pc + 2)

instance (m : Machine) : Decidable m.EndsWait := inferInstanceAs (Decidable (_ ∧ _))

/-- The next instruction is a key wait that ends with key `k` in its register. -/
def Takes (m : Machine) (k : Fin 16) : Prop := m.EndsWait ∧ m.step.1.v.get m.opcodeAt.x = k.val

instance (m : Machine) (k : Fin 16) : Decidable (m.Takes k) := inferInstanceAs (Decidable (_ ∧ _))

/-- A key wait takes key `k`. -/
def takes (k : Fin 16) : Machine × Event → Bool
  | (m, .step) => m.Takes k
  | _ => false

variable {m : Machine} {k : Fin 16}

theorem Waits.not_endsWait (h : m.Waits) : ¬ m.EndsWait := by
  rintro ⟨-, hpc⟩
  rw [step_of_waits h] at hpc
  simp only [low16] at hpc
  omega

/-- A key wait that finds a key takes that one. -/
theorem takes_of_firstDown? (h : m.opcodeAt.IsKeyWait) {j : Fin 16}
    (hj : m.keypad.firstDown? = some j) :
    m.EndsWait ∧ (m.Takes k ↔ j = k) := by
  have hends : m.EndsWait := ⟨h, by rw [step_of_firstDown? h hj]⟩
  refine ⟨hends, ?_⟩
  have hv : m.step.1.v.get m.opcodeAt.x = j.val := by
    rw [step_of_firstDown? h hj]
    exact Vector.getElem_set_self m.opcodeAt.x.lt
  rw [Takes, hv]
  exact ⟨fun ⟨_, hk⟩ => Fin.ext (by omega), fun hk => ⟨hends, by rw [hk]⟩⟩

/-- The ways in which an instruction may treat the keypad. -/
theorem keypad_cases (m : Machine) :
    (∃ j, m.keypad.Lowest j ∧ m.EndsWait ∧ (∀ k, m.Takes k ↔ j = k) ∧
      m.step.1.v = (m.setV m.opcodeAt.x j.val).v ∧ m.step.1.keypad = m.keypad.set j.val false) ∨
    ¬ m.EndsWait ∧ m.step.1.keypad = m.keypad := by
  rcases m.keyWait_cases with ⟨hword, j, hj, hlow⟩ | hw | hword
  · have hends := (takes_of_firstDown? (k := j) hword hj).1
    refine .inl ⟨j, hlow, hends, fun k => (takes_of_firstDown? hword hj).2, ?_⟩
    rw [step_of_firstDown? hword hj]
    exact ⟨rfl, rfl⟩
  · exact .inr ⟨hw.not_endsWait, by rw [step_of_waits hw]⟩
  · exact .inr ⟨fun h => hword h.1, (step_of_not_isKeyWait hword).1⟩

/-- One event: what was down or is pressed is released, or taken, or down afterwards. -/
theorem balance_on (m : Machine) (e : Event) (k : Fin 16) :
    (m.keypad.latches.get k).toNat + (presses k (m, e)).toNat =
      (releases k (m, e)).toNat + (takes k (m, e)).toNat +
        ((m.on e).keypad.latches.get k).toNat := by
  cases e with
  | key e =>
    simp only [presses, releases, takes]
    generalize m.keypad.latches.get k = before
    generalize (m.on (.key e)).keypad.latches.get k = after
    revert before after
    decide
  | tick =>
    have htick : (m.on .tick).keypad = m.keypad := by show m.tick.keypad = m.keypad; rw [tick_eq]
    simp only [presses, releases, takes, htick, Bool.toNat_false, Nat.add_zero, Nat.zero_add]
  | step =>
    simp only [presses, releases, takes, Bool.toNat_false, Nat.add_zero, Nat.zero_add]
    show _ = _ + (m.step.1.keypad.latches.get k).toNat
    rcases m.keypad_cases with ⟨j, hlow, -, htakes, -, hpad⟩ | ⟨hends, hpad⟩
    · rw [hpad, Keypad.latches_set, nibble_val]
      by_cases hjk : j = k
      · rw [if_pos hjk, decide_eq_true ((htakes k).2 hjk), ← hjk, hlow.down]; rfl
      · rw [if_neg hjk, decide_eq_false fun h => hjk ((htakes k).1 h), Bool.toNat_false,
          Nat.zero_add]
    · have hno : ¬ m.Takes k := fun h => hends h.1
      rw [hpad, decide_eq_false hno, Bool.toNat_false, Nat.zero_add]

theorem balance_run (m : Machine) (es : List Event) (k : Fin 16) :
    (m.keypad.latches.get k).toNat + (m.moments es).countP (presses k) =
      (m.moments es).countP (releases k) + (m.moments es).countP (takes k) +
        ((m.run es).keypad.latches.get k).toNat := by
  induction es generalizing m with
  | nil => simp only [moments, List.countP_nil, Nat.add_zero, Nat.zero_add]; rfl
  | cons e es ih =>
    have hhead := m.balance_on e k
    have htail := ih (m.on e)
    have hone : ∀ b : Bool, (if b = true then 1 else 0) = b.toNat := by decide
    simp only [moments, List.countP_cons, hone, run_cons]
    omega

/-- From all keys up on, a key was pressed as often as it was released or taken, and once more if it
is down. A key wait that ends takes the lowest key that is down and lets go of that one only, and
nothing else that an instruction does reaches the keypad. -/
theorem presses_eq (m : Machine) (hup : ∀ k : Fin 16, m.keypad.latches.get k = false)
    (es : List Event) (k : Fin 16) :
    (m.moments es).countP (presses k) =
      (m.moments es).countP (releases k) + (m.moments es).countP (takes k) +
        (if (m.run es).keypad.latches.get k = true then 1 else 0) ∧
    ∀ n : Machine,
      (n.EndsWait → ∃ j, n.keypad.Lowest j ∧ n.step.1.v = (n.setV n.opcodeAt.x j.val).v ∧
        ∀ i : Fin 16, n.step.1.keypad.latches.get i = if i = j then false
          else n.keypad.latches.get i) ∧
      (¬ n.EndsWait → n.step.1.keypad = n.keypad) := by
  have hrun := m.balance_run es k
  refine ⟨?_, fun n => ?_⟩
  · rw [hup k, Bool.toNat_false, Nat.zero_add] at hrun
    rw [hrun]
    cases (m.run es).keypad.latches.get k <;> rfl
  · rcases n.keypad_cases with ⟨j, hlow, hends, -, hv, hpad⟩ | ⟨hends, hpad⟩
    · refine ⟨fun _ => ⟨j, hlow, hv, fun i => ?_⟩, fun h => absurd hends h⟩
      rw [hpad, Keypad.latches_set, nibble_val]
      simp only [eq_comm]
    · exact ⟨fun h => absurd h hends, fun _ => hpad⟩

/-- Two key waits with keys 3 and 5 held; key 5 goes down twice, is taken, comes up, and goes down
twice more with a release between. -/
theorem presses_eq_of_held :
    let m := (fresh .silent .zeros).act (.load [0xF3, 0x0A, 0xF4, 0x0A])
    let es : List Event := [.key ⟨0x15, true⟩, .key ⟨5, true⟩, .key ⟨3, true⟩, .step, .tick, .step,
      .key ⟨5, false⟩, .key ⟨-11, true⟩, .key ⟨5, false⟩, .key ⟨5, true⟩]
    (∀ k : Fin 16, m.keypad.latches.get k = false) ∧
      (m.moments es).countP (presses 5) =
        (m.moments es).countP (releases 5) + (m.moments es).countP (takes 5) + 1 ∧
      (m.moments es).countP (releases 5) = 1 ∧ (m.moments es).countP (takes 5) = 1 := by
  intro m es
  have hup : ∀ k : Fin 16, m.keypad.latches.get k = false := by decide +kernel
  have hdown : (m.run es).keypad.latches.get 5 = true := by decide +kernel
  have hcounts : (m.moments es).countP (releases 5) = 1 ∧ (m.moments es).countP (takes 5) = 1 := by
    decide +kernel
  obtain ⟨hbalance, -⟩ := presses_eq m hup es 5
  rw [if_pos hdown] at hbalance
  exact ⟨hup, hbalance, hcounts⟩

end ChipEight.Machine
