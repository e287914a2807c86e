import ChipEight.Proofs.Machine.Contained
import ChipEight.Proofs.Session.Delivery
import ChipEight.Proofs.Session.Stop

/-! # What is counted

A session counts the cycle ticks whose instruction came to its end, and its machine counts the
instructions that did; both count the same, and the timer ticks are counted as they are served
(`Tally`). A run looks at the limit after each tick, and a tick adds one to the count at most, so
that no run goes past its limit (`Ran.cycles_le`).
-/

namespace ChipEight

namespace Machine

/-- The next instruction comes to its end. -/
def completes (m : Machine) : Bool := m.step.2.isNone

theorem cycles_step (m : Machine) : m.step.1.cycles = m.cycles + [m].countP completes := by
  rw [List.countP_singleton]
  rcases m.keyWait_cases with ⟨hword, j, hj, -⟩ | hw | hword
  · simp only [completes, step_of_firstDown? hword hj]; rfl
  · simp only [completes, step_of_waits hw]; rfl
  · obtain ⟨_, _, _, _, _, _, _, _, _, hframe⟩ := m.advance.execute_frame (decode_ne_waitKey hword)
    have hsame : m.executed.1.cycles = m.cycles := by rw [executed, hframe]; rfl
    simp only [completes, step_eq, hsame]

end Machine

namespace Session

/-- The arrivals that a command lets a session meet. -/
def meets (s : Session) : Command → List Arrival
  | .arrival a => [a]
  | .load _ => []
  | .run arrivals limit => s.met arrivals limit

/-- The arrivals that a session meets in a history, those within its runs among them. -/
def encounters (s : Session) : List Command → List Arrival
  | [] => []
  | c :: cs => s.meets c ++ (s.obey c).encounters cs

section
variable (s : Session)

theorem cycles_meet (a : Arrival) :
    (s.meet a).1.cycles = s.cycles + (s.executes a).countP Machine.completes := by
  cases a with
  | nothing | interrupt => rfl
  | happening e =>
    obtain ⟨_, _, _, _, hmeet⟩ := s.meet_happening_frame e
    rw [hmeet]; rfl
  | tick t =>
    cases t with
    | timer | other => rfl
    | cycle =>
      simp only [meet, executes, handle, serveCycle, drain]
      cases s.renderer.poll with
      | error => rfl
      | ok => simp only [step_eq, List.countP_singleton]; rfl

theorem machineCycles_meet (a : Arrival) :
    (s.meet a).1.machine.cycles = s.machine.cycles + (s.executes a).countP Machine.completes := by
  rcases s.machine_meet a with ⟨keypad, hexec, hm⟩ | ⟨hexec, hm | hm⟩
  · rw [hm, hexec, Machine.cycles_step]
  · rw [hm, hexec]; rfl
  · rw [hm, hexec, Machine.tick_eq]; rfl

theorem timerTicks_meet (a : Arrival) :
    (s.meet a).1.timerTicks = s.timerTicks + [a].count (.tick .timer) := by
  cases a with
  | nothing | interrupt => rfl
  | happening e =>
    obtain ⟨_, _, _, _, hmeet⟩ := s.meet_happening_frame e
    rw [hmeet]; rfl
  | tick t =>
    cases t with
    | timer => rfl
    | other kind => rw [List.count_singleton]; simp [meet, handle]
    | cycle =>
      simp only [meet, handle, serveCycle, drain]
      cases s.renderer.poll with
      | error => rfl
      | ok => simp only [step_eq]; rfl

theorem length_executes (hs : s.renderer.Headless) (a : Arrival) :
    (s.executes a).length = [a].count (.tick .cycle) := by
  by_cases ha : a = .tick .cycle
  · subst ha
    obtain ⟨es, r, hpoll, -⟩ := hs.poll
    simp only [executes, drain, hpoll]; rfl
  · rw [List.count_singleton, if_neg (by simpa using ha)]
    cases a with
    | tick t => cases t <;> first | rfl | exact absurd rfl ha
    | nothing | interrupt | happening => rfl

end

/-- From where `p` stands to where `q` does, the arrivals `met` were counted, at which the machines
`done` executed an instruction. -/
structure Tally (p : Standing) (done : List Machine) (met : List Arrival)
    (q : Standing) : Prop where
  headless : q.renderer.Headless
  executed : done.length = met.count (.tick .cycle)
  cycles : q.cycles = p.cycles + done.countP Machine.completes
  machine : q.machine.cycles = p.machine.cycles + done.countP Machine.completes
  timerTicks : q.timerTicks = p.timerTicks + met.count (.tick .timer)

section
variable {s : Session} {p q r : Standing} {done done' : List Machine} {met met' : List Arrival}

namespace Tally

theorem refl (hp : p.renderer.Headless) : Tally p [] [] p := ⟨hp, rfl, rfl, rfl, rfl⟩

theorem trans (h : Tally p done met q) (h' : Tally q done' met' r) :
    Tally p (done ++ done') (met ++ met') r where
  headless := h'.headless
  executed := by rw [List.length_append, List.count_append, h.executed, h'.executed]
  cycles := by rw [h'.cycles, h.cycles, List.countP_append, Nat.add_assoc]
  machine := by rw [h'.machine, h.machine, List.countP_append, Nat.add_assoc]
  timerTicks := by rw [h'.timerTicks, h.timerTicks, List.count_append, Nat.add_assoc]

end Tally

theorem tally_meet (hs : s.renderer.Headless) (a : Arrival) :
    Tally s.footing (s.executes a) [a] (s.meet a).1.footing where
  headless := (meet_stays hs a).headless
  executed := s.length_executes hs a
  cycles := s.cycles_meet a
  machine := s.machineCycles_meet a
  timerTicks := s.timerTicks_meet a

theorem tally_meetAll (hs : s.renderer.Headless) (as : List Arrival) :
    Tally s.footing (s.gather executes as) as (s.meetAll as).footing := by
  induction as generalizing s with
  | nil => exact .refl hs
  | cons a as ih =>
    have hhead := tally_meet hs a
    exact hhead.trans (ih hhead.headless)

theorem tally_obey (hs : s.renderer.Headless) (c : Command) :
    Tally s.footing (s.executed c) (s.meets c) (s.obey c).footing := by
  cases c with
  | arrival a => exact tally_meet hs a
  | run arrivals limit =>
    have hbegin : (s.begin arrivals).renderer.Headless := hs
    rw [obey, (s.ran_met arrivals limit).2.footing]
    exact tally_meetAll hbegin _
  | load program =>
    simp only [obey, load, Machine.loadLogged]
    cases hload : s.machine.load program with
    | error => exact .refl hs
    | ok m =>
      obtain ⟨_, rfl⟩ := Machine.load_frame hload
      exact ⟨hs, rfl, rfl, rfl, rfl⟩

theorem tally_live (hs : s.renderer.Headless) (cs : List Command) :
    Tally s.footing (s.executions cs) (s.encounters cs) (s.live cs).footing := by
  induction cs generalizing s with
  | nil => exact .refl hs
  | cons c cs ih =>
    have hhead := tally_obey hs c
    exact hhead.trans (ih hhead.headless)

end

section
variable {s : Session} {n : Int} {a : Arrival} {p met left : List Arrival} {out : Session × Ending}

theorem cycles_meet_le (s : Session) (a : Arrival) :
    s.cycles ≤ (s.meet a).1.cycles ∧ (s.meet a).1.cycles ≤ s.cycles + 1 := by
  have hcount := s.cycles_meet a
  have hle : (s.executes a).countP Machine.completes ≤ 1 := by
    refine Nat.le_trans List.countP_le_length ?_
    rcases s.machine_meet a with ⟨keypad, hexec, -⟩ | ⟨hexec, -⟩ <;> simp [hexec]
  omega

theorem cycles_meet_of_not_endsPoll (s : Session) (ha : ¬ a.EndsPoll) :
    (s.meet a).1.cycles = s.cycles := by
  rw [cycles_meet]
  cases a with
  | tick | nothing => exact absurd trivial ha
  | interrupt | happening => rfl

theorem cycles_le_meetAll (s : Session) (as : List Arrival) : s.cycles ≤ (s.meetAll as).cycles :=
  List.foldlRecOn (motive := fun s' : Session => s.cycles ≤ s'.cycles) as _ (Nat.le_refl _)
    fun s' hs' a _ => Nat.le_trans hs' (s'.cycles_meet_le a).1

/-- While a run with a limit is under way, the limit is not reached. -/
theorem Underway.cycles_lt (h : Underway (some n) s p) : ((s.meetAll p).cycles : Int) < n := by
  have hbelow : ∀ {q}, q <+: p → AtLook q → ((s.meetAll q).cycles : Int) < n := by
    intro q hq hlook
    have hno := h.unheld q hq hlook .limit
    exact not_le.1 fun hle => hno ⟨n, rfl, hle⟩
  induction p using List.reverseRecOn with
  | nil => exact hbelow List.prefix_rfl nofun
  | append_singleton p a ih =>
    by_cases ha : a.EndsPoll
    · exact hbelow List.prefix_rfl (atLook_snoc.2 ha)
    · rw [meetAll_snoc, cycles_meet_of_not_endsPoll _ ha]
      have hq := List.prefix_append p [a]
      exact ih (h.of_prefix hq) fun hr => hbelow (hr.trans hq)

/-- The arrivals that a run meets lead to the limit at most, if the run does not begin behind it. -/
theorem Ran.cycles_le (h : Ran (some n) s met left out) :
    ((s.meetAll met).cycles : Int) ≤ max (s.cycles : Int) n := by
  rcases List.eq_nil_or_concat' met with rfl | ⟨q, a, rfl⟩
  · exact Int.le_max_left _ _
  · have hlt := (h.underway List.prefix_rfl).cycles_lt
    have hle := ((s.meetAll q).cycles_meet_le a).2
    rw [meetAll_snoc]
    omega

theorem Ran.limit_le (h : Ran (some n) s met left out) (hlimit : out.2 = .stopped .limit) :
    n ≤ (s.meetAll met).cycles := by
  have hheld : ∀ {t : Session}, t.Holds (some n) .limit → n ≤ t.cycles := by
    rintro t ⟨_, ⟨⟩, hle⟩
    exact hle
  cases h with
  | atOnce due => cases hlimit; exact hheld due.holds
  | due _ _ _ due => cases hlimit; exact hheld due.holds
  | fault | usedUp => cases hlimit
  | escape _ _ escapes => exact absurd hlimit (escapes _)

theorem Ran.cycles (h : Ran (some n) s met left out) : out.1.cycles = (s.meetAll met).cycles :=
  congrArg Standing.cycles h.footing

theorem cycles_run (s : Session) (as : List Arrival) (n : Int) :
    ((s.run as (some n)).1.cycles : Int) ≤ max (s.cycles : Int) n ∧
      ((s.run as (some n)).2 = .stopped .limit →
        ((s.run as (some n)).1.cycles : Int) = max (s.cycles : Int) n) := by
  obtain ⟨-, hran⟩ := s.ran_met as (some n)
  have hbegin : (s.begin as).cycles = s.cycles := rfl
  have hle := hran.cycles_le
  rw [← hran.cycles, hbegin] at hle
  refine ⟨hle, fun hlimit => ?_⟩
  have hge := hran.limit_le hlimit
  have hmono := (s.begin as).cycles_le_meetAll (s.met as (some n))
  rw [← hran.cycles] at hge hmono
  omega

end

/-- In any history of a new session, the machine and the session count the instructions that came to
their end, of which each cycle tick executes one, and the timer ticks are all counted. No run leaves
more cycles than its limit, unless there were more before it, and one that its limit stopped leaves
as many. -/
theorem counters_exact (audio : Audio) (random : ByteSource) {renderer : Renderer}
    (hr : renderer.Headless) (cycleRate timerRate : Int) (threshold : Log.Level)
    (cs : List Command) :
    let s := ofRates (.fresh audio random) renderer cycleRate timerRate threshold
    ((s.live cs).machine.cycles = (s.live cs).cycles ∧
      (s.live cs).cycles = (s.executions cs).countP (fun m => m.step.2.isNone) ∧
      (s.executions cs).length = (s.encounters cs).count (.tick .cycle) ∧
      (s.live cs).timerTicks = (s.encounters cs).count (.tick .timer)) ∧
    ∀ (t : Session) (as : List Arrival) (n : Int),
      ((t.run as (some n)).1.cycles : Int) ≤ max (t.cycles : Int) n ∧
        ((t.run as (some n)).2 = .stopped .limit →
          ((t.run as (some n)).1.cycles : Int) = max (t.cycles : Int) n) := by
  intro s
  have htally := tally_live (s := s) hr cs
  have hmachine : (s.live cs).machine.cycles = 0 + _ := htally.machine
  have hcycles : (s.live cs).cycles = 0 + _ := htally.cycles
  have htimer : (s.live cs).timerTicks = 0 + _ := htally.timerTicks
  rw [Nat.zero_add] at hmachine hcycles htimer
  exact ⟨⟨hmachine.trans hcycles.symm, hcycles, htally.executed, htimer⟩, cycles_run⟩

/-- Cycle ticks by hand and in runs, one of which faults, one of which an unknown tick ends and one
of which begins behind its limit. -/
theorem counters_exact_of_fault :
    let s := ofRates (.fresh .silent .zeros) (.recorder (.new none)) 500 60 .info
    let cs : List Command := [.load [0x60, 0x01, 0x00, 0xEE, 0x12, 0x00], .arrival (.tick .cycle),
      .arrival (.tick .timer), .run [.tick .timer, .tick .cycle, .tick .cycle] none,
      .run [.nothing, .tick .cycle, .tick (.other "x")] (some 9), .run [.tick .cycle] (some (-4)),
      .run [.tick .cycle, .tick .cycle, .tick .cycle] (some 3)]
    s.renderer.Headless ∧ (s.live cs).cycles = 3 ∧ (s.live cs).machine.cycles = 3 ∧
      (s.live cs).timerTicks = 2 ∧ (s.executions cs).length = 4 := by
  intro s cs
  have hr : (Renderer.recorder (.new none)).Headless := trivial
  obtain ⟨⟨hmachine, hcycles, hexecuted, htimer⟩, -⟩ :=
    counters_exact .silent .zeros hr 500 60 .info cs
  have hdone : (s.executions cs).countP (fun m => m.step.2.isNone) = 3 := by decide +kernel
  have hmet : (s.encounters cs).count (.tick .cycle) = 4 ∧
      (s.encounters cs).count (.tick .timer) = 2 := by
    decide +kernel
  refine ⟨hr, hcycles.trans hdone, ?_, htimer.trans hmet.2, hexecuted.trans hmet.1⟩
  rw [hmachine]
  exact hcycles.trans hdone

end Session

end ChipEight
