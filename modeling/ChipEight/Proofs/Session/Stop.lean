import ChipEight.Proofs.Session.History

/-! # Stopping

A stop raises the stop flag, which stays up until the next run (`stopFlag_live`). That run finds it
at its first look, does nothing (`run_of_stopFlag`) and takes it back, as each run does however it
ends (`stopFlag_run`), a stop within the run or not.

Besides the flag a stop leaves no mark. What a session has besides its flag and the fault of its
last run is its `footing`; arrivals change it without regard to the flag (`footing_meet_congr`), so
that after a run it is as if no stop had been among the arrivals (`footing_run`).
-/

namespace ChipEight

def Command.stop : Command := .arrival (.happening .stop)

namespace Session

/-- Where a session stands that was not stopped and whose last run had no fault: its machine, its
renderer, the key events that wait and the counts of its ticks. -/
def footing (s : Session) : Standing := { s.standing with fault := none, stopFlag := false }

section
variable {s s' : Session}

/-- An arrival other than a stop passes the last fault and the flag by. -/
theorem meet_mark (s : Session) {a : Arrival} (ha : a ≠ .happening .stop) (fault : Option Fault)
    (stopFlag : Bool) :
    (meet { s with fault, stopFlag } a).1 = { (s.meet a).1 with fault, stopFlag } := by
  cases a with
  | nothing | interrupt => rfl
  | tick t =>
    cases t with
    | timer | other => rfl
    | cycle =>
      simp only [meet, handle, serveCycle, drain]
      cases s.renderer.poll with
      | error => rfl
      | ok => simp only [step_eq]
  | happening e =>
    simp only [meet]
    cases e with
    | stop => exact absurd rfl ha
    | post => rfl
    | quit => simp only [receive, setRenderer?]; cases s.renderer.setQuit? true <;> rfl
    | press key =>
      simp only [receive, setRenderer?]
      cases s.renderer.receiveKey? ⟨key, true⟩ <;> rfl
    | release key =>
      simp only [receive, setRenderer?]
      cases s.renderer.receiveKey? ⟨key, false⟩ <;> rfl
    | host e => simp only [receive]; cases s.renderer.receiveHost e <;> rfl

theorem stopFlag_meet (s : Session) (a : Arrival) :
    (s.meet a).1.stopFlag = (s.stopFlag || decide (a = .happening .stop)) := by
  by_cases ha : a = .happening .stop
  · subst ha; exact (Bool.or_true _).symm
  · rw [decide_eq_false ha, Bool.or_false]
    have hmark := congrArg Session.stopFlag (s.meet_mark ha s.fault s.stopFlag)
    exact hmark

theorem footing_meet_congr (h : s.footing = s'.footing) (a : Arrival) :
    (s.meet a).1.footing = (s'.meet a).1.footing := by
  by_cases ha : a = .happening .stop
  · subst ha; exact h
  · have hstand : standing { s with fault := none, stopFlag := false } =
        standing { s' with fault := none, stopFlag := false } := h
    have hmeet := meet_congr hstand a
    rw [s.meet_mark ha, s'.meet_mark ha] at hmeet
    exact hmeet

/-- Where arrivals lead with the stops among them, they lead without. -/
theorem footing_meetAll (h : s.footing = s'.footing) (as : List Arrival) :
    (s.meetAll as).footing = (s'.meetAll (as.filter (· ≠ .happening .stop))).footing := by
  induction as generalizing s s' with
  | nil => exact h
  | cons a as ih =>
    by_cases ha : a = .happening .stop
    · subst ha
      rw [List.filter_cons_of_neg (by simp)]
      exact ih (s := s.stop) h
    · rw [List.filter_cons_of_pos (by simpa using ha)]
      exact ih (footing_meet_congr h a)

end

section
variable {s s' : Session} {c : Command} {cs : List Command}

theorem footing_obey_congr (h : s.footing = s'.footing) (hc : ¬ c.IsRun) :
    (s.obey c).footing = (s'.obey c).footing := by
  cases c with
  | arrival a => exact footing_meet_congr h a
  | run => exact absurd trivial hc
  | load program =>
    have hmachine : s.machine = s'.machine := congrArg Standing.machine h
    simp only [obey, load, Machine.loadLogged, ← hmachine]
    cases s.machine.load program with
    | error => exact h
    | ok m => exact congrArg (fun st : Standing => { st with machine := m }) h

theorem footing_live_congr (h : s.footing = s'.footing) (hcs : ∀ c ∈ cs, ¬ c.IsRun) :
    (s.live cs).footing = (s'.live cs).footing := by
  induction cs generalizing s s' with
  | nil => exact h
  | cons c cs ih =>
    rw [List.forall_mem_cons] at hcs
    exact ih (footing_obey_congr h hcs.1) hcs.2

theorem stopFlag_obey (s : Session) (hc : ¬ c.IsRun) :
    (s.obey c).stopFlag = (s.stopFlag || decide (c = .stop)) := by
  cases c with
  | arrival a => rw [obey, stopFlag_meet]; simp [Command.stop]
  | run => exact absurd trivial hc
  | load program =>
    simp only [obey, load, Machine.loadLogged]
    cases s.machine.load program <;> exact (Bool.or_false _).symm

theorem stopFlag_live (s : Session) (hcs : ∀ c ∈ cs, ¬ c.IsRun) :
    (s.live cs).stopFlag = (s.stopFlag || decide (.stop ∈ cs)) := by
  induction cs generalizing s with
  | nil => exact (Bool.or_false _).symm
  | cons c cs ih =>
    rw [List.forall_mem_cons] at hcs
    have hlive : s.live (c :: cs) = (s.obey c).live cs := rfl
    rw [hlive, ih _ hcs.2, s.stopFlag_obey hcs.1, Bool.or_assoc, ← Bool.decide_or]
    simp only [List.mem_cons, eq_comm]

end

section
variable {s s' : Session} {limit : Option Int} {met left : List Arrival} {out : Session × Ending}

theorem stopCondition?_of_stopFlag (h : s.stopFlag = true) :
    s.stopCondition? limit = some .quit := by
  rw [stopCondition?, if_pos (.inl h)]

theorem run_of_stopFlag (h : s.stopFlag = true) (as : List Arrival) (limit : Option Int) :
    s.run as limit = ((s.begin as).finish (.stopped .quit), .stopped .quit) := by
  have hbegin : (s.begin as).stopFlag = true := h
  rw [run, proceed, stopCondition?_of_stopFlag hbegin]

theorem runOnClock_of_stopFlag (h : s.stopFlag = true) (hclock : s.ticking = false)
    (as : List Arrival) (limit : Option Int) :
    s.runOnClock as limit = ((s.begin []).finish (.stopped .quit), .ok (.stopped .quit)) := by
  have hbegin : (s.begin []).stopFlag = true := h
  simp only [runOnClock, hclock, proceed, stopCondition?_of_stopFlag hbegin]
  rfl

theorem stopFlag_finish (s : Session) (e : Ending) : (s.finish e).stopFlag = false := by
  cases e <;> rfl

theorem footing_finish (s : Session) (e : Ending) : (s.finish e).footing = s.footing := by
  cases e <;> rfl

theorem stopFlag_run (s : Session) (as : List Arrival) (limit : Option Int) :
    (s.run as limit).1.stopFlag = false := stopFlag_finish _ _

theorem stopFlag_runOnClock {as : List Arrival} {e : Ending}
    (h : (s.runOnClock as limit).2 = .ok e) :
    (s.runOnClock as limit).1.stopFlag = false := by
  unfold runOnClock at h ⊢
  split
  next hclock => rw [if_pos hclock] at h; cases h
  · exact stopFlag_finish _ _

theorem Ran.footing (h : Ran limit s met left out) : out.1.footing = (s.meetAll met).footing := by
  cases h with
  | atOnce | due | fault | escape | usedUp => exact footing_finish _ _

theorem footing_run (s : Session) (as : List Arrival) (limit : Option Int) :
    (s.run as limit).1.footing = (s.meetAll (s.met as limit)).footing := by
  have hbegin : (s.begin as).footing = s.footing := rfl
  rw [(s.ran_met as limit).2.footing, footing_meetAll hbegin, ← footing_meetAll rfl]

theorem outcome_run_congr (h : s.footing = s'.footing) (hflag : s.stopFlag = s'.stopFlag)
    (as : List Arrival) (limit : Option Int) :
    outcome (s.run as limit) = outcome (s'.run as limit) := by
  have hstand : (s.begin as).standing = (s'.begin as).standing := by
    have hs : (s.begin as).standing = { s.footing with stopFlag := s.stopFlag } := rfl
    rw [hs, h, hflag]; rfl
  exact outcome_settled (proceed_congr hstand rfl limit as)

end

/-- Where the arrivals that a run meets lead, with the stops among them left out. -/
def unstopped (s : Session) (as : List Arrival) (limit : Option Int) : Session :=
  meetAll { s with stopFlag := false } ((s.met as limit).filter (· ≠ .happening .stop))

theorem stopFlag_meetAll (s : Session) (as : List Arrival) :
    (s.meetAll as).stopFlag = (s.stopFlag || decide (.happening .stop ∈ as)) := by
  have hlive : s.meetAll as = s.live (as.map .arrival) := by rw [live, List.foldl_map]; rfl
  have hno : ∀ c ∈ as.map Command.arrival, ¬ c.IsRun := by
    intro c hc
    obtain ⟨a, -, rfl⟩ := List.mem_map.1 hc
    exact id
  rw [hlive, s.stopFlag_live hno]
  simp [Command.stop]

theorem stopFlag_unstopped (s : Session) (as : List Arrival) (limit : Option Int) :
    (s.unstopped as limit).stopFlag = false := by
  rw [unstopped, stopFlag_meetAll]
  simp

theorem footing_unstopped (s : Session) (as : List Arrival) (limit : Option Int) :
    (s.unstopped as limit).footing = (s.run as limit).1.footing := by
  have hlowered : s.footing = footing { s with stopFlag := false } := rfl
  rw [footing_run, footing_meetAll hlowered, unstopped]

/-- A stop ends the next run before it does anything, and no run after that: each run takes the flag
back, however it ends, and what comes after it is as if no stop had been before or within it. -/
theorem stop_once (s : Session) :
    (∀ cs : List Command, (∀ c ∈ cs, ¬ c.IsRun) → .stop ∈ cs →
      ∀ (as : List Arrival) (limit : Option Int),
      let t := s.live cs
      ((t.run as limit).2 = .stopped .quit ∧ (t.run as limit).1.footing = t.footing ∧
        (t.run as limit).1.queued = as) ∧
      (t.ticking = false → (t.runOnClock as limit).2 = .ok (.stopped .quit) ∧
        (t.runOnClock as limit).1.footing = t.footing)) ∧
    (∀ (as : List Arrival) (limit : Option Int), (s.run as limit).1.stopFlag = false ∧
      ∀ e, (s.runOnClock as limit).2 = .ok e → (s.runOnClock as limit).1.stopFlag = false) ∧
    ∀ (as : List Arrival) (limit : Option Int) (cs : List Command), (∀ c ∈ cs, ¬ c.IsRun) →
      .stop ∉ cs →
      ∀ (bs : List Arrival) (limit' : Option Int),
        outcome (((s.run as limit).1.live cs).run bs limit') =
          outcome (((s.unstopped as limit).live cs).run bs limit') := by
  refine ⟨fun cs hcs hstop as limit => ?_, fun as limit => ⟨s.stopFlag_run as limit, fun e he =>
    stopFlag_runOnClock he⟩, fun as limit cs hcs hstop bs limit' => ?_⟩
  · have hflag : (s.live cs).stopFlag = true := by
      rw [s.stopFlag_live hcs, decide_eq_true hstop, Bool.or_true]
    refine ⟨?_, fun hclock => ?_⟩
    · rw [run_of_stopFlag hflag]
      exact ⟨rfl, footing_finish _ _, rfl⟩
    · rw [runOnClock_of_stopFlag hflag hclock]
      exact ⟨rfl, footing_finish _ _⟩
  · have hflag : ((s.run as limit).1.live cs).stopFlag =
        ((s.unstopped as limit).live cs).stopFlag := by
      rw [stopFlag_live _ hcs, stopFlag_live _ hcs, stopFlag_run, stopFlag_unstopped]
    have hfooting := footing_live_congr (s.footing_unstopped as limit).symm hcs
    exact outcome_run_congr hfooting hflag bs limit'

/-- A run that was stopped before it, and one with a stop and a fault in one poll. -/
theorem stop_once_of_fault :
    let s := ofRates ((Machine.fresh .silent .zeros).act (.load [0x00, 0xEE]))
      (.recorder (.new none)) 500 60 .info
    let cs : List Command := [.stop, .arrival (.happening (.post 3 true))]
    let as : List Arrival := [.happening .stop, .tick .cycle, .tick .timer]
    let ds : List Command := [.arrival (.happening (.press 4))]
    let bs : List Arrival := [.tick .timer, .tick .cycle, .tick .cycle]
    (∀ c ∈ cs, ¬ c.IsRun) ∧ .stop ∈ cs ∧ ((s.live cs).run bs none).2 = .stopped .quit ∧
      (s.live cs).ticking = false ∧ ((s.live cs).runOnClock bs none).2 = .ok (.stopped .quit) ∧
      (s.run as none).2 = .stopped .fault ∧ (s.run as none).1.stopFlag = false ∧
      (s.runOnClock as none).2 = .ok (.stopped .fault) ∧ (s.runOnClock as none).1.stopFlag = false ∧
      (∀ d ∈ ds, ¬ d.IsRun) ∧ .stop ∉ ds ∧
      outcome (((s.run as none).1.live ds).run bs (some 1)) =
        outcome (((s.unstopped as none).live ds).run bs (some 1)) ∧
      (((s.run as none).1.live ds).run bs (some 1)).2 = .stopped .limit := by
  intro s cs as ds bs
  have hcs : ∀ c ∈ cs, ¬ c.IsRun := by simp [cs, Command.IsRun, Command.stop]
  have hds : ∀ d ∈ ds, ¬ d.IsRun := by simp [ds, Command.IsRun]
  have hstop : .stop ∈ cs := by decide
  have hnone : .stop ∉ ds := by decide
  have hclock : (s.live cs).ticking = false := by decide +kernel
  have hfault : (s.runOnClock as none).2 = .ok (.stopped .fault) := by decide +kernel
  obtain ⟨hquit, hdown, hlater⟩ := stop_once s
  obtain ⟨⟨hrun, -⟩, honClock⟩ := hquit cs hcs hstop bs none
  obtain ⟨hflag, hflagOnClock⟩ := hdown as none
  exact ⟨hcs, hstop, hrun, hclock, (honClock hclock).1, by decide +kernel, hflag, hfault,
    hflagOnClock _ hfault, hds, hnone, hlater as none ds hds hnone bs (some 1), by decide +kernel⟩

end Session

end ChipEight
