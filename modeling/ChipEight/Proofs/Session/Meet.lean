import ChipEight.Proofs.Machine.Records
import ChipEight.Session.Run

/-! # Meeting arrivals, and the stop conditions

`meet` is what one arrival does to a session: ticks are served by `handle`, happenings are received.
`meetAll` folds it over many, with no look at the stop conditions. `Due` is the first of the stop
conditions that holds, which is what a run finds when it looks (`stopCondition?_spec`).
-/

namespace ChipEight

/-- The arrival ends the poll that comes to it, so that the stop conditions are looked at next. -/
def Arrival.EndsPoll : Arrival → Prop
  | .tick _ | .nothing => True
  | .interrupt | .happening _ => False

/-- The order in which the stop conditions are looked at. A fault is no condition. -/
def StopReason.rank : StopReason → Nat
  | .quit => 0
  | .halted => 1
  | .limit => 2
  | .fault => 3

namespace Session

/-- The session after an arrival, and what went wrong. -/
def meet (s : Session) : Arrival → Session × Option Failure
  | .tick t => s.handle t
  | .happening h =>
    match s.receive h with
    | .ok s' => (s', none)
    | .error e => (s, some e)
  | .nothing | .interrupt => (s, none)

def meetAll (s : Session) (as : List Arrival) : Session := as.foldl (fun s a => (s.meet a).1) s

/-- What the arrivals of a history give, each on the session that meets it, one after the other. -/
def gather {α : Type} (give : Session → Arrival → List α) (s : Session) : List Arrival → List α
  | [] => []
  | a :: as => give s a ++ (s.meet a).1.gather give as

/-- How what goes wrong ends a run: a fault of the program stops it, anything else escapes it. -/
def Failure.ending : Failure → Ending
  | .machine (.fault _) => .stopped .fault
  | e => .failed e

/-- How an arrival ends a run, if it does. -/
def ends? (s : Session) : Arrival → Option Ending
  | .interrupt => some .interrupted
  | a => (s.meet a).2.map Failure.ending

/-- The condition that a stop reason stands for. -/
def Holds (limit : Option Int) (s : Session) : StopReason → Prop
  | .quit => s.stopFlag = true ∨ s.renderer.quitRequested = true
  | .halted => 4096 ≤ s.machine.pc
  | .limit => ∃ n, limit = some n ∧ n ≤ s.cycles
  | .fault => False

/-- The stop condition of the highest priority among those that hold. -/
structure Due (limit : Option Int) (s : Session) (r : StopReason) : Prop where
  holds : s.Holds limit r
  first : ∀ r', r'.rank < r.rank → ¬ s.Holds limit r'

theorem Failure.ending_of_ne_fault {e : Failure} (h : ∀ f, e ≠ .machine (.fault f)) :
    e.ending = .failed e := by
  unfold Failure.ending
  split
  next f => exact absurd rfl (h f)
  · rfl

section
variable {limit : Option Int} {s : Session}

theorem quit_iff :
    s.stopFlag = true ∨ s.renderer.quitRequested = true ↔ s.Holds limit .quit := Iff.rfl

theorem halted_iff : s.machine.halted = true ↔ s.Holds limit .halted := decide_eq_true_iff

theorem limit_any_iff : (limit.any fun n : Int => n ≤ s.cycles) = true ↔ s.Holds limit .limit := by
  cases limit <;> simp [Holds]

/-- A look finds the stop condition that is due, or nothing if none holds. -/
theorem stopCondition?_spec (limit : Option Int) (s : Session) :
    (∃ r, s.stopCondition? limit = some r ∧ s.Due limit r) ∨
      s.stopCondition? limit = none ∧ ∀ r, ¬ s.Holds limit r := by
  unfold stopCondition?
  by_cases hq : s.Holds limit .quit
  · rw [if_pos (quit_iff.2 hq)]
    exact .inl ⟨.quit, rfl, hq, fun r' hr' => absurd hr' (Nat.not_lt_zero _)⟩
  rw [if_neg (mt quit_iff.1 hq)]
  by_cases hh : s.Holds limit .halted
  · rw [if_pos (halted_iff.2 hh)]
    refine .inl ⟨.halted, rfl, hh, fun r' hr' => ?_⟩
    cases r' with
    | quit => exact hq
    | halted | limit | fault => exact absurd hr' (by decide)
  rw [if_neg (mt halted_iff.1 hh)]
  by_cases hl : s.Holds limit .limit
  · rw [if_pos (limit_any_iff.2 hl)]
    refine .inl ⟨.limit, rfl, hl, fun r' hr' => ?_⟩
    cases r' with
    | quit => exact hq
    | halted => exact hh
    | limit | fault => exact absurd hr' (by decide)
  rw [if_neg (mt limit_any_iff.1 hl)]
  refine .inr ⟨rfl, fun r => ?_⟩
  cases r with
  | quit => exact hq
  | halted => exact hh
  | limit => exact hl
  | fault => exact id

theorem due_of_stopCondition? {r : StopReason} (h : s.stopCondition? limit = some r) :
    s.Due limit r := by
  rcases stopCondition?_spec limit s with ⟨r', hr', hdue⟩ | ⟨hnone, -⟩
  · rw [h] at hr'; cases hr'; exact hdue
  · rw [h] at hnone; cases hnone

theorem not_holds_of_stopCondition? (h : s.stopCondition? limit = none) (r : StopReason) :
    ¬ s.Holds limit r := by
  rcases stopCondition?_spec limit s with ⟨r', hr', -⟩ | ⟨-, hno⟩
  · rw [h] at hr'; cases hr'
  · exact hno r

end

section
variable (s : Session)

theorem step_eq :
    s.step =
      ({ s with
          machine := s.machine.step.1
          log := s.log.addAll s.machine.stepRecords
          cycles := s.cycles + if s.machine.step.2.isNone then 1 else 0 },
        s.machine.step.2.map .machine) := by
  simp only [step, Machine.stepLogged_eq]
  rcases s.machine.step with ⟨m, _ | e⟩ <;> rfl

/-- Where a tick may leave its mark; the rest of the session is as before. -/
theorem handle_frame (t : Tick) : ∃ machine renderer pending cycles timerTicks log,
    (s.handle t).1 = { s with machine, renderer, pending, cycles, timerTicks, log } := by
  cases t with
  | cycle =>
    simp only [handle, serveCycle, drain]
    split
    next h => split at h <;> cases h; exact ⟨_, _, _, _, _, _, rfl⟩
    next h =>
      split at h <;> cases h
      rw [step_eq]; exact ⟨_, _, _, _, _, _, rfl⟩
  | timer => exact ⟨_, _, _, _, _, _, rfl⟩
  | other kind => exact ⟨_, _, _, _, _, _, rfl⟩

/-- Where a happening may leave its mark. -/
theorem receive_frame {h : Happening} {s' : Session} (hs : s.receive h = .ok s') :
    ∃ renderer pending stopFlag ticking,
      s' = { s with renderer, pending, stopFlag, ticking } := by
  cases h with
  | quit | press | release =>
    simp only [receive, setRenderer?] at hs
    split at hs <;> cases hs
    exact ⟨_, _, _, _, rfl⟩
  | stop | post => cases hs; exact ⟨_, _, _, _, rfl⟩
  | host e =>
    simp only [receive] at hs
    split at hs <;> cases hs
    exact ⟨_, _, _, _, rfl⟩

/-- What happens beside a run concerns neither the machine nor what was counted. -/
theorem meet_happening_frame (h : Happening) :
    ∃ renderer pending stopFlag ticking,
      (s.meet (.happening h)).1 = { s with renderer, pending, stopFlag, ticking } := by
  simp only [meet]
  split
  next hs => exact s.receive_frame hs
  · exact ⟨_, _, _, _, rfl⟩

/-- What the last run came to is no concern of an arrival. -/
theorem meet_verdict (a : Arrival) :
    (s.meet a).1.fault = s.fault ∧ (s.meet a).1.stopReason = s.stopReason := by
  cases a with
  | tick t =>
    obtain ⟨_, _, _, _, _, _, h⟩ := s.handle_frame t
    simp only [meet, h, and_self]
  | happening h =>
    obtain ⟨_, _, _, _, hmeet⟩ := s.meet_happening_frame h
    simp only [hmeet, and_self]
  | nothing | interrupt => exact ⟨rfl, rfl⟩

theorem meetAll_cons (a : Arrival) (as : List Arrival) :
    s.meetAll (a :: as) = (s.meet a).1.meetAll as := rfl

theorem meetAll_snoc (as : List Arrival) (a : Arrival) :
    s.meetAll (as ++ [a]) = ((s.meetAll as).meet a).1 := by
  simp only [meetAll, List.foldl_append, List.foldl_cons, List.foldl_nil]

theorem gather_append {α : Type} (give : Session → Arrival → List α) (as bs : List Arrival) :
    s.gather give (as ++ bs) = s.gather give as ++ (s.meetAll as).gather give bs := by
  induction as generalizing s with
  | nil => rfl
  | cons a as ih =>
    rw [List.cons_append, gather, gather, ih, List.append_assoc]; rfl

/-- What follows what is given at each arrival follows all that is given in a history. -/
theorem foldl_gather {α β : Type} {give : Session → Arrival → List α} {change : β → α → β}
    (view : Session → β) {P : Session → Prop} (hP : ∀ s a, P s → P (s.meet a).1)
    (hview : ∀ s a, P s → view (s.meet a).1 = (give s a).foldl change (view s)) (hs : P s)
    (as : List Arrival) : view (s.meetAll as) = (s.gather give as).foldl change (view s) := by
  induction as generalizing s with
  | nil => rfl
  | cons a as ih =>
    rw [meetAll_cons, ih _ (hP s a hs), hview s a hs, gather, List.foldl_append]

theorem meetAll_fault (as : List Arrival) : (s.meetAll as).fault = s.fault :=
  List.foldlRecOn (motive := fun s' : Session => s'.fault = s.fault) as _ rfl
    fun s' hs' a _ => (s'.meet_verdict a).1.trans hs'

end

end Session

end ChipEight
