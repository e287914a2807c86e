import ChipEight.Proofs.Session.History

/-! # What the runs of a session came to

A run forgets the fault of the run before at once, and replaces its stop reason when it comes to an
end of its own. So the fault of a session is that of its last run, while its stop reason is that of
the last run that nothing escaped (`fault_live`, `stopReason_live`). They tell of one run as long as
no run that something escaped follows one that a fault stopped (`Stale`).
-/

namespace ChipEight.Session

/-- Why a run stopped, if it came to an end of its own. -/
def Ending.reason? : Ending → Option StopReason
  | .stopped r => some r
  | _ => none

def ended (s : Session) : Command → List Ending
  | .run arrivals limit => [(s.run arrivals limit).2]
  | _ => []

/-- How the runs of a history ended, the first one first. -/
def endings (s : Session) : List Command → List Ending
  | [] => []
  | c :: cs => s.ended c ++ (s.obey c).endings cs

/-- A fault stopped a run, and something escaped each of the runs after it, of which there is one at
least. -/
def Stale (es : List Ending) : Prop :=
  ∃ before after, es = before ++ .stopped .fault :: after ∧ after ≠ [] ∧
    ∀ e ∈ after, e.reason? = none

section
variable {s : Session} {limit : Option Int} {met left : List Arrival} {out : Session × Ending}

theorem meetAll_stopReason (s : Session) (as : List Arrival) :
    (s.meetAll as).stopReason = s.stopReason :=
  List.foldlRecOn (motive := fun s' : Session => s'.stopReason = s.stopReason) as _ rfl
    fun s' hs' a _ => (s'.meet_verdict a).2.trans hs'

theorem Ending.reason?_eq_none (e : Ending) (h : ∀ r, e ≠ .stopped r) : e.reason? = none := by
  cases e with
  | stopped r => exact absurd rfl (h r)
  | interrupted | failed => rfl

theorem Ran.stopReason_eq (h : Ran limit s met left out) :
    out.1.stopReason = out.2.reason?.or s.stopReason := by
  cases h with
  | atOnce | due | fault | usedUp => rfl
  | @escape p left a e _ _ escapes =>
    rw [e.reason?_eq_none escapes, Option.none_or]
    cases e with
    | stopped r => exact absurd rfl (escapes r)
    | interrupted | failed => exact s.meetAll_stopReason _

theorem stopReason_run (s : Session) (as : List Arrival) (limit : Option Int) :
    (s.run as limit).1.stopReason = (s.run as limit).2.reason?.or s.stopReason :=
  (s.ran_met as limit).2.stopReason_eq

theorem fault_run (s : Session) (as : List Arrival) (limit : Option Int) :
    (s.run as limit).1.fault.isSome ↔ (s.run as limit).2 = .stopped .fault :=
  (s.ran_met as limit).2.fault_isSome rfl

/-- Besides the runs nothing touches what the last one came to. -/
theorem obey_of_not_isRun {c : Command} (hc : ¬ c.IsRun) :
    s.ended c = [] ∧ (s.obey c).fault = s.fault ∧ (s.obey c).stopReason = s.stopReason := by
  cases c with
  | arrival a => exact ⟨rfl, s.meet_verdict a⟩
  | run => exact absurd trivial hc
  | load program =>
    simp only [obey, load, Machine.loadLogged]
    cases s.machine.load program <;> exact ⟨rfl, rfl, rfl⟩

theorem stopReason_obey (s : Session) (c : Command) :
    (s.obey c).stopReason = ((s.ended c).filterMap Ending.reason?).getLast?.or s.stopReason := by
  by_cases hc : c.IsRun
  · cases c with
    | run as limit =>
      rw [obey, stopReason_run, ended, List.filterMap_cons, List.filterMap_nil]
      cases (s.run as limit).2.reason? <;> rfl
    | arrival | load => exact hc.elim
  · obtain ⟨hended, -, hreason⟩ := obey_of_not_isRun (s := s) hc
    rw [hended, hreason]; rfl

theorem fault_obey (s : Session) (c : Command) :
    (s.obey c).fault.isSome =
      ((s.ended c).getLast?.map fun e => decide (e = .stopped .fault)).getD s.fault.isSome := by
  by_cases hc : c.IsRun
  · cases c with
    | run as limit => exact Bool.eq_iff_iff.2 ((s.fault_run as limit).trans decide_eq_true_iff.symm)
    | arrival | load => exact hc.elim
  · obtain ⟨hended, hfault, -⟩ := obey_of_not_isRun (s := s) hc
    rw [hended, hfault]; rfl

theorem stopReason_live (s : Session) (cs : List Command) :
    (s.live cs).stopReason =
      ((s.endings cs).filterMap Ending.reason?).getLast?.or s.stopReason := by
  induction cs generalizing s with
  | nil => rfl
  | cons c cs ih =>
    have hlive : s.live (c :: cs) = (s.obey c).live cs := rfl
    rw [hlive, ih, stopReason_obey, endings, List.filterMap_append, List.getLast?_append,
      Option.or_assoc]

theorem fault_live (s : Session) (cs : List Command) :
    (s.live cs).fault.isSome =
      ((s.endings cs).getLast?.map fun e => decide (e = .stopped .fault)).getD s.fault.isSome := by
  induction cs generalizing s with
  | nil => rfl
  | cons c cs ih =>
    have hlive : s.live (c :: cs) = (s.obey c).live cs := rfl
    rw [hlive, ih, fault_obey, endings, List.getLast?_append]
    cases ((s.obey c).endings cs).getLast? <;> rfl

end

/-- The last reason given, and what came after it. -/
theorem lastReason_iff {es : List Ending} {r : StopReason} :
    (es.filterMap Ending.reason?).getLast? = some r ↔
      ∃ before after, es = before ++ .stopped r :: after ∧ ∀ e ∈ after, e.reason? = none := by
  -- The last reason is the first one that the list gives when it is read backwards.
  rw [List.getLast?_filterMap, List.findSome?_eq_some_iff]
  constructor
  · rintro ⟨after, e, before, heq, hr, hnone⟩
    have he : e = .stopped r := by cases e <;> cases hr; rfl
    refine ⟨before.reverse, after.reverse, ?_, fun e he => hnone e (List.mem_reverse.1 he)⟩
    rw [← List.reverse_reverse es, heq, he]
    simp
  · rintro ⟨before, after, rfl, hnone⟩
    exact ⟨after.reverse, .stopped r, before.reverse, by simp, rfl, fun e he =>
      hnone e (List.mem_reverse.1 he)⟩

/-- That the last reason given is a fault, while the last run had none, makes it stale. -/
theorem stale_iff {es : List Ending} :
    Stale es ↔ (es.filterMap Ending.reason?).getLast? = some .fault ∧
      es.getLast? ≠ some (.stopped .fault) := by
  rw [lastReason_iff]
  constructor
  · rintro ⟨before, after, rfl, hne, hnone⟩
    refine ⟨⟨before, after, rfl, hnone⟩, fun hlast => ?_⟩
    obtain ⟨rest, e, rfl⟩ := (List.eq_nil_or_concat' after).resolve_left hne
    rw [← List.cons_append, ← List.append_assoc, List.getLast?_concat, Option.some_inj] at hlast
    have hreason := hnone e List.mem_concat_self
    rw [hlast] at hreason
    cases hreason
  · rintro ⟨⟨before, after, rfl, hnone⟩, hlast⟩
    refine ⟨before, after, rfl, ?_, hnone⟩
    rintro rfl
    exact hlast List.getLast?_concat

theorem fault_live_iff {s : Session} (h : s.fault = none) (cs : List Command) :
    (s.live cs).fault.isSome ↔ (s.endings cs).getLast? = some (.stopped .fault) := by
  rw [fault_live, h]
  cases (s.endings cs).getLast? with
  | none => exact ⟨nofun, nofun⟩
  | some e => exact decide_eq_true_iff.trans Option.some_inj.symm

/-- The stop reason recorded is that of the last run that came to an end of its own, the fault is
that of the last run. So a fault always goes with the stop reason `fault`, and the stop reason
`fault` with a fault unless it is stale. -/
theorem verdict_recorded (machine : Machine) (renderer : Renderer) (cycleRate timerRate : Int)
    (threshold : Log.Level) (cs : List Command) :
    let s := ofRates machine renderer cycleRate timerRate threshold
    let t := s.live cs
    t.stopReason = ((s.endings cs).filterMap Ending.reason?).getLast? ∧
    (t.fault.isSome ↔ (s.endings cs).getLast? = some (.stopped .fault)) ∧
    (t.fault.isSome → t.stopReason = some .fault) ∧
    ((t.stopReason = some .fault ↔ t.fault.isSome) ↔ ¬ Stale (s.endings cs)) := by
  intro s t
  have hreason : t.stopReason = ((s.endings cs).filterMap Ending.reason?).getLast? :=
    (s.stopReason_live cs).trans Option.or_none
  have hfault : t.fault.isSome ↔ (s.endings cs).getLast? = some (.stopped .fault) :=
    fault_live_iff rfl cs
  have hgiven : t.fault.isSome → t.stopReason = some .fault := by
    intro hsome
    obtain ⟨before, heq⟩ := List.getLast?_eq_some_iff.1 (hfault.1 hsome)
    rw [hreason, lastReason_iff]
    exact ⟨before, [], heq, by simp⟩
  refine ⟨hreason, hfault, hgiven, ?_⟩
  rw [stale_iff, ← hreason, Ne, ← hfault]
  tauto

/-- A return from nowhere, and then a tick that no run serves: the fault is forgotten, the reason is
not. -/
theorem fault_forgotten :
    let s := ofRates ((Machine.fresh .silent .zeros).act (.load [0x00, 0xEE]))
      (.recorder (.new none)) 500 60 .info
    let t := s.live [.run [.tick .cycle] none, .run [.tick (.other "x")] none]
    t.stopReason = some .fault ∧ t.fault = none := by decide +kernel

theorem verdict_recorded_of_escape :
    let s := ofRates ((Machine.fresh .silent .zeros).act (.load [0x00, 0xEE]))
      (.recorder (.new none)) 500 60 .info
    let t := s.live [.run [.tick .cycle] none]
    t.fault.isSome ∧ t.stopReason = some .fault ∧
      Stale (s.endings [.run [.tick .cycle] none, .run [.tick (.other "x")] none]) := by
  intro s t
  obtain ⟨-, -, hgiven, -⟩ :=
    verdict_recorded ((Machine.fresh .silent .zeros).act (.load [0x00, 0xEE]))
      (.recorder (.new none)) 500 60 .info [.run [.tick .cycle] none]
  obtain ⟨-, -, -, hagree⟩ :=
    verdict_recorded ((Machine.fresh .silent .zeros).act (.load [0x00, 0xEE]))
      (.recorder (.new none)) 500 60 .info
      [.run [.tick .cycle] none, .run [.tick (.other "x")] none]
  have hfault : t.fault.isSome := by decide +kernel
  obtain ⟨hreason, hforgotten⟩ := fault_forgotten
  refine ⟨hfault, hgiven hfault, Classical.not_not.1 fun hno => ?_⟩
  have hsome := (hagree.2 hno).1 hreason
  rw [hforgotten] at hsome
  cases hsome

theorem not_always_agreeing :
    ¬ ∀ (machine : Machine) (renderer : Renderer) (cycleRate timerRate : Int)
      (threshold : Log.Level) (cs : List Command), (∀ c ∈ cs, c.IsRun) →
      let t := (ofRates machine renderer cycleRate timerRate threshold).live cs
      (t.stopReason = some .fault ↔ t.fault.isSome) := by
  intro h
  have hagree := h ((Machine.fresh .silent .zeros).act (.load [0x00, 0xEE])) (.recorder (.new none))
    500 60 .info [.run [.tick .cycle] none, .run [.tick (.other "x")] none]
    (by simp [Command.IsRun])
  obtain ⟨hreason, hforgotten⟩ := fault_forgotten
  have hsome := hagree.1 hreason
  rw [hforgotten] at hsome
  cases hsome

end ChipEight.Session
