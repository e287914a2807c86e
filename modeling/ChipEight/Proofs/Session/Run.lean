import ChipEight.Proofs.Session.Serviceable
import Mathlib.Data.List.Infix

/-! # What a run amounts to

A run meets arrivals one after the other from the front, as `meetAll` does, until a look at the stop
conditions finds one that holds or an arrival ends it. `Ran` says where that is and what comes out,
in terms of the fold alone, and `run_ran` that each run is of this form. While a run is under way
(`Underway`), no look has found anything and no arrival has ended it; `Underway.snoc` is its step.
-/

namespace ChipEight.Session

/-- With these arrivals met, the stop conditions are looked at: at the start, and after each
poll. -/
def AtLook (met : List Arrival) : Prop := ∀ a ∈ met.getLast?, a.EndsPoll

/-- A run that started as `s` has met `met` and goes on. -/
structure Underway (limit : Option Int) (s : Session) (met : List Arrival) : Prop where
  unheld : ∀ p, p <+: met → AtLook p → ∀ r, ¬ (s.meetAll p).Holds limit r
  unended : ∀ p a, p ++ [a] <+: met → (s.meetAll p).ends? a = none

/-- A run that started as `s` has met `met` and leaves `left`: what comes out, and how it ended. -/
inductive Ran (limit : Option Int) (s : Session) :
    List Arrival → List Arrival → Session × Ending → Prop
  /-- The first look finds a stop condition. -/
  | atOnce {left : List Arrival} {r : StopReason} (due : s.Due limit r) :
    Ran limit s [] left ({ s with queued := left }.finish (.stopped r), .stopped r)
  /-- The look after the poll of `a` finds one. -/
  | due {p left : List Arrival} {a : Arrival} {r : StopReason} (underway : Underway limit s p)
    (unended : (s.meetAll p).ends? a = none) (look : a.EndsPoll)
    (due : (s.meetAll (p ++ [a])).Due limit r) :
    Ran limit s (p ++ [a]) left
      ({ s.meetAll (p ++ [a]) with queued := left }.finish (.stopped r), .stopped r)
  /-- The instruction of a tick faults. -/
  | fault {p left : List Arrival} {t : Tick} {f : Fault} (underway : Underway limit s p)
    (fault : ((s.meetAll p).handle t).2 = some (.machine (.fault f))) :
    Ran limit s (p ++ [Arrival.tick t]) left
      ({ s.meetAll (p ++ [Arrival.tick t]) with
          queued := left
          fault := some f
          log := (s.meetAll (p ++ [Arrival.tick t])).log.add
            ⟨.error, .scheduler, "fatal: " ++ f.message⟩ }.finish (.stopped .fault),
        .stopped .fault)
  /-- Something else escapes the run. -/
  | escape {p left : List Arrival} {a : Arrival} {e : Ending} (underway : Underway limit s p)
    (ends : (s.meetAll p).ends? a = some e) (escapes : ∀ r, e ≠ .stopped r) :
    Ran limit s (p ++ [a]) left ({ s.meetAll (p ++ [a]) with queued := left }.finish e, e)
  /-- The arrivals are used up, which stops the run as `stop` does. -/
  | usedUp {met : List Arrival} (underway : Underway limit s met) :
    Ran limit s met [] ({ (s.meetAll met).stop with queued := [] }.finish (.stopped .quit),
      .stopped .quit)

section
variable {limit : Option Int} {s : Session} {p : List Arrival} {a : Arrival}

theorem atLook_snoc : AtLook (p ++ [a]) ↔ a.EndsPoll := by
  simp only [AtLook, List.getLast?_concat, Option.mem_some_iff, forall_eq']

theorem underway_nil (h : ∀ r, ¬ s.Holds limit r) : Underway limit s [] where
  unheld q hq _ := by rw [List.prefix_nil.1 hq]; exact h
  unended q b hq := by simp at hq

theorem Underway.snoc (h : Underway limit s p) (ha : (s.meetAll p).ends? a = none)
    (hlook : a.EndsPoll → ∀ r, ¬ (s.meetAll (p ++ [a])).Holds limit r) :
    Underway limit s (p ++ [a]) where
  unheld q hq hql := by
    rcases List.prefix_concat_iff.1 hq with rfl | hq
    · exact hlook (atLook_snoc.1 hql)
    · exact h.unheld q hq hql
  unended q b hq := by
    rcases List.prefix_concat_iff.1 hq with heq | hq
    · obtain ⟨rfl, hb⟩ := List.append_inj' heq rfl
      rw [List.singleton_inj.1 hb]; exact ha
    · exact h.unended q b hq

/-- What comes out of a run whose loop ended. -/
def settled (out : Session × Ending) : Session × Ending := (out.1.finish out.2, out.2)

/-- The look after a poll: it ends the run, or the run goes on. -/
theorem look_ran (h : Underway limit s p) (ha : (s.meetAll p).ends? a = none) (hlook : a.EndsPoll)
    (as : List Arrival)
    (hon : Underway limit s (p ++ [a]) → ∃ met left, p ++ [a] ++ as = met ++ left ∧
      Ran limit s met left (settled (serve limit as (s.meetAll (p ++ [a]))))) :
    ∃ met left, p ++ [a] ++ as = met ++ left ∧
      Ran limit s met left
        (settled (match (s.meetAll (p ++ [a])).stopCondition? limit with
          | some r => ({ s.meetAll (p ++ [a]) with queued := as }, .stopped r)
          | none => serve limit as (s.meetAll (p ++ [a])))) := by
  split
  next r hr => exact ⟨_, as, rfl, .due h ha hlook (due_of_stopCondition? hr)⟩
  next hr => exact hon (h.snoc ha fun _ => not_holds_of_stopCondition? hr)

theorem turn_of_ok {t : Tick} (h : (s.handle t).2 = none) : s.turn t = ((s.handle t).1, none) := by
  rw [turn]
  rcases hs : s.handle t with ⟨s', o⟩
  rw [hs] at h
  cases h
  rfl

theorem turn_of_fault {t : Tick} {f : Fault} (h : (s.handle t).2 = some (.machine (.fault f))) :
    s.turn t =
      ({ (s.handle t).1 with
          fault := some f
          log := (s.handle t).1.log.add ⟨.error, .scheduler, "fatal: " ++ f.message⟩ },
        some (.stopped .fault)) := by
  rw [turn]
  rcases hs : s.handle t with ⟨s', o⟩
  rw [hs] at h
  cases h
  rfl

theorem turn_of_failure {t : Tick} {e : Failure} (h : (s.handle t).2 = some e)
    (he : ∀ f, e ≠ .machine (.fault f)) : s.turn t = ((s.handle t).1, some (.failed e)) := by
  rw [turn]
  rcases hs : s.handle t with ⟨s', o⟩
  rw [hs] at h
  cases h
  split
  next heq => cases heq
  next f heq => cases heq; exact absurd rfl (he _)
  next heq => cases heq; rfl

theorem receive_error_ne {e : Happening} {f : Failure} (h : s.receive e = .error f) :
    ∀ g, f ≠ .machine g := by
  rintro g rfl
  cases e with
  | quit | press | release =>
    simp only [receive, setRenderer?] at h
    split at h <;> cases h
  | stop | post => cases h
  | host e =>
    simp only [receive] at h
    split at h <;> cases h

theorem serve_ran (h : Underway limit s p) (as : List Arrival) :
    ∃ met left, p ++ as = met ++ left ∧
      Ran limit s met left (settled (serve limit as (s.meetAll p))) := by
  induction as generalizing p with
  | nil => exact ⟨p, [], rfl, .usedUp h⟩
  | cons a as ih =>
    have hmet := s.meetAll_snoc p a
    rw [List.append_cons]
    cases a with
    | interrupt =>
      have hout : serve limit (.interrupt :: as) (s.meetAll p) =
          ({ s.meetAll (p ++ [.interrupt]) with queued := as }, .interrupted) := by rw [hmet]; rfl
      rw [hout]
      exact ⟨_, as, rfl, .escape h rfl fun r hr => by cases hr⟩
    | nothing =>
      have hkeep : s.meetAll p = s.meetAll (p ++ [.nothing]) := hmet.symm
      have hlook := look_ran h (a := .nothing) rfl trivial as fun hu => ih hu
      rw [← hkeep] at hlook
      exact hlook
    | happening e =>
      cases hr : (s.meetAll p).receive e with
      | ok s' =>
        have hs' : s.meetAll (p ++ [.happening e]) = s' := by rw [hmet, meet, hr]
        have hends : (s.meetAll p).ends? (.happening e) = none := by
          simp only [ends?, meet, hr, Option.map_none]
        have hout : serve limit (.happening e :: as) (s.meetAll p) = serve limit as s' := by
          simp only [serve, hr]
        rw [hout, ← hs']
        exact ih (h.snoc hends False.elim)
      | error f =>
        have hs' : s.meetAll (p ++ [.happening e]) = s.meetAll p := by rw [hmet, meet, hr]
        have hends : (s.meetAll p).ends? (.happening e) = some (.failed f) := by
          simp only [ends?, meet, hr, Option.map_some]
          rw [Failure.ending_of_ne_fault fun g => receive_error_ne hr _]
        have hout : serve limit (.happening e :: as) (s.meetAll p) =
            ({ s.meetAll (p ++ [.happening e]) with queued := as }, .failed f) := by
          rw [hs']; simp only [serve, hr]
        rw [hout]
        exact ⟨_, as, rfl, .escape h hends fun r hr => by cases hr⟩
    | tick t =>
      have hs' : s.meetAll (p ++ [.tick t]) = ((s.meetAll p).handle t).1 := hmet
      cases hh : ((s.meetAll p).handle t).2 with
      | none =>
        have hends : (s.meetAll p).ends? (.tick t) = none := by
          simp only [ends?, meet, hh, Option.map_none]
        have hlook := look_ran h hends trivial as fun hu => ih hu
        simp only [serve, turn_of_ok hh, ← hs']
        exact hlook
      | some e =>
        by_cases hf : ∃ f, e = .machine (.fault f)
        · obtain ⟨f, rfl⟩ := hf
          simp only [serve, turn_of_fault hh, ← hs']
          exact ⟨_, as, rfl, .fault h hh⟩
        · have hne : ∀ f, e ≠ .machine (.fault f) := fun f he => hf ⟨f, he⟩
          have hends : (s.meetAll p).ends? (.tick t) = some (.failed e) := by
            simp only [ends?, meet, hh, Option.map_some, Failure.ending_of_ne_fault hne]
          simp only [serve, turn_of_failure hh hne, ← hs']
          exact ⟨_, as, rfl, .escape h hends fun r hr => by cases hr⟩

end

section
variable {limit : Option Int} {s : Session} {met left : List Arrival} {out : Session × Ending}

theorem Ran.queued (h : Ran limit s met left out) : out.1.queued = left := by
  cases h with
  | atOnce | due | fault | usedUp => rfl
  | @escape p _ a e _ _ escapes =>
    cases e with
    | stopped r => exact absurd rfl (escapes r)
    | interrupted | failed => rfl

theorem Ran.fault_isSome (h : Ran limit s met left out) (hs : s.fault = none) :
    out.1.fault.isSome ↔ out.2 = .stopped .fault := by
  have hnone : ∀ as, (s.meetAll as).fault = none := fun as => (s.meetAll_fault as).trans hs
  have hneither : ∀ {out : Session × Ending}, out.1.fault = none → out.2 ≠ .stopped .fault →
      (out.1.fault.isSome ↔ out.2 = .stopped .fault) := by
    intro out hout hne
    rw [hout]
    exact ⟨nofun, fun h => absurd h hne⟩
  cases h with
  | atOnce due => exact hneither hs fun hr => by cases hr; exact due.holds
  | due _ _ _ due => exact hneither (hnone _) fun hr => by cases hr; exact due.holds
  | fault => exact ⟨fun _ => rfl, fun _ => rfl⟩
  | @escape _ _ _ e _ _ escapes =>
    refine hneither ?_ (escapes _)
    cases e with
    | stopped r => exact absurd rfl (escapes r)
    | interrupted | failed => exact hnone _
  | usedUp => exact hneither (hnone _) nofun

theorem Ran.stopReason (h : Ran limit s met left out) {r : StopReason} (hr : out.2 = .stopped r) :
    out.1.stopReason = some r := by
  cases h with
  | atOnce | due | fault | usedUp => cases hr; rfl
  | escape _ _ escapes => exact absurd hr (escapes r)

/-- Of what a run may come to by itself nothing but a fault escapes its loop. -/
theorem Ran.stops (h : Ran limit s met left out) (hs : s.Serviceable)
    (hmet : ∀ a ∈ met, a.Plain s.renderer.Shown) : ∃ r, out.2 = .stopped r := by
  cases h with
  | atOnce | due | fault | usedUp => exact ⟨_, rfl⟩
  | escape _ ends escapes =>
    rw [List.forall_mem_append, List.forall_mem_singleton] at hmet
    obtain ⟨hp, hshown⟩ := hs.meetAll _ hmet.1
    obtain ⟨-, -, he⟩ := hp.meet ((propext hshown).symm ▸ hmet.2)
    exact absurd (he _ ends) (escapes _)

end

theorem run_ran (s : Session) (arrivals : List Arrival) (limit : Option Int) :
    ∃ met left, arrivals = met ++ left ∧
      Ran limit (s.begin arrivals) met left (s.run arrivals limit) := by
  show ∃ met left, arrivals = met ++ left ∧
    Ran limit (s.begin arrivals) met left (settled ((s.begin arrivals).proceed arrivals limit))
  unfold proceed
  split
  next r hr => exact ⟨[], arrivals, rfl, .atOnce (due_of_stopCondition? hr)⟩
  next hr => exact serve_ran (underway_nil (not_holds_of_stopCondition? hr)) arrivals

/-- A run is a fold over the arrivals that it meets, up to the first look that finds a stop
condition or the first arrival that ends it, and the rest of them stays queued. -/
theorem run_refines_fold (s : Session) (arrivals : List Arrival) (limit : Option Int) :
    (∃ met left, arrivals = met ++ left ∧ (s.run arrivals limit).1.queued = left ∧
      Ran limit (s.begin arrivals) met left (s.run arrivals limit)) ∧
    ((s.run arrivals limit).1.fault.isSome ↔ (s.run arrivals limit).2 = .stopped .fault) ∧
    (∀ r, (s.run arrivals limit).2 = .stopped r → (s.run arrivals limit).1.stopReason = some r) ∧
    (s.Serviceable → (∀ a ∈ arrivals, a.Plain s.renderer.Shown) →
      ∃ r, (s.run arrivals limit).2 = .stopped r) := by
  obtain ⟨met, left, heq, hran⟩ := s.run_ran arrivals limit
  refine ⟨⟨met, left, heq, hran.queued, hran⟩, hran.fault_isSome rfl, fun r => hran.stopReason,
    fun hs has => ?_⟩
  have hbegin : (s.begin arrivals).Serviceable := ⟨hs.machine, hs.renderer⟩
  refine hran.stops hbegin fun a ha => has a ?_
  rw [heq]
  exact List.mem_append_left left ha

/-- With a recorder and a limit of one cycle: the second cycle tick is not come to. -/
theorem run_refines_fold_of_limit :
    let s := ofRates (.fresh .silent .zeros) (.recorder (.new none)) 500 60 .info
    let as := [Arrival.nothing, .tick .timer, .happening (.post 3 true), .tick .cycle, .tick .cycle]
    s.Serviceable ∧ (∀ a ∈ as, a.Plain s.renderer.Shown) ∧
      (∃ r, (s.run as (some 1)).2 = .stopped r) ∧
      (s.run as (some 1)).2 = .stopped .limit ∧
      (s.run as (some 1)).1.queued = [.tick .cycle] := by
  intro s as
  have hs : s.Serviceable := ⟨Machine.fresh_wellFormed .silent .zeros, trivial⟩
  have has : ∀ a ∈ as, a.Plain s.renderer.Shown := by simp [as, Arrival.Plain]
  obtain ⟨-, -, -, hstops⟩ := run_refines_fold s as (some 1)
  refine ⟨hs, has, hstops hs has, ?_⟩
  decide +kernel

end ChipEight.Session
