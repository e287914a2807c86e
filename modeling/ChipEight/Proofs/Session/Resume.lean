import ChipEight.Proofs.Machine.KeyWait
import ChipEight.Proofs.Session.Standing

/-! # Going on after a limit

A run that its limit stopped can be gone on with: the next run, on what is left and with a limit no
lower, comes to what a single run with that limit comes to (`run_resumed`). The limit counts cycles
over all runs, it is looked at last, so that nothing is pending when it is the reason, and ending a
run for it leaves the session standing where it was (`Ran.standing_begin`).

The signals of the two runs, one after the other, are those of the single one. `signals` are those
of an arrival, and `runSignals` those of the arrivals that a run meets, which is all that the audio
gets (`audio_run`).
-/

namespace ChipEight.Session

/-- What the audio gets at an arrival. -/
def signals (s : Session) : Arrival → List Signal
  | .tick .timer => s.machine.tickSignals
  | _ => []

/-- The arrivals that a run meets. -/
def met (s : Session) (arrivals : List Arrival) (limit : Option Int) : List Arrival :=
  arrivals.take (arrivals.length - (s.run arrivals limit).1.queued.length)

def runSignals (s : Session) (arrivals : List Arrival) (limit : Option Int) : List Signal :=
  (s.begin arrivals).gather signals (s.met arrivals limit)

variable {s s' : Session} {limit : Option Int}

theorem audio_meet (s : Session) (a : Arrival) :
    (s.meet a).1.machine.audio = (s.signals a).foldl Audio.signal s.machine.audio := by
  cases a with
  | nothing | interrupt => rfl
  | happening e =>
    obtain ⟨_, _, _, _, hmeet⟩ := s.meet_happening_frame e
    rw [hmeet]; rfl
  | tick t =>
    cases t with
    | other => rfl
    | timer => show s.machine.tick.audio = _; rw [Machine.tick_eq]; rfl
    | cycle =>
      simp only [meet, handle, serveCycle, drain]
      cases s.renderer.poll with
      | error => rfl
      | ok => simp only [step_eq, Machine.audio_step]; rfl

theorem Ran.machine {met left : List Arrival} {out : Session × Ending}
    (h : Ran limit s met left out) :
    out.1.machine = (s.meetAll met).machine := by
  cases h with
  | atOnce | due | fault | usedUp => rfl
  | @escape _ _ _ e => cases e <;> rfl

theorem ran_met (s : Session) (arrivals : List Arrival) (limit : Option Int) :
    arrivals = s.met arrivals limit ++ (s.run arrivals limit).1.queued ∧
      Ran limit (s.begin arrivals) (s.met arrivals limit) (s.run arrivals limit).1.queued
        (s.run arrivals limit) := by
  obtain ⟨p, left, heq, hran⟩ := s.run_ran arrivals limit
  have hleft := hran.queued
  have hmet : s.met arrivals limit = p := by
    have hlen : p.length = arrivals.length - left.length := by
      have := congrArg List.length heq
      rw [List.length_append] at this
      omega
    rw [met, hleft, ← hlen, heq]
    exact List.take_left
  rw [hmet, hleft]
  exact ⟨heq, hran⟩

/-- All that the audio gets in a run. -/
theorem audio_run (s : Session) (arrivals : List Arrival) (limit : Option Int) :
    (s.run arrivals limit).1.machine.audio =
      (s.runSignals arrivals limit).foldl Audio.signal s.machine.audio := by
  have hbegin : (s.begin arrivals).machine.audio = s.machine.audio := rfl
  rw [(s.ran_met arrivals limit).2.machine, runSignals, ← hbegin]
  exact foldl_gather _ (fun s' => s'.machine.audio) (P := fun _ => True) (fun _ _ _ => trivial)
    (fun s' a _ => s'.audio_meet a) trivial _

theorem gather_signals_congr (h : s.standing = s'.standing) (as : List Arrival) :
    s.gather signals as = s'.gather signals as := by
  induction as generalizing s s' with
  | nil => rfl
  | cons a as ih =>
    have ha : s.signals a = s'.signals a := by
      obtain ⟨_, _, _, _, _, _, rfl⟩ := eq_of_standing h
      cases a <;> rfl
    rw [gather, gather, ha, ih (meet_congr h a)]

/-- What stops a run with the higher limit stops one with the lower limit. -/
theorem Holds.of_le {n : Int} {m : Option Int} (hnm : ∀ k, m = some k → n ≤ k) {r : StopReason}
    (h : s.Holds m r) : ∃ r', s.Holds (some n) r' := by
  cases r with
  | quit => exact ⟨.quit, h⟩
  | halted => exact ⟨.halted, h⟩
  | limit =>
    obtain ⟨k, hk, hle⟩ := h
    exact ⟨.limit, n, rfl, Int.le_trans (hnm k hk) hle⟩
  | fault => exact h.elim

theorem stopCondition?_of_le {n : Int} {m : Option Int} (hnm : ∀ k, m = some k → n ≤ k)
    (h : s.stopCondition? (some n) = none) : s.stopCondition? m = none := by
  rcases stopCondition?_spec m s with ⟨r, -, hdue⟩ | ⟨hnone, -⟩
  · obtain ⟨r', hr'⟩ := hdue.holds.of_le hnm
    exact absurd hr' (not_holds_of_stopCondition? h r')
  · exact hnone

/-- A loop that its limit stops, gone on with under a limit no lower. -/
theorem serve_resume {n : Int} {m : Option Int} (hnm : ∀ k, m = some k → n ≤ k) {as : List Arrival}
    {s₁ : Session} (h : serve (some n) as s = (s₁, .stopped .limit)) :
    outcome (serve m as s) = outcome (s₁.proceed s₁.queued m) ∧ s₁.Due (some n) .limit ∧
      s₁.fault = s.fault := by
  induction as generalizing s with
  | nil => cases h
  | cons a as ih =>
    cases ht : (s.take a).2 with
    | some e =>
      rw [serve_of_ends ht] at h
      cases h
      exact absurd ht (s.take_ne_limit a)
    | none =>
      have hfault := take_fault ht
      by_cases ha : a.EndsPoll
      · rw [serve_of_look ht ha] at h ⊢
        rw [look] at h
        cases hc : (s.take a).1.stopCondition? (some n) with
        | some r =>
          rw [hc] at h
          cases h
          have hdue := due_of_stopCondition? hc
          exact ⟨outcome_look _ m as, ⟨hdue.holds, hdue.first⟩, hfault⟩
        | none =>
          rw [hc] at h
          rw [look, stopCondition?_of_le hnm hc, ← hfault]
          exact ih h
      · rw [serve_of_happening ht ha] at h ⊢
        rw [← hfault]
        exact ih h

theorem proceed_resume {n : Int} {m : Option Int} (hnm : ∀ k, m = some k → n ≤ k)
    {as : List Arrival} {s₁ : Session} (hq : s.queued = as)
    (h : s.proceed as (some n) = (s₁, .stopped .limit)) :
    outcome (s.proceed as m) = outcome (s₁.proceed s₁.queued m) ∧ s₁.Due (some n) .limit ∧
      s₁.fault = s.fault := by
  rw [proceed] at h
  cases hc : s.stopCondition? (some n) with
  | some r =>
    rw [hc] at h
    cases h
    rw [hq]
    exact ⟨rfl, due_of_stopCondition? hc, rfl⟩
  | none =>
    rw [hc] at h
    rw [proceed, stopCondition?_of_le hnm hc]
    exact serve_resume hnm h

/-- A run that the limit ends and the beginning of the next one leave a session where it stands. -/
theorem standing_finish_begin {l : Option Int} (hdue : s.Due l .limit) (hfault : s.fault = none)
    (left as : List Arrival) :
    (({ s with queued := left }.finish (.stopped .limit)).begin as).standing = s.standing := by
  have hflag : s.stopFlag = false := by
    rw [Bool.eq_false_iff]
    exact fun hup => hdue.first .quit (by decide) (.inl hup)
  simp only [standing, begin, finish, hflag, hfault]

theorem Ran.standing_begin {met left : List Arrival} {out : Session × Ending}
    (h : Ran limit s met left out) (hs : s.fault = none) (hlimit : out.2 = .stopped .limit)
    (as : List Arrival) :
    (out.1.begin as).standing = (s.meetAll met).standing := by
  cases h with
  | atOnce due => cases hlimit; exact standing_finish_begin due hs left as
  | due _ _ _ due =>
    cases hlimit
    exact standing_finish_begin due ((s.meetAll_fault _).trans hs) left as
  | fault | usedUp => cases hlimit
  | escape _ _ escapes => exact absurd hlimit (escapes _)

theorem outcome_resumed (s : Session) (arrivals : List Arrival) {n : Int} {m : Option Int}
    (hnm : ∀ k, m = some k → n ≤ k) (hlimit : (s.run arrivals (some n)).2 = .stopped .limit) :
    let first := (s.run arrivals (some n)).1
    outcome (first.run first.queued m) = outcome (s.run arrivals m) := by
  intro first
  rcases hp : (s.begin arrivals).proceed arrivals (some n) with ⟨s₁, e⟩
  have hrun : s.run arrivals (some n) = settled (s₁, e) := by rw [← hp]; rfl
  have he : e = .stopped .limit := by rw [← hlimit, hrun]; rfl
  subst he
  have hfirst : first = s₁.finish (.stopped .limit) := congrArg Prod.fst hrun
  have hbegin : (s.begin arrivals).queued = arrivals := rfl
  obtain ⟨hsame, hdue, hfault⟩ := proceed_resume hnm hbegin hp
  have hstand : (first.begin first.queued).standing = s₁.standing := by
    rw [hfirst]; exact standing_finish_begin hdue hfault s₁.queued _
  have hqueue : first.queued = s₁.queued := by rw [hfirst]; rfl
  have hgo : outcome ((first.begin first.queued).proceed first.queued m) =
      outcome ((s.begin arrivals).proceed arrivals m) := by
    rw [hsame, ← hqueue]
    exact proceed_congr hstand hqueue m first.queued
  exact outcome_settled hgo

theorem met_resumed (s : Session) (arrivals : List Arrival) {n : Int} {m : Option Int}
    (hnm : ∀ k, m = some k → n ≤ k) (hlimit : (s.run arrivals (some n)).2 = .stopped .limit) :
    let first := (s.run arrivals (some n)).1
    s.met arrivals m = s.met arrivals (some n) ++ first.met first.queued m := by
  intro first
  obtain ⟨hfirst, -⟩ := s.ran_met arrivals (some n)
  obtain ⟨hsecond, -⟩ := first.ran_met first.queued m
  obtain ⟨hsingle, -⟩ := s.ran_met arrivals m
  have hqueue : (first.run first.queued m).1.queued = (s.run arrivals m).1.queued :=
    congrArg (fun o => o.2.1) (s.outcome_resumed arrivals hnm hlimit)
  have hsame : s.met arrivals m ++ (s.run arrivals m).1.queued =
      s.met arrivals (some n) ++ first.met first.queued m ++ (s.run arrivals m).1.queued := by
    rw [← hsingle, List.append_assoc, ← hqueue, ← hsecond]
    exact hfirst
  exact List.append_cancel_right hsame

/-- A run that its limit stopped, and a run on what it left with a limit no lower, come to what one
run with that limit comes to, with the same signals. -/
theorem run_resumed (s : Session) (arrivals : List Arrival) {n : Int} {m : Option Int}
    (hnm : ∀ k, m = some k → n ≤ k) (hlimit : (s.run arrivals (some n)).2 = .stopped .limit) :
    let first := (s.run arrivals (some n)).1
    outcome (first.run first.queued m) = outcome (s.run arrivals m) ∧
      s.runSignals arrivals (some n) ++ first.runSignals first.queued m = s.runSignals arrivals m ∧
      ∀ (s' : Session) (as : List Arrival) (limit : Option Int),
        (s'.run as limit).1.machine.audio =
          (s'.runSignals as limit).foldl Audio.signal s'.machine.audio := by
  intro first
  refine ⟨s.outcome_resumed arrivals hnm hlimit, ?_, audio_run⟩
  -- the second run meets what is left on a session that stands where the first one left it
  have hstand := (s.ran_met arrivals (some n)).2.standing_begin rfl hlimit first.queued
  rw [runSignals, runSignals, runSignals, s.met_resumed arrivals hnm hlimit, gather_append,
    gather_signals_congr hstand]

/-- The first run sets the sound timer, and the tone ends in the second. -/
theorem run_resumed_of_sound :
    let s := ofRates ((Machine.fresh (.recording []) .zeros).act
      (.load [0x60, 0x02, 0xF0, 0x18, 0xF1, 0x0A, 0x00, 0xE0])) (.recorder (.new none)) 500 60 .info
    let as : List Arrival :=
      [.tick .cycle, .nothing, .tick .timer, .happening (.post 3 true), .tick .cycle,
        .tick .timer, .tick .cycle, .happening (.press 7), .tick .timer, .tick .cycle, .tick .cycle]
    let first := (s.run as (some 2)).1
    (∀ k : Int, some 4 = some k → 2 ≤ k) ∧
      (s.run as (some 2)).2 = .stopped .limit ∧
      outcome (first.run first.queued (some 4)) = outcome (s.run as (some 4)) ∧
      s.runSignals as (some 2) = [.stop] ∧
      s.runSignals as (some 4) = [.stop, .start, .start, .stop] := by
  intro s as first
  have hnm : ∀ k : Int, some 4 = some k → 2 ≤ k := by simp
  have hlimit : (s.run as (some 2)).2 = .stopped .limit := by decide +kernel
  obtain ⟨hout, hsignals, -⟩ := run_resumed s as hnm hlimit
  refine ⟨hnm, hlimit, hout, by decide +kernel, ?_⟩
  rw [← hsignals]
  decide +kernel

end ChipEight.Session
