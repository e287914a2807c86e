import ChipEight.Proofs.Session.Run

/-! # Where a session stands

What a session does next depends on where it stands: on all of it but its log, its clock, the
arrivals queued and the reason of the run before, which are only kept. Sessions that stand alike
serve the same arrivals alike and stand alike afterwards, arrival by arrival (`take_congr`) and from
there over a run (`serve_congr`, `proceed_congr`).
-/

namespace ChipEight

structure Standing where
  machine : Machine
  renderer : Renderer
  pending : List KeyEvent
  cycles : Nat
  timerTicks : Nat
  fault : Option Fault
  stopFlag : Bool

namespace Session

def standing (s : Session) : Standing :=
  ⟨s.machine, s.renderer, s.pending, s.cycles, s.timerTicks, s.fault, s.stopFlag⟩

/-- What a run comes to, but for its records. -/
def outcome (out : Session × Ending) : Standing × List Arrival × Ending :=
  (out.1.standing, out.1.queued, out.2)

/-- An arrival within a run, and how it ends the run, if it does. -/
def take (s : Session) : Arrival → Session × Option Ending
  | .tick t => s.turn t
  | .happening h =>
    match s.receive h with
    | .ok s' => (s', none)
    | .error e => (s, some (.failed e))
  | .nothing => (s, none)
  | .interrupt => (s, some .interrupted)

/-- From a look at the stop conditions after a poll on. -/
def look (s : Session) (limit : Option Int) (as : List Arrival) : Session × Ending :=
  match s.stopCondition? limit with
  | some r => ({ s with queued := as }, .stopped r)
  | none => serve limit as s

section
variable {limit : Option Int} {s : Session} {a : Arrival} {as : List Arrival}

theorem serve_of_ends {e : Ending} (h : (s.take a).2 = some e) :
    serve limit (a :: as) s = ({ (s.take a).1 with queued := as }, e) := by
  cases a with
  | nothing => cases h
  | interrupt => cases h; rfl
  | happening =>
    simp only [take] at h ⊢
    split at h
    · cases h
    next hr => cases h; simp only [serve, hr]
  | tick t =>
    simp only [take] at h ⊢
    rcases ht : s.turn t with ⟨s', o⟩
    rw [ht] at h
    cases h
    simp only [serve, ht]

theorem serve_of_look (h : (s.take a).2 = none) (ha : a.EndsPoll) :
    serve limit (a :: as) s = (s.take a).1.look limit as := by
  cases a with
  | nothing => rfl
  | interrupt | happening => exact ha.elim
  | tick t =>
    simp only [take] at h ⊢
    rcases ht : s.turn t with ⟨s', o⟩
    rw [ht] at h
    cases h
    simp only [serve, ht]
    rfl

theorem serve_of_happening (h : (s.take a).2 = none) (ha : ¬ a.EndsPoll) :
    serve limit (a :: as) s = serve limit as (s.take a).1 := by
  cases a with
  | tick | nothing => exact absurd trivial ha
  | interrupt => cases h
  | happening =>
    simp only [take] at h ⊢
    split at h
    next hr => simp only [serve, hr]
    · cases h

/-- Whatever ends a run by its arrivals, it is not the limit. -/
theorem take_ne_limit (s : Session) (a : Arrival) : (s.take a).2 ≠ some (.stopped .limit) := by
  intro h
  cases a with
  | nothing | interrupt => cases h
  | happening => simp only [take] at h; split at h <;> cases h
  | tick => simp only [take, turn] at h; split at h <;> cases h

/-- Only what ends a run leaves a fault. -/
theorem take_fault (h : (s.take a).2 = none) : (s.take a).1.fault = s.fault := by
  cases a with
  | nothing => rfl
  | interrupt => cases h
  | happening =>
    simp only [take] at h ⊢
    split
    next hr => obtain ⟨_, _, _, _, rfl⟩ := s.receive_frame hr; rfl
    · rfl
  | tick t =>
    simp only [take, turn] at h ⊢
    obtain ⟨_, _, _, _, _, _, hframe⟩ := s.handle_frame t
    split at h
    next heq =>
      rw [heq] at hframe
      have hfault := congrArg Session.fault hframe
      exact hfault
    all_goals cases h

end

section
variable {s s' : Session}

theorem eq_of_standing (h : s.standing = s'.standing) :
    ∃ cycleRate timerRate stopReason ticking queued log,
      s' = { s with cycleRate, timerRate, stopReason, ticking, queued, log } := by
  obtain ⟨_, _, _, _, _, _, _, _, _, _, _, _, _⟩ := s
  obtain ⟨_, _, _, _, _, _, _, _, _, _, _, _, _⟩ := s'
  simp only [standing, Standing.mk.injEq] at h
  obtain ⟨rfl, rfl, rfl, rfl, rfl, rfl, rfl⟩ := h
  exact ⟨_, _, _, _, _, _, rfl⟩

theorem stopCondition?_congr (h : s.standing = s'.standing) (limit : Option Int) :
    s.stopCondition? limit = s'.stopCondition? limit := by
  obtain ⟨_, _, _, _, _, _, rfl⟩ := eq_of_standing h
  rfl

theorem handle_congr (h : s.standing = s'.standing) (t : Tick) :
    (s.handle t).1.standing = (s'.handle t).1.standing ∧ (s.handle t).2 = (s'.handle t).2 := by
  obtain ⟨_, _, _, _, _, _, rfl⟩ := eq_of_standing h
  cases t with
  | timer | other => exact ⟨rfl, rfl⟩
  | cycle =>
    simp only [handle, serveCycle, drain]
    cases s.renderer.poll with
    | error => exact ⟨rfl, rfl⟩
    | ok => simp only [step_eq, and_true]; rfl

theorem turn_congr (h : s.standing = s'.standing) (t : Tick) :
    (s.turn t).1.standing = (s'.turn t).1.standing ∧ (s.turn t).2 = (s'.turn t).2 := by
  obtain ⟨hstanding, herror⟩ := handle_congr h t
  unfold turn
  rcases hs : s.handle t with ⟨s₁, o⟩
  rcases hs' : s'.handle t with ⟨s₁', o'⟩
  rw [hs, hs'] at hstanding herror
  have herror : o = o' := herror
  subst herror
  obtain ⟨_, _, _, _, _, _, rfl⟩ := eq_of_standing hstanding
  cases o with
  | none => exact ⟨rfl, rfl⟩
  | some e =>
    cases e with
    | machine e => cases e <;> exact ⟨rfl, rfl⟩
    | window | unknownTick | unsupported => exact ⟨rfl, rfl⟩

theorem setRenderer?_congr (h : s.standing = s'.standing) (o : Option Renderer) :
    (∃ s₁ s₁', s.setRenderer? o = .ok s₁ ∧ s'.setRenderer? o = .ok s₁' ∧
      s₁.standing = s₁'.standing) ∨
      ∃ f, s.setRenderer? o = .error f ∧ s'.setRenderer? o = .error f := by
  obtain ⟨_, _, _, _, _, _, rfl⟩ := eq_of_standing h
  cases o with
  | none => exact .inr ⟨_, rfl, rfl⟩
  | some r => exact .inl ⟨_, _, rfl, rfl, rfl⟩

theorem receive_congr (h : s.standing = s'.standing) (e : Happening) :
    (∃ s₁ s₁', s.receive e = .ok s₁ ∧ s'.receive e = .ok s₁' ∧ s₁.standing = s₁'.standing) ∨
      ∃ f, s.receive e = .error f ∧ s'.receive e = .error f := by
  obtain ⟨_, _, _, _, _, _, rfl⟩ := eq_of_standing h
  cases e with
  | stop | post => exact .inl ⟨_, _, rfl, rfl, rfl⟩
  | quit | press | release => exact setRenderer?_congr h _
  | host e =>
    simp only [receive]
    cases s.renderer.receiveHost e with
    | error f => exact .inr ⟨_, rfl, rfl⟩
    | ok r => exact .inl ⟨_, _, rfl, rfl, rfl⟩

theorem meet_congr (h : s.standing = s'.standing) (a : Arrival) :
    (s.meet a).1.standing = (s'.meet a).1.standing := by
  cases a with
  | tick t => exact (handle_congr h t).1
  | nothing | interrupt => exact h
  | happening e =>
    rcases receive_congr h e with ⟨s₁, s₁', hs, hs', heq⟩ | ⟨f, hs, hs'⟩
    · simp only [meet, hs, hs']; exact heq
    · simp only [meet, hs, hs']; exact h

theorem take_congr (h : s.standing = s'.standing) (a : Arrival) :
    (s.take a).1.standing = (s'.take a).1.standing ∧ (s.take a).2 = (s'.take a).2 := by
  cases a with
  | tick t => exact turn_congr h t
  | nothing | interrupt => exact ⟨h, rfl⟩
  | happening e =>
    rcases receive_congr h e with ⟨s₁, s₁', hs, hs', heq⟩ | ⟨f, hs, hs'⟩
    · simp only [take, hs, hs', and_true]; exact heq
    · simp only [take, hs, hs', and_true]; exact h

theorem serve_congr (h : s.standing = s'.standing) (limit : Option Int) (as : List Arrival) :
    outcome (serve limit as s) = outcome (serve limit as s') := by
  induction as generalizing s s' with
  | nil =>
    obtain ⟨_, _, _, _, _, _, rfl⟩ := eq_of_standing h
    rfl
  | cons a as ih =>
    obtain ⟨hstanding, hends⟩ := take_congr h a
    cases ht : (s.take a).2 with
    | some e =>
      rw [serve_of_ends ht, serve_of_ends (hends.symm.trans ht)]
      exact congrArg (fun st => (st, as, e)) hstanding
    | none =>
      have ht' := hends.symm.trans ht
      by_cases ha : a.EndsPoll
      · rw [serve_of_look ht ha, serve_of_look ht' ha, look, look, stopCondition?_congr hstanding]
        cases (s'.take a).1.stopCondition? limit with
        | some r => exact congrArg (fun st => (st, as, Ending.stopped r)) hstanding
        | none => exact ih hstanding
      · rw [serve_of_happening ht ha, serve_of_happening ht' ha]
        exact ih hstanding

theorem proceed_congr (h : s.standing = s'.standing) (hq : s.queued = s'.queued)
    (limit : Option Int) (as : List Arrival) :
    outcome (s.proceed as limit) = outcome (s'.proceed as limit) := by
  rw [proceed, proceed, stopCondition?_congr h]
  cases s'.stopCondition? limit with
  | some r => rw [outcome, outcome, h, hq]
  | none => exact serve_congr h limit as

/-- A look within a run is the first look of a run that begins there. -/
theorem outcome_look (s : Session) (limit : Option Int) (as : List Arrival) :
    outcome (s.look limit as) = outcome ({ s with queued := as }.proceed as limit) := by
  have hqueue : s.standing = standing { s with queued := as } := rfl
  rw [look, proceed, ← stopCondition?_congr hqueue]
  cases s.stopCondition? limit with
  | some r => rfl
  | none => exact serve_congr hqueue limit as

theorem outcome_settled {out out' : Session × Ending} (h : outcome out = outcome out') :
    outcome (settled out) = outcome (settled out') := by
  obtain ⟨s, e⟩ := out
  obtain ⟨s', e'⟩ := out'
  simp only [outcome, Prod.mk.injEq] at h
  obtain ⟨hstanding, hqueued, rfl⟩ := h
  obtain ⟨_, _, _, _, _, _, rfl⟩ := eq_of_standing hstanding
  have hqueued : s.queued = _ := hqueued
  subst hqueued
  cases e <;> rfl

end

end Session

end ChipEight
