import ChipEight.Proofs.Session.Run

/-! # Runs on ordinary arrivals

A session with a recorder takes keys that are pressed and released, one with a window takes host
events, and neither takes the other (`Arrival.Ordinary`). Whether there is a recorder or a window
never changes (`headless?_meet`), so that nothing but a fault of the program or an interrupt breaks
off a run on arrivals that its renderer takes (`Staged.ending`).
-/

namespace ChipEight

/-- What a run may come to with a recorder, or with a window. -/
def Arrival.Ordinary (headless : Bool) : Arrival → Prop
  | .tick (.other _) => False
  | .happening (.press _) | .happening (.release _) => headless = true
  | .happening (.host _) => headless = false
  | _ => True

namespace Renderer

/-- Whether the screen goes to a recorder, and not to a window, if it goes anywhere. -/
def headless? : Renderer → Option Bool
  | .none => Option.none
  | .recorder _ => some true
  | .window _ => some false

variable {r r' : Renderer}

theorem headless?_poll {es : List KeyEvent} (h : r.poll = .ok (es, r')) :
    r'.headless? = r.headless? := by
  cases r with
  | none | recorder => cases h; rfl
  | window w =>
    simp only [poll] at h
    cases hw : w.poll with
    | error e => rw [hw] at h; cases h
    | ok => rw [hw] at h; cases h; rfl

theorem headless?_present (r : Renderer) (f : Frame) : (r.present f).1.headless? = r.headless? := by
  cases r <;> rfl

theorem headless?_setQuit {quit : Bool} (h : r.setQuit? quit = some r') :
    r'.headless? = r.headless? := by
  cases r <;> cases h <;> rfl

theorem headless?_receiveKey {e : KeyEvent} (h : r.receiveKey? e = some r') :
    r'.headless? = r.headless? := by
  cases r <;> cases h
  rfl

theorem headless?_receiveHost {e : Window.HostEvent} (h : r.receiveHost e = .ok r') :
    r'.headless? = r.headless? := by
  cases r with
  | none | recorder => cases h
  | window w =>
    simp only [receiveHost] at h
    cases hw : w.receive e with
    | error => rw [hw] at h; cases h
    | ok => rw [hw] at h; cases h; rfl

theorem shown_of_headless? {headless : Bool} (h : r.headless? = some headless) : r.Shown := by
  cases r with
  | none => cases h
  | recorder | window => trivial

end Renderer

namespace Session

variable {s s' : Session} {a : Arrival} {headless : Bool}

theorem headless?_of_setRenderer {r? : Option Renderer} (h : s.setRenderer? r? = .ok s')
    (hr : ∀ r, r? = some r → r.headless? = s.renderer.headless?) :
    s'.renderer.headless? = s.renderer.headless? := by
  cases r? with
  | none => cases h
  | some r => cases h; exact hr r rfl

theorem headless?_receive {e : Happening} (h : s.receive e = .ok s') :
    s'.renderer.headless? = s.renderer.headless? := by
  cases e with
  | quit => exact headless?_of_setRenderer h fun _ => Renderer.headless?_setQuit
  | press | release => exact headless?_of_setRenderer h fun _ => Renderer.headless?_receiveKey
  | stop | post => cases h; rfl
  | host e =>
    simp only [receive] at h
    split at h
    · cases h
    next hr => cases h; exact Renderer.headless?_receiveHost hr

/-- No arrival puts a window in the place of a recorder, nor the other way round. -/
theorem headless?_meet (s : Session) (a : Arrival) :
    (s.meet a).1.renderer.headless? = s.renderer.headless? := by
  cases a with
  | nothing | interrupt => rfl
  | happening e =>
    simp only [meet]
    split
    next hs => exact headless?_receive hs
    · rfl
  | tick t =>
    cases t with
    | other => rfl
    | timer => exact s.renderer.headless?_present _
    | cycle =>
      simp only [meet, handle, serveCycle, drain]
      cases hpoll : s.renderer.poll with
      | error => rfl
      | ok => simp only [step_eq]; exact Renderer.headless?_poll hpoll

theorem headless?_meetAll (s : Session) (as : List Arrival) :
    (s.meetAll as).renderer.headless? = s.renderer.headless? :=
  List.foldlRecOn (motive := fun s' : Session => s'.renderer.headless? = s.renderer.headless?) as _
    rfl fun s' hs' a _ => (s'.headless?_meet a).trans hs'

/-- The session takes its ticks, and it has a recorder, or a window. -/
structure Staged (headless : Bool) (s : Session) : Prop where
  serviceable : s.Serviceable
  kind : s.renderer.headless? = some headless

theorem Staged.receive (h : s.Staged headless) {e : Happening}
    (he : (Arrival.happening e).Ordinary headless) :
    ∃ s', s.receive e = .ok s' ∧ s'.Serviceable := by
  obtain ⟨⟨hm, hr⟩, hkind⟩ := h
  cases e with
  | quit =>
    obtain ⟨r, hquit, hserves, -⟩ := hr.setQuit (Renderer.shown_of_headless? hkind)
    exact ⟨{ s with renderer := r }, by simp only [Session.receive, setRenderer?, hquit],
      hm, hserves⟩
  | stop | post => exact ⟨_, rfl, hm, hr⟩
  | press key | release key =>
    obtain rfl : headless = true := he
    cases hs : s.renderer with
    | none | window => rw [hs] at hkind; cases hkind
    | recorder r =>
      simp only [Session.receive, hs]
      exact ⟨_, rfl, hm, trivial⟩
  | host e =>
    obtain rfl : headless = false := he
    cases hs : s.renderer with
    | none | recorder => rw [hs] at hkind; cases hkind
    | window w =>
      rw [hs] at hr
      have hreceive : w.receive e = .ok { w with events := w.events ++ [e] } := if_pos hr.1
      simp only [Session.receive, hs, Renderer.receiveHost, hreceive]
      exact ⟨_, rfl, hm, hr.1, hr.2⟩

theorem Staged.meet (h : s.Staged headless) (ha : a.Ordinary headless) :
    (s.meet a).1.Staged headless ∧
      ∀ e, s.ends? a = some e → e = .stopped .fault ∨ e = .interrupted := by
  have hkind : (s.meet a).1.renderer.headless? = some headless := (s.headless?_meet a).trans h.kind
  cases a with
  | nothing => exact ⟨h, fun e he => by cases he⟩
  | interrupt => exact ⟨h, fun e he => by cases he; exact .inr rfl⟩
  | tick t =>
    have hplain : (Arrival.tick t).Plain s.renderer.Shown := by
      cases t with
      | cycle | timer => trivial
      | other => exact ha.elim
    obtain ⟨hs, -, he⟩ := h.serviceable.meet hplain
    exact ⟨⟨hs, hkind⟩, fun e hends => .inl (he e hends)⟩
  | happening e =>
    obtain ⟨s', hs', hserviceable⟩ := h.receive ha
    have hmeet : s.meet (.happening e) = (s', none) := by rw [Session.meet, hs']
    rw [hmeet] at hkind
    simp only [ends?, hmeet]
    exact ⟨⟨hserviceable, hkind⟩, fun e he => by cases he⟩

theorem Staged.meetAll (h : s.Staged headless) {as : List Arrival}
    (has : ∀ a ∈ as, a.Ordinary headless) :
    (s.meetAll as).Staged headless :=
  List.foldlRecOn (motive := fun s' : Session => s'.Staged headless) as _ h
    fun _ hs' a ha => (hs'.meet (has a ha)).1

/-- A run on ordinary arrivals comes to an end of its own, or to an interrupt. -/
theorem Staged.ending (h : s.Staged headless) {arrivals : List Arrival}
    (has : ∀ a ∈ arrivals, a.Ordinary headless) (limit : Option Int) :
    (∃ r, (s.run arrivals limit).2 = .stopped r) ∨ (s.run arrivals limit).2 = .interrupted := by
  obtain ⟨met, left, heq, hran⟩ := s.run_ran arrivals limit
  have hbegin : (s.begin arrivals).Staged headless :=
    ⟨⟨h.serviceable.machine, h.serviceable.renderer⟩, h.kind⟩
  have hmet : ∀ a ∈ met, a.Ordinary headless :=
    fun a ha => has a (heq ▸ List.mem_append_left left ha)
  generalize s.run arrivals limit = out at hran
  cases hran with
  | atOnce | due | fault | usedUp => exact .inl ⟨_, rfl⟩
  | escape _ ends escapes =>
    rw [List.forall_mem_append, List.forall_mem_singleton] at hmet
    rcases ((hbegin.meetAll hmet.1).meet hmet.2).2 _ ends with rfl | rfl
    · exact absurd rfl (escapes _)
    · exact .inr rfl

end Session

end ChipEight
