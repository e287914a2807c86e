import ChipEight.Proofs.Machine.WellFormed
import ChipEight.Proofs.Session.Meet
import ChipEight.Proofs.Window.Cache

/-! # Sessions that take their ticks

With a well-formed machine and nothing, a recorder or an open window of its size to show the screen,
a session serves its ticks if the window's toolkit paints: the only thing that can go wrong with
them is a fault of the program (`Serviceable.meet`).
-/

namespace ChipEight

namespace Renderer

/-- There is something that shows the screen. -/
def Shown : Renderer → Prop
  | .none => False
  | _ => True

/-- The renderer hands over its key events and takes the frames of the machine. -/
def Serves : Renderer → Prop
  | .none | .recorder _ => True
  | .window w => w.listening = true ∧ w.kit.Paints ∧ ∀ face, w.face = some face →
      ∃ surface, w.canvas = some surface ∧ surface.width = screenWidth ∧
        surface.height = screenHeight

variable {r : Renderer}

theorem Serves.poll (h : r.Serves) :
    ∃ es r', r.poll = .ok (es, r') ∧ r'.Serves ∧ (r'.Shown ↔ r.Shown) := by
  cases r with
  | none => exact ⟨_, _, rfl, trivial, Iff.rfl⟩
  | recorder => exact ⟨_, _, rfl, trivial, Iff.rfl⟩
  | window w =>
    obtain ⟨hl, hf⟩ := h
    rw [Renderer.poll, Window.poll, if_pos hl]
    exact ⟨_, _, rfl, ⟨hl, hf⟩, Iff.rfl⟩

theorem Serves.present (h : r.Serves) {f : Frame} (hf : f.HasSize screenWidth screenHeight) :
    (r.present f).2 = Option.none ∧ (r.present f).1.Serves ∧ ((r.present f).1.Shown ↔ r.Shown) := by
  cases r with
  | none => exact ⟨rfl, trivial, Iff.rfl⟩
  | recorder => exact ⟨rfl, trivial, Iff.rfl⟩
  | window w =>
    obtain ⟨hl, hkit, hsurface⟩ := h
    suffices (w.present f).2 = Option.none ∧ Serves (.window (w.present f).1) from
      ⟨this.1, this.2, Iff.rfl⟩
    have hpresenting := w.presenting f
    generalize w.present f = out at hpresenting
    cases hpresenting with
    | unseen | skipped => exact ⟨rfl, hl, hkit, hsurface⟩
    | refused hface _ hpaint =>
      obtain ⟨surface, hcanvas, hw, hh⟩ := hsurface _ hface
      rw [← hw, ← hh] at hf
      obtain ⟨image, hok, -⟩ := Window.paint_of_hasSize hkit hcanvas hf
        (by rw [hw]; decide) (by rw [hh]; decide)
      cases hpaint.symm.trans hok
    | painted hface _ hpaint =>
      obtain ⟨surface, hcanvas, hw, hh⟩ := hsurface _ hface
      obtain ⟨hwidth, hheight⟩ := Window.paint_size hkit hcanvas hpaint
      exact ⟨rfl, hl, hkit, fun _ _ => ⟨_, rfl, hwidth.trans hw, hheight.trans hh⟩⟩

theorem Serves.setQuit (h : r.Serves) (hr : r.Shown) :
    ∃ r', r.setQuit? true = some r' ∧ r'.Serves ∧ (r'.Shown ↔ r.Shown) := by
  cases r with
  | none => exact hr.elim
  | recorder => exact ⟨_, rfl, trivial, Iff.rfl⟩
  | window w => exact ⟨_, rfl, ⟨h.1, h.2⟩, Iff.rfl⟩

end Renderer

/-- What a run may come to, of which the program alone decides what becomes: ticks, empty polls,
stops and posted keys, and requests to quit if there is a renderer to take them. -/
def Arrival.Plain (shown : Prop) : Arrival → Prop
  | .tick .cycle | .tick .timer | .nothing | .happening .stop | .happening (.post _ _) => True
  | .happening .quit => shown
  | _ => False

namespace Session

structure Serviceable (s : Session) : Prop where
  machine : s.machine.WellFormed
  renderer : s.renderer.Serves

variable {s : Session}

theorem Serviceable.step (h : s.Serviceable) :
    s.step.1.Serviceable ∧ ∀ e, s.step.2 = some e → ∃ f, e = .machine (.fault f) := by
  rw [step_eq]
  refine ⟨⟨h.machine.step, h.renderer⟩, fun e he => ?_⟩
  obtain ⟨e', he', rfl⟩ := Option.map_eq_some_iff.1 he
  obtain ⟨f, rfl⟩ := h.machine.step_error he'
  exact ⟨f, rfl⟩

theorem Serviceable.handle (h : s.Serviceable) {t : Tick} (ht : t = .cycle ∨ t = .timer) :
    (s.handle t).1.Serviceable ∧ ((s.handle t).1.renderer.Shown ↔ s.renderer.Shown) ∧
      ∀ e, (s.handle t).2 = some e → ∃ f, e = .machine (.fault f) := by
  rcases ht with rfl | rfl
  · obtain ⟨es, r, hpoll, hr, hshown⟩ := h.renderer.poll
    simp only [Session.handle, serveCycle, drain, hpoll]
    have hd : Serviceable { s with
        renderer := r
        pending := []
        machine := { s.machine with
          keypad := (s.pending ++ es.map KeyEvent.masked).foldl Keypad.apply s.machine.keypad } } :=
      ⟨{ h.machine with }, hr⟩
    obtain ⟨hs, he⟩ := hd.step
    refine ⟨hs, ?_, he⟩
    rw [step_eq]; exact hshown
  · have hm := h.machine.tick
    have hsize : s.machine.tick.screen.frame.HasSize screenWidth screenHeight := by
      have hf := hm.screen_wellFormed.frame_hasSize
      rw [hm.screen_width, hm.screen_height] at hf
      exact hf
    obtain ⟨hnone, hr, hshown⟩ := h.renderer.present hsize
    simp only [Session.handle, serveTimer]
    refine ⟨⟨hm, hr⟩, hshown, fun e he => ?_⟩
    rw [hnone] at he; cases he

theorem Serviceable.meet (h : s.Serviceable) {a : Arrival} (ha : a.Plain s.renderer.Shown) :
    (s.meet a).1.Serviceable ∧ ((s.meet a).1.renderer.Shown ↔ s.renderer.Shown) ∧
      ∀ e, s.ends? a = some e → e = .stopped .fault := by
  cases a with
  | tick t =>
    have ht : t = .cycle ∨ t = .timer := by
      cases t with
      | cycle => exact .inl rfl
      | timer => exact .inr rfl
      | other => exact ha.elim
    obtain ⟨hs, hshown, he⟩ := h.handle ht
    refine ⟨hs, hshown, fun e hends => ?_⟩
    obtain ⟨e', he', rfl⟩ := Option.map_eq_some_iff.1 hends
    obtain ⟨f, rfl⟩ := he e' he'
    rfl
  | nothing => exact ⟨h, Iff.rfl, fun e he => by cases he⟩
  | interrupt => exact ha.elim
  | happening e =>
    cases e with
    | stop => exact ⟨⟨h.machine, h.renderer⟩, Iff.rfl, fun e he => by cases he⟩
    | post => exact ⟨⟨h.machine, h.renderer⟩, Iff.rfl, fun e he => by cases he⟩
    | quit =>
      obtain ⟨r, hr, hserves, hshown⟩ := h.renderer.setQuit ha
      have hok : s.receive .quit = .ok { s with renderer := r } := by
        simp only [receive, setRenderer?, hr]
      simp only [ends?, Session.meet, hok]
      exact ⟨⟨h.machine, hserves⟩, hshown, fun e he => by cases he⟩
    | press | release | host => exact ha.elim

theorem Serviceable.meetAll (h : s.Serviceable) (as : List Arrival)
    (has : ∀ a ∈ as, a.Plain s.renderer.Shown) :
    (s.meetAll as).Serviceable ∧ ((s.meetAll as).renderer.Shown ↔ s.renderer.Shown) := by
  induction as generalizing s with
  | nil => exact ⟨h, Iff.rfl⟩
  | cons a as ih =>
    rw [List.forall_mem_cons] at has
    obtain ⟨hs, hshown, -⟩ := h.meet has.1
    have hrest : ∀ b ∈ as, b.Plain (s.meet a).1.renderer.Shown := by
      rw [propext hshown]; exact has.2
    obtain ⟨hall, hshown'⟩ := ih hs hrest
    exact ⟨hall, hshown'.trans hshown⟩

end Session

end ChipEight
