import ChipEight.Application
import ChipEight.Desktop
import ChipEight.Desktop.Mixer
import ChipEight.Proofs.Frame
import ChipEight.Proofs.Session.Frames
import ChipEight.Proofs.Session.Stop

/-! # The screen that a program without a window prints

Without a window the frames go to a recorder, and what is printed in the end is the last of them,
which is the screen at the last timer tick that was served. The instructions after it may have
drawn, and without a timer tick there is no frame at all (`Application.out_of_headless`).
-/

namespace ChipEight

namespace Machine.WellFormed
variable {m m' : Machine}

theorem render_screen (h : m.WellFormed) (on off : String) :
    ∃ text, m.screen.frame.render on off = .ok text := by
  have hsize := h.screen_wellFormed.frame_hasSize
  rw [h.screen_width] at hsize
  exact ⟨_, Frame.render_of_hasSize hsize (by decide) on off⟩

theorem render_screen_inj (h : m.WellFormed) (h' : m'.WellFormed) :
    m.screen.frame.render "#" "." = m'.screen.frame.render "#" "." ↔ m.screen = m'.screen := by
  have hne : '#' ≠ '.' := by decide
  have hinj := h.screen_wellFormed.render_inj h'.screen_wellFormed
    (h.screen_width.trans h'.screen_width.symm)
    (h.screen_height.trans h'.screen_height.symm) hne (by decide) (by decide)
  have hon : String.singleton '#' = "#" := rfl
  have hoff : String.singleton '.' = "." := rfl
  rwa [hon, hoff] at hinj

end Machine.WellFormed

namespace Application

variable {host : Host} {args : List String} {arrivals : List Arrival} {r : Running} {o : Options}
  {layout : KeyLayout} {image : List UInt8}

/-- A program that is ready to run could read its image. -/
theorem launch_ok (h : launch host args = .ok r) :
    ∃ o layout image, host.read o.rom = .ok image ∧ equip host o layout image = .ok r := by
  -- each look at the options or the host that goes wrong ends the program, so one path only is left
  unfold launch at h
  split at h
  · cases h
  · cases h
  next o _ =>
    split at h
    · cases h
    · cases h
    unfold prepare at h
    split at h
    · cases h
    next layout _ =>
      split at h
      · cases h
      · cases h
      next image hread =>
        split at h
        · cases h
        split at h
        · cases h
        exact ⟨o, layout, image, hread, h⟩

/-- A program without a window is ready to run: its image is in the memory of a new machine, and the
frames go to a new recorder. -/
structure Recording (host : Host) (image : List UInt8) (r : Running) : Prop where
  machine : (Machine.fresh .silent host.random).load image = .ok r.session.machine
  renderer : r.session.renderer = .recorder (.new (some Recorder.usualCapacity))
  out : r.out = loadedText r.options image

theorem options_of_equip (h : equip host o layout image = .ok r) : r.options = o := by
  unfold equip at h
  split at h
  · cases h
  simp only at h
  split at h
  · cases h
  split at h
  · cases h
  split at h
  · cases h
  cases h
  rfl

theorem recording_of_equip (ho : o.headless = true) (h : equip host o layout image = .ok r) :
    Recording host image r := by
  have hidle : (idle host o layout).renderer = .recorder (.new (some Recorder.usualCapacity)) := by
    simp only [idle, ho, if_true]; rfl
  simp only [equip, Session.load, Machine.loadLogged] at h
  cases hload : (idle host o layout).machine.load image with
  | error e => simp only [hload] at h; cases h
  | ok m =>
    simp only [hload, openWindow, hidle, openBuzzer, ho, Bool.or_true, if_true] at h
    split at h
    · cases h
    cases h
    exact ⟨hload, rfl, String.append_empty⟩

theorem recording_of_launch (h : launch host args = .ok r) (hr : r.options.headless = true) :
    ∃ image, host.read r.options.rom = .ok image ∧ Recording host image r := by
  obtain ⟨o, layout, image, hread, hequip⟩ := launch_ok h
  obtain rfl := options_of_equip hequip
  exact ⟨image, hread, recording_of_equip hr hequip⟩

theorem exists_last {α : Type} {a : α} {l : List α} (h : a ∈ l) :
    ∃ p q, l = p ++ a :: q ∧ a ∉ q := by
  obtain ⟨q, p, hl, hq⟩ := List.eq_append_cons_of_mem (List.mem_reverse.2 h)
  refine ⟨p.reverse, q.reverse, ?_, fun hmem => hq (List.mem_reverse.1 hmem)⟩
  rw [← List.reverse_reverse l, hl]; simp

theorem screen_shutDown (s : Session) : (shutDown s).machine.screen = s.machine.screen := by
  unfold shutDown
  cases s.machine.audio <;> rfl

/-- The text of a frame, on a line of its own. -/
def printed (f : Frame) : String := ((f.render "#" ".").toOption.map (· ++ "\n")).getD ""

theorem printed_of_render {f : Frame} {text : String} (h : f.render "#" "." = .ok text) :
    printed f = text ++ "\n" := by
  rw [printed, h]; rfl

theorem finalScreen_shutDown {s : Session} {recorder : Recorder}
    (hs : s.renderer = .recorder recorder) :
    finalScreen (shutDown s) = (recorder.last?.map printed).getD "" := by
  have hclosed : (shutDown s).renderer = .recorder recorder := by
    simp only [shutDown, hs, Renderer.close]
  simp only [finalScreen, hclosed]
  cases recorder.last? <;> rfl

theorem Running.conclude_stopped (r : Running) (s : Session) (reason : StopReason) :
    (r.conclude s (.stopped reason)).out = r.out ++ finalScreen (shutDown s) ∧
      (r.conclude s (.stopped reason)).session = some (shutDown s) := by
  cases reason <;> exact ⟨rfl, rfl⟩

section
variable {reason : StopReason} {s : Session}

theorem run_eq_conclude (hlaunch : launch host args = .ok r)
    (hlimit : r.options.isBlank .maxCycles = false) (arrivals : List Arrival) :
    run host args arrivals =
      r.conclude (r.session.run arrivals r.options.maxCycles).1
        (r.session.run arrivals r.options.maxCycles).2 := by
  simp only [run, hlaunch, hlimit, Bool.false_eq_true, if_false]

/-- What a run leaves in a new recorder: the last frame that it presented. -/
theorem finalScreen_run {capacity : Option Nat} (hs : s.renderer = .recorder (.new capacity))
    (hcapacity : capacity ≠ some 0) (limit : Option Int) :
    finalScreen (shutDown (s.run arrivals limit).1) =
      (((s.begin arrivals).presented (s.met arrivals limit)).getLast?.map printed).getD "" := by
  obtain ⟨recorder, hrecorder, hkeeps, hrecorded⟩ :=
    Session.recorded_meetAll (s := s.begin arrivals) hs (Recorder.new_recorded capacity)
      (s.met arrivals limit)
  have hfooting := (s.ran_met arrivals limit).2.footing
  have hrenderer : (s.run arrivals limit).1.renderer = .recorder recorder :=
    (congrArg Standing.renderer hfooting).trans hrecorder
  rw [finalScreen_shutDown hrenderer, hrecorded.last?_eq (by rw [hkeeps]; exact hcapacity),
    List.nil_append]

theorem wellFormed_of_launch (hlaunch : launch host args = .ok r) (hr : r.options.headless = true)
    (arrivals as : List Arrival) : ((r.session.begin arrivals).meetAll as).machine.WellFormed := by
  obtain ⟨image, -, hrecording⟩ := recording_of_launch hlaunch hr
  have hloaded : (r.session.begin arrivals).machine.WellFormed :=
    (Machine.fresh_wellFormed .silent host.random).load hrecording.machine
  exact Session.wellFormed_meetAll hloaded as

theorem run_of_stopped (hlaunch : launch host args = .ok r) (hr : r.options.headless = true)
    (hlimit : r.options.isBlank .maxCycles = false)
    (hstop : (r.session.run arrivals r.options.maxCycles).2 = .stopped reason) :
    let met := r.session.met arrivals r.options.maxCycles
    (run host args arrivals).out =
        r.out ++ (((r.session.begin arrivals).presented met).getLast?.map printed).getD "" ∧
      ∃ s, (run host args arrivals).session = some s ∧
        s.machine.screen = ((r.session.begin arrivals).meetAll met).machine.screen := by
  intro met
  obtain ⟨image, -, hrecording⟩ := recording_of_launch hlaunch hr
  obtain ⟨hout, hsession⟩ :=
    r.conclude_stopped (r.session.run arrivals r.options.maxCycles).1 reason
  rw [← hstop, ← run_eq_conclude hlaunch hlimit] at hout hsession
  rw [finalScreen_run hrecording.renderer (by decide)] at hout
  refine ⟨hout, _, hsession, ?_⟩
  rw [screen_shutDown, (r.session.ran_met arrivals r.options.maxCycles).2.machine]

/-- A program without a window whose run is stopped prints the screen at the last timer tick that
the run served, and nothing if it served none. So it prints the screen that the run leaves just when
that is what the last timer tick found. -/
theorem out_of_headless (hlaunch : launch host args = .ok r) (hr : r.options.headless = true)
    (hlimit : r.options.isBlank .maxCycles = false)
    (hstop : (r.session.run arrivals r.options.maxCycles).2 = .stopped reason) :
    let met := r.session.met arrivals r.options.maxCycles
    let after := (r.session.begin arrivals).meetAll
    let out := (run host args arrivals).out
    ∃ s text, (run host args arrivals).session = some s ∧
      s.machine.screen = (after met).machine.screen ∧
      s.machine.screen.frame.render "#" "." = .ok text ∧
      (.tick .timer ∉ met → out = r.out) ∧
      (∀ p q, met = p ++ .tick .timer :: q → .tick .timer ∉ q →
        ∃ shown, (after p).machine.screen.frame.render "#" "." = .ok shown ∧
          out = r.out ++ (shown ++ "\n")) ∧
      (out = r.out ++ (text ++ "\n") ↔
        ∃ p q, met = p ++ .tick .timer :: q ∧ .tick .timer ∉ q ∧
          (after p).machine.screen = s.machine.screen) := by
  intro met after out
  have hwf : ∀ as, (after as).machine.WellFormed := wellFormed_of_launch hlaunch hr arrivals
  obtain ⟨hout, s, hsession, hscreen⟩ := run_of_stopped hlaunch hr hlimit hstop
  obtain ⟨text, htext⟩ := (hwf met).render_screen "#" "."
  have hsilent : .tick .timer ∉ met → out = r.out := by
    intro hnone
    rw [Session.presented_eq_nil _ hnone] at hout
    exact hout.trans String.append_empty
  have hshown : ∀ p q, met = p ++ .tick .timer :: q → .tick .timer ∉ q →
      ∃ shown, (after p).machine.screen.frame.render "#" "." = .ok shown ∧
        out = r.out ++ (shown ++ "\n") := by
    intro p q hmet hq
    obtain ⟨shown, hshown⟩ := (hwf p).render_screen "#" "."
    refine ⟨shown, hshown, ?_⟩
    rw [← printed_of_render hshown]
    have hlast := (r.session.begin arrivals).getLast?_presented (p := p) hq
    rw [← hmet] at hlast
    rw [hlast] at hout
    exact hout
  refine ⟨s, text, hsession, hscreen, by rw [hscreen]; exact htext, hsilent, hshown, ?_⟩
  rw [hscreen]
  -- a text is that of one screen only, so what is printed tells which screen the last timer tick
  -- found
  constructor
  · intro heq
    have hsome : .tick .timer ∈ met := by
      by_contra hnone
      rw [hsilent hnone, eq_comm, String.append_eq_left_iff] at heq
      simp at heq
    obtain ⟨p, q, hmet, hq⟩ := exists_last hsome
    obtain ⟨shown, hshown, hout⟩ := hshown p q hmet hq
    rw [hout, String.append_right_inj, String.append_left_inj] at heq
    exact ⟨p, q, hmet, hq, ((hwf p).render_screen_inj (hwf met)).1 (by rw [hshown, htext, heq])⟩
  · rintro ⟨p, q, hmet, hq, hsame⟩
    obtain ⟨shown, hshown, hout⟩ := hshown p q hmet hq
    rw [hsame, htext] at hshown
    rw [hout, Except.ok.inj hshown]

theorem exists_of_launch (host : Host) (args : List String) {P : Running → Bool}
    (h : (launch host args).toOption.any P = true) :
    ∃ r, launch host args = .ok r ∧ P r = true := by
  cases hlaunch : launch host args with
  | error => rw [hlaunch] at h; cases h
  | ok r => rw [hlaunch] at h; exact ⟨r, rfl, h⟩

/-- A desktop on which every file has this content. -/
def desktop (content : List UInt8) : Host where
  dialect := .current
  read _ := .ok content
  windows := .ready
  toolkit := Desktop.toolkit
  mixer := Desktop.mixer 1
  random := .zeros
  encodes _ := true

/-- The program draws a digit. With a timer tick between the drawing and the end of the run the
digit is printed. -/
theorem out_of_headless_of_late_tick :
    let host := desktop [0xF0, 0x29, 0xD0, 0x05, 0x12, 0x04]
    let args := ["rom", "--headless"]
    let arrivals := [Arrival.tick .cycle, .tick .cycle, .tick .timer]
    ∃ r s text, launch host args = .ok r ∧ r.options.headless = true ∧
      r.options.isBlank .maxCycles = false ∧
      (r.session.run arrivals r.options.maxCycles).2 = .stopped .quit ∧
      (run host args arrivals).session = some s ∧ s.machine.screen.frame.render "#" "." = .ok text ∧
      (run host args arrivals).out = r.out ++ (text ++ "\n") := by
  intro host args arrivals
  obtain ⟨r, hlaunch, hdone⟩ := exists_of_launch host args
    (P := fun r => r.options.headless && !r.options.isBlank .maxCycles &&
      decide ((r.session.run arrivals r.options.maxCycles).2 = .stopped .quit) &&
      decide (r.session.met arrivals r.options.maxCycles = arrivals))
    (by decide +kernel)
  simp only [Bool.and_eq_true, decide_eq_true_eq, Bool.not_eq_true'] at hdone
  obtain ⟨⟨⟨hheadless, hlimit⟩, hstop⟩, hmet⟩ := hdone
  obtain ⟨s, text, hsession, hscreen, htext, -, -, hprints⟩ :=
    out_of_headless hlaunch hheadless hlimit hstop
  have hlast : arrivals = [.tick .cycle, .tick .cycle] ++ [.tick .timer] := rfl
  rw [hmet] at hscreen hprints
  have hsame : s.machine.screen =
      ((r.session.begin arrivals).meetAll [.tick .cycle, .tick .cycle]).machine.screen := by
    rw [hscreen, hlast, Session.meetAll_snoc, Session.screen_meet_timer]
  have hprinted := hprints.2 ⟨_, _, hlast, List.not_mem_nil, hsame.symm⟩
  exact ⟨r, s, text, hlaunch, hheadless, hlimit, hstop, hsession, htext, hprinted⟩

/-- Not every run prints the screen that it leaves: without a timer tick after the drawing, the
digit is not printed. -/
theorem not_always_final :
    ¬ ∀ (host : Host) (args : List String) (arrivals : List Arrival) (r : Running)
      (reason : StopReason),
      launch host args = .ok r → r.options.headless = true → r.options.isBlank .maxCycles = false →
      (r.session.run arrivals r.options.maxCycles).2 = .stopped reason →
      ∃ s text, (run host args arrivals).session = some s ∧
        s.machine.screen.frame.render "#" "." = .ok text ∧
        (run host args arrivals).out = r.out ++ (text ++ "\n") := by
  intro hall
  let host := desktop [0xF0, 0x29, 0xD0, 0x05, 0x12, 0x04]
  let args := ["rom", "--headless", "--max-cycles", "2"]
  let arrivals := [Arrival.tick .timer, .tick .cycle, .tick .cycle]
  obtain ⟨r, hlaunch, hdone⟩ := exists_of_launch host args
    (P := fun r => r.options.headless && !r.options.isBlank .maxCycles &&
      decide ((r.session.run arrivals r.options.maxCycles).2 = .stopped .limit) &&
      (run host args arrivals).session.any fun s =>
        (s.machine.screen.frame.render "#" ".").toOption.all fun text =>
          decide ((run host args arrivals).out ≠ r.out ++ (text ++ "\n")))
    (by decide +kernel)
  simp only [Bool.and_eq_true, decide_eq_true_eq, Bool.not_eq_true'] at hdone
  obtain ⟨⟨⟨hheadless, hlimit⟩, hstop⟩, hstale⟩ := hdone
  obtain ⟨s, text, hsession, htext, hout⟩ :=
    hall host args arrivals r .limit hlaunch hheadless hlimit hstop
  rw [hsession, Option.any_some, htext] at hstale
  exact absurd hout (of_decide_eq_true hstale)

end

end Application

end ChipEight
