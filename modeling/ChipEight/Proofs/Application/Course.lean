import ChipEight.Application
import ChipEight.Proofs.Session.Loading
import ChipEight.Proofs.Session.Serviceable
import ChipEight.Proofs.Window.Life

/-! # The ways to a run

Before a program runs, the names of the keys, the image, the scale, the size of the image, the text
to be printed, the window and the buzzer are looked at, in this order. `Course` lists the ways
through all this, each with what it found and what came of it, and `prepare_course` says that there
is no other.

What keeps a window from opening has a text that says so unless it is an error of the toolkit of
another kind than its refusals (`windowErrorText?_eq_none_iff`).
-/

namespace ChipEight

namespace Application

/-- The names of the keys are not those of a layout. -/
def Rejected (o : Options) : Prop :=
  ∃ names e, o.keys = some names ∧ o.isBlank .keys = false ∧ names ≠ "" ∧
    KeyLayout.ofNames ((names.toList.splitOn ',').map String.ofList) = .error e

/-- A window for the screen, before it is opened. -/
def screenWindow (host : Host) (o : Options) (layout : KeyLayout) : Window :=
  .new host.toolkit layout o.scale screenWidth screenHeight

/-- What goes wrong when the window is opened, if there is to be one. It is the same with any layout
(`openOn_screenWindow`). -/
def opening (host : Host) (o : Options) : Option Window.OpenError :=
  if o.headless then none else ((screenWindow host o .standard).openOn host.windows).2

/-- What goes wrong when the buzzer is opened, if there is to be one. -/
def tuning (host : Host) (o : Options) : Option Buzzer.OpenError :=
  if o.mute || o.headless then none else (({} : Buzzer).openOn host.mixer).2

/-- A program that is to run has its image. -/
@[grind cases]
structure Loads (host : Host) (o : Options) (image : List UInt8) : Prop where
  keys : ¬ Rejected o
  rom : host.read o.rom = .ok image
  listing : o.listing = false
  scale : o.headless = false → o.isBlank .scale = false

/-- Its image is in memory, and it has said so. -/
@[grind cases]
structure Announces (host : Host) (o : Options) (image : List UInt8) : Prop
    extends Loads host o image where
  size : image.length ≤ 3584
  printable : printable host o = true

/-- The screen goes to a recorder, or to a window that is open and has a surface for it. -/
def Shows (host : Host) (o : Options) : Renderer → Prop
  | .none => False
  | .recorder _ => o.headless = true
  | .window w => o.headless = false ∧ w.listening = true ∧ w.kit = host.toolkit ∧ w.isOpen = true ∧
      ∃ surface, host.toolkit.newSurface screenWidth screenHeight = .ok surface ∧
        w.canvas = some surface

/-- There is a buzzer that has its sound and has not been called yet, or none is wanted or to be
had. -/
def Quiet (host : Host) (o : Options) : Audio → Prop
  | .silent => o.mute = true ∨ o.headless = true ∨ tuning host o ≠ none
  | .recording _ => False
  | .buzzer b => b.sound.isSome ∧ b.playing = false ∧ b.calls = []

structure Ready (host : Host) (o : Options) (r : Running) : Prop where
  options : r.options = o
  machine : r.session.machine.WellFormed
  renderer : Shows host o r.session.renderer
  audio : Quiet host o r.session.machine.audio

/-- The ways through what comes before the run, with what each of them found. -/
inductive Course (host : Host) (o : Options) : Except Outcome Running → Prop
  | rejected {err : String} (keys : Rejected o) : Course host o (.error (early 1 "" err))
  | unreadable {e : OpenError} {err : String} (keys : ¬ Rejected o)
    (rom : host.read o.rom = .error e) (ordinary : e ≠ .embeddedNul) :
    Course host o (.error (early 1 "" err))
  | unnamed (keys : ¬ Rejected o) (rom : host.read o.rom = .error .embeddedNul) :
    Course host o (.error (stranded .embeddedNul "" ""))
  | listed {image : List UInt8} (keys : ¬ Rejected o) (rom : host.read o.rom = .ok image)
    (listing : o.listing = true) : Course host o (.error (early 0 (listingText image) ""))
  | unscaled {image : List UInt8} (keys : ¬ Rejected o) (rom : host.read o.rom = .ok image)
    (listing : o.listing = false) (window : o.headless = false) (scale : o.isBlank .scale = true) :
    Course host o (.error (stranded (.blank .scale) "" ""))
  | tooLong {image : List UInt8} {err : String} (loads : Loads host o image)
    (size : 3584 < image.length) : Course host o (.error (early 1 "" err))
  | unprintable {image : List UInt8} {err : String} (loads : Loads host o image)
    (size : image.length ≤ 3584) (printable : printable host o = false) :
    Course host o (.error (stranded .unprintable "" err))
  | windowless {image : List UInt8} {e : Window.OpenError} {out err : String}
    (announces : Announces host o image) (window : opening host o = some e)
    (ordinary : windowErrorText? e ≠ none) : Course host o (.error (early 1 out err))
  | unopened {image : List UInt8} {e : Window.OpenError} {out err : String}
    (announces : Announces host o image) (window : opening host o = some e)
    (fatal : windowErrorText? e = none) : Course host o (.error (stranded (.window e) out err))
  | untuned {image : List UInt8} {e : Buzzer.OpenError} {out err : String}
    (announces : Announces host o image) (window : opening host o = none)
    (buzzer : tuning host o = some e) (fatal : silenceText? e = none) :
    Course host o (.error (stranded (.buzzer e) out err))
  | ready {image : List UInt8} {r : Running} (announces : Announces host o image)
    (window : opening host o = none) (buzzer : ∀ e, tuning host o = some e → silenceText? e ≠ none)
    (ready : Ready host o r) : Course host o (.ok r)

theorem rejected_iff (o : Options) : Rejected o ↔ ∃ e, layout o = .error e := by
  unfold Rejected layout
  cases hblank : o.isBlank .keys with
  | true => simp
  | false =>
    cases o.keys with
    | none => simp
    | some names =>
      by_cases hne : names = ""
      · simp [hne]
      · simp [hne]

variable {host : Host} {o : Options} {layout : KeyLayout} {image : List UInt8} {s : Session}

theorem load_idle (host : Host) (o : Options) (layout : KeyLayout) (image : List UInt8) :
    (3584 < image.length ∧ ∃ e, ((idle host o layout).load image).2 = some e) ∨
    (image.length ≤ 3584 ∧ ((idle host o layout).load image).2 = none ∧
      ((idle host o layout).load image).1.renderer = (idle host o layout).renderer ∧
      ((idle host o layout).load image).1.machine.WellFormed ∧
      ((idle host o layout).load image).1.machine.audio = .silent) := by
  by_cases hsize : 3584 < image.length
  · refine .inl ⟨hsize, ?_⟩
    rw [Session.load_of_lt _ hsize]
    exact ⟨_, rfl⟩
  · have hle := Nat.not_lt.1 hsize
    have hload := (idle host o layout).machine.load_of_le hle
    refine .inr ⟨hle, ?_⟩
    rw [Session.load_of_le _ hle]
    exact ⟨rfl, rfl, (Machine.fresh_wellFormed .silent host.random).load hload, rfl⟩

theorem windowErrorText?_eq_none_iff {e : Window.OpenError} :
    windowErrorText? e = none ↔ ∃ error, e = .toolkit error := by
  cases e with
  | missing | unavailable => exact ⟨nofun, nofun⟩
  | toolkit error => exact ⟨fun _ => ⟨error, rfl⟩, fun _ => rfl⟩

theorem silenceText?_eq_none_iff (e : Buzzer.OpenError) :
    silenceText? e = none ↔ ∀ reason, e ≠ .unavailable reason := by
  cases e with
  | unavailable reason => exact ⟨nofun, fun h => absurd rfl (h reason)⟩
  | zeroFrequency | amplitude | mixer => exact ⟨fun _ => nofun, fun _ => rfl⟩

/-- Whatever its layout, the window opens, or the same goes wrong. -/
theorem openOn_screenWindow (host : Host) (o : Options) (layout layout' : KeyLayout) :
    ((screenWindow host o layout).openOn host.windows).2 =
      ((screenWindow host o layout').openOn host.windows).2 := by
  cases host.windows with
  | missing | unavailable => rfl
  | ready =>
    simp only [Window.openOn, screenWindow, Window.new]
    split
    · rfl
    · rfl
    · split <;> rfl

/-- A window that opens shows the screen. -/
theorem shows_of_openOn (ho : o.headless = false)
    (h : ((screenWindow host o layout).openOn host.windows).2 = none) :
    Shows host o (.window ((screenWindow host o layout).openOn host.windows).1) := by
  have hopening := (screenWindow host o layout).opening host.windows
  generalize (screenWindow host o layout).openOn host.windows = out at hopening h
  cases hopening with
  | refused | frameless => cases h
  | opened _ hsurface => exact ⟨ho, rfl, rfl, rfl, _, hsurface, rfl⟩

theorem openWindow_spec (hs : s.renderer = (idle host o layout).renderer) :
    (∃ e, opening host o = some e ∧ openWindow host o s = .error e) ∨
    (opening host o = none ∧ ∃ renderer text,
      openWindow host o s = .ok ({ s with renderer }, text) ∧ Shows host o renderer) := by
  cases ho : o.headless with
  | true =>
    have hrecorder : s.renderer = .recorder (.new (some Recorder.usualCapacity)) := by
      rw [hs, idle, ho]; rfl
    refine .inr ⟨if_pos ho, s.renderer, "", ?_, by rw [hrecorder]; exact ho⟩
    rw [openWindow, hrecorder]
    exact congrArg (fun renderer => Except.ok ({ s with renderer }, "")) hrecorder
  | false =>
    have hwindow : s.renderer = .window (screenWindow host o layout) := by rw [hs, idle, ho]; rfl
    have hopening : opening host o = ((screenWindow host o layout).openOn host.windows).2 := by
      rw [opening, ho, if_neg Bool.false_ne_true, openOn_screenWindow]
    have hshows : ((screenWindow host o layout).openOn host.windows).2 = none →
        Shows host o (.window ((screenWindow host o layout).openOn host.windows).1) :=
      shows_of_openOn ho
    rcases hopen : (screenWindow host o layout).openOn host.windows with ⟨w, _ | e⟩
    all_goals rw [hopen] at hopening hshows
    · exact .inr ⟨hopening, .window w, openedText o, by simp only [openWindow, hwindow, hopen],
        hshows rfl⟩
    · exact .inl ⟨e, hopening, by simp only [openWindow, hwindow, hopen]⟩

theorem openOn_mixer (mixer : Mixer) :
    (∃ e, ({} : Buzzer).openOn mixer = ({}, some e)) ∨
    ∃ b, ({} : Buzzer).openOn mixer = (b, none) ∧ b.sound.isSome ∧ b.playing = false ∧
      b.calls = [] := by
  unfold Buzzer.openOn
  split
  · exact .inl ⟨_, rfl⟩
  · exact .inl ⟨_, rfl⟩
  · split
    · exact .inl ⟨_, rfl⟩
    · exact .inr ⟨_, rfl, rfl, rfl, rfl⟩

theorem openBuzzer_spec (hs : s.machine.audio = .silent) :
    (∃ e, tuning host o = some e ∧ silenceText? e = none ∧ openBuzzer host o s = .error e) ∨
    ((∀ e, tuning host o = some e → silenceText? e ≠ none) ∧ ∃ audio text,
      openBuzzer host o s = .ok ({ s with machine := { s.machine with audio } }, text) ∧
        Quiet host o audio) := by
  by_cases hwanted : (o.mute || o.headless) = true
  · have htuning : tuning host o = none := if_pos hwanted
    have hunwanted : o.mute = true ∨ o.headless = true := by simpa using hwanted
    refine .inr ⟨by rw [htuning]; exact nofun, s.machine.audio, "", ?_, ?_⟩
    · rw [openBuzzer, if_pos hwanted]
    · rw [hs]
      exact hunwanted.imp_right .inl
  have htuning : tuning host o = (({} : Buzzer).openOn host.mixer).2 := if_neg hwanted
  rw [openBuzzer, if_neg hwanted]
  rcases openOn_mixer host.mixer with ⟨e, hopen⟩ | ⟨b, hopen, hquiet⟩
  all_goals rw [hopen] at htuning ⊢
  · cases htext : silenceText? e with
    | none => exact .inl ⟨e, htuning, htext, by simp only [htext, Option.elim_none]⟩
    | some text =>
      refine .inr ⟨?_, s.machine.audio, text, by simp only [htext, Option.elim_some], ?_⟩
      · intro e' he'
        rw [htuning] at he'
        cases he'
        rw [htext]
        exact Option.some_ne_none text
      · rw [hs]
        exact .inr (.inr (by rw [htuning]; exact Option.some_ne_none e))
  · exact .inr ⟨by rw [htuning]; exact nofun, .buzzer b, "", rfl, hquiet⟩

theorem equip_course (loads : Loads host o image) (layout : KeyLayout) :
    Course host o (equip host o layout image) := by
  unfold equip
  rcases load_idle host o layout image with ⟨hsize, e, he⟩ | ⟨hsize, hnone, hrenderer, hwf, hsilent⟩
  all_goals rcases hload : (idle host o layout).load image with ⟨s, e?⟩
  · rw [hload] at he
    cases he
    exact .tooLong loads hsize
  rw [hload] at hnone hrenderer hwf hsilent
  cases hnone
  simp only
  cases hprintable : printable host o with
  | false => exact .unprintable loads hsize hprintable
  | true =>
    have hannounces : Announces host o image := ⟨loads, hsize, hprintable⟩
    simp only [Bool.not_true, Bool.false_eq_true, if_false]
    rcases openWindow_spec hrenderer with ⟨e, hopening, hwindow⟩ |
      ⟨hopening, r, text, hwindow, hshows⟩
    · rw [hwindow]
      simp only [windowless]
      split
      next htext =>
        exact .windowless hannounces hopening (by rw [htext]; exact Option.some_ne_none _)
      next htext => exact .unopened hannounces hopening htext
    rw [hwindow]
    simp only
    rcases openBuzzer_spec (s := { s with renderer := r }) hsilent with
      ⟨e, htuning, hfatal, hbuzzer⟩ | ⟨htuning, audio, text', hbuzzer, hquiet⟩
    · rw [hbuzzer]
      exact .untuned hannounces hopening htuning hfatal
    · rw [hbuzzer]
      exact .ready hannounces hopening htuning ⟨rfl, { hwf with }, hshows, hquiet⟩

/-- What comes before the run takes one of the ways. -/
theorem prepare_course (host : Host) (o : Options) : Course host o (prepare host o) := by
  unfold prepare
  split
  next e hlayout => exact .rejected ((rejected_iff o).2 ⟨e, hlayout⟩)
  next layout hlayout =>
    have hkeys : ¬ Rejected o := by
      rintro hrejected
      obtain ⟨e, he⟩ := (rejected_iff o).1 hrejected
      rw [hlayout] at he
      cases he
    split
    next hrom => exact .unnamed hkeys hrom
    next e hne hrom => exact .unreadable hkeys hrom hne
    next image hrom =>
      split
      next hlisting => exact .listed hkeys hrom hlisting
      next hlisting =>
        rw [Bool.not_eq_true] at hlisting
        split
        next hscale =>
          simp only [Bool.and_eq_true, Bool.not_eq_true'] at hscale
          exact .unscaled hkeys hrom hlisting hscale.1 hscale.2
        next hscale =>
          refine equip_course ⟨hkeys, hrom, hlisting, fun ho => ?_⟩ layout
          simpa [ho] using hscale

end Application

end ChipEight
