import ChipEight.Proofs.Application.Course
import ChipEight.Proofs.Application.FinalScreen
import ChipEight.Proofs.Buzzer
import ChipEight.Proofs.CommandLine
import ChipEight.Proofs.Session.Ordinary
import ChipEight.Proofs.Toolkit

/-! # The exit code, and what is left open

A program that is refused (`Refuses`) ends with exit code 1 before it executes anything, one whose
run ends in a fault with 2, and any other with 0. Some things are looked at too late, or not at all,
and what goes wrong with them leaves no exit code (`Strands`). However a run ends, its window and
its buzzer are closed afterwards (`Releases`).

Of the host it is known that its toolkit paints, and that there is a surface of the size of the
screen. Which windows it opens, and which mixers, is left to the host, and so is what goes wrong
then.
-/

namespace ChipEight

namespace Application

/-- The names of the keys are no layout, the image cannot be read, or, unless a listing is all that
is asked for, the image is too large or there is no window for it. -/
def Refuses (host : Host) (o : Options) : Prop :=
  Rejected o ∨ (∃ e, host.read o.rom = .error e) ∨
    o.listing = false ∧
      ((∃ image, host.read o.rom = .ok image ∧ 3584 < image.length) ∨ ∃ e, opening host o = some e)

/-- What ends the program without an exit code: a file name that is none, a file name that cannot be
printed, and errors of the toolkit and of the mixer that are not their words for being out of reach.
To the early reader of the arguments it is a blank scale or a blank limit too. -/
inductive Strands (host : Host) (o : Options) : Escape → Prop
  | rom (keys : ¬ Rejected o) (rom : host.read o.rom = .error .embeddedNul) :
      Strands host o .embeddedNul
  | scale {image : List UInt8} (dialect : host.dialect = .early) (keys : ¬ Rejected o)
    (rom : host.read o.rom = .ok image) (listing : o.listing = false) (window : o.headless = false)
    (scale : o.isBlank .scale = true) : Strands host o (.blank .scale)
  | printing {image : List UInt8} (loads : Loads host o image) (size : image.length ≤ 3584)
    (printable : printable host o = false) : Strands host o .unprintable
  | window {image : List UInt8} {e : Toolkit.Error} (announces : Announces host o image)
    (window : opening host o = some (.toolkit e)) : Strands host o (.window (.toolkit e))
  | buzzer {image : List UInt8} {e : Buzzer.OpenError} (announces : Announces host o image)
    (window : opening host o = none) (buzzer : tuning host o = some e)
    (fatal : ∀ reason, e ≠ .unavailable reason) : Strands host o (.buzzer e)
  | limit {image : List UInt8} (dialect : host.dialect = .early)
    (announces : Announces host o image) (window : opening host o = none)
    (buzzer : ∀ e, tuning host o = some e → ∃ reason, e = .unavailable reason)
    (limit : o.isBlank .maxCycles = true) : Strands host o (.blank .maxCycles)

/-- The program comes to a run that ends in a fault. -/
def Faults (host : Host) (args : List String) (arrivals : List Arrival) : Prop :=
  ∃ r, launch host args = .ok r ∧ r.options.isBlank .maxCycles = false ∧
    (r.session.run arrivals r.options.maxCycles).2 = .stopped .fault

/-- The session before has a window or a buzzer open if the options ask for it and the host has it.
They are closed in the session after, and of the buzzer nothing is heard any more. -/
structure Releases (host : Host) (o : Options) (before after : Session) : Prop where
  kind : before.renderer.headless? = some o.headless
  audible : o.mute = false → o.headless = false → tuning host o = none →
    ∃ b, before.machine.audio = .buzzer b
  window : ∀ w, before.renderer = .window w →
    w.isOpen = true ∧ ∃ w', after.renderer = .window w' ∧ w'.isOpen = false
  buzzer : ∀ b, before.machine.audio = .buzzer b →
    b.sound.isSome ∧ ∃ b', after.machine.audio = .buzzer b' ∧ b'.sound = none ∧ b'.playing = false ∧
      b'.calls.getLast? = some .quit ∧ Buzzer.sounding b'.calls = []

/-- How a program with these options ends on this host. -/
structure Concludes (host : Host) (args : List String) (o : Options) (arrivals : List Arrival)
    (out : Outcome) : Prop where
  stranded : ∀ e, out.ending = .escaped e ↔ Strands host o e
  refused : out.ending = .exit 1 ↔ Refuses host o ∧ ∀ e, ¬ Strands host o e
  faulted : out.ending = .exit 2 ↔ Faults host args arrivals
  done : out.ending = .exit 0 ↔
    ¬ Refuses host o ∧ ¬ Faults host args arrivals ∧ ∀ e, ¬ Strands host o e
  unrun : out.ending = .exit 1 → launch host args = .error out ∧ out.session = none
  released : ∀ r, launch host args = .ok r → ∃ s, out.session = some s ∧ Releases host o r.session s

/-- An ending that suits the host and the options, whatever the run. -/
inductive Suits (host : Host) (o : Options) : Ending → Prop
  | stranded {e : Escape} (strands : Strands host o e) : Suits host o (.escaped e)
  | refused (refuses : Refuses host o) (unstranded : ∀ e, ¬ Strands host o e) :
      Suits host o (.exit 1)
  | other {code : Nat} (code_ne : code ≠ 1) (unrefused : ¬ Refuses host o)
    (unstranded : ∀ e, ¬ Strands host o e) : Suits host o (.exit code)

variable {host : Host} {o : Options} {args : List String} {arrivals : List Arrival} {r : Running}

/-- Only one thing strands a program: each is looked at after those before it. -/
theorem Strands.unique {e e' : Escape} (h : Strands host o e) (h' : Strands host o e') :
    e = e' := by
  cases h <;> cases h' <;> grind

theorem Suits.escaped_iff {x : Ending} (h : Suits host o x) (e : Escape) :
    x = .escaped e ↔ Strands host o e := by
  cases h with
  | stranded strands =>
    constructor
    · rintro heq
      cases heq
      exact strands
    · exact fun h => congrArg Ending.escaped (strands.unique h)
  | refused _ unstranded | other _ _ unstranded => exact ⟨nofun, fun h => absurd h (unstranded e)⟩

theorem Suits.refused_iff {x : Ending} (h : Suits host o x) :
    x = .exit 1 ↔ Refuses host o ∧ ∀ e, ¬ Strands host o e := by
  cases h with
  | stranded strands => exact ⟨nofun, fun h => absurd strands (h.2 _)⟩
  | refused refuses unstranded => exact ⟨fun _ => ⟨refuses, unstranded⟩, fun _ => rfl⟩
  | other code_ne unrefused =>
    exact ⟨fun h => absurd (Ending.exit.inj h) code_ne, fun h => absurd h.1 unrefused⟩

/-- The outcome suits a program that does not come to a run. -/
def SuitsEarly (host : Host) (o : Options) (out : Outcome) : Prop :=
  Suits host o out.ending ∧ (∀ code, out.ending = .exit code → code ≤ 1) ∧ out.session = none

theorem Refuses.early (h : Refuses host o) (hno : ∀ e, ¬ Strands host o e) (out err : String) :
    SuitsEarly host o (early 1 out err) :=
  ⟨.refused h hno, fun _ h => by cases h; exact le_rfl, rfl⟩

theorem Strands.early {e : Escape} (h : Strands host o e) (out err : String) :
    SuitsEarly host o (stranded e out err) :=
  ⟨.stranded h, nofun, rfl⟩

/-- Only the early reader leaves an option blank. -/
theorem early_of_isBlank {d : CommandLine.Dialect} {key : Options.Key}
    (hparse : Options.parse d args = .ok (.run o)) (hblank : o.isBlank key = true) :
    d = .early := by
  cases d with
  | early => rfl
  | current =>
    rw [Options.isBlank, Options.blank_eq_nil hparse] at hblank
    cases hblank

theorem Course.error {out : Outcome} (h : Course host o (.error out))
    (hparse : Options.parse host.dialect args = .ok (.run o)) : SuitsEarly host o out := by
  -- what strands a program that comes further than this one contradicts what this one found
  cases h with
  | rejected keys => exact Refuses.early (.inl keys) (fun e he => by cases he <;> grind) ..
  | unreadable keys rom ordinary =>
    exact Refuses.early (.inr (.inl ⟨_, rom⟩)) (fun e he => by cases he <;> grind) ..
  | tooLong loads size =>
    have hrefuses : Refuses host o := .inr (.inr ⟨loads.listing, .inl ⟨_, loads.rom, size⟩⟩)
    exact hrefuses.early (fun e he => by cases he <;> grind) ..
  | windowless announces window ordinary =>
    have hrefuses : Refuses host o := .inr (.inr ⟨announces.listing, .inr ⟨_, window⟩⟩)
    rw [Ne, windowErrorText?_eq_none_iff] at ordinary
    exact hrefuses.early (fun e he => by cases he <;> grind) ..
  | listed keys rom listing =>
    refine ⟨.other (by decide) ?_ (fun e he => by cases he <;> grind), fun _ h => ?_, rfl⟩
    · grind [Refuses]
    · cases h
      exact Nat.zero_le 1
  | unnamed keys rom => exact (Strands.rom keys rom).early ..
  | unscaled keys rom listing window scale =>
    exact (Strands.scale (early_of_isBlank hparse scale) keys rom listing window scale).early ..
  | unprintable loads size printable => exact (Strands.printing loads size printable).early ..
  | unopened announces window fatal =>
    obtain ⟨e, rfl⟩ := windowErrorText?_eq_none_iff.1 fatal
    exact (Strands.window announces window).early ..
  | untuned announces window buzzer fatal =>
    have hfatal := (silenceText?_eq_none_iff _).1 fatal
    exact (Strands.buzzer announces window buzzer hfatal).early ..

/-- Of a program that is ready to run, only the limit may be missing. -/
theorem Course.ok (h : Course host o (.ok r))
    (hparse : Options.parse host.dialect args = .ok (.run o)) :
    Ready host o r ∧ ¬ Refuses host o ∧
      ∀ e, Strands host o e ↔ e = .blank .maxCycles ∧ o.isBlank .maxCycles = true := by
  have hfatal := silenceText?_eq_none_iff
  cases h with
  | ready announces window buzzer ready =>
    refine ⟨ready, by grind [Refuses], fun e => ⟨fun he => by cases he <;> grind, ?_⟩⟩
    rintro ⟨rfl, hlimit⟩
    refine .limit (early_of_isBlank hparse hlimit) announces window (fun e he => ?_) hlimit
    have hne := buzzer e he
    rw [Ne, hfatal] at hne
    push Not at hne
    exact hne

theorem isOpen_close (w : Window) : w.close.isOpen = false := by
  unfold Window.close
  split
  · rfl
  next h => exact Bool.not_eq_true _ ▸ h

theorem Ready.kind (h : Ready host o r) : r.session.renderer.headless? = some o.headless := by
  have hshows := h.renderer
  cases hr : r.session.renderer with
  | none => rw [hr] at hshows; exact hshows.elim
  | recorder => rw [hr] at hshows; exact congrArg some hshows.symm
  | window => rw [hr] at hshows; exact congrArg some hshows.1.symm

/-- With a surface of the size of the screen and a toolkit that paints, a program that is ready
takes its ticks. -/
theorem Ready.staged (h : Ready host o r) (hkit : host.toolkit.Paints)
    (hsurface : host.toolkit.Provides screenWidth screenHeight) : r.session.Staged o.headless := by
  have hshows := h.renderer
  refine ⟨⟨h.machine, ?_⟩, ?_⟩
  · cases hr : r.session.renderer with
    | none | recorder => trivial
    | window w =>
      rw [hr] at hshows
      obtain ⟨-, hlistening, hsame, -, surface, hmade, hcanvas⟩ := hshows
      obtain ⟨surface', hmade', hwidth, hheight⟩ := hsurface
      rw [hmade] at hmade'
      cases hmade'
      rw [← hsame] at hkit
      exact ⟨hlistening, hkit, fun _ _ => ⟨surface, hcanvas, Int.natCast_inj.1 hwidth,
        Int.natCast_inj.1 hheight⟩⟩
  · exact h.kind

theorem Ready.audible (h : Ready host o r) (hmute : o.mute = false) (ho : o.headless = false)
    (htuning : tuning host o = none) : ∃ b, r.session.machine.audio = .buzzer b := by
  have hquiet := h.audio
  cases hb : r.session.machine.audio with
  | buzzer b => exact ⟨b, rfl⟩
  | recording => rw [hb] at hquiet; exact hquiet.elim
  | silent =>
    rw [hb] at hquiet
    rcases hquiet with h | h | h
    · rw [hmute] at h; cases h
    · rw [ho] at h; cases h
    · exact absurd htuning h

/-- Whatever the run signalled to the buzzer, it is closed in the end, and the window too. -/
theorem Ready.releases (h : Ready host o r) {s : Session} (ss : List Signal)
    (hkind : s.renderer.headless? = r.session.renderer.headless?)
    (haudio : s.machine.audio = ss.foldl Audio.signal r.session.machine.audio) :
    Releases host o r.session (shutDown s) where
  kind := h.kind
  audible := h.audible
  window w hw := by
    have hshows := h.renderer
    rw [hw] at hshows hkind
    refine ⟨hshows.2.2.2.1, ?_⟩
    cases hs : s.renderer with
    | none | recorder => rw [hs] at hkind; cases hkind
    | window w' => exact ⟨w'.close, by simp only [shutDown, hs, Renderer.close], isOpen_close w'⟩
  buzzer b hb := by
    have hquiet := h.audio
    rw [hb] at hquiet haudio
    obtain ⟨tone, htone⟩ := Option.isSome_iff_exists.1 hquiet.1
    obtain ⟨made, hplayed⟩ := (Buzzer.played_nil htone hquiet.2.1).signals ss
    rw [Audio.foldl_signal_buzzer] at haudio
    exact ⟨hquiet.1, _, by simp only [shutDown, haudio], Buzzer.close_spec hplayed.sound⟩

theorem Running.session_conclude (r : Running) (s : Session) (ending : Session.Ending) :
    (r.conclude s ending).session = some (shutDown s) := by
  cases ending with
  | stopped reason => exact (r.conclude_stopped s reason).2
  | interrupted | failed => rfl

theorem Running.ending_conclude (r : Running) (s : Session) {ending : Session.Ending}
    (h : (∃ reason, ending = .stopped reason) ∨ ending = .interrupted) :
    (r.conclude s ending).ending = .exit (if ending = .stopped .fault then 2 else 0) := by
  rcases h with ⟨reason, rfl⟩ | rfl
  · cases reason <;> rfl
  · rfl

theorem headless?_run (s : Session) (arrivals : List Arrival) (limit : Option Int) :
    (s.run arrivals limit).1.renderer.headless? = s.renderer.headless? := by
  have hrenderer := congrArg Standing.renderer (s.ran_met arrivals limit).2.footing
  exact (congrArg Renderer.headless? hrenderer).trans ((s.begin arrivals).headless?_meetAll _)

theorem Suits.concludes {out : Outcome} (h : Suits host o out.ending)
    (hcode : ∀ code, out.ending = .exit code → code ≤ 2)
    (hfault : out.ending = .exit 2 ↔ Faults host args arrivals)
    (hunrun : out.ending = .exit 1 → launch host args = .error out ∧ out.session = none)
    (hreleased : ∀ r, launch host args = .ok r →
      ∃ s, out.session = some s ∧ Releases host o r.session s) :
    Concludes host args o arrivals out where
  stranded := h.escaped_iff
  refused := h.refused_iff
  faulted := hfault
  done := by
    rw [← hfault]
    generalize out.ending = x at h hcode
    cases h with
    | stranded strands => exact ⟨nofun, fun h => absurd strands (h.2.2 _)⟩
    | refused refuses => exact ⟨nofun, fun h => absurd refuses h.1⟩
    | @other code code_ne unrefused unstranded =>
      have hle := hcode code rfl
      simp only [Ending.exit.injEq]
      exact ⟨fun h => ⟨unrefused, by omega, unstranded⟩, fun h => by omega⟩
  unrun := hunrun
  released := hreleased

/-- A program that does not come to a run. -/
theorem concludes_of_error {out : Outcome} (hparse : Options.parse host.dialect args = .ok (.run o))
    (hlaunch : launch host args = .error out) (hcourse : Course host o (.error out)) :
    Concludes host args o arrivals (run host args arrivals) := by
  obtain ⟨hsuits, hcode, hsession⟩ := hcourse.error hparse
  have hrun : run host args arrivals = out := by simp only [run, hlaunch]
  rw [hrun]
  refine hsuits.concludes (fun code h => (hcode code h).trans (by decide)) ⟨fun h => ?_, ?_⟩
    (fun _ => ⟨hlaunch, hsession⟩) fun r hr => by rw [hlaunch] at hr; cases hr
  · exact absurd (hcode 2 h) (by decide)
  · rintro ⟨r, hr, -⟩
    rw [hlaunch] at hr
    cases hr

theorem faults_iff (hlaunch : launch host args = .ok r) :
    Faults host args arrivals ↔ r.options.isBlank .maxCycles = false ∧
      (r.session.run arrivals r.options.maxCycles).2 = .stopped .fault := by
  refine ⟨?_, fun h => ⟨r, hlaunch, h⟩⟩
  rintro ⟨r', hr', h⟩
  rw [hlaunch] at hr'
  cases hr'
  exact h

theorem releases_of_launch (hlaunch : launch host args = .ok r) {out : Outcome} {s : Session}
    (hsession : out.session = some (shutDown s))
    (hreleases : Releases host o r.session (shutDown s)) (r' : Running)
    (hlaunch' : launch host args = .ok r') :
    ∃ s, out.session = some s ∧ Releases host o r'.session s := by
  rw [hlaunch] at hlaunch'
  cases hlaunch'
  exact ⟨_, hsession, hreleases⟩

/-- A program that comes to a run with a blank limit. -/
theorem concludes_of_blank (hlaunch : launch host args = .ok r) (hready : Ready host r.options r)
    (hlimit : r.options.isBlank .maxCycles = true)
    (hstrands : Strands host r.options (.blank .maxCycles)) :
    Concludes host args r.options arrivals (run host args arrivals) := by
  have hrun : run host args arrivals = r.abandon arrivals := by
    simp only [run, hlaunch, hlimit, if_true]
  have hsuits : Suits host r.options (r.abandon arrivals).ending := .stranded hstrands
  have hescaped : ∀ code, (r.abandon arrivals).ending ≠ .exit code := fun code h => by cases h
  rw [hrun]
  refine hsuits.concludes (fun code h => absurd h (hescaped code))
    ⟨fun h => absurd h (hescaped 2), fun h => ?_⟩ (fun h => absurd h (hescaped 1))
    (releases_of_launch hlaunch rfl
      (hready.releases (s := r.session.begin arrivals) [] rfl rfl))
  rw [faults_iff hlaunch, hlimit] at h
  cases h.1

/-- A program that comes to a run, which ends. -/
theorem concludes_of_run (hlaunch : launch host args = .ok r) (hready : Ready host r.options r)
    (hstaged : r.session.Staged r.options.headless)
    (hlimit : r.options.isBlank .maxCycles = false) (hunrefused : ¬ Refuses host r.options)
    (hunstranded : ∀ e, ¬ Strands host r.options e)
    (has : ∀ a ∈ arrivals, a.Ordinary r.options.headless) :
    Concludes host args r.options arrivals (run host args arrivals) := by
  have hrun := run_eq_conclude hlaunch hlimit arrivals
  have hexit := r.ending_conclude (r.session.run arrivals r.options.maxCycles).1
    (hstaged.ending has r.options.maxCycles)
  rw [← hrun] at hexit
  have hsuits : Suits host r.options (run host args arrivals).ending := by
    rw [hexit]
    exact .other (by split <;> decide) hunrefused hunstranded
  refine hsuits.concludes (fun code h => ?_) ?_ (fun h => ?_)
    (releases_of_launch hlaunch ((congrArg Outcome.session hrun).trans (r.session_conclude _ _))
      (hready.releases _ (headless?_run ..) (Session.audio_run ..)))
  · rw [hexit] at h
    cases h
    split <;> decide
  · rw [hexit, faults_iff hlaunch, hlimit]
    split
    next hfault => simp [hfault]
    next hfault => simp [hfault]
  · rw [hexit] at h
    split at h <;> cases h

theorem concludes_of_ok (hkit : host.toolkit.Paints)
    (hsurface : host.toolkit.Provides screenWidth screenHeight)
    (hparse : Options.parse host.dialect args = .ok (.run o)) (hlaunch : launch host args = .ok r)
    (hcourse : Course host o (.ok r)) (has : ∀ a ∈ arrivals, a.Ordinary o.headless) :
    Concludes host args o arrivals (run host args arrivals) := by
  obtain ⟨hready, hunrefused, hstrands⟩ := hcourse.ok hparse
  obtain rfl := hready.options
  cases hlimit : r.options.isBlank .maxCycles with
  | true => exact concludes_of_blank hlaunch hready hlimit ((hstrands _).2 ⟨rfl, hlimit⟩)
  | false =>
    have hunstranded : ∀ e, ¬ Strands host r.options e := by
      intro e he
      rw [hstrands, hlimit] at he
      cases he.2
    exact concludes_of_run hlaunch hready (hready.staged hkit hsurface) hlimit hunrefused
      hunstranded has

/-- A program ends with exit code 1 just when it is refused, with 2 just when it comes to a run that
ends in a fault, and else with 0, unless it is stranded. What it opened is closed in the end. -/
theorem exit_code_and_release (hkit : host.toolkit.Paints)
    (hsurface : host.toolkit.Provides screenWidth screenHeight)
    (hparse : Options.parse host.dialect args = .ok (.run o)) (hrates : o.rateError? = none)
    (has : ∀ a ∈ arrivals, a.Ordinary o.headless) :
    Concludes host args o arrivals (run host args arrivals) := by
  have hlaunch : launch host args = prepare host o := by simp only [launch, hparse, hrates]
  have hcourse := prepare_course host o
  cases hprepare : prepare host o with
  | error out =>
    rw [hprepare] at hlaunch hcourse
    exact concludes_of_error hparse hlaunch hcourse
  | ok r =>
    rw [hprepare] at hlaunch hcourse
    exact concludes_of_ok hkit hsurface hparse hlaunch hcourse has

theorem parse_eq_of_any {d : CommandLine.Dialect} (h : (Options.parse d args).toOption.any (fun
    | .run o' => decide (o' = o)
    | .help => false) = true) : Options.parse d args = .ok (.run o) := by
  cases hparse : Options.parse d args with
  | error => rw [hparse] at h; cases h
  | ok request =>
    rw [hparse] at h
    cases request with
    | help => cases h
    | run o' => exact congrArg (fun o => Except.ok (Options.Request.run o)) (of_decide_eq_true h)

/-- The program sounds the buzzer and then returns from nowhere: the run ends in a fault, and the
window and the buzzer are closed. -/
theorem exit_code_and_release_of_fault :
    let host := desktop [0x60, 0x05, 0xF0, 0x18, 0x00, 0xEE]
    let args := ["rom"]
    let arrivals := [Arrival.tick .cycle, .happening (.host (.key (Desktop.Keys.ofChar 'x') true)),
      .tick .cycle, .tick .timer, .tick .cycle]
    ∃ o r s w w', host.toolkit.Paints ∧ host.toolkit.Provides screenWidth screenHeight ∧
      Options.parse host.dialect args = .ok (.run o) ∧ o.rateError? = none ∧
      (∀ a ∈ arrivals, a.Ordinary o.headless) ∧ (run host args arrivals).ending = .exit 2 ∧
      launch host args = .ok r ∧ r.session.renderer = .window w ∧ w.isOpen = true ∧
      (run host args arrivals).session = some s ∧ s.renderer = .window w' ∧ w'.isOpen = false ∧
      (run host args arrivals).calls = [.play 0, .stop 0, .quit] := by
  intro host args arrivals
  let o : Options := { rom := "rom" }
  have hkit : host.toolkit.Paints := Desktop.paints
  have hsurface : host.toolkit.Provides screenWidth screenHeight :=
    Desktop.provides (by decide) (by decide) (by decide) (by decide)
  have hparse : Options.parse host.dialect args = .ok (.run o) :=
    parse_eq_of_any (by decide +kernel)
  have hrates : o.rateError? = none := rfl
  have has : ∀ a ∈ arrivals, a.Ordinary o.headless := by
    simp only [arrivals, List.forall_mem_cons]
    exact ⟨trivial, rfl, trivial, trivial, trivial, List.forall_mem_nil _⟩
  have hconcludes : Concludes host args o arrivals (run host args arrivals) :=
    exit_code_and_release hkit hsurface hparse hrates has
  obtain ⟨r, hlaunch, hdone⟩ := exists_of_launch host args
    (P := fun r => !r.options.isBlank .maxCycles &&
      decide ((r.session.run arrivals r.options.maxCycles).2 = .stopped .fault))
    (by decide +kernel)
  simp only [Bool.and_eq_true, decide_eq_true_eq, Bool.not_eq_true'] at hdone
  obtain ⟨s, hsession, hreleases⟩ := hconcludes.released r hlaunch
  have hkind : r.session.renderer.headless? = some false := hreleases.kind
  cases hw : r.session.renderer with
  | none | recorder => rw [hw] at hkind; cases hkind
  | window w =>
    obtain ⟨hopen, w', hw', hclosed⟩ := hreleases.window w hw
    exact ⟨o, r, s, w, w', hkit, hsurface, hparse, hrates, has,
      hconcludes.faulted.2 ⟨r, hlaunch, hdone⟩, hlaunch, hw, hopen, hsession, hw', hclosed,
      by decide +kernel⟩

/-- Not every program that is refused ends with exit code 1: a toolkit may say in another way than
by its word for it that there is no such window, as a desktop does if the sides are beyond 64
bits. -/
theorem not_always_refused :
    ¬ ∀ (host : Host) (args : List String) (o : Options) (arrivals : List Arrival),
      host.toolkit.Paints → host.toolkit.Provides screenWidth screenHeight →
      Options.parse host.dialect args = .ok (.run o) → o.rateError? = none →
      (∀ a ∈ arrivals, a.Ordinary o.headless) →
      ((run host args arrivals).ending = .exit 1 ↔ Refuses host o) := by
  intro hall
  let host := desktop [0xF0, 0x29, 0xD0, 0x05, 0x12, 0x04]
  let args := ["rom", "--scale", "100000000000000000000"]
  let o : Options := { rom := "rom", scale := 100000000000000000000 }
  have hopening : opening host o = some (.toolkit (.other "type")) := by decide +kernel
  have hrefuses : Refuses host o := .inr (.inr ⟨rfl, .inr ⟨_, hopening⟩⟩)
  have hexit : (run host args []).ending = .exit 1 :=
    (hall host args o [] Desktop.paints
      (Desktop.provides (by decide) (by decide) (by decide) (by decide))
      (parse_eq_of_any (by decide +kernel)) rfl (List.forall_mem_nil _)).2 hrefuses
  have hescaped : (run host args []).ending = .escaped (.window (.toolkit (.other "type"))) := by
    decide +kernel
  rw [hescaped] at hexit
  cases hexit

end Application

end ChipEight
