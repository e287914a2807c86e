import ChipEight.Proofs.Frame.Size
import ChipEight.Proofs.Session.History

/-! # The frames that a recorder keeps

Each timer tick presents the screen as the instructions before it left it (`presented`), a byte for
each pixel, and a recorder keeps the last of the frames that were presented, as many as it may
(`Recorder.Recorded`). Nothing but the next timer tick touches what is kept.
-/

namespace ChipEight

namespace Recorder

/-- The recorder was handed these frames, the oldest first. -/
structure Recorded (r : Recorder) (fs : List Frame) : Prop where
  frames : r.frames = fs.length
  suffix : r.kept <:+ fs
  length : r.kept.length = r.capacity.elim fs.length (min · fs.length)

theorem new_recorded (capacity : Option Nat) : (new capacity).Recorded [] where
  frames := rfl
  suffix := List.suffix_rfl
  length := by cases capacity <;> simp [new]

theorem keepLast_suffix (capacity : Option Nat) (fs : List Frame) :
    keepLast capacity fs <:+ fs := by
  cases capacity with
  | none => exact List.suffix_rfl
  | some n => exact List.drop_suffix _ _

theorem length_keepLast (capacity : Option Nat) (fs : List Frame) :
    (keepLast capacity fs).length = capacity.elim fs.length (min · fs.length) := by
  cases capacity with
  | none => rfl
  | some n => simp only [keepLast, List.length_drop, Option.elim_some]; omega

namespace Recorded
variable {r : Recorder} {fs gs : List Frame}

theorem present (h : r.Recorded fs) (f : Frame) : (r.present f).Recorded (fs ++ [f]) where
  frames := by simp [Recorder.present, h.frames]
  suffix := by
    have hkept : r.kept ++ [f] <:+ fs ++ [f] := by
      obtain ⟨dropped, rfl⟩ := h.suffix
      exact ⟨dropped, by rw [List.append_assoc]⟩
    exact (keepLast_suffix _ _).trans hkept
  length := by
    have hlen := h.length
    simp only [Recorder.present, length_keepLast, List.length_append, List.length_singleton]
    cases hc : r.capacity with
    | none => simp only [hc, Option.elim_none] at hlen ⊢; omega
    | some n => simp only [hc, Option.elim_some] at hlen ⊢; omega

/-- Unless it keeps nothing, a recorder has the last frame that it was handed. -/
theorem last?_eq (h : r.Recorded fs) (hcapacity : r.capacity ≠ some 0) : r.last? = fs.getLast? := by
  obtain ⟨dropped, hfs⟩ := h.suffix
  have hlen := h.length
  by_cases hnil : r.kept = []
  · have hempty : fs = [] := by
      rw [hnil, List.length_nil] at hlen
      refine List.length_eq_zero_iff.1 ?_
      cases hc : r.capacity with
      | none => simp only [hc, Option.elim_none] at hlen; omega
      | some n =>
        have hn : n ≠ 0 := fun h0 => hcapacity (by rw [hc, h0])
        simp only [hc, Option.elim_some] at hlen; omega
    rw [last?, hnil, hempty]
  · rw [last?, ← hfs, List.getLast?_append_of_ne_nil _ hnil]

/-- What is kept of some frames and what is kept after more of them. -/
theorem suffix_append {r' : Recorder} (h : r.Recorded fs) (h' : r'.Recorded (fs ++ gs))
    (hcapacity : r'.capacity = r.capacity) : r'.kept <:+ r.kept ++ gs := by
  have hkept : r.kept ++ gs <:+ fs ++ gs := by
    obtain ⟨dropped, hfs⟩ := h.suffix
    exact ⟨dropped, by rw [← List.append_assoc, hfs]⟩
  have hlen := h.length
  have hlen' := h'.length
  rw [hcapacity] at hlen'
  refine List.suffix_of_suffix_length_le h'.suffix hkept ?_
  rw [List.length_append] at hlen' ⊢
  cases hc : r.capacity with
  | none => simp only [hc, Option.elim_none] at hlen hlen'; omega
  | some n => simp only [hc, Option.elim_some] at hlen hlen'; omega

end Recorded

end Recorder

namespace Session

/-- The frame that an arrival presents. -/
def shows (s : Session) : Arrival → List Frame
  | .tick .timer => [s.machine.screen.frame]
  | _ => []

/-- The frames that the arrivals of a history present, the oldest first. -/
def presented (s : Session) (as : List Arrival) : List Frame := s.gather shows as

/-- What is left of a screen when these machines execute their instructions on it, one after the
other. -/
def screenAfter (screen : Screen) (done : List Machine) : Screen :=
  done.foldl (fun screen m => (Machine.step { m with screen }).1.screen) screen

variable {s : Session} {r : Recorder} {fs : List Frame}

theorem length_shows (s : Session) (a : Arrival) :
    (s.shows a).length = [a].count (.tick .timer) := by
  by_cases ha : a = .tick .timer
  · subst ha; rfl
  · rw [List.count_singleton, if_neg (by simpa using ha)]
    cases a with
    | tick t => cases t <;> first | rfl | exact absurd rfl ha
    | nothing | interrupt | happening => rfl

theorem length_presented (s : Session) (as : List Arrival) :
    (s.presented as).length = as.count (.tick .timer) := by
  induction as generalizing s with
  | nil => rfl
  | cons a as ih =>
    have hcons : a :: as = [a] ++ as := rfl
    rw [presented, gather, List.length_append, length_shows, ← presented, ih, hcons,
      List.count_append]

theorem presented_append (s : Session) (as bs : List Arrival) :
    s.presented (as ++ bs) = s.presented as ++ (s.meetAll as).presented bs :=
  s.gather_append shows as bs

/-- The frame presented at a timer tick is the screen that it finds. -/
theorem presented_at (s : Session) (p q : List Arrival) :
    (s.presented (p ++ .tick .timer :: q))[p.count (.tick .timer)]? =
      some (s.meetAll p).machine.screen.frame := by
  rw [presented_append, ← s.length_presented p, List.getElem?_append_right (Nat.le_refl _),
    Nat.sub_self]
  rfl

theorem presented_eq_nil (s : Session) {as : List Arrival} (has : .tick .timer ∉ as) :
    s.presented as = [] := by
  rw [← List.length_eq_zero_iff, length_presented, List.count_eq_zero.2 has]

/-- The last frame presented is the screen that the last timer tick finds. -/
theorem getLast?_presented (s : Session) {p q : List Arrival} (hq : .tick .timer ∉ q) :
    (s.presented (p ++ .tick .timer :: q)).getLast? = some (s.meetAll p).machine.screen.frame := by
  have hsplit : p ++ Arrival.tick .timer :: q = (p ++ [.tick .timer]) ++ q := List.append_cons p _ q
  rw [hsplit, presented_append, presented_eq_nil _ hq, List.append_nil, presented_append]
  exact List.getLast?_concat

theorem screenAfter_append (screen : Screen) (done done' : List Machine) :
    screenAfter screen (done ++ done') = screenAfter (screenAfter screen done) done' :=
  List.foldl_append

/-- Only instructions draw. -/
theorem screen_meetAll (s : Session) (as : List Arrival) :
    (s.meetAll as).machine.screen = screenAfter s.machine.screen (s.gather executes as) := by
  induction as using List.reverseRecOn with
  | nil => rfl
  | append_singleton as a ih =>
    have hone : (s.meetAll as).gather executes [a] = (s.meetAll as).executes a := List.append_nil _
    rw [meetAll_snoc, gather_append, hone]
    rcases (s.meetAll as).machine_meet a with ⟨keypad, hexec, hm⟩ | ⟨hexec, hm | hm⟩
    · rw [hm, hexec, screenAfter_append, ← ih]; rfl
    · rw [hm, hexec, List.append_nil, ih]
    · rw [hm, hexec, List.append_nil, Machine.tick_eq, ih]

theorem screen_meet_timer (s : Session) :
    (s.meet (.tick .timer)).1.machine.screen = s.machine.screen := by
  show s.machine.tick.screen = s.machine.screen
  rw [Machine.tick_eq]

/-- An arrival hands a recorder what it shows, and leaves alone what is kept. -/
theorem recorded_meet (hr : s.renderer = .recorder r) (h : r.Recorded fs) (a : Arrival) :
    ∃ r', (s.meet a).1.renderer = .recorder r' ∧ r'.capacity = r.capacity ∧
      r'.Recorded (fs ++ s.shows a) := by
  have hkeep : ∀ r' : Recorder, r'.capacity = r.capacity → r'.frames = r.frames → r'.kept = r.kept →
      r'.Recorded (fs ++ []) := by
    intro r' hcapacity hframes hkept
    rw [List.append_nil]
    exact ⟨by rw [hframes, h.frames], by rw [hkept]; exact h.suffix,
      by rw [hkept, hcapacity]; exact h.length⟩
  cases a with
  | nothing | interrupt => exact ⟨r, hr, rfl, hkeep r rfl rfl rfl⟩
  | happening e =>
    simp only [meet]
    cases e with
    | stop | post => exact ⟨r, hr, rfl, hkeep r rfl rfl rfl⟩
    | quit | press | release =>
      simp only [receive, hr, Renderer.setQuit?, Renderer.receiveKey?, setRenderer?]
      exact ⟨_, rfl, rfl, hkeep _ rfl rfl rfl⟩
    | host e =>
      have hfail : s.receive (.host e) = .error (.window .noEvents) := by
        simp only [receive, hr, Renderer.receiveHost]
      rw [hfail]
      exact ⟨r, hr, rfl, hkeep r rfl rfl rfl⟩
  | tick t =>
    cases t with
    | other => exact ⟨r, hr, rfl, hkeep r rfl rfl rfl⟩
    | cycle =>
      simp only [meet, handle, serveCycle, drain, hr, Renderer.poll, step_eq]
      exact ⟨_, rfl, rfl, hkeep _ rfl rfl rfl⟩
    | timer =>
      have hscreen : s.machine.tick.screen = s.machine.screen := s.screen_meet_timer
      simp only [meet, handle, serveTimer, hr, Renderer.present, hscreen]
      exact ⟨_, rfl, rfl, h.present _⟩

theorem recorded_meetAll (hr : s.renderer = .recorder r) (h : r.Recorded fs) (as : List Arrival) :
    ∃ r', (s.meetAll as).renderer = .recorder r' ∧ r'.capacity = r.capacity ∧
      r'.Recorded (fs ++ s.presented as) := by
  induction as generalizing s r fs with
  | nil => exact ⟨r, hr, rfl, by simpa [presented, gather] using h⟩
  | cons a as ih =>
    obtain ⟨r₁, hr₁, hcapacity₁, h₁⟩ := recorded_meet hr h a
    obtain ⟨r₂, hr₂, hcapacity₂, h₂⟩ := ih hr₁ h₁
    refine ⟨r₂, hr₂, hcapacity₂.trans hcapacity₁, ?_⟩
    rw [List.append_assoc] at h₂
    exact h₂

/-- With a new recorder each timer tick presents the screen that the instructions before it left, as
bytes that are one for the lit pixels and zero for the others. The recorder counts these frames and
keeps the last of them, as many as it may, and of what is kept nothing changes but by later timer
ticks. A timer tick touches the timers of the machine and its audio only. -/
theorem frames_recorded (s : Session) (capacity : Option Nat) (as : List Arrival) :
    let t : Session := { s with renderer := .recorder (.new capacity) }
    ∃ r, (t.meetAll as).renderer = .recorder r ∧ r.frames = as.count (.tick .timer) ∧
      (t.presented as).length = r.frames ∧
      (∀ p q, as = p ++ .tick .timer :: q →
        let screen := (t.meetAll p).machine.screen
        (t.presented as)[p.count (.tick .timer)]? = some screen.frame ∧
        screen = screenAfter s.machine.screen (t.gather executes p) ∧
        (s.machine.WellFormed → screen.frame.HasSize screenWidth screenHeight) ∧
        ∀ x y, screen.frame.byte x y = if screen.lit x y then 1 else 0) ∧
      r.kept <:+ t.presented as ∧ r.kept.length = capacity.elim r.frames (min · r.frames) ∧
      (∀ bs, ∃ r', (t.meetAll (as ++ bs)).renderer = .recorder r' ∧
        r'.kept <:+ r.kept ++ (t.meetAll as).presented bs ∧
          (.tick .timer ∉ bs → r'.kept = r.kept)) ∧
      ∀ u : Session, ∃ delay sound audio,
        (u.handle .timer).1.machine = { u.machine with delay, sound, audio } := by
  intro t
  have hnew := Recorder.new_recorded capacity
  have hkept := fun bs => recorded_meetAll (s := t) rfl hnew bs
  simp only [List.nil_append] at hkept
  obtain ⟨r, hr, hcapacity, h⟩ := hkept as
  have hframes : r.frames = as.count (.tick .timer) := h.frames.trans (t.length_presented as)
  refine ⟨r, hr, hframes, h.frames.symm, ?_, h.suffix, ?_, fun bs => ?_, fun u => ?_⟩
  · rintro p q rfl
    refine ⟨t.presented_at p q, t.screen_meetAll p, fun hm => ?_, Screen.byte_frame _⟩
    have hp : (t.meetAll p).machine.WellFormed := wellFormed_meetAll (s := t) hm p
    have hsize := hp.screen_wellFormed.frame_hasSize
    rw [hp.screen_width, hp.screen_height] at hsize
    exact hsize
  · rw [h.length, hcapacity, h.frames]; rfl
  · obtain ⟨r', hr', hcapacity', h'⟩ := hkept (as ++ bs)
    rw [presented_append] at h'
    have hsuffix := h.suffix_append h' (hcapacity'.trans hcapacity.symm)
    refine ⟨r', hr', hsuffix, fun hbs => ?_⟩
    rw [presented_eq_nil _ hbs, List.append_nil] at h' hsuffix
    have hlen : r'.kept.length = r.kept.length := by rw [h'.length, h.length, hcapacity', hcapacity]
    exact hsuffix.eq_of_length hlen
  · exact ⟨_, _, _, Machine.tick_eq u.machine⟩

/-- Three frames for a recorder that keeps two: of the last of them, presented after the digit was
drawn, and of what an instruction that clears the screen does to it. -/
theorem frames_recorded_of_overflow :
    let program : List UInt8 := [0xF0, 0x29, 0xD0, 0x05, 0x00, 0xE0]
    let s := ofRates ((Machine.fresh .silent .zeros).act (.load program)) .none 500 60 .info
    let t : Session := { s with renderer := .recorder (.new (some 2)) }
    let before : List Arrival := [.tick .timer, .tick .cycle, .tick .timer, .tick .cycle]
    let as := before ++ [.tick .timer]
    s.machine.WellFormed ∧ ∃ r f, (t.meetAll as).renderer = .recorder r ∧
      r.frames = 3 ∧ r.kept.length = 2 ∧ r.kept[1]? = some f ∧ f.HasSize 64 32 ∧
      [(0, 0), (1, 1), (3, 1), (4, 1)].map (fun (x, y) => f.byte x y) = [1, 0, 1, 0] ∧
      ∃ r', (t.meetAll (as ++ [.tick .cycle])).renderer = .recorder r' ∧ r'.kept = r.kept := by
  intro program s t before as
  have hm : s.machine.WellFormed := (Machine.fresh_wellFormed .silent .zeros).act (.load program)
  obtain ⟨r, hr, hframes, hpresented, hat, hsuffix, hkept, hlater, -⟩ :=
    frames_recorded s (some 2) as
  obtain ⟨hlast, -, hsize, hbyte⟩ := hat before [] rfl
  obtain ⟨r', hr', -, hsame⟩ := hlater [.tick .cycle]
  have hcount : r.frames = 3 := hframes
  rw [hcount] at hpresented hkept
  have htail : r.kept = (t.presented as).drop 1 := by
    rw [List.suffix_iff_eq_drop.1 hsuffix, hpresented, hkept]
    rfl
  refine ⟨hm, r, _, hr, hcount, hkept, ?_, hsize hm, ?_, r', hr', hsame (by decide)⟩
  · rw [htail, List.getElem?_drop]
    exact hlast
  · rw [List.map_congr_left fun p _ => hbyte p.1 p.2]
    decide +kernel

end Session

end ChipEight
