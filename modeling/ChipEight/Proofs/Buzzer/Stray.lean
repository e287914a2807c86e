import ChipEight.Desktop.Mixer
import ChipEight.Proofs.Buzzer

/-! # Sounds that a buzzer has lost

A buzzer starts and stops the sound that it has. Opened while it plays, it has another sound, and
the first plays on as a stray: no stop concerns it any more, and only closing the buzzer ends it. So
a buzzer controls what is heard as long as it is not opened while it plays, and no longer
(`controlled_iff`); what is heard after a stop are the sounds that were left behind in this way
(`stray_live`).
-/

namespace ChipEight.Buzzer

/-- What a caller may ask of a buzzer. -/
inductive Request
  | openOn (m : Mixer)
  | start
  | stop
  | close

def obey (b : Buzzer) : Request → Buzzer
  | .openOn m => (b.openOn m).1
  | .start => b.start
  | .stop => b.stop
  | .close => b.close

def live (b : Buzzer) (rs : List Request) : Buzzer := rs.foldl obey b

/-- A buzzer that was not opened yet. -/
def unopened (frequency : Int) (volume : Volume) (sampleRate : Int) : Buzzer :=
  { frequency, volume, sampleRate }

/-- The number of the sound that the buzzer has. -/
def current (b : Buzzer) : Option Nat := b.sound.map Sound.serial

/-- What is heard is the sound that the buzzer has if it says that it plays, and nothing if it does
not. -/
def Controlled (b : Buzzer) : Prop :=
  ∀ n, n ∈ sounding b.calls ↔ b.playing = true ∧ b.current = some n

/-- Sound `n` is heard and is not the one that the buzzer has. -/
def Stray (b : Buzzer) (n : Nat) : Prop := n ∈ sounding b.calls ∧ b.current ≠ some n

/-- The request gives the buzzer another sound while `n`, the one that it has, is heard. -/
def Abandons (b : Buzzer) (r : Request) (n : Nat) : Prop :=
  ∃ m, r = .openOn m ∧ (b.openOn m).2 = none ∧ b.current = some n ∧ n ∈ sounding b.calls

/-- Sound `n` was abandoned in the course of the requests, and the buzzer was not closed since. -/
def LeftBehind (b : Buzzer) (rs : List Request) (n : Nat) : Prop :=
  ∃ before r after, rs = before ++ r :: after ∧ .close ∉ after ∧ (b.live before).Abandons r n

/-- Sounds are numbered in the order in which they are made; the one that the buzzer has is the
latest, and is heard only if the buzzer says so. -/
structure Kept (b : Buzzer) : Prop where
  latest : ∀ n, b.current = some n → n + 1 = b.waves.length
  made : ∀ n ∈ sounding b.calls, n < b.waves.length
  playing : ∀ n, b.current = some n → n ∈ sounding b.calls → b.playing = true
  silent : b.sound = none → sounding b.calls = [] ∧ b.playing = false

/-- The ways in which a request is served. -/
inductive Served (b : Buzzer) : Request → Buzzer → Prop
  | refused {m : Mixer} (error : (b.openOn m).2 ≠ none) : Served b (.openOn m) b
  | opened {m : Mixer} (wave : Wave) (ok : (b.openOn m).2 = none) :
    Served b (.openOn m) { b with sound := some ⟨b.waves.length, wave⟩, waves := b.waves ++ [wave] }
  | unstarted (h : b.sound = none ∨ b.playing = true) : Served b .start b
  | started {tone : Sound} (sound : b.sound = some tone) (quiet : b.playing = false) :
    Served b .start { b with playing := true, calls := b.calls ++ [.play tone.serial] }
  | unstopped (quiet : b.playing = false) : Served b .stop b
  | stopped {tone : Sound} (sound : b.sound = some tone) (playing : b.playing = true) :
    Served b .stop { b with playing := false, calls := b.calls ++ [.stop tone.serial] }
  | unclosed (none : b.sound = none) : Served b .close b
  | closed {tone : Sound} (calls : List Call) (sound : b.sound = some tone) :
    Served b .close { b with sound := none, playing := false, calls := calls ++ [.quit] }

section
variable {calls : List Call} {k n : Nat}

theorem sounding_snoc (calls : List Call) (c : Call) :
    sounding (calls ++ [c]) = c.heard (sounding calls) := by
  rw [sounding, List.foldl_append]; rfl

theorem mem_sounding_play : n ∈ sounding (calls ++ [.play k]) ↔ n = k ∨ n ∈ sounding calls := by
  rw [sounding_snoc, Call.heard, List.mem_cons]

theorem mem_sounding_stop : n ∈ sounding (calls ++ [.stop k]) ↔ n ∈ sounding calls ∧ n ≠ k := by
  rw [sounding_snoc, Call.heard, List.mem_filter, decide_eq_true_iff]

theorem notMem_sounding_quit : n ∉ sounding (calls ++ [.quit]) := by
  rw [sounding_snoc, Call.heard]; exact List.not_mem_nil

end

section
variable {b b' : Buzzer} {r : Request} {n : Nat}

theorem openOn_served (b : Buzzer) (m : Mixer) : b.Served (.openOn m) (b.openOn m).1 := by
  have hrefused : ∀ e, b.openOn m = (b, some e) → b.Served (.openOn m) (b.openOn m).1 := by
    intro e he
    rw [he]
    exact .refused (by rw [he]; nofun)
  cases hgrant : m.grant b.sampleRate with
  | error e =>
    cases e with
    | refused reason => exact hrefused (.unavailable reason) (by simp only [openOn, hgrant])
    | value text => exact hrefused (.mixer (.value text)) (by simp only [openOn, hgrant])
    | other kind => exact hrefused (.mixer (.other kind)) (by simp only [openOn, hgrant])
  | ok granted =>
    obtain ⟨rate, channels⟩ := granted
    cases htone : b.tone m rate channels with
    | error e => exact hrefused e (by simp only [openOn, hgrant, htone])
    | ok wave =>
      have hopen : b.openOn m =
          ({ b with sound := some ⟨b.waves.length, wave⟩, waves := b.waves ++ [wave] }, none) := by
        simp only [openOn, hgrant, htone]
      rw [hopen]
      exact .opened wave (by rw [hopen])

theorem start_served (b : Buzzer) : b.Served .start b.start := by
  cases hs : b.sound with
  | none =>
    have hkeep : b.start = b := by rw [start, hs]
    rw [hkeep]; exact .unstarted (.inl hs)
  | some tone =>
    rw [start_eq hs]
    split
    next hp => exact .unstarted (.inr hp)
    next hp => exact .started hs (Bool.eq_false_iff.2 hp)

theorem stop_of_silent (hnone : b.sound = none) (hquiet : b.playing = false) : b.stop = b := by
  obtain ⟨_, _, _, _, _, _, _⟩ := b
  cases hnone
  cases hquiet
  rfl

theorem stop_served (hsilent : b.sound = none → b.playing = false) : b.Served .stop b.stop := by
  cases hs : b.sound with
  | none =>
    rw [stop_of_silent hs (hsilent hs)]; exact .unstopped (hsilent hs)
  | some tone =>
    rw [stop_eq hs]
    split
    next hp => exact .stopped hs hp
    next hp => exact .unstopped (Bool.eq_false_iff.2 hp)

theorem close_served (hsilent : b.sound = none → b.playing = false) : b.Served .close b.close := by
  cases hs : b.sound with
  | none =>
    have hkeep : b.close = b := by rw [close, stop_of_silent hs (hsilent hs), hs]
    rw [hkeep]; exact .unclosed hs
  | some tone =>
    have hclose : b.close =
        { b with sound := none, playing := false, calls := b.stop.calls ++ [.quit] } := by
      rw [close, stop_eq hs]
      cases hp : b.playing <;> simp [hs, hp]
    rw [hclose]; exact .closed _ hs

theorem Kept.obey_served (h : b.Kept) (r : Request) : b.Served r (b.obey r) := by
  have hsilent : b.sound = none → b.playing = false := fun hs => (h.silent hs).2
  cases r with
  | openOn m => exact b.openOn_served m
  | start => exact b.start_served
  | stop => exact stop_served hsilent
  | close => exact close_served hsilent

theorem current_eq {tone : Sound} (h : b.sound = some tone) : b.current = some tone.serial := by
  rw [current, h]; rfl

theorem unopened_kept (frequency : Int) (volume : Volume) (sampleRate : Int) :
    (unopened frequency volume sampleRate).Kept :=
  ⟨nofun, nofun, nofun, fun _ => ⟨rfl, rfl⟩⟩

theorem Kept.served (h : b.Kept) (hr : b.Served r b') : b'.Kept := by
  cases hr with
  | refused | unstarted | unstopped | unclosed => exact h
  | opened wave =>
    have hlength : (b.waves ++ [wave]).length = b.waves.length + 1 := List.length_append
    refine ⟨fun n hn => ?_, fun n hn => ?_, fun n hn hheard => ?_, nofun⟩
    · cases hn; exact hlength.symm
    · rw [hlength]; exact Nat.lt_succ_of_lt (h.made n hn)
    · cases hn; exact absurd (h.made _ hheard) (Nat.lt_irrefl _)
  | started sound =>
    refine ⟨h.latest, fun n hn => ?_, fun _ _ _ => rfl, fun hnone => ?_⟩
    · rcases mem_sounding_play.1 hn with rfl | hn
      · exact Nat.lt_of_succ_le (Nat.le_of_eq (h.latest _ (current_eq sound)))
      · exact h.made n hn
    · rw [sound] at hnone; cases hnone
  | stopped sound =>
    refine ⟨h.latest, fun n hn => h.made n (mem_sounding_stop.1 hn).1, fun n hn hheard => ?_,
      fun hnone => ?_⟩
    · cases (current_eq sound).symm.trans hn
      exact absurd rfl (mem_sounding_stop.1 hheard).2
    · rw [sound] at hnone; cases hnone
  | closed =>
    exact ⟨nofun, fun n hn => absurd hn notMem_sounding_quit, nofun,
      fun _ => ⟨sounding_snoc _ _, rfl⟩⟩

theorem abandons_iff {m : Mixer} (ok : (b.openOn m).2 = none) :
    b.Abandons (.openOn m) n ↔ b.current = some n ∧ n ∈ sounding b.calls :=
  ⟨fun ⟨_, _, _, h⟩ => h, fun h => ⟨m, rfl, ok, h⟩⟩

theorem not_abandons_of_error {m : Mixer} (error : (b.openOn m).2 ≠ none) :
    ¬ b.Abandons (.openOn m) n := by
  rintro ⟨_, ⟨⟩, ok, -⟩
  exact error ok

theorem not_abandons (hr : ∀ m, r ≠ .openOn m) : ¬ b.Abandons r n := fun ⟨m, hm, _⟩ => hr m hm

/-- A sound goes astray when it is abandoned, and is astray until the buzzer is closed. -/
theorem Kept.stray_served (h : b.Kept) (hr : b.Served r b') :
    b'.Stray n ↔ b.Stray n ∧ r ≠ .close ∨ b.Abandons r n := by
  have hsame : r ≠ .close → ¬ b.Abandons r n →
      (b.Stray n ∧ r ≠ .close ∨ b.Abandons r n ↔ b.Stray n) :=
    fun hclose hno => by simp only [hclose, hno, ne_eq, not_false_eq_true, and_true, or_false]
  have hgone : r = .close → (b.Stray n ∧ r ≠ .close ∨ b.Abandons r n ↔ False) := by
    rintro rfl
    have hno : ¬ b.Abandons .close n := not_abandons (by simp)
    simp only [hno, ne_eq, not_true, and_false, or_false]
  cases hr with
  | refused error => rw [hsame nofun (not_abandons_of_error error)]
  | unstarted | unstopped => rw [hsame nofun (not_abandons (by simp))]
  | opened wave ok =>
    rw [abandons_iff ok]
    constructor
    · rintro ⟨hn, -⟩
      by_cases hcurrent : b.current = some n
      · exact .inr ⟨hcurrent, hn⟩
      · exact .inl ⟨⟨hn, hcurrent⟩, nofun⟩
    · have hnew : ∀ n ∈ sounding b.calls, some b.waves.length ≠ some n := fun n hn heq =>
        Nat.lt_irrefl _ (Option.some.inj heq ▸ h.made n hn)
      rintro (⟨⟨hn, -⟩, -⟩ | ⟨-, hn⟩) <;> exact ⟨hn, hnew n hn⟩
  | started sound =>
    rw [hsame nofun (not_abandons (by simp))]
    constructor
    · rintro ⟨hn, hne⟩
      refine ⟨(mem_sounding_play.1 hn).resolve_left ?_, hne⟩
      rintro rfl
      exact hne (current_eq sound)
    · exact fun ⟨hn, hne⟩ => ⟨mem_sounding_play.2 (.inr hn), hne⟩
  | stopped sound =>
    rw [hsame nofun (not_abandons (by simp))]
    constructor
    · exact fun ⟨hn, hne⟩ => ⟨(mem_sounding_stop.1 hn).1, hne⟩
    · rintro ⟨hn, hne⟩
      refine ⟨mem_sounding_stop.2 ⟨hn, ?_⟩, hne⟩
      rintro rfl
      exact hne (current_eq sound)
  | unclosed none =>
    rw [hgone rfl, iff_false]
    rintro ⟨hn, -⟩
    rw [(h.silent none).1] at hn
    cases hn
  | closed =>
    rw [hgone rfl, iff_false]
    exact fun ⟨hn, _⟩ => notMem_sounding_quit hn

/-- Control is kept unless another sound is made while the buzzer says that it plays. -/
theorem Controlled.served (h : b.Controlled) (hr : b.Served r b')
    (hreopened : ∀ m, r = .openOn m → b.playing = true → (b.openOn m).2 ≠ none) :
    b'.Controlled := by
  cases hr with
  | refused | unstarted | unstopped | unclosed => exact h
  | @opened m wave ok =>
    have hquiet : b.playing ≠ true := fun hp => hreopened m rfl hp ok
    exact fun n => ⟨fun hn => absurd ((h n).1 hn).1 hquiet, fun ⟨hp, _⟩ => absurd hp hquiet⟩
  | started sound quiet =>
    have hcurrent := current_eq sound
    refine fun n => ⟨fun hn => ⟨rfl, ?_⟩, fun ⟨_, hn⟩ => mem_sounding_play.2 (.inl ?_)⟩
    · rcases mem_sounding_play.1 hn with rfl | hn
      · exact hcurrent
      · exact absurd ((h n).1 hn).1 (Bool.eq_false_iff.1 quiet)
    · exact (Option.some.inj (hcurrent.symm.trans hn)).symm
  | stopped sound =>
    have hcurrent := current_eq sound
    refine fun n => ⟨fun hn => ?_, nofun⟩
    obtain ⟨hbefore, hne⟩ := mem_sounding_stop.1 hn
    have hn := ((h n).1 hbefore).2
    exact absurd (Option.some.inj (hcurrent.symm.trans hn)).symm hne
  | closed => exact fun n => ⟨fun hn => absurd hn notMem_sounding_quit, nofun⟩

/-- A sound that is made while the buzzer says that it plays is not heard. -/
theorem Kept.not_controlled_of_opened (h : b.Kept) {m : Mixer} (hr : b.Served (.openOn m) b')
    (hplaying : b.playing = true) (ok : (b.openOn m).2 = none) : ¬ b'.Controlled := by
  cases hr with
  | refused error => exact absurd ok error
  | opened => exact fun hc => Nat.lt_irrefl _ (h.made _ ((hc _).2 ⟨hplaying, rfl⟩))

end

section
variable {b b' : Buzzer} {rs : List Request} {r : Request} {n : Nat}

theorem live_snoc (b : Buzzer) (rs : List Request) (r : Request) :
    b.live (rs ++ [r]) = (b.live rs).obey r := by
  rw [live, List.foldl_append]; rfl

theorem Kept.live (h : b.Kept) (rs : List Request) : (b.live rs).Kept :=
  List.foldlRecOn (motive := Kept) rs _ h fun _ hb r _ => hb.served (hb.obey_served r)

theorem leftBehind_snoc :
    b.LeftBehind (rs ++ [r]) n ↔ b.LeftBehind rs n ∧ r ≠ .close ∨ (b.live rs).Abandons r n := by
  constructor
  · rintro ⟨before, a, after, heq, hclose, hn⟩
    rcases List.eq_nil_or_concat' after with rfl | ⟨after, c, rfl⟩
    · obtain ⟨rfl, ha⟩ := List.append_inj' heq rfl
      cases ha
      exact .inr hn
    · have hlast : before ++ a :: (after ++ [c]) = (before ++ a :: after) ++ [c] := by simp
      obtain ⟨rfl, hc⟩ := List.append_inj' (heq.trans hlast) rfl
      cases hc
      have hnot := not_or.1 (mt List.mem_append.2 hclose)
      exact .inl ⟨⟨before, a, after, rfl, hnot.1, hn⟩, fun hr =>
        hnot.2 (List.mem_singleton.2 hr.symm)⟩
  · rintro (⟨⟨before, a, after, rfl, hclose, hn⟩, hr⟩ | hn)
    · refine ⟨before, a, after ++ [r], by simp, ?_, hn⟩
      simp [hclose, Ne.symm hr]
    · exact ⟨rs, r, [], rfl, List.not_mem_nil, hn⟩

/-- The strays are the sounds that were left behind. -/
theorem stray_live (h : b.Kept) (hnone : ∀ n, ¬ b.Stray n) (rs : List Request) (n : Nat) :
    (b.live rs).Stray n ↔ b.LeftBehind rs n := by
  induction rs using List.reverseRecOn with
  | nil =>
    refine ⟨fun hn => absurd hn (hnone n), ?_⟩
    rintro ⟨before, r, after, heq, -⟩
    exact absurd heq.symm (List.append_ne_nil_of_right_ne_nil before (List.cons_ne_nil r after))
  | append_singleton rs r ih =>
    have hkept := h.live rs
    rw [live_snoc, hkept.stray_served (hkept.obey_served r), ih, leftBehind_snoc]

theorem controlled_live (h : b.Kept) (hc : b.Controlled)
    (hreopened : ∀ p m, p ++ [.openOn m] <+: rs → (b.live p).playing = true →
      ((b.live p).openOn m).2 ≠ none) :
    (b.live rs).Controlled := by
  induction rs using List.reverseRecOn with
  | nil => exact hc
  | append_singleton rs r ih =>
    have hbefore := ih fun p m hp => hreopened p m (hp.trans (List.prefix_append rs [r]))
    rw [live_snoc]
    refine hbefore.served ((h.live rs).obey_served r) fun m hm => hreopened rs m ?_
    rw [hm]

theorem Kept.mem_sounding_of_quiet (h : b.Kept) (hquiet : b.playing = false) :
    n ∈ sounding b.calls ↔ b.Stray n := by
  refine ⟨fun hn => ⟨hn, fun hcurrent => ?_⟩, fun hn => hn.1⟩
  rw [h.playing n hcurrent hn] at hquiet
  cases hquiet

theorem Served.playing_stop (hr : b.Served .stop b') : b'.playing = false := by
  cases hr with
  | unstopped quiet => exact quiet
  | stopped => rfl

theorem Kept.sounding_close (h : b.Kept) (hr : b.Served .close b') : sounding b'.calls = [] := by
  cases hr with
  | unclosed none => exact (h.silent none).1
  | closed => exact sounding_snoc _ _

end

/-- A buzzer controls what is heard exactly as long as it is not opened while it says that it plays.
Whatever it is asked, what is heard besides the sound that it has are the sounds that it left
behind. A stop leaves these, and closing the buzzer ends all of them. -/
theorem controlled_iff (frequency : Int) (volume : Volume) (sampleRate : Int) (rs : List Request) :
    let b := unopened frequency volume sampleRate
    ((∀ p, p <+: rs → (b.live p).Controlled) ↔
      ∀ p m, p ++ [.openOn m] <+: rs → (b.live p).playing = true → ((b.live p).openOn m).2 ≠ none) ∧
    (∀ n ∈ sounding (b.live rs).calls,
      (b.live rs).playing = true ∧ (b.live rs).current = some n ∨ b.LeftBehind rs n) ∧
    (∀ n, n ∈ sounding (b.live (rs ++ [.stop])).calls ↔ b.LeftBehind rs n) ∧
    sounding (b.live (rs ++ [.close])).calls = [] := by
  intro b
  have hb : b.Kept := unopened_kept frequency volume sampleRate
  have hnone : ∀ n, ¬ b.Stray n := fun n hn => List.not_mem_nil hn.1
  have hcontrolled : b.Controlled := fun n => ⟨nofun, nofun⟩
  refine ⟨⟨fun hall p m hp hplaying ok => ?_, fun hreopened p hp => ?_⟩, fun n hn => ?_,
    fun n => ?_, ?_⟩
  · have hkept := hb.live p
    have hopened := hall _ hp
    rw [live_snoc] at hopened
    exact hkept.not_controlled_of_opened (hkept.obey_served (.openOn m)) hplaying ok hopened
  · exact controlled_live hb hcontrolled fun q m hq => hreopened q m (hq.trans hp)
  · by_cases hcurrent : (b.live rs).current = some n
    · exact .inl ⟨(hb.live rs).playing n hcurrent hn, hcurrent⟩
    · exact .inr ((stray_live hb hnone rs n).1 ⟨hn, hcurrent⟩)
  · have hquiet : (b.live (rs ++ [.stop])).playing = false := by
      rw [live_snoc]; exact ((hb.live rs).obey_served .stop).playing_stop
    rw [(hb.live _).mem_sounding_of_quiet hquiet, stray_live hb hnone, leftBehind_snoc]
    have hno : ¬ (b.live rs).Abandons .stop n := not_abandons (by simp)
    simp only [hno, ne_eq, reduceCtorEq, not_false_eq_true, and_true, or_false]
  · rw [live_snoc]; exact (hb.live rs).sounding_close ((hb.live rs).obey_served .close)

/-- A buzzer whose mixer is out of reach while it plays keeps control. Opened then, it loses the
sound that plays: the next stop does not end it. -/
theorem controlled_iff_of_reopened :
    let b := unopened 441 (.whole 1) 44100
    let busy : List Request := [.openOn (Desktop.mixer 1), .start, .openOn (.unavailable "busy")]
    let reopened := busy ++ [.openOn (Desktop.mixer 2)]
    (∀ p, p <+: busy → (b.live p).Controlled) ∧ ¬ (∀ p, p <+: reopened → (b.live p).Controlled) ∧
      b.LeftBehind reopened 0 ∧ sounding (b.live (reopened ++ [.stop])).calls = [0] ∧
      sounding (b.live (reopened ++ [.close])).calls = [] := by
  intro b busy reopened
  have hplaying : (b.live busy).playing = true := by decide +kernel
  have hopens : ((b.live busy).openOn (Desktop.mixer 2)).2 = none := by decide +kernel
  have hheard : sounding (b.live (reopened ++ [.stop])).calls = [0] := by decide +kernel
  obtain ⟨hbusy, -⟩ := controlled_iff 441 (.whole 1) 44100 busy
  obtain ⟨hreopened, -, hstop, hclose⟩ := controlled_iff 441 (.whole 1) 44100 reopened
  have hmem : 0 ∈ sounding (b.live (reopened ++ [.stop])).calls := by
    rw [hheard]; exact List.mem_singleton_self 0
  have hloses : ¬ ∀ p, p <+: reopened → (b.live p).Controlled := fun hall =>
    hreopened.1 hall busy (Desktop.mixer 2) (List.prefix_refl _) hplaying hopens
  refine ⟨hbusy.2 ?_, hloses, (hstop 0).1 hmem, hheard, hclose⟩
  rintro p m ⟨rest, heq⟩ hp
  rcases p with _ | ⟨_, _ | ⟨_, _ | ⟨_, p⟩⟩⟩
  · cases hp
  · simp [busy] at heq
  · simp only [busy, List.cons_append, List.nil_append, List.cons.injEq, Request.openOn.injEq]
      at heq
    obtain ⟨-, -, rfl, -⟩ := heq
    nofun
  · simp [busy] at heq

/-- A sound that plays when the buzzer is opened again is not ended by a stop. -/
theorem not_always_controlled :
    ¬ ∀ (frequency : Int) (volume : Volume) (sampleRate : Int) (rs : List Request),
      ((unopened frequency volume sampleRate).live rs).Controlled := by
  intro h
  have hheard : 0 ∈ sounding ((unopened 441 (.whole 1) 44100).live
      [.openOn (Desktop.mixer 1), .start, .openOn (Desktop.mixer 1), .stop]).calls := by
    decide +kernel
  have hquiet : ((unopened 441 (.whole 1) 44100).live
      [.openOn (Desktop.mixer 1), .start, .openOn (Desktop.mixer 1), .stop]).playing = false := by
    decide +kernel
  exact absurd ((h _ _ _ _ 0).1 hheard).1 (Bool.eq_false_iff.1 hquiet)

end ChipEight.Buzzer
