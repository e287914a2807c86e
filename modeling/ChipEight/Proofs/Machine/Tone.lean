import ChipEight.Desktop.Mixer
import ChipEight.Proofs.Buzzer
import ChipEight.Proofs.Machine.KeyWait

/-! # The tone follows the sound timer

Of what happens to a machine only a tick signals its audio, and the last signal of a tick tells
whether the sound timer runs on (`getLast?_tickSignals`). So after each tick a buzzer plays exactly
if the sound timer is above zero, whatever the program writes to that timer in between
(`tone_follows`).
-/

namespace ChipEight.Machine

open Buzzer (Played Turns sounding)

/-- The signal that fits a sound timer. -/
def due (sound : Int) : Signal := if 0 < sound then .start else .stop

theorem due_eq_start_iff {t : Int} : due t = .start ↔ 0 < t := by
  unfold due
  split <;> simp_all

variable (m : Machine)

theorem getLast?_tickSignals : m.tickSignals.getLast? = some (due m.tick.sound) := by
  rw [tick_eq]
  unfold tickSignals due countDown
  by_cases hrun : 0 < m.sound
  · rw [if_pos hrun, if_pos hrun]
    by_cases hlast : m.sound - 1 = 0
    · have hend : ¬ 0 < m.sound - 1 := by omega
      rw [if_pos hlast, if_neg hend]; rfl
    · have hon : 0 < m.sound - 1 := by omega
      rw [if_neg hlast, if_pos hon]; rfl
  · rw [if_neg hrun, if_neg hrun, if_neg hrun]; rfl

theorem audio_tick : m.tick.audio = m.tickSignals.foldl Audio.signal m.audio := by rw [tick_eq]

theorem audio_on_of_ne {e : Event} (he : e ≠ .tick) : (m.on e).audio = m.audio := by
  cases e with
  | step => exact m.audio_step
  | tick => exact absurd rfl he
  | key e => rfl

variable {m} {b : Buzzer} {tone : Buzzer.Sound} {es : List Event}

/-- The audio of the machine is the buzzer that was `b` at first, with the calls that it made
since. -/
def Sounds (tone : Buzzer.Sound) (b : Buzzer) (m : Machine) : Prop :=
  ∃ b' made, m.audio = .buzzer b' ∧ Played tone b made b'

theorem Sounds.tick (h : m.Sounds tone b) :
    ∃ b' made, m.tick.audio = .buzzer b' ∧ Played tone b made b' ∧
      (b'.playing = true ↔ 0 < m.tick.sound) := by
  obtain ⟨b', made, haudio, hplayed⟩ := h
  obtain ⟨made', hplayed'⟩ := hplayed.signals m.tickSignals
  refine ⟨_, made', ?_, hplayed', ?_⟩
  · rw [audio_tick, haudio, Audio.foldl_signal_buzzer]
  · rw [Buzzer.playing_signals hplayed m.getLast?_tickSignals, decide_eq_true_iff, due_eq_start_iff]

theorem Sounds.on (h : m.Sounds tone b) (e : Event) : (m.on e).Sounds tone b := by
  by_cases he : e = .tick
  · subst he
    obtain ⟨b', made, haudio, hplayed, -⟩ := h.tick
    exact ⟨b', made, haudio, hplayed⟩
  · obtain ⟨b', made, haudio, hplayed⟩ := h
    exact ⟨b', made, (m.audio_on_of_ne he).trans haudio, hplayed⟩

theorem Sounds.run (h : m.Sounds tone b) (es : List Event) : (m.run es).Sounds tone b :=
  List.foldlRecOn (motive := Sounds tone b) es Machine.on h fun _ hn e _ => hn.on e

/-- A recording goes on being one, with what was recorded so far at its end. -/
theorem recording_run {signals : List Signal} (h : m.audio = .recording signals) (es : List Event) :
    ∃ recorded, (m.run es).audio = .recording recorded := by
  refine List.foldlRecOn (motive := fun n : Machine => ∃ recorded, n.audio = .recording recorded)
    es on ⟨signals, h⟩ ?_
  rintro n ⟨recorded, hn⟩ e -
  by_cases he : e = .tick
  · subst he
    refine ⟨n.tickSignals.reverse ++ recorded, ?_⟩
    show n.tick.audio = _
    rw [audio_tick, hn, Audio.foldl_signal_recording]
  · exact ⟨recorded, (n.audio_on_of_ne he).trans hn⟩

/-- An open buzzer that is quiet at first makes calls to its sound only, by turns, so that at most
one loop is heard, and after each tick it plays exactly if the sound timer is above zero. No step
signals anything. What a recording gets last at a tick is a start exactly if the sound timer is then
above zero. -/
theorem tone_follows (haudio : m.audio = .buzzer b) (hsound : b.sound = some tone)
    (hquiet : b.playing = false) (es : List Event) :
    (∃ b' made, (m.run es).audio = .buzzer b' ∧ b'.sound = some tone ∧ b'.calls = b.calls ++ made ∧
      Turns tone.serial made ∧ ∀ p, p <+: made → (sounding p).length ≤ 1) ∧
    (∃ b', (m.run (es ++ [.tick])).audio = .buzzer b' ∧
      (b'.playing = true ↔ 0 < (m.run (es ++ [.tick])).sound)) ∧
    (∀ n : Machine, n.step.1.audio = n.audio) ∧
    ∀ (n : Machine) (signals : List Signal), n.audio = .recording signals →
      ∃ before made, (n.run es).audio = .recording before ∧
        (n.run (es ++ [.tick])).audio = .recording (made ++ before) ∧
        made.head? = some (if 0 < (n.run (es ++ [.tick])).sound then .start else .stop) := by
  have hsounds : (m.run es).Sounds tone b :=
    Sounds.run ⟨b, [], haudio, Buzzer.played_nil hsound hquiet⟩ es
  have hlast : ∀ n : Machine, n.run (es ++ [.tick]) = (n.run es).tick :=
    fun n => n.run_append es [.tick]
  refine ⟨?_, ?_, audio_step, fun n signals hn => ?_⟩
  · obtain ⟨b', made, haudio', hplayed⟩ := hsounds
    exact ⟨b', made, haudio', hplayed.sound, hplayed.calls, hplayed.turns,
      fun p hp => hplayed.turns.length_sounding_le hp⟩
  · obtain ⟨b', made, haudio', -, hplaying⟩ := hsounds.tick
    rw [hlast]
    exact ⟨b', haudio', hplaying⟩
  · obtain ⟨before, hbefore⟩ := recording_run hn es
    refine ⟨before, (n.run es).tickSignals.reverse, hbefore, ?_, ?_⟩
    · rw [hlast, audio_tick, hbefore, Audio.foldl_signal_recording]
    · rw [List.head?_reverse, getLast?_tickSignals, hlast]
      rfl

/-- The program starts a tone, stops it in the middle and starts it again. -/
theorem tone_follows_of_rewritten :
    let b := (({ volume := .whole 1 } : Buzzer).openOn (Desktop.mixer 1)).1
    let tone : Buzzer.Sound := ⟨0, ⟨100, 20, 32767, 1⟩⟩
    let m := (fresh (.buzzer b) .zeros).act
      (.load [0x60, 0x03, 0xF0, 0x18, 0xF1, 0x18, 0xF0, 0x18])
    let es : List Event := [.step, .step, .tick, .step, .key ⟨3, true⟩, .tick, .step]
    let fs : List Event := es ++ [.tick, .tick]
    m.audio = .buzzer b ∧ b.sound = some tone ∧ b.playing = false ∧
      (∃ b', (m.run (es ++ [.tick])).audio = .buzzer b' ∧ b'.playing = true ∧
        b'.calls = [.play 0, .stop 0, .play 0]) ∧
      (∃ b', (m.run (fs ++ [.tick])).audio = .buzzer b' ∧ ¬ b'.playing = true) := by
  intro b tone m es fs
  have hsound : b.sound = some tone := by decide +kernel
  obtain ⟨-, ⟨b', haudio, hon⟩, -, -⟩ := tone_follows (m := m) rfl hsound rfl es
  obtain ⟨-, ⟨c', haudio', hoff⟩, -, -⟩ := tone_follows (m := m) rfl hsound rfl fs
  have hmid : (match (m.run (es ++ [.tick])).audio with | .buzzer c => c.calls | _ => []) =
      [.play 0, .stop 0, .play 0] ∧ 0 < (m.run (es ++ [.tick])).sound := by decide +kernel
  rw [haudio] at hmid
  have hend : ¬ 0 < (m.run (fs ++ [.tick])).sound := by decide +kernel
  exact ⟨rfl, hsound, rfl, ⟨b', haudio, hon.2 hmid.2, hmid.1⟩, c', haudio',
    fun h => hend (hoff.1 h)⟩

end ChipEight.Machine
