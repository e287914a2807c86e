import ChipEight.Audio
import Mathlib.Data.List.Induction
import Mathlib.Data.List.Infix

/-! # What a buzzer calls

A buzzer with one sound starts and stops it by turns (`Buzzer.Turns`), however often it is signalled
to do either: a start while the sound plays, and a stop while it does not, call nothing. So at most
one loop is heard at a time, and whether it is heard is up to the last signal alone
(`playing_signals`).
-/

namespace ChipEight

namespace Buzzer

/-- The sounds that are heard after a call, by their numbers, given those that were before it. -/
def Call.heard (playing : List Nat) : Call → List Nat
  | .play n => n :: playing
  | .stop n => playing.filter (· ≠ n)
  | .quit => []

/-- The sounds that are heard after these calls on a mixer that was silent. -/
def sounding (calls : List Call) : List Nat := calls.foldl Call.heard []

/-- The call that comes next when sound `n` is started and stopped by turns. -/
def turn (n : Nat) (made : List Call) : Call := if made.length % 2 = 0 then .play n else .stop n

/-- The calls start and stop sound `n` by turns, beginning with a start. -/
def Turns (n : Nat) (calls : List Call) : Prop :=
  ∀ i (h : i < calls.length), calls[i] = if i % 2 = 0 then .play n else .stop n

namespace Turns
variable {n : Nat} {calls made : List Call}

theorem nil (n : Nat) : Turns n [] := fun i h => absurd h (Nat.not_lt_zero i)

theorem snoc (h : Turns n calls) : Turns n (calls ++ [turn n calls]) := by
  intro i hi
  rw [List.getElem_append]
  split
  · exact h i _
  · have hlast : i = calls.length := by simp at hi; omega
    subst hlast
    simp [turn]

theorem of_prefix (h : Turns n calls) (hp : made <+: calls) : Turns n made := by
  intro i hi
  rw [hp.getElem hi]
  exact h i _

theorem sounding_eq (h : Turns n calls) :
    sounding calls = if calls.length % 2 = 0 then [] else [n] := by
  induction calls using List.reverseRecOn with
  | nil => rfl
  | append_singleton calls c ih =>
    have hc : c = turn n calls := by
      have hlast := h calls.length (by simp)
      rwa [List.getElem_concat_length rfl] at hlast
    have hbefore := ih (h.of_prefix (List.prefix_append calls [c]))
    rw [sounding, List.foldl_append, ← sounding, hbefore, hc, turn, List.length_append]
    rcases Nat.mod_two_eq_zero_or_one calls.length with heven | hodd
    · have hnext : (calls.length + 1) % 2 = 1 := by omega
      simp [heven, hnext, Call.heard]
    · have hnext : (calls.length + 1) % 2 = 0 := by omega
      simp [hodd, hnext, Call.heard]

/-- Two loops are never heard at once. -/
theorem length_sounding_le (h : Turns n calls) (hp : made <+: calls) :
    (sounding made).length ≤ 1 := by
  rw [(h.of_prefix hp).sounding_eq]
  split <;> simp

end Turns

def signal (b : Buzzer) : Signal → Buzzer
  | .start => b.start
  | .stop => b.stop

/-- From `b` to `b'` the buzzer has made the calls `made`, all of them to the sound that it has. -/
structure Played (tone : Sound) (b : Buzzer) (made : List Call) (b' : Buzzer) : Prop where
  sound : b'.sound = some tone
  calls : b'.calls = b.calls ++ made
  turns : Turns tone.serial made
  playing : b'.playing = true ↔ made.length % 2 = 1

variable {tone : Sound} {b b' : Buzzer} {made : List Call}

theorem played_nil (hsound : b.sound = some tone) (hquiet : b.playing = false) :
    Played tone b [] b where
  sound := hsound
  calls := (List.append_nil _).symm
  turns := .nil _
  playing := by simp [hquiet]

theorem start_eq (h : b.sound = some tone) :
    b.start = if b.playing then b
      else { b with playing := true, calls := b.calls ++ [.play tone.serial] } := by
  rw [start, h]

theorem stop_eq (h : b.sound = some tone) :
    b.stop = if b.playing then { b with playing := false, calls := b.calls ++ [.stop tone.serial] }
      else b := by
  rw [stop, h]

theorem playing_signal (h : b.sound = some tone) (s : Signal) :
    (b.signal s).playing = decide (s = .start) := by
  cases s with
  | start => cases hp : b.playing <;> simp [signal, start_eq h, hp]
  | stop => cases hp : b.playing <;> simp [signal, stop_eq h, hp]

namespace Played

theorem turn_eq (h : Played tone b made b') :
    turn tone.serial made = if b'.playing then .stop tone.serial else .play tone.serial := by
  cases hp : b'.playing with
  | true =>
    have hodd : made.length % 2 = 1 := h.playing.1 hp
    simp [turn, hodd]
  | false =>
    have heven : ¬ made.length % 2 = 1 := fun hodd => by simp [h.playing.2 hodd] at hp
    have : made.length % 2 = 0 := by omega
    simp [turn, this]

/-- The call that is next. -/
theorem next (h : Played tone b made b') :
    Played tone b (made ++ [turn tone.serial made])
      { b' with playing := !b'.playing, calls := b'.calls ++ [turn tone.serial made] } where
  sound := h.sound
  calls := by simp only [h.calls, List.append_assoc]
  turns := h.turns.snoc
  playing := by
    have hiff := h.playing
    rw [List.length_append, List.length_singleton]
    cases hp : b'.playing <;> simp [hp] at hiff ⊢ <;> omega

/-- A signal calls nothing, or what is next. -/
theorem signal (h : Played tone b made b') (s : Signal) :
    ∃ made', Played tone b made' (b'.signal s) := by
  have hturn := h.turn_eq
  have hnext := h.next
  cases s with
  | start =>
    simp only [Buzzer.signal, start_eq h.sound]
    cases hp : b'.playing with
    | true => exact ⟨made, h⟩
    | false =>
      rw [hp, if_neg Bool.false_ne_true] at hturn
      rw [hp, hturn] at hnext
      exact ⟨_, hnext⟩
  | stop =>
    simp only [Buzzer.signal, stop_eq h.sound]
    cases hp : b'.playing with
    | false => exact ⟨made, h⟩
    | true =>
      rw [hp, if_pos rfl] at hturn
      rw [hp, hturn] at hnext
      exact ⟨_, hnext⟩

theorem signals (h : Played tone b made b') (ss : List Signal) :
    ∃ made', Played tone b made' (ss.foldl Buzzer.signal b') := by
  induction ss generalizing b' made with
  | nil => exact ⟨made, h⟩
  | cons s ss ih =>
    obtain ⟨made', h'⟩ := h.signal s
    exact ih h'

end Played

/-- The last signal decides. -/
theorem playing_signals (h : Played tone b made b') {ss : List Signal} {s : Signal}
    (hs : ss.getLast? = some s) : (ss.foldl signal b').playing = decide (s = .start) := by
  obtain ⟨before, rfl⟩ := List.getLast?_eq_some_iff.1 hs
  obtain ⟨made', h'⟩ := h.signals before
  rw [List.foldl_append]
  exact playing_signal h'.sound s

/-- A buzzer that is closed has let go of its sound, and nothing is heard. -/
theorem close_spec (h : b.sound = some tone) :
    b.close.sound = none ∧ b.close.playing = false ∧ b.close.calls.getLast? = some .quit ∧
      sounding b.close.calls = [] := by
  have hstop : b.stop.sound = some tone ∧ b.stop.playing = false := by
    rw [stop_eq h]
    cases hp : b.playing with
    | true => exact ⟨h, rfl⟩
    | false => exact ⟨h, hp⟩
  have hclose : b.close = { b.stop with sound := none, calls := b.stop.calls ++ [.quit] } := by
    rw [close, hstop.1]
  rw [hclose]
  refine ⟨rfl, hstop.2, List.getLast?_concat, ?_⟩
  rw [sounding, List.foldl_append]
  rfl

end Buzzer

namespace Audio

theorem foldl_signal_buzzer (b : Buzzer) (ss : List Signal) :
    ss.foldl signal (.buzzer b) = .buzzer (ss.foldl Buzzer.signal b) := by
  induction ss generalizing b with
  | nil => rfl
  | cons s ss ih => cases s <;> exact ih _

theorem foldl_signal_recording (signals ss : List Signal) :
    ss.foldl signal (.recording signals) = .recording (ss.reverse ++ signals) := by
  induction ss generalizing signals with
  | nil => rfl
  | cons s ss ih =>
    rw [List.foldl_cons, signal, ih, List.reverse_cons, List.append_assoc, List.singleton_append]

end Audio

end ChipEight
