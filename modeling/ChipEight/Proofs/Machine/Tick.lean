import ChipEight.Machine.Timers

/-! # What a tick does

A tick counts both timers down and sends its signals to the audio (`tick_eq`); it touches nothing
else.
-/

namespace ChipEight

/-- A timer after a tick. -/
def countDown (t : Int) : Int := if 0 < t then t - 1 else t

theorem countDown_eq_max {t : Int} (ht : 0 ≤ t) : countDown t = max 0 (t - 1) := by
  unfold countDown
  split <;> omega

namespace Machine

variable (m : Machine)

/-- The signals of the next tick, in order. -/
def tickSignals : List Signal :=
  if 0 < m.sound then
    if m.sound - 1 = 0 then [.start, .stop] else [.start]
  else [.stop]

theorem tick_eq :
    m.tick = { m with
      delay := countDown m.delay
      sound := countDown m.sound
      audio := m.tickSignals.foldl Audio.signal m.audio } := by
  have hsame : m.tickDelay.sound = m.sound := rfl
  unfold tick tickSound tickSignals
  rw [hsame]
  by_cases hrun : 0 < m.sound
  · have hsound : countDown m.sound = m.sound - 1 := if_pos hrun
    rw [if_pos hrun, if_pos hrun, hsound]
    dsimp only
    split <;> rfl
  · have hsound : countDown m.sound = m.sound := if_neg hrun
    rw [if_neg hrun, if_neg hrun, hsound]
    rfl

end Machine

end ChipEight
