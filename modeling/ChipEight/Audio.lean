import ChipEight.Buzzer

/-! # The audio trigger

The machine signals when its tone starts and stops. A signal is lost, kept, or passed to a buzzer.
-/

namespace ChipEight

inductive Signal
  | start | stop
deriving DecidableEq, Repr

inductive Audio
  | silent
  /-- The signals so far, the latest first. -/
  | recording (signals : List Signal)
  | buzzer (b : Buzzer)

namespace Audio

def signal : Audio → Signal → Audio
  | .silent, _ => .silent
  | .recording signals, s => .recording (s :: signals)
  | .buzzer b, .start => .buzzer b.start
  | .buzzer b, .stop => .buzzer b.stop

end Audio

end ChipEight
