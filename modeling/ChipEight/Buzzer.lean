import ChipEight.Toolkit
import ChipEight.Wave

/-! # The buzzer

A looping tone on a mixer. Opening the buzzer makes a sound, which `start` sets off and `stop` ends;
closing it gives the mixer back. Opening it again makes another sound in place of the first and does
not touch the one that plays.

`waves` are the waves of the sounds made so far, and `calls` the calls that reached the mixer so
far, each with the number of its sound.
-/

namespace ChipEight

/-- What plays sounds. -/
structure Mixer where
  /-- Opens the mixer, asked for a sample rate. The rate and the channels that it has then. -/
  grant : Int → Except Toolkit.Error (Int × Nat)
  /-- Makes a sound of a wave. The wave that it has. -/
  make : Wave → Except Toolkit.Error Wave

/-- A mixer that cannot be opened, for the reason given. -/
def Mixer.unavailable (reason : String) : Mixer where
  grant _ := .error (.refused reason)
  make := .ok

namespace Buzzer

structure Sound where
  serial : Nat
  wave : Wave
deriving DecidableEq

inductive Call
  | play (serial : Nat)
  | stop (serial : Nat)
  | quit
deriving DecidableEq

inductive OpenError
  | unavailable (reason : String)
  | zeroFrequency
  /-- A volume that is not finite. -/
  | amplitude
  /-- An error of the mixer that is not its word for being out of reach. -/
  | mixer (e : Toolkit.Error)
deriving DecidableEq, Repr

def OpenError.message? : OpenError → Option String
  | .unavailable reason => some ("cannot open audio device: " ++ reason)
  | .mixer e => e.message?
  | _ => none

end Buzzer

structure Buzzer where
  frequency : Int := 441
  volume : Volume := .usual
  sampleRate : Int := 44100
  playing : Bool := false
  sound : Option Buzzer.Sound := none
  waves : List Wave := []
  calls : List Buzzer.Call := []

namespace Buzzer

/-- The samples in a period of the tone at a sample rate. -/
def period (b : Buzzer) (rate : Int) : Nat := max 2 (rate.fdiv b.frequency).toNat

/-- The periods in a tone. -/
def periods : Nat := 20

/-- The sound that the buzzer makes on an open mixer, which has this rate and these channels. -/
def tone (b : Buzzer) (m : Mixer) (rate : Int) (channels : Nat) : Except OpenError Wave :=
  if b.frequency = 0 then .error .zeroFrequency
  else
    match b.volume.amplitude? with
    | none => .error .amplitude
    | some amplitude =>
      (m.make ⟨b.period rate, periods, amplitude, channels⟩).mapError .mixer

/-- The buzzer afterwards, and what was wrong. A buzzer that cannot be opened stays as it is. -/
def openOn (b : Buzzer) (m : Mixer) : Buzzer × Option OpenError :=
  match m.grant b.sampleRate with
  | .error (.refused reason) => (b, some (.unavailable reason))
  | .error e => (b, some (.mixer e))
  | .ok (rate, channels) =>
    match b.tone m rate channels with
    | .error e => (b, some e)
    | .ok wave =>
      ({ b with sound := some ⟨b.waves.length, wave⟩, waves := b.waves ++ [wave] }, none)

def start (b : Buzzer) : Buzzer :=
  match b.sound with
  | none => b
  | some s =>
    if b.playing then b else { b with playing := true, calls := b.calls ++ [.play s.serial] }

def stop (b : Buzzer) : Buzzer :=
  match b.sound with
  | none => { b with playing := false }
  | some s =>
    if b.playing then { b with playing := false, calls := b.calls ++ [.stop s.serial] } else b

def close (b : Buzzer) : Buzzer :=
  let b := b.stop
  match b.sound with
  | none => b
  | some _ => { b with sound := none, calls := b.calls ++ [.quit] }

end Buzzer

end ChipEight
