import ChipEight.Buzzer

/-! # The mixer of a desktop

It has the rate that it is asked for and a number of channels of its own. What it can make of a wave
is a question of size.

The number of samples goes through floating point. Where it comes to 2 to the 63, which counts as
negative, the wave is empty.
-/

namespace ChipEight.Desktop

/-- What is wrong with `length` items of `size` bytes each, if anything. Bytes are numbered by words
of 64 bits, also if there are none for want of items, and for 2 to the 36 of them there is no
room. -/
def bytesError? (size length : Nat) : Option Toolkit.Error :=
  if 0x8000000000000000 ≤ size * max 1 length then
    some (.value ("array is too big; `arr.size * arr.dtype.itemsize` is larger than the maximum " ++
      "possible size."))
  else if 0x1000000000 ≤ size * length then some (.other "memory")
  else none

/-- What is wrong with the number of samples in a channel, if anything. They take eight bytes each
at first. -/
def countError? (count : Nat) : Option Toolkit.Error :=
  if count < 0x8000000000000000 then bytesError? 8 count
  else if count = 0x8000000000000000 then none
  else some (.value "Maximum allowed size exceeded")

def amplitudeError? (amplitude : Int) : Option Toolkit.Error :=
  if 0x8000000000000000 < amplitude.natAbs then some (.other "overflow") else none

/-- What is wrong with the channels of a wave, if anything. One channel is always there, and more of
them take two bytes for each sample. -/
def channelError? (w : Wave) : Option Toolkit.Error :=
  if w.channels ≤ 1 then none
  else if 0x8000000000000000 ≤ w.channels then some (.other "overflow")
  else bytesError? (2 * w.channels) w.length

/-- The number of samples is looked at first, and then the amplitude. -/
def makeWave (w : Wave) : Except Toolkit.Error Wave :=
  let count := nearest53 w.length
  let made := if count = 0x8000000000000000 then { w with periods := 0 } else w
  match ((countError? count).or (amplitudeError? w.amplitude)).or (channelError? made) with
  | some e => .error e
  | none => .ok made

def mixer (channels : Nat) : Mixer where
  grant rate := .ok (rate, channels)
  make := makeWave

end ChipEight.Desktop
