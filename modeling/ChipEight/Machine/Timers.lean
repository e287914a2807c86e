import ChipEight.Machine

/-! # The timers

A timer above zero runs: it counts down by one at each tick. The tone is signalled to start at each
tick that finds the sound timer running, and to stop at each tick that ends with it not running.
-/

namespace ChipEight.Machine

def signal (m : Machine) (s : Signal) : Machine := { m with audio := m.audio.signal s }

def tickDelay (m : Machine) : Machine :=
  { m with delay := if 0 < m.delay then m.delay - 1 else m.delay }

def tickSound (m : Machine) : Machine :=
  if 0 < m.sound then
    let m := { m.signal .start with sound := m.sound - 1 }
    if m.sound = 0 then m.signal .stop else m
  else m.signal .stop

def tick (m : Machine) : Machine := m.tickDelay.tickSound

end ChipEight.Machine
