/-! # Square waves

A tone is a number of whole periods of a square wave, so that it can be repeated without a seam. The
first half of a period has the amplitude, rounded down if the period is odd, and the rest its
negative. Samples have sixteen bits and wrap around.

A volume is relative to the full swing of a sample. One that is no whole number is a floating-point
number of 64 bits, and an amplitude is reckoned with its bits, so that it is exact however large it
is.
-/

namespace ChipEight

structure Wave where
  period : Nat
  periods : Nat
  amplitude : Int
  channels : Nat
deriving DecidableEq

/-- The nearest number of 53 significant bits; a half goes to the even one. -/
def nearest53 (n : Nat) : Nat :=
  let unit := 1 <<< (n.log2 - 52)
  let half := unit / 2
  let rest := n % unit
  if half < rest ∨ (rest = half ∧ 0 < rest ∧ n / unit % 2 = 1) then n - rest + unit else n - rest

inductive Volume
  | whole (n : Int)
  | real (bits : UInt64)
deriving DecidableEq

namespace Volume

/-- A tenth. -/
def usual : Volume := .real 0x3FB999999999999A

/-- The largest value of a sample. -/
def fullSwing : Nat := 32767

/-- The full swing times the volume, with what stands after the point cut off, if it is finite. -/
def amplitude? : Volume → Option Int
  | .whole n => some (fullSwing * n)
  | .real bits =>
    let exponent := (bits.toNat >>> 52) % 2048
    let fraction := bits.toNat % 0x10000000000000
    let significand := if exponent = 0 then fraction else 0x10000000000000 + fraction
    -- The product is in units of 2 to the -1074, the smallest number that there is.
    let product := nearest53 (fullSwing * significand) <<< (exponent - 1)
    let magnitude := product >>> 1074
    if exponent = 2047 ∨ 1024 ≤ magnitude.log2 then none
    else some (if bits < 0x8000000000000000 then magnitude else -magnitude)

end Volume

namespace Wave

/-- A signed number of sixteen bits. -/
def wrap (v : Int) : Int := v.bmod 65536

def sample (w : Wave) (t : Nat) : Int :=
  wrap (if t % w.period < w.period / 2 then w.amplitude else -w.amplitude)

def length (w : Wave) : Nat := w.period * w.periods

/-- The samples of one channel. All channels are alike. -/
def samples (w : Wave) : List Int := (List.range w.length).map w.sample

/-- The samples of one channel as runs of equal ones, each with its length. -/
def runs (w : Wave) : List (Int × Nat) :=
  let high := wrap w.amplitude
  let low := wrap (-w.amplitude)
  let half := w.period / 2
  if w.length = 0 then []
  else if high = low then [(high, w.length)]
  else (List.replicate w.periods [(high, half), (low, w.period - half)]).flatten

theorem map_mod_range {α : Type} (f : Nat → α) (p k : Nat) :
    (List.range (p * k)).map (fun t => f (t % p)) =
      (List.replicate k ((List.range p).map f)).flatten := by
  induction k with
  | zero => simp
  | succ k ih =>
    rw [Nat.mul_succ, List.range_add, List.map_append, ih, List.replicate_succ',
      List.flatten_append]
    simp only [List.flatten_cons, List.flatten_nil, List.append_nil, List.map_map]
    congr 1
    refine List.map_congr_left fun t ht => ?_
    simp [Nat.mod_eq_of_lt (List.mem_range.1 ht)]

theorem map_range_ite {α : Type} (a b : α) {h p : Nat} (hp : h ≤ p) :
    (List.range p).map (fun t => if t < h then a else b) =
      List.replicate h a ++ List.replicate (p - h) b := by
  refine List.ext_getElem (by simp; omega) fun t ht _ => ?_
  by_cases hh : t < h <;> simp [List.getElem_append, hh]

/-- Written out, the runs are the samples. -/
theorem flatMap_runs (w : Wave) :
    (w.runs.flatMap fun r => List.replicate r.2 r.1) = w.samples := by
  have hs : w.samples = (List.replicate w.periods
      (List.replicate (w.period / 2) (wrap w.amplitude) ++
        List.replicate (w.period - w.period / 2) (wrap (-w.amplitude)))).flatten := by
    rw [← map_range_ite _ _ (Nat.div_le_self ..), ← map_mod_range]
    refine List.map_congr_left fun t _ => ?_
    simp only [sample]
    split <;> rfl
  unfold runs
  split
  · next h => simp [samples, h]
  · dsimp only
    split
    · next h => simp [hs, ← h, length, Nat.add_sub_cancel' (Nat.div_le_self ..), Nat.mul_comm]
    · simp [hs, List.flatMap_def, List.map_flatten, List.flatten_flatten]

end Wave

end ChipEight
