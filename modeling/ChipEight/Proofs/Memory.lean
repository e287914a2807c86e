import ChipEight.Memory

/-! # What is read from memory

An address stands for all that it is equal to modulo 4096 (`read_congr`), and what is read from a
memory tells it (`ext_read`). A slice is what its addresses hold, and nothing past its end
(`getD_slice`); it goes round at the end of memory, as often as it is long
(`getElem?_slice_add_size`). Of an overlay, bytes that fit are read back from where they were
written (`read_overlay`), and the cells beside them are as before (`getElem_overlay_of_outside`).
-/

namespace ChipEight.Memory

theorem read_congr (m : Memory) {a b : Int} (h : a % 4096 = b % 4096) : m.read a = m.read b := by
  have hindex : index a = index b := congrArg (fun c : Int => Fin.ofNat 4096 c.toNat) h
  simp only [read, hindex]

theorem read_natCast (m : Memory) {k : Nat} (hk : k < 4096) : m.read k = m.cells[k] := by
  have hindex : (index (k : Int)).val = k := by rw [index_val]; omega
  simp only [read, Fin.getElem_fin, hindex]

theorem ext_read {m n : Memory} (h : ∀ a, m.read a = n.read a) : m = n := by
  obtain ⟨cells⟩ := m
  obtain ⟨cells'⟩ := n
  refine congrArg Memory.mk (Vector.ext fun k hk => ?_)
  have hread := h k
  rw [read_natCast _ hk, read_natCast _ hk] at hread
  exact hread

theorem getElem?_slice (m : Memory) (a : Int) {count : Int} {k : Nat} (h : k < count) :
    (m.slice a count)[k]? = some (m.read (a + k)) := by
  have hk : k < (m.slice a count).length := by
    rw [length_slice]
    omega
  rw [List.getElem?_eq_getElem hk, getElem_slice]

/-- A slice that is longer than memory repeats. -/
theorem getElem?_slice_add_size (m : Memory) (a : Int) {count : Int} {k : Nat}
    (h : k + 4096 < count) :
    (m.slice a count)[k + 4096]? = (m.slice a count)[k]? := by
  have hcell : (a + (k + 4096 : Nat)) % 4096 = (a + k) % 4096 := by omega
  calc (m.slice a count)[k + 4096]?
      = some (m.read (a + (k + 4096 : Nat))) := m.getElem?_slice a h
    _ = some (m.read (a + k)) := by rw [m.read_congr hcell]
    _ = (m.slice a count)[k]? := (m.getElem?_slice a (by omega)).symm

theorem getD_slice (m : Memory) (a : Int) (count k : Nat) :
    (m.slice a count).getD k 0 = if k < count then m.read (a + k) else 0 := by
  rw [List.getD_eq_getElem?_getD]
  split
  next hk => rw [getElem?_slice m a (by omega), Option.getD_some]
  next hk =>
    have hlength : (m.slice a count).length = count := m.length_slice a count
    rw [List.getElem?_eq_none (by omega), Option.getD_none]

theorem getElem_overlay_of_outside (m : Memory) {start i : Nat} {bytes : List UInt8} (hi : i < 4096)
    (hout : i < start ∨ start + bytes.length ≤ i) :
    (m.overlay start bytes).cells[i] = m.cells[i] := by
  induction bytes generalizing m start with
  | nil => rfl
  | cons b bytes ih =>
    rw [List.length_cons] at hout
    rw [overlay]
    split
    next hstart =>
      rw [ih _ (by omega)]
      exact Vector.getElem_set_ne hstart hi (by omega)
    · rfl

theorem getElem_overlay (m : Memory) {start k : Nat} {bytes : List UInt8} (hk : k < bytes.length)
    (hfit : start + k < 4096) : (m.overlay start bytes).cells[start + k] = bytes[k].toNat := by
  induction bytes generalizing m start k with
  | nil => exact absurd hk (Nat.not_lt_zero k)
  | cons b bytes ih =>
    rw [overlay, dif_pos (by omega)]
    cases k with
    | zero =>
      rw [getElem_overlay_of_outside _ hfit (.inl (Nat.lt_succ_self start))]
      exact Vector.getElem_set_self hfit
    | succ k =>
      have hnext : start + 1 + k = start + (k + 1) := Nat.add_right_comm start 1 k
      have hcell := ih ⟨m.cells.set start b.toNat⟩ (Nat.lt_of_succ_lt_succ hk) (hnext ▸ hfit)
      simp only [hnext] at hcell
      exact hcell

theorem read_overlay (m : Memory) {start k : Nat} {bytes : List UInt8} (hk : k < bytes.length)
    (hfit : start + k < 4096) :
    (m.overlay start bytes).read (start + k : Nat) = bytes[k].toNat := by
  rw [read_natCast _ hfit]
  exact m.getElem_overlay hk hfit

end ChipEight.Memory
