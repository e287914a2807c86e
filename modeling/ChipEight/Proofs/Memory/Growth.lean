import ChipEight.Proofs.Memory

/-! # A memory that grows

Bytes that are put over the end of memory are dropped. A store that grows keeps them behind its end
instead, where no address reaches them: of such a store the memory is the first 4096 cells
(`Shows`), and it is so still after bytes were put into both (`Shows.splice`) or one was written to
both (`Shows.write`), however often.
-/

namespace ChipEight.Memory

/-- The byte that address `a` gets when bytes are put from cell `start` on. -/
def landing? (start : Nat) (bytes : List UInt8) (a : Int) : Option UInt8 :=
  if start ≤ a % 4096 then bytes[(a % 4096).toNat - start]? else none

theorem landing?_eq_none {start : Nat} {bytes : List UInt8} {a : Int}
    (h : ¬ (start ≤ a % 4096 ∧ a % 4096 < start + bytes.length)) :
    landing? start bytes a = none := by
  unfold landing?
  split
  · exact List.getElem?_eq_none (by omega)
  · rfl

theorem landing?_add {start k : Nat} {bytes : List UInt8} (hk : k < bytes.length)
    (hfit : start + k < 4096) :
    landing? start bytes (start + k : Nat) = some bytes[k] := by
  have hcell : ((start + k : Nat) : Int) % 4096 = (start + k : Nat) := by omega
  have hoffset : start + k - start = k := Nat.add_sub_cancel_left start k
  rw [landing?, hcell, if_pos (by omega), Int.toNat_natCast, hoffset, List.getElem?_eq_getElem hk]

theorem read_overlay_landing (m : Memory) (start : Nat) (bytes : List UInt8) (a : Int) :
    (m.overlay start bytes).read a =
      ((landing? start bytes a).map UInt8.toNat).getD (m.read a) := by
  by_cases h : start ≤ a % 4096 ∧ a % 4096 < start + bytes.length
  · obtain ⟨k, hk⟩ : ∃ k : Nat, (start + k : Nat) = a % 4096 := ⟨(a % 4096).toNat - start, by omega⟩
    have hsame : ((start + k : Nat) : Int) % 4096 = a % 4096 := by omega
    have hlength : k < bytes.length := by omega
    have hfit : start + k < 4096 := by omega
    have hlanding : landing? start bytes a = landing? start bytes (start + k : Nat) := by
      simp only [landing?, hsame]
    rw [← read_congr _ hsame, read_overlay _ hlength hfit, hlanding, landing?_add hlength hfit]
    rfl
  · have hcell : ((a % 4096).toNat : Int) % 4096 = a % 4096 := by omega
    rw [landing?_eq_none h, ← read_congr _ hcell, ← read_congr m hcell, read_natCast _ (by omega),
      read_natCast _ (by omega)]
    exact m.getElem_overlay_of_outside _ (by omega)

/-- From `m` to `m'` bytes were put from cell `start` on, as far as there are cells, and nothing
else was done. -/
structure Overlaid (m : Memory) (start : Nat) (bytes : List UInt8) (m' : Memory) : Prop where
  inside : ∀ (k : Nat) (h : k < bytes.length), start + k < 4096 →
    m'.read (start + k : Nat) = bytes[k].toNat
  outside : ∀ a : Int, ¬ (start ≤ a % 4096 ∧ a % 4096 < start + bytes.length) → m'.read a = m.read a

theorem overlaid_overlay (m : Memory) (start : Nat) (bytes : List UInt8) :
    m.Overlaid start bytes (m.overlay start bytes) where
  inside k h hfit := m.read_overlay h hfit
  outside a hout := by
    rw [read_overlay_landing, landing?_eq_none hout]
    rfl

/-- A row of cells after bytes were put from cell `start` on; what goes over its end makes it
longer. -/
def splice (store : List Nat) (start : Nat) (bytes : List UInt8) : List Nat :=
  store.take start ++ bytes.map UInt8.toNat ++ store.drop (start + bytes.length)

/-- The memory is what the first 4096 cells of a row are. -/
structure Shows (m : Memory) (store : List Nat) : Prop where
  length_le : 4096 ≤ store.length
  getElem? : ∀ a : Int, store[(a % 4096).toNat]? = some (m.read a)

theorem shows_toList (m : Memory) : m.Shows m.cells.toList where
  length_le := Nat.le_of_eq m.cells.length_toList.symm
  getElem? a := by
    have hplace : (a % 4096).toNat < m.cells.toList.length := by
      rw [Vector.length_toList]
      omega
    have hcell : ((a % 4096).toNat : Int) % 4096 = a % 4096 := by omega
    rw [← read_congr m hcell, read_natCast _ (by omega), List.getElem?_eq_getElem hplace,
      Vector.getElem_toList]

theorem getElem?_splice {store : List Nat} {start : Nat} (hstart : start ≤ store.length)
    (bytes : List UInt8) (k : Nat) :
    (splice store start bytes)[k]? =
      if start ≤ k ∧ k < start + bytes.length then (bytes[k - start]?).map UInt8.toNat
      else store[k]? := by
  have hfirst : (store.take start).length = start := List.length_take_of_le hstart
  rw [splice, List.append_assoc, List.getElem?_append, hfirst]
  by_cases hbefore : k < start
  · rw [if_pos hbefore, if_neg (by omega), List.getElem?_take_of_lt hbefore]
  rw [if_neg hbefore, List.getElem?_append, List.length_map]
  by_cases hin : k - start < bytes.length
  · rw [if_pos hin, if_pos (by omega), List.getElem?_map]
  · have hplace : start + bytes.length + (k - start - bytes.length) = k := by omega
    rw [if_neg hin, if_neg (by omega), List.getElem?_drop, hplace]

theorem Shows.splice {m : Memory} {store : List Nat} (h : m.Shows store) {start : Nat}
    (hstart : start ≤ 4096) (bytes : List UInt8) :
    (m.overlay start bytes).Shows (splice store start bytes) where
  length_le := by
    have hlength := h.length_le
    rw [Memory.splice, List.length_append, List.length_append, List.length_take, List.length_map,
      List.length_drop]
    omega
  getElem? a := by
    rw [getElem?_splice (Nat.le_trans hstart h.length_le), read_overlay_landing]
    by_cases hin : start ≤ a % 4096 ∧ a % 4096 < start + bytes.length
    · have hcell : (a % 4096).toNat - start < bytes.length := by omega
      rw [if_pos (by omega), landing?, if_pos hin.1, List.getElem?_eq_getElem hcell]
      rfl
    · rw [if_neg (by omega), landing?_eq_none hin, h.getElem?]
      rfl

theorem Shows.write {m : Memory} {store : List Nat} (h : m.Shows store) (a v : Int) :
    (m.write a v).Shows (store.set (a % 4096).toNat (low8 v)) where
  length_le := by
    rw [List.length_set]
    exact h.length_le
  getElem? b := by
    have hplace : (a % 4096).toNat < store.length := by
      have hlength := h.length_le
      omega
    rw [read_write]
    by_cases hcell : a % 4096 = b % 4096
    · rw [if_pos hcell, ← hcell, List.getElem?_set_self hplace]
    · rw [if_neg hcell, List.getElem?_set_ne (by omega), h.getElem?]

end ChipEight.Memory
