import ChipEight.Proofs.Machine.WellFormed
import ChipEight.Proofs.Memory.Growth

/-! # Writing and reading back

Every integer is an address, and every integer can be written. Of any writes, the last one that
reaches a cell decides what is read there, whichever of its addresses they used
(`read_writeAll_of_isLast`), and a cell that none of them reaches holds what it held
(`read_writeAll_of_unreached`). A store that has grown still shows the memory if it is written to in
the same way (`Shows.writeAll`). All this holds of a machine, and of its slices
(`reads_last_written`).
-/

namespace ChipEight

namespace Memory

structure Write where
  address : Int
  value : Int

namespace Write

/-- The address names the cell that is written. -/
def Reaches (w : Write) (a : Int) : Prop := w.address % 4096 = a % 4096

instance (w : Write) (a : Int) : Decidable (w.Reaches a) := inferInstanceAs (Decidable (_ = _))

/-- Of the writes `ws`, `w` is the last that reaches the cell of `a`. -/
def IsLast (w : Write) (ws : List Write) (a : Int) : Prop :=
  ∃ before after, ws = before ++ w :: after ∧ w.Reaches a ∧ ∀ w' ∈ after, ¬ w'.Reaches a

def action (w : Write) : Action := .write w.address w.value

/-- The write on a row of cells, which may be longer than memory. -/
def put (store : List Nat) (w : Write) : List Nat :=
  store.set (w.address % 4096).toNat (low8 w.value)

end Write

def writeAll (m : Memory) (ws : List Write) : Memory :=
  ws.foldl (fun m w => m.write w.address w.value) m

section
variable (m : Memory) {ws : List Write} {a : Int}

theorem writeAll_cons (w : Write) (ws : List Write) :
    m.writeAll (w :: ws) = (m.write w.address w.value).writeAll ws := rfl

theorem writeAll_append (ws ws' : List Write) :
    m.writeAll (ws ++ ws') = (m.writeAll ws).writeAll ws' :=
  List.foldl_append

theorem read_writeAll_of_unreached (h : ∀ w ∈ ws, ¬ w.Reaches a) :
    (m.writeAll ws).read a = m.read a := by
  induction ws generalizing m with
  | nil => rfl
  | cons w ws ih =>
    obtain ⟨hw, hws⟩ := List.forall_mem_cons.1 h
    rw [writeAll_cons, ih _ hws, read_write]
    exact if_neg hw

theorem read_writeAll_of_isLast {w : Write} (h : w.IsLast ws a) :
    (m.writeAll ws).read a = low8 w.value := by
  obtain ⟨before, after, rfl, hw, hafter⟩ := h
  calc (m.writeAll (before ++ w :: after)).read a
      = (((m.writeAll before).write w.address w.value).writeAll after).read a := by
        rw [writeAll_append, writeAll_cons]
    _ = ((m.writeAll before).write w.address w.value).read a := read_writeAll_of_unreached _ hafter
    _ = low8 w.value := by
        rw [read_write]
        exact if_pos hw

end

theorem Shows.writeAll {m : Memory} {store : List Nat} (h : m.Shows store) (ws : List Write) :
    (m.writeAll ws).Shows (ws.foldl Write.put store) := by
  induction ws generalizing m store with
  | nil => exact h
  | cons w ws ih => exact ih (h.write w.address w.value)

end Memory

namespace Machine

theorem live_writes (m : Machine) (ws : List Memory.Write) :
    m.live (ws.map Memory.Write.action) = { m with memory := m.memory.writeAll ws } := by
  induction ws generalizing m with
  | nil => rfl
  | cons w ws ih => exact ih (m.act w.action)

/-- After writes of any integers to any addresses the memory alone has changed. An address has the
low byte of the last value that was written to one equal to it modulo 4096, or else what it had. A
slice of any length, from any address on, has the byte of each address in turn. A store that is
larger than the memory shows the same. -/
theorem reads_last_written (m : Machine) (ws : List Memory.Write) :
    let m' := m.live (ws.map Memory.Write.action)
    (∃ memory, m' = { m with memory }) ∧
      (∀ a (w : Memory.Write), w.IsLast ws a → (m'.memory.read a : Int) = w.value % 256) ∧
      (∀ a, (∀ w ∈ ws, ¬ w.Reaches a) → m'.memory.read a = m.memory.read a) ∧
      (∀ start count : Int, 0 ≤ count →
        (m'.memory.slice start count).length = count ∧
        (∀ k : Nat, k < count → (m'.memory.slice start count)[k]? =
          some (m'.memory.read (start + k))) ∧
        ∀ k : Nat, k + 4096 < count →
          (m'.memory.slice start count)[k + 4096]? = (m'.memory.slice start count)[k]?) ∧
      ∀ store, m.memory.Shows store → m'.memory.Shows (ws.foldl Memory.Write.put store) := by
  intro m'
  have hmemory : m'.memory = m.memory.writeAll ws := congrArg Machine.memory (m.live_writes ws)
  refine ⟨⟨_, m.live_writes ws⟩, ?_, ?_, ?_, ?_⟩
  · intro a w hlast
    rw [hmemory, Memory.read_writeAll_of_isLast _ hlast, natCast_low8]
  · intro a hunreached
    rw [hmemory]
    exact m.memory.read_writeAll_of_unreached hunreached
  · intro start count hcount
    refine ⟨?_, fun k hk => Memory.getElem?_slice _ start hk,
      fun k hk => Memory.getElem?_slice_add_size _ start hk⟩
    rw [Memory.length_slice]
    exact Int.toNat_of_nonneg hcount
  · intro store hshows
    rw [hmemory]
    exact hshows.writeAll ws

/-- Negative and huge addresses of the last cell but one and of the first, on a machine whose store
is larger than the memory by a byte. The slice goes round twice. -/
theorem reads_last_written_of_aliases :
    let memory := (fresh .silent .zeros).memory
    let m := { fresh .silent .zeros with memory := memory.overlay 0xFFE [6, 7, 8] }
    let last : Memory.Write := ⟨0x80000000000000000FFE, -1⟩
    let ws := [⟨-2, 0x1AB⟩, ⟨0x80000000000000000000, 300⟩, last,
      ⟨-4096, 0x100000000000000000009⟩, ⟨0x12, 5⟩]
    let m' := m.live (ws.map Memory.Write.action)
    let slice := m'.memory.slice (-2) 8194
    let store := Memory.splice memory.cells.toList 0xFFE [6, 7, 8]
    last.IsLast ws (-4098) ∧ m'.memory.read (-4098) = 255 ∧
      (∀ w ∈ ws, ¬ w.Reaches (-1)) ∧ m'.memory.read (-1) = 7 ∧
      slice.length = 8194 ∧ slice[0]? = some 255 ∧ slice[8192]? = some 255 ∧
      m.memory.Shows store ∧ m'.memory.Shows (ws.foldl Memory.Write.put store) := by
  intro memory m last ws m' slice store
  have hlast : last.IsLast ws (-4098) :=
    ⟨ws.take 2, ws.drop 3, rfl, by decide +kernel, by decide +kernel⟩
  have hunreached : ∀ w ∈ ws, ¬ w.Reaches (-1) := by decide +kernel
  have hshows : m.memory.Shows store :=
    memory.shows_toList.splice (by decide : 0xFFE ≤ 4096) [6, 7, 8]
  obtain ⟨-, hwritten, hkept, hslice, hgrown⟩ := m.reads_last_written ws
  obtain ⟨hlength, hbyte, hperiod⟩ := hslice (-2) 8194 (by decide)
  have hread : m'.memory.read (-4098) = 255 := by
    have hvalue : (m'.memory.read (-4098) : Int) = -1 % 256 := hwritten (-4098) _ hlast
    omega
  have hfirst : slice[0]? = some 255 := by
    have hcell : (-2 + (0 : Nat) : Int) % 4096 = -4098 % 4096 := by decide
    rw [hbyte 0 (by decide), Memory.read_congr _ hcell, hread]
  refine ⟨hlast, hread, hunreached, ?_, Int.natCast_inj.1 hlength, hfirst, ?_, hshows,
    hgrown store hshows⟩
  · rw [hkept (-1) hunreached]
    decide +kernel
  · calc slice[8192]?
        = slice[4096]? := hperiod 4096 (by decide)
      _ = slice[0]? := hperiod 0 (by decide)
      _ = some 255 := hfirst

end Machine

end ChipEight
