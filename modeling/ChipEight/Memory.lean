import ChipEight.Word

/-! # Memory

4096 cells, each a byte. Every integer is an address: addresses are taken modulo 4096, and what is
written is reduced to its low eight bits.
-/

namespace ChipEight

/-- The number of cells. -/
def memorySize : Nat := 4096

structure Memory where
  cells : Vector Nat 4096

namespace Memory

def empty : Memory := ⟨Vector.replicate 4096 0⟩

/-- The cell that an address names. -/
def index (a : Int) : Fin 4096 := Fin.ofNat 4096 (a % 4096).toNat

def read (m : Memory) (a : Int) : Nat := m.cells[index a]

def write (m : Memory) (a v : Int) : Memory := ⟨m.cells.set (index a) (low8 v)⟩

/-- As many bytes as `count` says, from `a` on. A negative count reads none. -/
def slice (m : Memory) (a count : Int) : List Nat :=
  (List.range count.toNat).map fun (k : Nat) => m.read (a + k)

/-- Writes bytes from cell `start` on, as far as there are cells. -/
def overlay (m : Memory) (start : Nat) : List UInt8 → Memory
  | [] => m
  | b :: bytes =>
    if h : start < 4096 then overlay ⟨m.cells.set start b.toNat⟩ (start + 1) bytes else m

theorem index_val (a : Int) : (index a).val = (a % 4096).toNat := by
  simp only [index, Fin.val_ofNat]; omega

theorem read_write (m : Memory) (a b v : Int) :
    (m.write a v).read b = if a % 4096 = b % 4096 then low8 v else m.read b := by
  simp only [read, write, Fin.getElem_fin, Vector.getElem_set, index_val]
  have : (a % 4096).toNat = (b % 4096).toNat ↔ a % 4096 = b % 4096 := by omega
  simp only [this]

theorem length_slice (m : Memory) (a count : Int) : (m.slice a count).length = count.toNat := by
  simp [slice]

theorem getElem_slice (m : Memory) (a count : Int) (k : Nat) (h : k < (m.slice a count).length) :
    (m.slice a count)[k] = m.read (a + k) := by
  simp [slice]

end Memory

end ChipEight
