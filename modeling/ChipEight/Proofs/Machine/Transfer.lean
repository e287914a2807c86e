import ChipEight.Proofs.Machine.Footprint
import ChipEight.Proofs.Memory

/-! # Registers to memory and back

`FX55` and `FX65` move V0 to VX between the registers and the cells from the index on, `FX33` puts
the three digits of VX there. The index may lie past the end of memory, and the cells may go on at
its beginning; sixteen in a row are still sixteen different ones (`emod_eq_iff`), so each register
has a cell of its own. What was stored comes back, and what was loaded goes back where it is
(`transfers_undo`).
-/

namespace ChipEight

namespace Opcode

/-- The word `FX` with a low byte. -/
def misc (x : Register) (low : Nat) : Opcode := .ofInt (0xF000 + 0x100 * x.val + low)

theorem misc_spec (x : Register) {low : Nat} (hlow : low < 256) :
    (misc x low).IsMisc low ∧ (misc x low).x = x := by
  have hx := x.lt
  have hval : (misc x low).val = 0xF000 + 0x100 * x.val + low := by
    rw [misc, val_ofInt, low16]
    omega
  refine ⟨⟨?_, ?_⟩, Fin.ext ?_⟩
  · rw [kind, hval]
    omega
  · rw [nn, Fin.val_ofNat, hval]
    omega
  · rw [Opcode.x, Fin.val_ofNat, hval]
    omega

end Opcode

namespace Machine

/-- The machine after the word `FX` with this low byte, which it has fetched. -/
def afterMisc (m : Machine) (x : Register) (low : Nat) : Machine :=
  (m.execute (.decode (.misc x low))).1

theorem afterMisc_eq (m : Machine) (op : Misc) (x : Register) :
    m.afterMisc x op.low = m.executeMisc op x := by
  have hlow : op.low < 256 := by cases op <;> decide
  obtain ⟨⟨hkind, hnn⟩, hx⟩ := Opcode.misc_spec x hlow
  rw [afterMisc, Instruction.decode_eq_misc_iff.2 ⟨hkind, hnn, hx⟩]
  rfl

/-- The cells of two registers are the same only if the registers are. -/
theorem emod_eq_iff {i : Int} {r q : Register} :
    (i + r.val) % 4096 = (i + q.val) % 4096 ↔ r = q := by
  have hr := r.lt
  have hq := q.lt
  rw [Fin.ext_iff]
  omega

section
variable (m : Machine)

theorem read_storeRegisters_of_le {x r : Register} (h : r ≤ x) :
    (m.storeRegisters x).memory.read (m.i + r.val) = low8 (m.v.get r) := by
  have hset (memory : Memory) (q r : Register) :
      (memory.write (m.i + q.val) (m.v.get q)).read (m.i + r.val) =
        if q = r then low8 (m.v.get q) else memory.read (m.i + r.val) := by
    rw [Memory.read_write]
    simp only [emod_eq_iff]
  have hfold := foldl_sets (fun (memory : Memory) (r : Register) => memory.read (m.i + r.val)) hset
    ((List.finRange 16).filter (· ≤ x)) m.memory r
  rw [if_pos (mem_block.2 h)] at hfold
  exact hfold

theorem exists_of_read_storeRegisters_ne {x : Register} {a : Int}
    (h : (m.storeRegisters x).memory.read a ≠ m.memory.read a) :
    ∃ r ≤ x, (m.i + r.val) % 4096 = a % 4096 := by
  by_contra hno
  refine h (m.read_storeRegisters x fun k hk heq => hno ?_)
  have hx := x.lt
  exact ⟨⟨k, by omega⟩, hk, heq⟩

theorem exists_of_read_storeDecimal_ne {value a : Int}
    (h : (m.storeDecimal value).memory.read a ≠ m.memory.read a) :
    ∃ k : Nat, k ≤ 2 ∧ (m.i + k) % 4096 = a % 4096 := by
  by_contra hno
  exact h (m.read_storeDecimal value fun k hk heq => hno ⟨k, hk, heq⟩)

/-- The hundreds, the tens and the ones, each in a cell of its own. -/
theorem read_storeDecimal_digits (value : Int) :
    (m.storeDecimal value).memory.read (m.i + (0 : Nat)) = low8 (value / 100) ∧
      (m.storeDecimal value).memory.read (m.i + (1 : Nat)) = low8 (value / 10 % 10) ∧
      (m.storeDecimal value).memory.read (m.i + (2 : Nat)) = low8 (value % 10) := by
  simp only [storeDecimal, Memory.read_write]
  refine ⟨?_, ?_, ?_⟩
  · rw [if_neg (by omega), if_neg (by omega), if_pos (by omega)]
  · rw [if_neg (by omega), if_pos (by omega)]
  · rw [if_pos (by omega)]

end

namespace WellFormed
variable {m : Machine}

theorem low8_get (hm : m.WellFormed) (r : Register) : (low8 (m.v.get r) : Int) = m.v.get r := by
  have hbyte := hm.get_mem r
  rw [natCast_low8]
  omega

theorem loadRegisters_storeRegisters (hm : m.WellFormed) {x : Register} {v : Vector Int 16}
    (hv : ∀ r, x < r → v.get r = m.v.get r) :
    Machine.loadRegisters { m.storeRegisters x with v } x =
      { m with memory := (m.storeRegisters x).memory } := by
  have hback : (Machine.loadRegisters { m.storeRegisters x with v } x).v = m.v := by
    refine Vector.ext fun k hk => ?_
    show (Machine.loadRegisters { m.storeRegisters x with v } x).v.get ⟨k, hk⟩ = m.v.get ⟨k, hk⟩
    rw [get_loadRegisters]
    split
    next hle => exact (congrArg Nat.cast (m.read_storeRegisters_of_le hle)).trans (hm.low8_get _)
    next hlt => exact hv _ (not_le.1 hlt)
  show { m.storeRegisters x with
    v := (Machine.loadRegisters { m.storeRegisters x with v } x).v } = _
  rw [hback]
  rfl

theorem storeRegisters_loadRegisters (hm : m.WellFormed) (x : Register) :
    ((m.loadRegisters x).storeRegisters x).memory = m.memory := by
  refine Memory.ext_read fun a => ?_
  -- a cell that is written at all has been read, and holds a byte
  by_contra hne
  obtain ⟨r, hle, hcell⟩ := exists_of_read_storeRegisters_ne (m.loadRegisters x) hne
  have hstored := read_storeRegisters_of_le (m.loadRegisters x) hle
  rw [get_loadRegisters, if_pos hle, low8_of_lt (Memory.Bytes.read_lt hm.memory_lt _)] at hstored
  rw [← Memory.read_congr _ hcell, ← m.memory.read_congr hcell] at hne
  exact hne hstored

/-- V0, V1 and V2 after the digits of a register were stored and loaded. -/
theorem loadRegisters_storeDecimal (hm : m.WellFormed) (x : Register) :
    let v := ((m.storeDecimal (m.v.get x)).loadRegisters 2).v
    v.get 0 = m.v.get x / 100 ∧ v.get 1 = m.v.get x / 10 % 10 ∧ v.get 2 = m.v.get x % 10 := by
  intro v
  have hbyte := hm.get_mem x
  obtain ⟨h0, h1, h2⟩ := m.read_storeDecimal_digits (m.v.get x)
  have hdigit {r : Register} {d : Int} (hr : r ≤ 2)
      (hcell : (m.storeDecimal (m.v.get x)).memory.read (m.i + r.val) = low8 d)
      (hd : 0 ≤ d ∧ d < 256) : v.get r = d := by
    have hget : v.get r = (m.storeDecimal (m.v.get x)).memory.read (m.i + r.val) := by
      rw [get_loadRegisters, if_pos hr]
      rfl
    rw [hget, hcell, natCast_low8]
    exact Int.emod_eq_of_lt hd.1 hd.2
  exact ⟨hdigit (by decide) h0 (by omega), hdigit (by decide) h1 (by omega),
    hdigit (by decide) h2 (by omega)⟩

end WellFormed

variable {m : Machine}

/-- Whatever becomes of V0 to VX between `FX55` and `FX65`, the machine is as it was before the two,
but for the memory, and there only the cells of V0 to VX differ, as many as there are registers.
`FX65` and then `FX55` leave the memory as it is. After `FX33` and `F265` the first three registers
have the decimal digits of VX as it was. -/
theorem transfers_undo (hm : m.WellFormed) (x : Register) :
    (∀ v : Vector Int 16, (∀ r, x < r → v.get r = m.v.get r) →
      afterMisc { m.afterMisc x 0x55 with v } x 0x65 =
        { m with memory := (m.afterMisc x 0x55).memory }) ∧
    (∀ a, (m.afterMisc x 0x55).memory.read a ≠ m.memory.read a →
      ∃ r ≤ x, (m.i + r.val) % 4096 = a % 4096) ∧
    (∀ r q : Register, (m.i + r.val) % 4096 = (m.i + q.val) % 4096 → r = q) ∧
    ((m.afterMisc x 0x65).afterMisc x 0x55).memory = m.memory ∧
    let m' := (m.afterMisc x 0x33).afterMisc 2 0x65
    (∀ r : Register, r ≤ 2 → 0 ≤ m'.v.get r ∧ m'.v.get r ≤ 9) ∧
      100 * m'.v.get 0 + 10 * m'.v.get 1 + m'.v.get 2 = m.v.get x ∧
      ∀ a, m'.memory.read a ≠ m.memory.read a → ∃ k : Nat, k ≤ 2 ∧ (m.i + k) % 4096 = a % 4096 := by
  have hstore (n : Machine) : n.afterMisc x 0x55 = n.storeRegisters x := n.afterMisc_eq .store x
  have hload (n : Machine) (y : Register) : n.afterMisc y 0x65 = n.loadRegisters y :=
    n.afterMisc_eq .load y
  have hdecimal : m.afterMisc x 0x33 = m.storeDecimal (m.v.get x) := m.afterMisc_eq .decimal x
  simp only [hstore, hload, hdecimal]
  have hbyte := hm.get_mem x
  obtain ⟨h0, h1, h2⟩ := hm.loadRegisters_storeDecimal x
  refine ⟨fun v hv => hm.loadRegisters_storeRegisters hv,
    fun a => m.exists_of_read_storeRegisters_ne, fun r q => emod_eq_iff.1,
    hm.storeRegisters_loadRegisters x, ?_, ?_, ?_⟩
  · have hfirst : ∀ r : Register, r ≤ 2 → r = 0 ∨ r = 1 ∨ r = 2 := by decide
    intro r hr
    rcases hfirst r hr with rfl | rfl | rfl
    · rw [h0]
      omega
    · rw [h1]
      omega
    · rw [h2]
      omega
  · rw [h0, h1, h2]
    omega
  · intro a ha
    exact m.exists_of_read_storeDecimal_ne ha

/-- The index is a multiple of the size of memory past its last cell but one, so that V2 and V3 go
to the first two cells. All registers are cleared in between. -/
theorem transfers_undo_at_end :
    let m := { ((fresh .silent .zeros).setV 0 0xAB).setV 3 0xFE with i := 0xFFFE }
    let cleared := { m.afterMisc 3 0x55 with v := Vector.replicate 16 0 }
    let digits := ((m.afterMisc 3 0x33).afterMisc 2 0x65).v
    m.WellFormed ∧ (cleared.memory.read 0xFFE, cleared.memory.read 1) = (0xAB, 0xFE) ∧
      (cleared.afterMisc 3 0x65).v = m.v ∧ (cleared.afterMisc 3 0x65).i = 0xFFFE ∧
      ((m.afterMisc 3 0x65).afterMisc 3 0x55).memory = m.memory ∧
      100 * digits.get 0 + 10 * digits.get 1 + digits.get 2 = 0xFE := by
  intro m cleared digits
  have hm : m.WellFormed :=
    (((fresh_wellFormed .silent .zeros).setV 0 (by decide)).setV 3 (by decide)).i (by decide)
  obtain ⟨hundo, -, -, hback, -, hsum, -⟩ := transfers_undo hm 3
  have hrest : ∀ r : Register, 3 < r → (Vector.replicate 16 (0 : Int)).get r = m.v.get r := by
    decide +kernel
  have hloaded := hundo _ hrest
  refine ⟨hm, by decide +kernel, ?_, ?_, hback, hsum⟩
  · rw [hloaded]
  · rw [hloaded]

end Machine

end ChipEight
