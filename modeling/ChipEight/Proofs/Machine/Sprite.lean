import ChipEight.Proofs.Machine.WellFormed
import ChipEight.Proofs.Memory
import ChipEight.Proofs.Screen.Pixels

/-! # Sprites on the screen

`DXYN` takes its corner from two registers, modulo the size of the screen, and its rows from memory,
from the index on (`sprite`); `stamp` says on which pixels it has a set bit. A step on it changes
the pixels with a set bit and no others, and of the registers VF alone, which may itself have held a
coordinate (`drawn_pixelwise`).
-/

namespace ChipEight.Machine

/-- The bit of the sprite that falls on pixel `(i, j)`, if the instruction that comes next draws. -/
def stamp (m : Machine) (i j : Nat) : Bool :=
  let dx : Int := i - m.v.get m.opcodeAt.x % 64
  let dy : Int := j - m.v.get m.opcodeAt.y % 32
  decide (0 ≤ dx ∧ dx ≤ 7 ∧ 0 ≤ dy ∧ dy < m.opcodeAt.n.val) &&
    (m.memory.read (m.i + dy)).testBit (7 - dx).toNat

/-- The sprite itself. -/
def sprite (m : Machine) : Sprite where
  x := m.v.get m.opcodeAt.x % 64
  y := m.v.get m.opcodeAt.y % 32
  rows := m.memory.slice m.i m.opcodeAt.n.val

variable {m : Machine}

theorem bit_sprite (m : Machine) (i j : Nat) : m.sprite.bit i j = m.stamp i j := by
  rw [Bool.eq_iff_iff, Sprite.bit_iff, stamp, Bool.and_eq_true, decide_eq_true_iff]
  simp only [sprite, Memory.getD_slice]
  generalize (i : Int) - m.v.get m.opcodeAt.x % 64 = dx
  generalize (j : Int) - m.v.get m.opcodeAt.y % 32 = dy
  constructor
  · rintro ⟨⟨hleft, hright, hup⟩, hbit⟩
    split at hbit
    next hlow =>
      rw [Int.toNat_of_nonneg hup] at hbit
      exact ⟨⟨hleft, hright, hup, by omega⟩, hbit⟩
    · rw [Nat.zero_testBit] at hbit
      cases hbit
  · rintro ⟨⟨hleft, hright, hup, hlow⟩, hbit⟩
    rw [if_pos (by omega), Int.toNat_of_nonneg hup]
    exact ⟨⟨hleft, hright, hup⟩, hbit⟩

theorem WellFormed.step_sprite (hm : m.WellFormed) (hw : m.opcodeAt.kind = 0xD) :
    m.step =
      ({ m with
          pc := low16 (m.pc + 2)
          screen := (m.screen.put m.sprite).screen
          v := (m.setV 0xF (m.screen.put m.sprite).collided.toNat).v
          cycles := m.cycles + 1 }, none) := by
  have hdec : Instruction.decode m.opcodeAt = .drw m.opcodeAt.x m.opcodeAt.y m.opcodeAt.n := by
    simp only [Instruction.decode, hw]
  have hdraw := hm.advance.executeDraw_eq m.opcodeAt.x m.opcodeAt.y m.opcodeAt.n
  rw [hm.advance.screen_width, hm.advance.screen_height] at hdraw
  rw [step_eq, executed, hdec, Machine.execute, hdraw]
  rfl

/-- Where the sprite has a set bit the screen is inverted, elsewhere it stays, also at the edge
across from one that the sprite goes over. VF tells whether a pixel was lit there before. All else
but the program counter and the cycle count stays as it is. -/
theorem drawn_pixelwise (hm : m.WellFormed) (hw : m.opcodeAt.kind = 0xD) :
    ∃ (screen : Screen) (v : Vector Int 16),
      m.step = ({ m with pc := low16 (m.pc + 2), v, screen, cycles := m.cycles + 1 }, none) ∧
      screen.WellFormed ∧ screen.width = 64 ∧ screen.height = 32 ∧
      (∀ (i : Fin 64) (j : Fin 32), screen.lit i j = (m.screen.lit i j ^^ m.stamp i j)) ∧
      v.get 0xF = (if ∃ (i : Fin 64) (j : Fin 32), m.screen.lit i j ∧ m.stamp i j then 1 else 0) ∧
      ∀ r : Register, r ≠ 0xF → v.get r = m.v.get r := by
  have hx : 0 ≤ m.sprite.x := Int.emod_nonneg _ (by decide)
  have hy : 0 ≤ m.sprite.y := Int.emod_nonneg _ (by decide)
  have hwidth : m.screen.width = 64 := hm.screen_width
  have hheight : m.screen.height = 32 := hm.screen_height
  have hs := hm.screen_wellFormed
  have hcollided : (m.screen.put m.sprite).collided = true ↔
      ∃ (i : Fin 64) (j : Fin 32), m.screen.lit i j ∧ m.stamp i j := by
    rw [hs.collided_put_iff hx hy]
    constructor
    · rintro ⟨i, j, hi, hj, hlit, hbit⟩
      exact ⟨⟨i, by omega⟩, ⟨j, by omega⟩, hlit, m.bit_sprite i j ▸ hbit⟩
    · rintro ⟨i, j, hlit, hbit⟩
      exact ⟨i, j, by omega, by omega, hlit, (m.bit_sprite i j).trans hbit⟩
  refine ⟨_, _, hm.step_sprite hw, hs.put _, ?_, ?_, fun i j => ?_, ?_, fun r hr => ?_⟩
  · rw [Screen.width_put, hwidth]
  · rw [Screen.height_put, hheight]
  · rw [hs.lit_put_bit hx hy (by omega) (by omega), bit_sprite]
  · rw [get_setV, if_pos rfl]
    simp only [← hcollided]
    cases (m.screen.put m.sprite).collided <;> rfl
  · rw [get_setV, if_neg hr]

/-- Both coordinates come from VF, the index lies past the end of memory, and the sprite, which is
the program itself, goes over the right and the lower edge. -/
theorem drawn_pixelwise_at_corner :
    let m := { ((fresh .silent .zeros).act (.load [0xDF, 0xF3, 0xFF])).setV 0xF 0xBE with
      i := 0x1200, screen := (Screen.blank 64 32).flip 63 30 }
    let pixels : List (Fin 64 × Fin 32) := [(62, 30), (63, 30), (62, 31), (1, 30), (62, 0)]
    m.WellFormed ∧ m.opcodeAt.kind = 0xD ∧ ∃ screen v, m.step.1.screen = screen ∧ m.step.1.v = v ∧
      (pixels.map fun q => screen.lit q.1 q.2) = [true, false, true, false, false] ∧
        v.get 0xF = 1 := by
  intro m pixels
  have hloaded := (fresh_wellFormed .silent .zeros).act (.load [0xDF, 0xF3, 0xFF])
  have hv : (0 : Int) ≤ 0xBE ∧ (0xBE : Int) < 256 := by decide
  have hi : (0 : Int) ≤ 0x1200 ∧ (0x1200 : Int) < 65536 := by decide
  have hm : m.WellFormed := ((hloaded.setV 0xF hv).i hi).screen rfl rfl
    ((Screen.blank_wellFormed 64 32).flip 63 30)
  have hbefore : m.opcodeAt.kind = 0xD ∧
      (pixels.map fun q => (m.screen.lit q.1 q.2 ^^ m.stamp q.1 q.2)) =
        [true, false, true, false, false] ∧
      m.screen.lit 63 30 ∧ m.stamp 63 30 := by decide +kernel
  obtain ⟨hw, hpixels, hcollided⟩ := hbefore
  obtain ⟨screen, v, hstep, -, -, -, hlit, hflag, -⟩ := drawn_pixelwise hm hw
  refine ⟨hm, hw, screen, v, by rw [hstep], by rw [hstep], ?_, ?_⟩
  · rw [List.map_congr_left fun q _ => hlit q.1 q.2, hpixels]
  · rw [hflag, if_pos ⟨63, 30, hcollided⟩]

end ChipEight.Machine
