import ChipEight.Proofs.Machine.Footprint

/-! # Arithmetic on registers

`8XYn` takes two registers and leaves a result in VX, and for some `n` a flag in VF, which X may
name as well. `Opcode.combine` is the result in the integers, `Opcode.Law` the equation that makes
up for its being cut down to a byte; the flag is what the equation needs (`alu_laws`).
-/

namespace ChipEight

namespace Opcode

/-- What the operation makes of its operands, not yet reduced to a byte. -/
def combine (w : Opcode) (a b : Int) : Int :=
  match w.n.val with
  | 0x0 => b
  | 0x1 => (a.toNat ||| b.toNat : Nat)
  | 0x2 => (a.toNat &&& b.toNat : Nat)
  | 0x3 => (a.toNat ^^^ b.toNat : Nat)
  | 0x4 => a + b
  | 0x5 => a - b
  | 0x6 => a / 2
  | 0x7 => b - a
  | 0xE => 2 * a
  | _ => a

/-- The result `r` and the flag `f` have together what the operands had: `f` is the carry, or that
there was nothing to borrow, or the bit that was shifted out. -/
def Law (w : Opcode) (a b r f : Int) : Prop :=
  match w.n.val with
  | 0x4 => r + 256 * f = a + b
  | 0x5 => r = a - b + 256 * (1 - f)
  | 0x6 => 2 * r + f = a
  | 0x7 => r = b - a + 256 * (1 - f)
  | 0xE => 256 * f + r = 2 * a
  | _ => True

end Opcode

namespace Machine

variable {m : Machine} {w : Opcode}

theorem WellFormed.execute_plain (hm : m.WellFormed) (hn : w.n.val ≤ 3) :
    m.execute (Instruction.decodeAlu w) =
      (m.setV w.x (w.combine (m.v.get w.x) (m.v.get w.y)), none) := by
  obtain ⟨a, ha⟩ := Int.eq_ofNat_of_zero_le (hm.get_mem w.x).1
  obtain ⟨b, hb⟩ := Int.eq_ofNat_of_zero_le (hm.get_mem w.y).1
  have hcases : w.n.val = 0 ∨ w.n.val = 1 ∨ w.n.val = 2 ∨ w.n.val = 3 := by omega
  rcases hcases with hop | hop | hop | hop <;>
    simp only [Instruction.decodeAlu, Opcode.combine, hop, Machine.execute,
      Machine.executeAlu, ha, hb,
      Int.toNat_natCast]
  · rw [bitOr_natCast]
  · rw [bitAnd_natCast]
  · rw [bitXor_natCast]

theorem toNat_decide_cases (p : Prop) [Decidable p] :
    p ∧ ((decide p).toNat : Int) = 1 ∨ ¬ p ∧ ((decide p).toNat : Int) = 0 := by
  by_cases h : p
  · exact .inl ⟨h, by rw [decide_eq_true h]; rfl⟩
  · exact .inr ⟨h, by rw [decide_eq_false h]; rfl⟩

/-- With a flag: the register gets the result reduced to a byte, after VF got what the law asks
for. -/
theorem WellFormed.execute_flagged (hm : m.WellFormed) (hw : w.SetsFlag) :
    ∃ flag : Bool,
      m.execute (Instruction.decodeAlu w) =
        (m.setFlagged flag w.x (w.combine (m.v.get w.x) (m.v.get w.y) % 256), none) ∧
      w.Law (m.v.get w.x) (m.v.get w.y) (w.combine (m.v.get w.x) (m.v.get w.y) % 256)
        flag.toNat := by
  have ha := hm.get_mem w.x
  have hb := hm.get_mem w.y
  have hcases : w.n.val = 4 ∨ w.n.val = 5 ∨ w.n.val = 6 ∨ w.n.val = 7 ∨ w.n.val = 0xE := by
    obtain ⟨-, hn⟩ := hw
    omega
  simp only [Instruction.decodeAlu, Opcode.combine, Opcode.Law]
  rcases hcases with hop | hop | hop | hop | hop <;> simp only [hop, ← natCast_low8]
  · have hcarry := toNat_decide_cases (255 < m.v.get w.x + m.v.get w.y)
    refine ⟨_, rfl, ?_⟩
    rw [natCast_low8]
    omega
  · have hborrow := toNat_decide_cases (m.v.get w.y ≤ m.v.get w.x)
    refine ⟨_, rfl, ?_⟩
    rw [natCast_low8]
    omega
  · have hlow := toNat_decide_cases (m.v.get w.x % 2 = 1)
    have hhalf : (low8 (m.v.get w.x / 2) : Int) = m.v.get w.x / 2 := by
      rw [natCast_low8]
      omega
    rw [hhalf]
    refine ⟨_, rfl, ?_⟩
    rw [← beq_eq_decide] at hlow
    omega
  · have hborrow := toNat_decide_cases (m.v.get w.x ≤ m.v.get w.y)
    refine ⟨_, rfl, ?_⟩
    rw [natCast_low8]
    omega
  · have hhigh := toNat_decide_cases (m.v.get w.x / 128 % 2 = 1)
    refine ⟨_, rfl, ?_⟩
    rw [natCast_low8]
    rw [← beq_eq_decide] at hhigh
    omega

theorem execute_unknown (m : Machine) (hn : 7 < w.n.val ∧ w.n.val ≠ 0xE) :
    m.execute (Instruction.decodeAlu w) = (m, none) := by
  unfold Instruction.decodeAlu
  split <;> first | rfl | omega

theorem executed_alu (hk : m.opcodeAt.kind = 0x8) :
    m.executed = m.advance.execute (Instruction.decodeAlu m.opcodeAt) := by
  simp only [executed, Instruction.decode, hk]

theorem step_unknown (hk : m.opcodeAt.kind = 0x8)
    (hn : 7 < m.opcodeAt.n.val ∧ m.opcodeAt.n.val ≠ 0xE) :
    m.step.2 = none ∧ m.step.1.v = m.v := by
  rw [m.step_of_ok ((executed_alu hk).trans (m.advance.execute_unknown hn))]
  exact ⟨rfl, rfl⟩

section
variable (hm : m.WellFormed) (hk : m.opcodeAt.kind = 0x8)
include hm hk

theorem WellFormed.step_plain (hn : m.opcodeAt.n.val ≤ 3) :
    m.step.2 = none ∧ ∀ r, m.step.1.v.get r =
      if r = m.opcodeAt.x then m.opcodeAt.combine (m.v.get m.opcodeAt.x) (m.v.get m.opcodeAt.y)
      else m.v.get r := by
  rw [m.step_of_ok ((executed_alu hk).trans (hm.advance.execute_plain hn))]
  exact ⟨rfl, fun r => m.get_setV _ r _⟩

theorem WellFormed.step_flagged
    (hn : 4 ≤ m.opcodeAt.n.val ∧ m.opcodeAt.n.val ≤ 7 ∨ m.opcodeAt.n.val = 0xE) :
    let a := m.v.get m.opcodeAt.x
    let b := m.v.get m.opcodeAt.y
    let result := m.opcodeAt.combine a b % 256
    ∃ flag : Bool, m.opcodeAt.Law a b result flag.toNat ∧ m.step.2 = none ∧
      ∀ r, m.step.1.v.get r = if r = m.opcodeAt.x then result else if r = 0xF then flag.toNat
        else m.v.get r := by
  obtain ⟨flag, hflagged, hlaw⟩ := hm.advance.execute_flagged ⟨hk, hn⟩
  rw [m.step_of_ok ((executed_alu hk).trans hflagged)]
  exact ⟨flag, hlaw, rfl, fun r => m.get_setFlagged flag _ r _⟩

theorem WellFormed.alu_frame :
    m.step.2 = none ∧ ∀ r, r ≠ m.opcodeAt.x → r ≠ 0xF → m.step.1.v.get r = m.v.get r := by
  have hn : m.opcodeAt.n.val ≤ 3 ∨
      (4 ≤ m.opcodeAt.n.val ∧ m.opcodeAt.n.val ≤ 7 ∨ m.opcodeAt.n.val = 0xE) ∨
        7 < m.opcodeAt.n.val ∧ m.opcodeAt.n.val ≠ 0xE := by omega
  rcases hn with hn | hn | hn
  · obtain ⟨hok, hget⟩ := hm.step_plain hk hn
    refine ⟨hok, ?_⟩
    intro r hx _
    rw [hget, if_neg hx]
  · obtain ⟨flag, -, hok, hget⟩ := hm.step_flagged hk hn
    refine ⟨hok, ?_⟩
    intro r hx hf
    rw [hget, if_neg hx, if_neg hf]
  · obtain ⟨hok, hv⟩ := step_unknown hk hn
    exact ⟨hok, fun r _ _ => congrArg (·.get r) hv⟩

end

/-- Every word `8XYn` is executed. For `n` up to 3 the result is as it comes, and VF stays if X is
not F. For 4 to 7 and E the result is reduced, also in VF if X is F; otherwise VF has the flag that
obeys the law. Another `n` changes no register, and none changes one other than VX and VF. The
operands are those from before the step. -/
theorem alu_laws (hm : m.WellFormed) (hk : m.opcodeAt.kind = 0x8) :
    let w := m.opcodeAt
    let a := m.v.get w.x
    let b := m.v.get w.y
    let v := m.step.1.v
    m.step.2 = none ∧ (0 ≤ v.get w.x ∧ v.get w.x ≤ 255) ∧
      (w.n.val ≤ 3 → v.get w.x = w.combine a b ∧ (w.x ≠ 0xF → v.get 0xF = m.v.get 0xF)) ∧
      (4 ≤ w.n.val ∧ w.n.val ≤ 7 ∨ w.n.val = 0xE → v.get w.x = w.combine a b % 256 ∧
        (w.x ≠ 0xF → (v.get 0xF = 0 ∨ v.get 0xF = 1) ∧ w.Law a b (v.get w.x) (v.get 0xF))) ∧
      (7 < w.n.val ∧ w.n.val ≠ 0xE → v = m.v) ∧
      ∀ r, r ≠ w.x → r ≠ 0xF → v.get r = m.v.get r := by
  intro w a b v
  obtain ⟨hok, hframe⟩ := hm.alu_frame hk
  have hbyte : 0 ≤ v.get w.x ∧ v.get w.x < 256 := hm.step.get_mem w.x
  refine ⟨hok, by omega, ?_, ?_, ?_, hframe⟩
  · intro hn
    obtain ⟨-, hget⟩ := hm.step_plain hk hn
    refine ⟨by rw [hget, if_pos rfl], ?_⟩
    intro hx
    rw [hget, if_neg hx.symm]
  · intro hn
    obtain ⟨flag, hlaw, -, hget⟩ := hm.step_flagged hk hn
    have hresult : v.get w.x = w.combine a b % 256 := by rw [hget, if_pos rfl]
    refine ⟨hresult, ?_⟩
    intro hx
    have hflag : v.get 0xF = flag.toNat := by rw [hget, if_neg hx.symm, if_pos rfl]
    rw [hresult, hflag]
    exact ⟨by cases flag <;> decide, hlaw⟩
  · intro hn
    exact (step_unknown hk hn).2

/-- Three less seven, with the seven in VF, where the borrow then goes. -/
theorem alu_laws_of_borrow :
    let m := (((fresh .silent .zeros).act (.load [0x81, 0xF5])).setV 0x1 3).setV 0xF 7
    m.WellFormed ∧ m.opcodeAt.kind = 0x8 ∧ m.step.1.v.get 0x1 = 252 ∧ m.step.1.v.get 0xF = 0 := by
  intro m
  have hloaded := (fresh_wellFormed .silent .zeros).act (.load [0x81, 0xF5])
  have hm : m.WellFormed := (hloaded.setV 0x1 (by decide)).setV 0xF (by decide)
  have hbefore : m.opcodeAt.val = 0x81F5 ∧ m.v.get 0x1 = 3 ∧ m.v.get 0xF = 7 := by decide +kernel
  obtain ⟨hval, ha, hb⟩ := hbefore
  have hw : m.opcodeAt = ⟨0x81F5, by decide⟩ := Opcode.ext hval
  have hk : m.opcodeAt.kind = 0x8 := by rw [hw]; rfl
  have hlaws := alu_laws hm hk
  rw [hw] at hlaws
  obtain ⟨-, hbyte, -, hflagged, -⟩ := hlaws
  obtain ⟨-, hflag⟩ := hflagged (by decide)
  obtain ⟨hbit, hlaw⟩ := hflag (by decide)
  have hmem : 0 ≤ m.step.1.v.get 0x1 ∧ m.step.1.v.get 0x1 ≤ 255 := hbyte
  have hsub : m.step.1.v.get 0x1 = m.v.get 0x1 - m.v.get 0xF + 256 * (1 - m.step.1.v.get 0xF) :=
    hlaw
  rw [ha, hb] at hsub
  refine ⟨hm, hk, ?_, ?_⟩ <;> omega

end Machine

end ChipEight
