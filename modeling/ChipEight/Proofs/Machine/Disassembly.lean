import ChipEight.Machine.Step
import ChipEight.Proofs.Instruction.Assembly

/-! # What is listed is what is executed

Words that are written alike are executed alike (`perform_of_disassemble`): a listing hides nothing
but what the machine does not look at either. Words listed as data, and calls into host code, do
nothing.
-/

namespace ChipEight

namespace Instruction
variable {ins : Instruction}

theorem idle_of_mnemonic (h : ins.mnemonic = .dw ∨ ins.mnemonic = .sys) :
    (∃ w, ins = .data w) ∨ ∃ nnn, ins = .sys nnn := by
  cases ins with
  | data w => exact .inl ⟨w, rfl⟩
  | sys nnn => exact .inr ⟨nnn, rfl⟩
  | alu op => cases op <;> simp [mnemonic] at h
  | misc op => cases op <;> simp [mnemonic] at h
  | _ => simp [mnemonic] at h

theorem idle_of_prefix (h : "DW".toList <+: ins.written ∨ "SYS".toList <+: ins.written) :
    (∃ w, ins = .data w) ∨ ∃ nnn, ins = .sys nnn := by
  -- no other mnemonic begins with one of these two, nor one of these two with it
  have hname : ∀ t ∈ ["DW".toList, "SYS".toList], ∀ k : Mnemonic,
      t <+: k.text.toList ∨ k.text.toList <+: t → k = .dw ∨ k = .sys := by decide
  apply idle_of_mnemonic
  rcases h with h | h
  · exact hname _ (by simp) _ (List.prefix_or_prefix_of_prefix h ins.mnemonic_prefix_written)
  · exact hname _ (by simp) _ (List.prefix_or_prefix_of_prefix h ins.mnemonic_prefix_written)

end Instruction

namespace Machine

/-- One instruction, with `w` for the word that is fetched. -/
def perform (m : Machine) (w : Opcode) : Machine × Option Error :=
  match m.advance.execute (.decode w) with
  | (m, none) => ({ m with cycles := m.cycles + 1 }, none)
  | (m, some e) => (m, some e)

theorem step_eq_perform (m : Machine) : m.step = m.perform m.opcodeAt := rfl

/-- Words with the same text do the same on every machine, and a word listed as data or as a call
into host code is passed over. -/
theorem perform_of_disassemble :
    (∀ a b : Opcode, disassemble a = disassemble b → ∀ m : Machine, m.perform a = m.perform b) ∧
    (∀ w : Opcode,
      "DW".toList <+: (disassemble w).toList ∨ "SYS".toList <+: (disassemble w).toList →
      ∀ m : Machine,
        m.perform w = ({ m with pc := low16 (m.pc + 2), cycles := m.cycles + 1 }, none)) ∧
    ∀ m : Machine, m.step = m.perform m.opcodeAt := by
  refine ⟨fun a b h m => ?_, fun w h m => ?_, step_eq_perform⟩
  · have hwritten : (Instruction.decode a).written = (Instruction.decode b).written := by
      rw [← toList_disassemble, ← toList_disassemble, h]
    rw [perform, perform, Instruction.written_injective hwritten]
  · rw [toList_disassemble] at h
    rcases Instruction.idle_of_prefix h with ⟨_, hdecode⟩ | ⟨_, hdecode⟩
    · rw [perform, hdecode]; rfl
    · rw [perform, hdecode]; rfl

/-- The last nibble of a skip is not looked at, and `F1FF` is no instruction. -/
theorem perform_of_disassemble_skip :
    let a := Opcode.ofInt 0x5120
    let b := Opcode.ofInt 0x512F
    let w := Opcode.ofInt 0xF1FF
    disassemble a = disassemble b ∧ "DW".toList <+: (disassemble w).toList ∧
      ∀ m : Machine, m.perform a = m.perform b ∧
        m.perform w = ({ m with pc := low16 (m.pc + 2), cycles := m.cycles + 1 }, none) := by
  intro a b w
  have hsame : disassemble a = disassemble b := by decide
  have hdata : "DW".toList <+: (disassemble w).toList := by decide +kernel
  obtain ⟨hperform, hidle, -⟩ := perform_of_disassemble
  exact ⟨hsame, hdata, fun m => ⟨hperform a b hsame m, hidle w (.inl hdata) m⟩⟩

end Machine

end ChipEight
