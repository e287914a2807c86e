import ChipEight.Machine.Report
import ChipEight.Proofs.Text.Fields
import ChipEight.Proofs.Text.Hex
import Mathlib

/-! # What the register report tells

Each row of the report says what it shows: two machines have the same row only if they agree on that
(`registerRow_inj`, `pointerRow_inj`, `stackRow_inj`), whatever integers they hold. An empty stack
has a word of its own, which is no address.
-/

namespace ChipEight.Machine
open Text

def pointerRow (m : Machine) : String :=
  "  PC=" ++ Hex.signedLiteral 3 m.pc ++ "  I=" ++ Hex.signedLiteral 3 m.i ++
    "  DT=" ++ toString m.delay ++ "  ST=" ++ toString m.sound

def stackRow (m : Machine) : String :=
  "  STACK[" ++ toString m.stack.length ++ "] = " ++ m.stackText

def stackWords (m : Machine) : List String :=
  wordsOr "(empty)" (m.stack.reverse.map (Hex.signedLiteral 3))

def reportRows (m : Machine) : List String :=
  [m.registerRow ((List.finRange 16).take 8), m.registerRow ((List.finRange 16).drop 8),
    m.pointerRow, m.stackRow]

theorem report_eq (m : Machine) : m.report = String.intercalate "\n" m.reportRows := rfl

section
variable {m m' : Machine}

/-! ### Registers -/

theorem notMem_registerField {c : Char} (hc : ∀ d : Fin 16, Hex.upperDigit d ≠ c)
    (hmark : c ∉ ['V', '=', '-', 'x']) (hdigit : ∀ d < 16, Hex.digit d ≠ c) (m : Machine)
    (r : Register) : c ∉ (m.registerField r).toList := by
  simp only [List.mem_cons, List.not_mem_nil, or_false, not_or] at hmark
  simp only [registerField, notMem_append]
  refine ⟨⟨⟨?_, ?_⟩, ?_⟩, Hex.notMem_signedLiteral hmark.2.2.1 hmark.2.2.2 hdigit _ _⟩
  · simp [hmark.1]
  · simp [(hc r).symm]
  · simp [hmark.2.1]

theorem registerField_inj {r : Register} :
    m.registerField r = m'.registerField r ↔ m.v.get r = m'.v.get r := by
  rw [registerField, registerField, String.append_right_inj, Hex.signedLiteral_inj]

theorem registerRow_inj {rs : List Register} (hrs : rs ≠ []) :
    m.registerRow rs = m'.registerRow rs ↔ ∀ r ∈ rs, m.v.get r = m'.v.get r := by
  have hblank : ∀ m : Machine, ∀ field ∈ rs.map m.registerField, ' ' ∉ field.toList := by
    intro m field hfield
    obtain ⟨r, -, rfl⟩ := List.mem_map.1 hfield
    exact notMem_registerField (by decide) (by decide) (by decide) m r
  have hne : ∀ m : Machine, rs.map m.registerField ≠ [] := fun m h => hrs (List.map_eq_nil_iff.1 h)
  rw [registerRow, registerRow, String.append_right_inj,
    intercalate_inj (c := ' ') rfl (hblank m) (hblank m') (hne m) (hne m'), List.map_inj_left]
  simp only [registerField_inj]

theorem v_eq_iff : m.v = m'.v ↔ (∀ r ∈ (List.finRange 16).take 8, m.v.get r = m'.v.get r) ∧
    ∀ r ∈ (List.finRange 16).drop 8, m.v.get r = m'.v.get r := by
  rw [← List.forall_mem_append, List.take_append_drop]
  refine ⟨fun h r _ => by rw [h], fun h => Vector.ext fun i hi => h ⟨i, hi⟩ (List.mem_finRange _)⟩

/-! ### Pointers and timers -/

theorem blank_notMem_signedLiteral (width : Nat) (v : Int) :
    ' ' ∉ (Hex.signedLiteral width v).toList :=
  Hex.notMem_signedLiteral (by decide) (by decide) (by decide) width v

theorem pointerRow_inj : m.pointerRow = m'.pointerRow ↔
    m.pc = m'.pc ∧ m.i = m'.i ∧ m.delay = m'.delay ∧ m.sound = m'.sound := by
  have hdelay : ∀ m : Machine, ' ' ∉ (toString m.delay).toList := fun m =>
    notMem_intRepr (by decide) (by decide) m.delay
  simp only [pointerRow, String.append_assoc]
  rw [String.append_right_inj,
    field_inj (c := ' ') rfl (blank_notMem_signedLiteral 3 m.pc)
      (blank_notMem_signedLiteral 3 m'.pc),
    field_inj (c := ' ') rfl (blank_notMem_signedLiteral 3 m.i) (blank_notMem_signedLiteral 3 m'.i),
    field_inj (c := ' ') rfl (hdelay m) (hdelay m'), Hex.signedLiteral_inj, Hex.signedLiteral_inj]
  exact and_congr_right' (and_congr_right' (and_congr Int.repr_inj Int.repr_inj))

/-! ### The stack -/

theorem stackText_eq (m : Machine) : m.stackText = String.intercalate " " m.stackWords := by
  rw [stackText, stackWords, wordsOr]
  simp only [List.map_eq_nil_iff, List.reverse_eq_nil_iff]
  split <;> simp

theorem signedLiteral_ne_empty (width : Nat) (v : Int) : Hex.signedLiteral width v ≠ "(empty)" := by
  intro h
  have hhead := Hex.head?_signedLiteral width v
  rw [h] at hhead
  revert hhead
  decide

theorem stackWords_inj : m.stackWords = m'.stackWords ↔ m.stack = m'.stack := by
  have hempty : ∀ m : Machine, "(empty)" ∉ m.stack.reverse.map (Hex.signedLiteral 3) := by
    intro m hm
    obtain ⟨v, -, hv⟩ := List.mem_map.1 hm
    exact signedLiteral_ne_empty 3 v hv
  have hinj : Function.Injective (Hex.signedLiteral 3) := fun _ _ => Hex.signedLiteral_inj.1
  rw [stackWords, stackWords, wordsOr_inj (hempty m) (hempty m'),
    (List.map_injective_iff.2 hinj).eq_iff, List.reverse_inj]

theorem notMem_stackWords {c : Char} (hempty : c ∉ "(empty)".toList) (hmark : c ∉ ['-', 'x'])
    (hdigit : ∀ d < 16, Hex.digit d ≠ c) (m : Machine) :
    ∀ word ∈ m.stackWords, c ∉ word.toList := by
  simp only [List.mem_cons, List.not_mem_nil, or_false, not_or] at hmark
  refine notMem_wordsOr hempty fun word hword => ?_
  obtain ⟨v, -, rfl⟩ := List.mem_map.1 hword
  exact Hex.notMem_signedLiteral hmark.1 hmark.2 hdigit 3 v

theorem stackRow_inj : m.stackRow = m'.stackRow ↔ m.stack = m'.stack := by
  have hcount : ∀ m : Machine, ']' ∉ (toString m.stack.length).toList := fun m =>
    notMem_natRepr (by decide) m.stack.length
  have hblank : ∀ m : Machine, ∀ word ∈ m.stackWords, ' ' ∉ word.toList :=
    notMem_stackWords (by decide) (by decide) (by decide)
  simp only [stackRow, String.append_assoc]
  rw [String.append_right_inj, field_inj (c := ']') rfl (hcount m) (hcount m'), stackText_eq,
    stackText_eq,
    intercalate_inj (c := ' ') rfl (hblank m) (hblank m') wordsOr_ne_nil wordsOr_ne_nil,
    stackWords_inj]
  exact and_iff_right_of_imp fun h => by rw [h]

end

/-- The rows are lines. -/
theorem newline_notMem_reportRows (m : Machine) : ∀ row ∈ m.reportRows, '\n' ∉ row.toList := by
  have hregisters : ∀ rs, '\n' ∉ (m.registerRow rs).toList := by
    intro rs
    rw [registerRow, notMem_append]
    refine ⟨by decide, notMem_intercalate (by decide) fun field hfield => ?_⟩
    obtain ⟨r, -, rfl⟩ := List.mem_map.1 hfield
    exact notMem_registerField (by decide) (by decide) (by decide) m r
  have hliteral := Hex.notMem_signedLiteral (c := '\n') (by decide) (by decide) (by decide)
  have hpointers : '\n' ∉ m.pointerRow.toList := by
    have hrepr := notMem_intRepr (c := '\n') (by decide) (by decide)
    simp only [pointerRow, notMem_append]
    exact ⟨⟨⟨⟨⟨⟨⟨by decide, hliteral 3 m.pc⟩, by decide⟩, hliteral 3 m.i⟩, by decide⟩,
      hrepr m.delay⟩, by decide⟩, hrepr m.sound⟩
  have hstack : '\n' ∉ m.stackRow.toList := by
    simp only [stackRow, notMem_append, stackText_eq]
    exact ⟨⟨⟨by decide, notMem_natRepr (by decide) _⟩, by decide⟩,
      notMem_intercalate (by decide) (notMem_stackWords (by decide) (by decide) (by decide) m)⟩
  simp [reportRows, hregisters, hpointers, hstack]

end ChipEight.Machine
