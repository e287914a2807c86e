import Mathlib.Data.List.Basic

/-! # Fields

A text made of fields that are set apart by separators. A field without the character that the
separator behind it begins with ends there, so that two texts of this form are equal only if their
fields are: `field_inj` for one field and what follows it, `intercalate_inj` for fields with one
separator. Where there may be no field, a word that is none of them takes their place (`wordsOr`).
-/

namespace ChipEight.Text

theorem append_cons_inj {α : Type} {c : α} {a a' b b' : List α} (ha : c ∉ a) (ha' : c ∉ a') :
    a ++ c :: b = a' ++ c :: b' ↔ a = a' ∧ b = b' := by
  refine ⟨fun h => ?_, fun ⟨ha, hb⟩ => by rw [ha, hb]⟩
  induction a generalizing a' with
  | nil =>
    cases a' with
    | nil => exact ⟨rfl, (List.cons.inj h).2⟩
    | cons x a' => exact absurd (List.mem_cons.2 (.inl (List.cons.inj h).1)) ha'
  | cons x a ih =>
    cases a' with
    | nil => exact absurd (List.mem_cons.2 (.inl (List.cons.inj h).1.symm)) ha
    | cons x' a' =>
      obtain ⟨rfl, htail⟩ := List.cons.inj h
      obtain ⟨rfl, rfl⟩ := ih (mt (List.mem_cons_of_mem x) ha)
        (mt (List.mem_cons_of_mem x) ha') htail
      exact ⟨rfl, rfl⟩

section
variable {c : Char} {sep : String}

theorem field_inj (hsep : sep.toList.head? = some c) {a a' b b' : String} (ha : c ∉ a.toList)
    (ha' : c ∉ a'.toList) : a ++ (sep ++ b) = a' ++ (sep ++ b') ↔ a = a' ∧ b = b' := by
  obtain ⟨rest, hrest⟩ := List.head?_eq_some_iff.1 hsep
  simp only [← String.toList_inj, String.toList_append, hrest, List.cons_append]
  rw [append_cons_inj ha ha', List.append_cancel_left_eq]

theorem ne_of_separated (hsep : sep.toList.head? = some c) {a b rest : String} (ha : c ∉ a.toList) :
    a ≠ b ++ sep ++ rest := by
  rintro rfl
  have hc := List.mem_of_mem_head? hsep
  simp [hc] at ha

theorem intercalate_inj (hsep : sep.toList.head? = some c) {as bs : List String}
    (has : ∀ a ∈ as, c ∉ a.toList) (hbs : ∀ b ∈ bs, c ∉ b.toList) (hne : as ≠ []) (hne' : bs ≠ []) :
    sep.intercalate as = sep.intercalate bs ↔ as = bs := by
  refine ⟨fun h => ?_, fun h => by rw [h]⟩
  induction as generalizing bs with
  | nil => exact absurd rfl hne
  | cons a as ih =>
    cases bs with
    | nil => exact absurd rfl hne'
    | cons b bs =>
      rw [List.forall_mem_cons] at has hbs
      cases as with
      | nil =>
        cases bs with
        | nil => rw [String.intercalate_singleton, String.intercalate_singleton] at h; rw [h]
        | cons b' bs =>
          rw [String.intercalate_singleton, String.intercalate_cons_cons] at h
          exact absurd h (ne_of_separated hsep has.1)
      | cons a' as =>
        cases bs with
        | nil =>
          rw [String.intercalate_singleton, String.intercalate_cons_cons] at h
          exact absurd h.symm (ne_of_separated hsep hbs.1)
        | cons b' bs =>
          rw [String.intercalate_cons_cons, String.intercalate_cons_cons, String.append_assoc,
            String.append_assoc, field_inj hsep has.1 hbs.1] at h
          rw [h.1, ih has.2 hbs.2 (List.cons_ne_nil _ _) (List.cons_ne_nil _ _) h.2]

end

theorem notMem_append {c : Char} {s t : String} :
    c ∉ (s ++ t).toList ↔ c ∉ s.toList ∧ c ∉ t.toList := by
  rw [String.toList_append, List.mem_append, not_or]

theorem mem_intercalate {α : Type} {x : α} {sep : List α} {ls : List (List α)}
    (h : x ∈ sep.intercalate ls) :
    x ∈ sep ∨ ∃ l ∈ ls, x ∈ l := by
  induction ls with
  | nil => simp at h
  | cons l ls ih =>
    cases ls with
    | nil => exact .inr ⟨l, List.mem_singleton_self l, by rwa [List.intercalate_singleton] at h⟩
    | cons l' ls =>
      rw [List.intercalate_cons_cons, List.append_assoc, List.mem_append, List.mem_append] at h
      rcases h with h | h | h
      · exact .inr ⟨l, List.mem_cons_self, h⟩
      · exact .inl h
      · rcases ih h with h | ⟨k, hk, hx⟩
        · exact .inl h
        · exact .inr ⟨k, List.mem_cons_of_mem l hk, hx⟩

theorem notMem_intercalate {c : Char} {sep : String} (hsep : c ∉ sep.toList) {as : List String}
    (has : ∀ a ∈ as, c ∉ a.toList) : c ∉ (sep.intercalate as).toList := by
  rw [String.toList_intercalate]
  intro h
  rcases mem_intercalate h with h | ⟨l, hl, h⟩
  · exact hsep h
  · obtain ⟨a, ha, rfl⟩ := List.mem_map.1 hl
    exact has a ha h

/-! ### Words -/

/-- The words, or one that stands for having none. -/
def wordsOr (absent : String) (words : List String) : List String :=
  if words = [] then [absent] else words

section
variable {absent : String} {as bs : List String}

theorem wordsOr_ne_nil : wordsOr absent as ≠ [] := by
  unfold wordsOr
  split
  · exact List.cons_ne_nil _ _
  · assumption

theorem wordsOr_inj (has : absent ∉ as) (hbs : absent ∉ bs) :
    wordsOr absent as = wordsOr absent bs ↔ as = bs := by
  refine ⟨fun h => ?_, fun h => by rw [h]⟩
  unfold wordsOr at h
  split at h <;> split at h
  next ha hb => rw [ha, hb]
  · exact absurd (h ▸ List.mem_singleton_self absent) hbs
  · exact absurd (h ▸ List.mem_singleton_self absent) has
  · exact h

theorem notMem_wordsOr {c : Char} (habsent : c ∉ absent.toList) (has : ∀ a ∈ as, c ∉ a.toList) :
    ∀ a ∈ wordsOr absent as, c ∉ a.toList := by
  intro a ha
  unfold wordsOr at ha
  split at ha
  · rw [List.mem_singleton.1 ha]; exact habsent
  · exact has a ha

end

/-! ### Decimal numerals -/

section
variable {c : Char}

theorem notMem_natRepr (hc : c.isDigit = false) (n : Nat) : c ∉ n.repr.toList := by
  rw [Nat.toList_repr]
  intro h
  rw [Nat.isDigit_of_mem_toDigits (by decide) (by decide) h] at hc
  cases hc

theorem notMem_intRepr (hc : c.isDigit = false) (hsign : c ≠ '-') (i : Int) :
    c ∉ i.repr.toList := by
  rw [Int.repr_eq_if]
  split
  · exact notMem_natRepr hc _
  · rw [String.toList_append, List.mem_append]
    rintro (h | h)
    · exact hsign (List.mem_singleton.1 h)
    · exact notMem_natRepr hc _ h

end

end ChipEight.Text
