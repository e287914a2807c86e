import ChipEight.Keypad
import Mathlib.Data.List.FinRange

/-! # Latches

What setting a key does to the sixteen latches (`latches_set`), what a latch is left at by many
settings (`isDown_foldl`: the last of them that means its key decides), and which of the latches
`firstDown?` finds: the lowest that is down, if one is.
-/

namespace ChipEight

theorem nibble_val (j : Fin 16) : nibble j.val = j := by
  apply Fin.ext
  simp only [nibble, Fin.val_ofNat]
  omega

theorem nibble_eq_iff {a b : Int} : nibble a = nibble b ↔ a % 16 = b % 16 := by
  simp only [nibble, Fin.ext_iff, Fin.val_ofNat]
  omega

/-- Where the event leaves the latch of a key, if it is about that key. -/
def KeyEvent.says? (key : Int) (e : KeyEvent) : Option Bool :=
  if e.key % 16 = key % 16 then some e.down else none

namespace Keypad

variable {k : Keypad} {j : Fin 16}

/-- No key is down. -/
def AllUp (k : Keypad) : Prop := ∀ j : Fin 16, k.latches.get j = false

instance (k : Keypad) : Decidable k.AllUp := inferInstanceAs (Decidable (∀ _, _))

/-- Key `j` is down, and no key below it is. -/
structure Lowest (k : Keypad) (j : Fin 16) : Prop where
  down : k.latches.get j = true
  below : ∀ i : Fin 16, i < j → k.latches.get i = false

theorem latches_set (k : Keypad) (key : Int) (down : Bool) (j : Fin 16) :
    (k.set key down).latches.get j = if nibble key = j then down else k.latches.get j := by
  show (k.set key down).latches[j] = if nibble key = j then down else k.latches[j]
  simp only [set, Fin.getElem_fin, Vector.getElem_set, Fin.ext_iff]

theorem isDown_apply (k : Keypad) (e : KeyEvent) (key : Int) :
    (k.apply e).isDown key = (e.says? key).getD (k.isDown key) := by
  simp only [isDown, apply, latches_set, nibble_eq_iff, KeyEvent.says?]
  split <;> rfl

/-- If each of many deeds says where it leaves a latch, or leaves it alone, the last that says it
decides. -/
theorem isDown_foldl {α : Type} {act : Keypad → α → Keypad} {says? : α → Option Bool} {key : Int}
    (hact : ∀ k a, (act k a).isDown key = (says? a).getD (k.isDown key)) (k : Keypad)
    (as : List α) :
    (as.foldl act k).isDown key = (as.reverse.findSome? says?).getD (k.isDown key) := by
  induction as generalizing k with
  | nil => rfl
  | cons a as ih =>
    rw [List.foldl_cons, ih, hact, List.reverse_cons, List.findSome?_append,
      List.findSome?_singleton]
    cases as.reverse.findSome? says? <;> rfl

theorem isDown_applied (k : Keypad) (es : List KeyEvent) (key : Int) :
    (es.foldl apply k).isDown key = (es.reverse.findSome? (·.says? key)).getD (k.isDown key) :=
  isDown_foldl (fun k e => k.isDown_apply e key) k es

theorem keysDown_inj {k' : Keypad} : k.keysDown = k'.keysDown ↔ k = k' := by
  refine ⟨fun h => ?_, fun h => by rw [h]⟩
  have hlatch : ∀ j, k.latches.get j = k'.latches.get j := by
    intro j
    have hmem : j ∈ k.keysDown ↔ j ∈ k'.keysDown := by rw [h]
    simp only [keysDown, List.mem_filter, List.mem_finRange, true_and] at hmem
    exact Bool.eq_iff_iff.2 hmem
  obtain ⟨latches⟩ := k
  obtain ⟨latches'⟩ := k'
  exact congrArg Keypad.mk (Vector.ext fun i hi => hlatch ⟨i, hi⟩)

theorem Lowest.not_allUp (h : k.Lowest j) : ¬ k.AllUp := by
  intro hup
  have hdown := h.down
  rw [hup j] at hdown
  cases hdown

theorem firstDown?_eq_none_iff : k.firstDown? = none ↔ k.AllUp := by
  rw [firstDown?, keysDown, List.head?_filter, List.find?_eq_none]
  constructor
  · intro h j
    exact Bool.eq_false_iff.2 (h j (List.mem_finRange j))
  · intro h j _
    exact Bool.eq_false_iff.1 (h j)

theorem lowest_of_firstDown? (h : k.firstDown? = some j) : k.Lowest j := by
  rw [firstDown?, keysDown, List.head?_filter, List.find?_eq_some_iff_getElem] at h
  obtain ⟨hdown, n, hn, hj, hbelow⟩ := h
  rw [List.getElem_finRange] at hj
  have hnj : n = j.val := congrArg Fin.val hj
  refine ⟨hdown, fun i hi => ?_⟩
  have hup := hbelow i.val (by omega)
  rw [List.getElem_finRange, Bool.not_eq_true'] at hup
  exact hup

theorem lowest_or_allUp (k : Keypad) : (∃ j, k.firstDown? = some j ∧ k.Lowest j) ∨ k.AllUp := by
  cases h : k.firstDown? with
  | none => exact .inr (firstDown?_eq_none_iff.1 h)
  | some j => exact .inl ⟨j, rfl, lowest_of_firstDown? h⟩

end Keypad

end ChipEight
