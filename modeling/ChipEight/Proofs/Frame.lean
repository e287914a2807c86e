import ChipEight.Proofs.Screen.Draw
import ChipEight.Proofs.Session.Serviceable
import Mathlib.Data.List.GetD

/-! # Frames as text

A frame of some size is written row by row (`Frame.render_of_hasSize`). With two marks that are no
line feed the rows can be read back (`Frame.splitOn_render`), so that among the screens of one size
there is only one with a given text (`Screen.WellFormed.render_inj`).
-/

namespace ChipEight

namespace Frame

/-- Row `y` of a frame, with `on` for each lit pixel and `off` for each dark one. -/
def marks {α : Type} (on off : α) (f : Frame) (y : Nat) : List α :=
  f.map fun column => if column.getD y 0 ≠ 0 then on else off

theorem mapM_eq_some {α β : Type} {l : List α} {f : α → Option β} {g : α → β}
    (h : ∀ a ∈ l, f a = some (g a)) : l.mapM f = some (l.map g) := by
  induction l with
  | nil => rfl
  | cons a l ih =>
    rw [List.forall_mem_cons] at h
    rw [List.mapM_cons, h.1, ih h.2]; rfl

theorem mark_inj {α : Type} {on off : α} (hne : on ≠ off) {b b' : Bool}
    (h : (if b then on else off) = if b' then on else off) : b = b' := by
  cases b <;> cases b'
  · rfl
  · exact absurd h.symm hne
  · exact absurd h hne
  · rfl

variable {w h : Nat} {f : Frame}

theorem row?_eq (on off : String) {y : Nat} (hy : ∀ column ∈ f, y < column.length) :
    row? on off y (f.map List.toArray) = some (f.marks on off y) := by
  rw [row?, List.mapM_map]
  refine mapM_eq_some fun column hc => ?_
  have hlt := hy column hc
  rw [Function.comp_apply, List.getElem?_toArray, List.getElem?_eq_getElem hlt,
    List.getD_eq_getElem _ _ hlt, Option.map_some]

theorem rows?_of_length_le {first : List UInt8} {rest : List (List UInt8)}
    (h : ∀ column ∈ rest, first.length ≤ column.length) (on off : String) :
    rows? on off (first :: rest) =
      some ((List.range first.length).map fun y =>
        String.join (marks on off (first :: rest) y)) := by
  simp only [rows?]
  refine mapM_eq_some fun y hy => ?_
  have hfirst := List.mem_range.1 hy
  have hlt : ∀ column ∈ first :: rest, y < column.length :=
    List.forall_mem_cons.2 ⟨hfirst, fun column hc => Nat.lt_of_lt_of_le hfirst (h column hc)⟩
  rw [row?_eq on off hlt, Option.map_some]

theorem rows?_of_hasSize (hf : f.HasSize w h) (hw : 0 < w) (on off : String) :
    f.rows? on off = some ((List.range h).map fun y => String.join (f.marks on off y)) := by
  cases f with
  | nil => exact absurd hf.1 (Nat.ne_of_lt hw)
  | cons first rest =>
    have hfirst : first.length = h := hf.2 first List.mem_cons_self
    have hrest : ∀ column ∈ rest, first.length ≤ column.length := fun column hc =>
      Nat.le_of_eq (hfirst.trans (hf.2 column (List.mem_cons_of_mem first hc)).symm)
    rw [rows?_of_length_le hrest, hfirst]

theorem render_of_hasSize (hf : f.HasSize w h) (hw : 0 < w) (on off : String) :
    f.render on off =
      .ok (String.intercalate "\n"
        ((List.range h).map fun y => String.join (f.marks on off y))) := by
  simp only [render, rows?_of_hasSize hf hw]

section
variable {on off : Char}

theorem toList_join_marks (on off : Char) (f : Frame) (y : Nat) :
    (String.join (f.marks (String.singleton on) (String.singleton off) y)).toList =
      f.marks on off y := by
  have hmark : ∀ column : List UInt8,
      (if column.getD y 0 ≠ 0 then String.singleton on else String.singleton off).toList =
        [if column.getD y 0 ≠ 0 then on else off] := by
    intro column
    split <;> rw [String.toList_singleton]
  rw [String.toList_join, marks, marks, List.flatMap_map, List.map_eq_flatMap]
  simp only [hmark]

/-- The text read back, row by row. -/
theorem splitOn_render (hf : f.HasSize w h) (hw : 0 < w) (hh : 0 < h) (hon : on ≠ '\n')
    (hoff : off ≠ '\n') {text : String}
    (htext : f.render (String.singleton on) (String.singleton off) = .ok text) :
    text.toList.splitOn '\n' = (List.range h).map (f.marks on off) := by
  rw [render_of_hasSize hf hw] at htext
  have hrows : text.toList = ['\n'].intercalate ((List.range h).map (f.marks on off)) := by
    rw [← Except.ok.inj htext, String.toList_intercalate, List.map_map]
    simp only [Function.comp_def, toList_join_marks]
    rfl
  have hclean : ∀ row ∈ (List.range h).map (f.marks on off), '\n' ∉ row := by
    intro row hrow
    obtain ⟨y, -, rfl⟩ := List.mem_map.1 hrow
    intro hmem
    obtain ⟨column, -, hmark⟩ := List.mem_map.1 hmem
    split at hmark
    · exact hon hmark
    · exact hoff hmark
  have hne : (List.range h).map (f.marks on off) ≠ [] := by simp; omega
  rw [hrows, List.splitOn_intercalate '\n' hclean hne]

end

end Frame

namespace Screen
variable {s t : Screen}

theorem getElem?_marks_frame {α : Type} (on off : α) (s : Screen) (x y : Nat) :
    (s.frame.marks on off y)[x]? = s.columns[x]?.map fun _ => if s.lit x y then on else off := by
  have hbyte : ∀ pixel : Option Bool,
      (pixel.map fun b => if b then (1 : UInt8) else 0).getD 0 ≠ 0 ↔ pixel.getD false := by
    rintro (_ | _ | _) <;> decide
  simp only [Frame.marks, frame, List.map_map, List.getElem?_map, Array.getElem?_toList, lit,
    Array.getD_eq_getD_getElem?]
  cases s.columns[x]? with
  | none => rfl
  | some column =>
    simp only [Option.map_some, Function.comp_apply, List.getD_eq_getElem?_getD, List.getElem?_map,
      Array.getElem?_toList, Option.getD_some, hbyte]

namespace WellFormed

theorem lit_of_le (h : s.WellFormed) {x y : Nat} (hxy : s.width.toNat ≤ x ∨ s.height.toNat ≤ y) :
    s.lit x y = false := by
  rw [lit, Array.getD_eq_getD_getElem?, Array.getD_eq_getD_getElem?]
  cases hc : s.columns[x]? with
  | none => rfl
  | some column =>
    obtain ⟨hx, hcolumn⟩ := Array.getElem?_eq_some_iff.1 hc
    have hsize := h.size_column column (hcolumn ▸ Array.getElem_mem hx)
    rw [h.size_columns] at hx
    rw [Option.getD_some, Array.getElem?_eq_none (by omega), Option.getD_none]

/-- Screens of one size with the same text are the same. -/
theorem render_inj (hs : s.WellFormed) (ht : t.WellFormed) (hwidth : s.width = t.width)
    (hheight : s.height = t.height) {on off : Char} (hne : on ≠ off) (hon : on ≠ '\n')
    (hoff : off ≠ '\n') :
    s.frame.render (String.singleton on) (String.singleton off) =
      t.frame.render (String.singleton on) (String.singleton off) ↔ s = t := by
  refine ⟨fun heq => hs.eq_of_lit ht hwidth hheight fun x y => ?_, fun h => h ▸ rfl⟩
  by_cases hxy : s.width.toNat ≤ x ∨ s.height.toNat ≤ y
  · rw [hs.lit_of_le hxy, ht.lit_of_le (by rwa [← hwidth, ← hheight])]
  obtain ⟨hx, hy⟩ := not_or.1 hxy
  have hsize := ht.frame_hasSize
  rw [← hwidth, ← hheight] at hsize
  have hw : 0 < s.width.toNat := by omega
  have hh : 0 < s.height.toNat := by omega
  have htext := Frame.render_of_hasSize hs.frame_hasSize hw (String.singleton on)
    (String.singleton off)
  have hrows : (List.range s.height.toNat).map (s.frame.marks on off) =
      (List.range s.height.toNat).map (t.frame.marks on off) := by
    rw [← Frame.splitOn_render hs.frame_hasSize hw hh hon hoff htext,
      ← Frame.splitOn_render hsize hw hh hon hoff (heq.symm.trans htext)]
  have hrow := List.map_inj_left.1 hrows y (List.mem_range.2 (by omega))
  have hmark := congrArg (·[x]?) hrow
  obtain ⟨_, hcolumn, -⟩ := hs.getElem?_columns (i := x) (by omega)
  obtain ⟨_, hcolumn', -⟩ := ht.getElem?_columns (i := x) (by rw [← hwidth]; omega)
  simp only [getElem?_marks_frame, hcolumn, hcolumn', Option.map_some, Option.some_inj] at hmark
  exact Frame.mark_inj hne hmark

end WellFormed

end Screen

end ChipEight
