import ChipEight.Proofs.Frame

/-! # Frames read back

A frame is written with as many rows as its first column has bytes. A column that ends above the
last of them cannot be written, and a longer one is cut (`rows?_eq_none_iff`, `rows?_of_length_le`).
Written with two marks that are no line feed, a frame of lit and dark pixels can be read back from
its text without its size being known (`ofText_render`).
-/

namespace ChipEight.Frame

/-- A lit pixel is the byte 1. -/
def Binary (f : Frame) : Prop := ∀ column ∈ f, ∀ b ∈ column, b = 0 ∨ b = 1

def lines (text : String) : List (List Char) := text.toList.splitOn '\n'

/-- The frame whose columns stand in the lines of a text, with `on` for a lit pixel. -/
def ofText (on : Char) (text : String) : Frame :=
  (List.range ((lines text).headD []).length).map fun x =>
    (lines text).map fun row => if row[x]? = some on then 1 else 0

theorem mapM_eq_none {α β : Type} {l : List α} {f : α → Option β} {a : α} (ha : a ∈ l)
    (h : f a = none) :
    l.mapM f = none := by
  induction l with
  | nil => cases ha
  | cons b l ih =>
    rw [List.mapM_cons]
    rcases List.mem_cons.1 ha with rfl | ha
    · rw [h]; rfl
    · rw [ih ha]; cases f b <;> rfl

section
variable {first : List UInt8} {rest : List (List UInt8)} {on off : String}

/-- The first row that a column is too short for cannot be written. -/
theorem rows?_of_length_lt {column : List UInt8} (hc : column ∈ rest)
    (h : column.length < first.length) (on off : String) : rows? on off (first :: rest) = none := by
  simp only [rows?]
  refine mapM_eq_none (List.mem_range.2 h) ?_
  have hrow : row? on off column.length ((first :: rest).map List.toArray) = none := by
    refine mapM_eq_none (List.mem_map_of_mem (List.mem_cons_of_mem first hc)) ?_
    rw [List.getElem?_toArray, List.getElem?_eq_none (Nat.le_refl _), Option.map_none]
  rw [hrow, Option.map_none]

theorem render_of_length_le (h : ∀ column ∈ rest, first.length ≤ column.length) (on off : String) :
    render (first :: rest) on off = .ok (String.intercalate "\n"
      ((List.range first.length).map fun y => String.join (marks on off (first :: rest) y))) := by
  simp only [render, rows?_of_length_le h]

theorem render_eq_error_iff :
    render (first :: rest) on off = .error .shortColumn ↔
      ∃ column ∈ rest, column.length < first.length := by
  constructor
  · intro herror
    by_contra hnone
    have h : ∀ column ∈ rest, first.length ≤ column.length := fun column hc =>
      Nat.le_of_not_lt fun hlt => hnone ⟨column, hc, hlt⟩
    rw [render_of_length_le h] at herror
    cases herror
  · rintro ⟨column, hc, h⟩
    simp only [render, rows?_of_length_lt hc h]

end

section
variable {w h : Nat} {f : Frame} {on off : Char}

theorem getElem?_marks {α : Type} (on off : α) (f : Frame) (x y : Nat) :
    (f.marks on off y)[x]? = f[x]?.map fun column => if column.getD y 0 ≠ 0 then on else off := by
  rw [marks, List.getElem?_map]

/-- The mark of a pixel says which byte it is. -/
theorem mark_iff (hf : f.HasSize w h) (hbinary : f.Binary) (hne : on ≠ off) {y : Nat} (hy : y < h)
    (x : Nat) :
    ((f.marks on off y)[x]? = some on ↔ (f[x]?.bind fun column => column[y]?) = some 1) ∧
    ((f.marks on off y)[x]? = some off ↔ (f[x]?.bind fun column => column[y]?) = some 0) := by
  rw [getElem?_marks]
  cases hx : f[x]? with
  | none => exact ⟨⟨nofun, nofun⟩, ⟨nofun, nofun⟩⟩
  | some column =>
    have hmem := List.mem_of_getElem? hx
    have hlt : y < column.length := by rw [hf.2 column hmem]; exact hy
    have hbyte := hbinary column hmem _ (List.getElem_mem hlt)
    rw [Option.map_some, Option.bind_some, List.getD_eq_getElem _ _ hlt,
      List.getElem?_eq_getElem hlt]
    rcases hbyte with hb | hb <;> simp [hb, hne, hne.symm]

/-- A column is told by which of its pixels are lit. -/
theorem map_range_lit {column : List UInt8} (hbinary : ∀ b ∈ column, b = 0 ∨ b = 1) :
    (List.range column.length).map (fun y => if column.getD y 0 ≠ 0 then (1 : UInt8) else 0) =
      column := by
  refine List.ext_getElem (by simp) fun y _ hy => ?_
  rw [List.getElem_map, List.getElem_range, List.getD_eq_getElem _ _ hy]
  rcases hbinary _ (List.getElem_mem hy) with hb | hb <;> simp [hb]

theorem ofText_render (hf : f.HasSize w h) (hw : 0 < w) (hh : 0 < h) (hbinary : f.Binary)
    (hne : on ≠ off) (hon : on ≠ '\n') (hoff : off ≠ '\n') {text : String}
    (htext : f.render (String.singleton on) (String.singleton off) = .ok text) :
    ofText on text = f := by
  have hlines : lines text = (List.range h).map (f.marks on off) :=
    splitOn_render hf hw hh hon hoff htext
  have hhead : ((lines text).headD []).length = f.length := by
    obtain ⟨h, rfl⟩ := Nat.exists_eq_add_one.2 hh
    rw [hlines, List.range_succ_eq_map, List.map_cons, List.headD_cons, marks, List.length_map]
  rw [ofText, hhead, hlines]
  refine List.ext_getElem (by simp) fun x _ hx => ?_
  have hlit : ∀ y, (if (f.marks on off y)[x]? = some on then (1 : UInt8) else 0) =
      if f[x].getD y 0 ≠ 0 then 1 else 0 := by
    intro y
    rw [getElem?_marks, List.getElem?_eq_getElem hx, Option.map_some]
    by_cases hb : f[x].getD y 0 ≠ 0
    · rw [if_pos hb, if_pos rfl, if_pos hb]
    · rw [if_neg hb, if_neg (fun heq => hne (Option.some.inj heq).symm), if_neg hb]
  simp only [List.getElem_map, List.getElem_range, List.map_map, Function.comp_def, hlit]
  have hmem := List.getElem_mem hx
  rw [← hf.2 f[x] hmem]
  exact map_range_lit (hbinary f[x] hmem)

end

/-- A frame is written unless a column ends above the last row of the first: row `y` has the marks
of the bytes at height `y`, from left to right. If these are lit and dark pixels, the text tells
them all, and the size. -/
theorem render_transposed :
    (∀ (first : List UInt8) (rest : List (List UInt8)) (on off : String),
      (render (first :: rest) on off = .error .shortColumn ↔
        ∃ column ∈ rest, column.length < first.length) ∧
      ((∀ column ∈ rest, first.length ≤ column.length) →
        render (first :: rest) on off = .ok (String.intercalate "\n"
          ((List.range first.length).map fun y => String.join (marks on off (first :: rest) y))))) ∧
    ∀ (w h : Nat) (f : Frame) (on off : Char), 0 < w → 0 < h → f.HasSize w h → f.Binary → on ≠ off →
      on ≠ '\n' → off ≠ '\n' →
      ∃ text, f.render (.singleton on) (.singleton off) = .ok text ∧ ofText on text = f ∧
        (lines text).length = h ∧
        (∀ y < h, ∃ row, (lines text)[y]? = some row ∧ row.length = w ∧
          ∀ x : Nat, (row[x]? = some on ↔ (f[x]?.bind fun column => column[y]?) = some 1) ∧
            (row[x]? = some off ↔ (f[x]?.bind fun column => column[y]?) = some 0)) ∧
        ∀ (w' h' : Nat) (g : Frame), 0 < w' → 0 < h' → g.HasSize w' h' → g.Binary →
          g.render (.singleton on) (.singleton off) = .ok text → g = f := by
  refine ⟨fun first rest on off => ⟨render_eq_error_iff, fun h => render_of_length_le h on off⟩,
    fun w h f on off hw hh hf hbinary hne hon hoff => ?_⟩
  have htext := render_of_hasSize hf hw (String.singleton on) (String.singleton off)
  have hlines : lines _ = (List.range h).map (f.marks on off) :=
    splitOn_render hf hw hh hon hoff htext
  have hread := ofText_render hf hw hh hbinary hne hon hoff htext
  refine ⟨_, htext, hread, by rw [hlines, List.length_map, List.length_range], fun y hy => ?_,
    fun w' h' g hw' hh' hg hgbinary hgtext => ?_⟩
  · refine ⟨f.marks on off y, ?_, by rw [marks, List.length_map, hf.1], mark_iff hf hbinary hne hy⟩
    rw [hlines, List.getElem?_map, List.getElem?_range hy, Option.map_some]
  · rw [← hread, ofText_render hg hw' hh' hgbinary hne hon hoff hgtext]

/-- Three columns of two pixels; and columns that are too short or are cut. -/
theorem render_transposed_of_letters :
    let f : Frame := [[1, 0], [0, 1], [1, 1]]
    f.HasSize 3 2 ∧ f.Binary ∧ f.render "x" "o" = .ok "xox\noxx" ∧ ofText 'x' "xox\noxx" = f ∧
      (∃ row, (lines "xox\noxx")[1]? = some row ∧ row.length = 3 ∧ row[0]? = some 'o') ∧
      (∀ (w h : Nat) (g : Frame), 0 < w → 0 < h → g.HasSize w h → g.Binary →
        g.render "x" "o" = .ok "xox\noxx" → g = f) ∧
      render [[1, 0], [9, 9, 9]] "x" "o" = .ok "xx\nox" ∧
      render [[1, 0], [9, 9, 9], [7]] "x" "o" = .error .shortColumn := by
  intro f
  have hf : f.HasSize 3 2 := ⟨rfl, by decide⟩
  have hbinary : f.Binary := by simp [f, Binary]
  have hwritten : f.render "x" "o" = .ok "xox\noxx" := by decide +kernel
  obtain ⟨hragged, hread⟩ := render_transposed
  obtain ⟨text, htext, hback, -, hrows, hinj⟩ :=
    hread 3 2 f 'x' 'o' (by decide) (by decide) hf hbinary (by decide) (by decide) (by decide)
  obtain rfl : text = "xox\noxx" := Except.ok.inj (htext.symm.trans hwritten)
  obtain ⟨row, hrow, hlength, hmarks⟩ := hrows 1 (by decide)
  refine ⟨hf, hbinary, hwritten, hback, ⟨row, hrow, hlength, (hmarks 0).2.2 rfl⟩, hinj, ?_, ?_⟩
  · rw [(hragged [1, 0] [[9, 9, 9]] "x" "o").2 (by decide)]; decide +kernel
  · exact (hragged [1, 0] [[9, 9, 9], [7]] "x" "o").1.2 ⟨[7], by decide, by decide⟩

end ChipEight.Frame
