import ChipEight.Options

/-! # What is left blank

To the current reader whatever stands behind an equals sign is a value, so that it leaves no option
blank (`Options.blank_eq_nil`).
-/

namespace ChipEight

namespace CommandLine.Grammar
variable {κ : Type} {g : Grammar κ}

theorem assign_of_current (h : g.dialect = .current) (s : Spec κ) (text : List Char) :
    g.assign s text = .value s (String.ofList text) := by
  rw [assign, h]
  exact if_neg fun hearly => nomatch hearly.1

theorem notMem_after {a : Action κ} {actions : List (Action κ)}
    {r : List (Action κ) × Option UsageError} (h : a ∉ actions) (hr : a ∉ r.1) :
    a ∉ (after actions r).1 := by
  rw [after, List.mem_append, not_or]
  exact ⟨h, hr⟩

theorem blank_notMem_scan (h : g.dialect = .current) (s : Spec κ) (place : Place)
    (extras : List String) (words : List (Word κ)) :
    .blank s ∉ (g.scan place extras words).1 := by
  have hflags (flags : List (Spec κ)) : .blank s ∉ flags.map Action.flag := by simp
  fun_induction g.scan place extras words with
  | case1 | case8 | case12 => exact List.not_mem_nil
  | case3 | case4 | case5 | case6 | case7 => assumption
  | case2 _ _ _ ih => exact notMem_after (by simp) ih
  | case9 _ _ _ _ _ _ _ _ ih => exact notMem_after (hflags _) ih
  | case10 _ _ _ _ _ _ _ _ _ ih =>
    -- an attached value is a value, whatever it looks like
    rw [assign_of_current h]
    exact notMem_after (List.not_mem_append (hflags _) (by simp)) ih
  | case11 _ _ _ _ _ _ _ _ _ _ ih | case13 _ _ _ _ _ _ _ _ _ ih =>
    exact notMem_after (List.not_mem_append (hflags _) (by simp)) ih

theorem blank_notMem_read (h : g.dialect = .current) (s : Spec κ) (args : List String) :
    .blank s ∉ (g.read args).1 := by
  rw [read]
  split
  · exact List.not_mem_nil
  · exact blank_notMem_scan h s _ _ _

end CommandLine.Grammar

namespace Options

variable {o o' : Options} {args : List String}

theorem blank_fill (h : o.blank = []) (key : Key) : (o.fill key).blank = [] := by
  rw [fill, h]; rfl

theorem blank_setFlag (o : Options) (key : Key) : (o.setFlag key).blank = o.blank := by
  cases key <;> rfl

theorem blank_setNumber (o : Options) (n : Int) (key : Key) :
    (o.setNumber n key).blank = o.blank := by
  cases key <;> rfl

theorem blank_interpret {actions : List (CommandLine.Action Key)}
    {e : Option CommandLine.UsageError} (h : o.blank = []) (hno : ∀ s, .blank s ∉ actions)
    (hrun : o.interpret actions e = .ok (.run o')) : o'.blank = [] := by
  induction actions generalizing o with
  | nil =>
    cases e with
    | some e => cases hrun
    | none => cases hrun; exact h
  | cons action actions ih =>
    have hrest : ∀ s, .blank s ∉ actions := fun s hs => hno s (List.mem_cons_of_mem _ hs)
    cases action with
    | blank s => exact absurd List.mem_cons_self (hno s)
    | operand text => exact ih (o := { o with rom := text }) h hrest hrun
    | flag s =>
      rw [interpret] at hrun
      split at hrun
      · cases hrun
      · exact ih ((o.blank_setFlag s.key).trans h) hrest hrun
    | value s text =>
      rw [interpret] at hrun
      split at hrun
      · exact ih (blank_fill (o := { o with keys := some text }) h s.key) hrest hrun
      split at hrun
      · cases hrun
      next n _ => exact ih (blank_fill ((o.blank_setNumber n s.key).trans h) s.key) hrest hrun

/-- The current reader leaves no option blank. -/
theorem blank_eq_nil (h : parse .current args = .ok (.run o)) : o.blank = [] :=
  blank_interpret rfl (fun s => CommandLine.Grammar.blank_notMem_read rfl s args) h

end Options

end ChipEight
