import ChipEight.Proofs.Keypad
import ChipEight.Proofs.Machine.Report
import ChipEight.Session.Report

/-! # What the session report tells

A report is read row by row, and each row word by word: sessions have the same report exactly if
they agree on all that it shows (`report_eq_report_iff`). That no key is down has a word of its own,
and so has a session whose runs have not come to an end yet.
-/

namespace ChipEight

namespace Session
open Text

def cycleRow (s : Session) : String :=
  "  Cycles: " ++ toString s.machine.cycles ++ "  Waiting for key: " ++ flagText s.machine.waiting

def tickRow (s : Session) : String :=
  "  cycle ticks=" ++ toString s.cycles ++ " timer ticks=" ++ toString s.timerTicks ++
    " queued=" ++ toString s.ticksQueued ++ " stop=" ++ s.stopText

def keyWords (s : Session) : List String :=
  wordsOr "none" (s.machine.keypad.keysDown.map fun key => String.singleton (Hex.upperDigit key))

def keyRow (s : Session) : String := "  keys down: " ++ s.keysText

def reportRows (s : Session) : List String :=
  "=== Registers ===" :: s.machine.reportRows ++
    [s.cycleRow, "", "=== Scheduler ===", s.tickRow, s.keyRow]

theorem report_eq (s : Session) : s.report = String.intercalate "\n" s.reportRows := by
  have hmachine : s.machine.reportRows ≠ [] := by simp [Machine.reportRows]
  have hrest : [s.cycleRow, "", "=== Scheduler ===", s.tickRow, s.keyRow] ≠ [] := by simp
  rw [reportRows, List.cons_append, String.intercalate_cons_of_ne_nil (by simp),
    String.intercalate_append_of_ne_nil hmachine hrest, ← Machine.report_eq]
  unfold report cycleRow tickRow keyRow
  simp only [String.intercalate_cons_cons, String.intercalate_singleton, String.append_assoc]

section
variable {s t : Session}

theorem flagText_inj : ∀ {b b' : Bool}, flagText b = flagText b' ↔ b = b' := by decide

theorem cycleRow_inj : s.cycleRow = t.cycleRow ↔
    s.machine.cycles = t.machine.cycles ∧ s.machine.waiting = t.machine.waiting := by
  have hcycles : ∀ s : Session, ' ' ∉ (toString s.machine.cycles).toList := fun s =>
    notMem_natRepr (by decide) s.machine.cycles
  simp only [cycleRow, String.append_assoc]
  rw [String.append_right_inj, field_inj (c := ' ') rfl (hcycles s) (hcycles t), flagText_inj]
  exact and_congr_left' Nat.repr_inj

/-- The word for a stop reason, or for none. -/
theorem stopText_inj : s.stopText = t.stopText ↔ s.stopReason = t.stopReason := by
  unfold stopText
  rcases s.stopReason with _ | (_ | _ | _ | _) <;>
    rcases t.stopReason with _ | (_ | _ | _ | _) <;> decide

theorem tickRow_inj : s.tickRow = t.tickRow ↔ s.cycles = t.cycles ∧ s.timerTicks = t.timerTicks ∧
    s.ticksQueued = t.ticksQueued ∧ s.stopReason = t.stopReason := by
  have hcount : ∀ n : Nat, ' ' ∉ (toString n).toList := fun n => notMem_natRepr (by decide) n
  unfold tickRow
  simp only [String.append_assoc]
  rw [String.append_right_inj, field_inj (c := ' ') rfl (hcount s.cycles) (hcount t.cycles),
    field_inj (c := ' ') rfl (hcount s.timerTicks) (hcount t.timerTicks),
    field_inj (c := ' ') rfl (hcount s.ticksQueued) (hcount t.ticksQueued), stopText_inj]
  exact and_congr Nat.repr_inj (and_congr Nat.repr_inj (and_congr_left' Nat.repr_inj))

theorem keysText_eq (s : Session) : s.keysText = String.intercalate " " s.keyWords := by
  rw [keysText, keyWords]
  cases s.machine.keypad.keysDown with
  | nil => rw [List.map_nil, wordsOr, if_pos rfl, String.intercalate_singleton]
  | cons => rfl

theorem notMem_keyWords {c : Char} (hnone : c ∉ "none".toList) (hdigit : ∀ d, Hex.upperDigit d ≠ c)
    (s : Session) :
    ∀ word ∈ s.keyWords, c ∉ word.toList := by
  refine notMem_wordsOr hnone fun word hword => ?_
  obtain ⟨key, -, rfl⟩ := List.mem_map.1 hword
  rw [String.toList_singleton, List.mem_singleton]
  exact (hdigit key).symm

theorem keyWords_inj : s.keyWords = t.keyWords ↔ s.machine.keypad = t.machine.keypad := by
  have hnone : ∀ keys : List (Fin 16),
      "none" ∉ keys.map fun key => String.singleton (Hex.upperDigit key) := by
    intro keys hkeys
    obtain ⟨key, -, hkey⟩ := List.mem_map.1 hkeys
    revert key
    decide
  have hinj : Function.Injective fun key : Fin 16 => String.singleton (Hex.upperDigit key) := by
    unfold Function.Injective; decide
  rw [keyWords, keyWords, wordsOr_inj (hnone _) (hnone _), (List.map_injective_iff.2 hinj).eq_iff,
    Keypad.keysDown_inj]

theorem keyRow_inj : s.keyRow = t.keyRow ↔ s.machine.keypad = t.machine.keypad := by
  have hblank : ∀ s : Session, ∀ word ∈ s.keyWords, ' ' ∉ word.toList :=
    notMem_keyWords (by decide) (by decide)
  rw [keyRow, keyRow, String.append_right_inj, keysText_eq, keysText_eq,
    intercalate_inj (c := ' ') rfl (hblank s) (hblank t) wordsOr_ne_nil wordsOr_ne_nil,
    keyWords_inj]

/-- The rows are lines. -/
theorem newline_notMem_reportRows (s : Session) : ∀ row ∈ s.reportRows, '\n' ∉ row.toList := by
  have hcount : ∀ n : Nat, '\n' ∉ (toString n).toList := fun n => notMem_natRepr (by decide) n
  have hcycle : '\n' ∉ s.cycleRow.toList := by
    have hflag : ∀ b, '\n' ∉ (flagText b).toList := by decide
    simp only [cycleRow, notMem_append]
    exact ⟨⟨⟨by decide, hcount _⟩, by decide⟩, hflag _⟩
  have htick : '\n' ∉ s.tickRow.toList := by
    have hstop : '\n' ∉ s.stopText.toList := by
      unfold stopText
      rcases s.stopReason with _ | (_ | _ | _ | _) <;> decide
    unfold tickRow
    simp only [notMem_append]
    exact ⟨⟨⟨⟨⟨⟨⟨by decide, hcount _⟩, by decide⟩, hcount _⟩, by decide⟩, hcount _⟩, by decide⟩,
      hstop⟩
  have hkey : '\n' ∉ s.keyRow.toList := by
    simp only [keyRow, notMem_append, keysText_eq]
    exact ⟨by decide, notMem_intercalate (by decide) (notMem_keyWords (by decide) (by decide) s)⟩
  simp only [reportRows, List.cons_append, List.forall_mem_cons, List.forall_mem_append,
    List.not_mem_nil]
  exact ⟨by decide, s.machine.newline_notMem_reportRows, hcycle, by decide, by decide, htick,
    hkey, nofun⟩

end

/-- The report tells the registers, the pointers, the timers, the whole stack, all counts, the stop
reason and the keys that are down, and nothing else. -/
theorem report_eq_report_iff (s t : Session) :
    s.report = t.report ↔
      s.machine.v = t.machine.v ∧ s.machine.pc = t.machine.pc ∧ s.machine.i = t.machine.i ∧
        s.machine.delay = t.machine.delay ∧ s.machine.sound = t.machine.sound ∧
          s.machine.stack = t.machine.stack ∧
        s.machine.cycles = t.machine.cycles ∧ s.machine.waiting = t.machine.waiting ∧
        s.cycles = t.cycles ∧ s.timerTicks = t.timerTicks ∧ s.ticksQueued = t.ticksQueued ∧
        s.stopReason = t.stopReason ∧ s.machine.keypad = t.machine.keypad := by
  have hne : ∀ s : Session, s.reportRows ≠ [] := fun s => List.cons_ne_nil _ _
  rw [report_eq, report_eq, intercalate_inj (c := '\n') rfl s.newline_notMem_reportRows
    t.newline_notMem_reportRows (hne s) (hne t)]
  simp only [reportRows, Machine.reportRows, List.cons_append, List.nil_append, List.cons.injEq,
    true_and, and_true]
  rw [Machine.registerRow_inj (by decide), Machine.registerRow_inj (by decide),
    Machine.pointerRow_inj, Machine.stackRow_inj, cycleRow_inj, tickRow_inj, keyRow_inj,
    Machine.v_eq_iff]
  simp only [and_assoc]

end Session

end ChipEight
