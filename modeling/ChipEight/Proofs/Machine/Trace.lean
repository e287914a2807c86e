import ChipEight.Proofs.Listing
import ChipEight.Proofs.Machine.KeyBalance
import ChipEight.Proofs.Text.Fields

/-! # What a step puts on record

The trace of a step is read back by `Shown.read`, which gives the machine before the instruction
(`read_traceMessage`): its program counter, the word that is fetched there, its registers and its
index. `latch?` is the key that the step takes, if it takes one (`latch?_spec`). Records that
`Tells` of some machines have a trace of each of them, whatever came of its step, and a debug record
of each key taken.
-/

namespace ChipEight

/-! ### Logs -/

namespace Log

/-- The records of one level, the oldest first. -/
def ofLevel (l : Log) (level : Level) : List Record := l.records.toList.filter (·.level = level)

variable {l : Log} {level : Level}

theorem threshold_add (l : Log) (r : Record) : (l.add r).threshold = l.threshold := by
  unfold add; split <;> rfl

/-- A level at or above the threshold loses no record. -/
theorem ofLevel_add (h : l.threshold.number ≤ level.number) (r : Record) :
    (l.add r).ofLevel level = l.ofLevel level ++ [r].filter (·.level = level) := by
  unfold add
  split
  · rw [ofLevel, Array.toList_push, List.filter_append]; rfl
  next hbelow =>
    have hr : r.level ≠ level := fun heq => hbelow (heq ▸ h)
    rw [List.filter_cons_of_neg (by simpa using hr), List.filter_nil, List.append_nil]

theorem ofLevel_addAll (h : l.threshold.number ≤ level.number) (rs : List Record) :
    (l.addAll rs).ofLevel level = l.ofLevel level ++ rs.filter (·.level = level) := by
  induction rs generalizing l with
  | nil => rw [List.filter_nil, List.append_nil]; rfl
  | cons r rs ih =>
    show ((l.add r).addAll rs).ofLevel level = _
    rw [ih (by rw [threshold_add]; exact h), ofLevel_add h, List.append_assoc, ← List.filter_append]
    rfl

theorem add_of_lt {r : Record} (h : r.level.number < l.threshold.number) : l.add r = l :=
  if_neg (Nat.not_le.2 h)

theorem addAll_append (l : Log) (rs rs' : List Record) :
    l.addAll (rs ++ rs') = (l.addAll rs).addAll rs' := List.foldl_append

theorem addAll_of_lt {rs : List Record} (h : ∀ r ∈ rs, r.level.number < l.threshold.number) :
    l.addAll rs = l := by
  induction rs with
  | nil => rfl
  | cons r rs ih =>
    obtain ⟨hr, hrs⟩ := List.forall_mem_cons.1 h
    show (l.add r).addAll rs = l
    rw [add_of_lt hr, ih hrs]

end Log

/-! ### The text of a trace -/

theorem Operand.equals_notMem_text (o : Operand) : '=' ∉ o.text.toList := by
  have hliteral : ∀ width n, '=' ∉ (Hex.literal width n).toList := by
    intro width n
    rw [Hex.toList_literal]
    simp [Hex.notMem_paddedDigits (c := '=') (by decide)]
  cases o with
  | register x =>
    rw [text, Assembly.toList_register]
    revert x; decide
  | byte | address | word => exact hliteral _ _
  | rows n => revert n; decide
  | place p => cases p <;> decide

namespace Instruction

theorem mem_tokens {c : Char} {ops : List String} {t : List Char} (ht : t ∈ tokens ops)
    (h : c ∈ t) :
    c = ',' ∨ ∃ o ∈ ops, c ∈ o.toList := by
  fun_induction tokens ops with
  | case1 => cases ht
  | case2 a => exact .inr ⟨a, by simp, List.mem_singleton.1 ht ▸ h⟩
  | case3 a b ops ih =>
    rcases List.mem_cons.1 ht with rfl | ht
    · rcases List.mem_append.1 h with h | h
      · exact .inr ⟨a, by simp, h⟩
      · exact .inl (List.mem_singleton.1 h)
    · rcases ih ht with h | ⟨o, ho, h⟩
      · exact .inl h
      · exact .inr ⟨o, List.mem_cons_of_mem a ho, h⟩

theorem equals_notMem_written (ins : Instruction) : '=' ∉ ins.written := by
  have hname : ∀ k : Mnemonic, '=' ∉ k.text.toList := by decide
  intro h
  rcases Text.mem_intercalate h with h | ⟨t, ht, h⟩
  · exact absurd h (by decide)
  · rcases List.mem_cons.1 ht with rfl | ht
    · exact hname _ h
    · rcases mem_tokens ht h with h | ⟨o, ho, h⟩
      · exact absurd h (by decide)
      · obtain ⟨o, -, rfl⟩ := List.mem_map.1 ho
        exact o.equals_notMem_text h

end Instruction

namespace Machine

/-- What a trace shows. -/
structure Shown where
  pc : Int
  word : Nat
  registers : List Int
  index : Int
deriving DecidableEq

/-- The registers stand behind the first equals sign, with blanks between them, and the index behind
the second. -/
def Shown.read (message : String) : Shown :=
  let row := Listing.Row.read message
  let fields := ((message.toList.dropWhile (· ≠ '=')).drop 1).splitOn ' '
  ⟨row.address, Hex.value row.digits, (fields.take 16).map Hex.signedValue,
    Hex.signedValue ((fields.getLastD []).drop 2)⟩

theorem equals_notMem_wordLine (address : Int) (w : Opcode) :
    '=' ∉ (Listing.wordLine address w).toList := by
  have haddress : '=' ∉ (Hex.signed 3 address).toList :=
    Hex.notMem_signed (by decide) (by decide) 3 address
  have hdigits : '=' ∉ Hex.paddedDigits 4 w.val := Hex.notMem_paddedDigits (by decide) 4 w.val
  have htext : '=' ∉ (disassemble w).toList := by
    rw [toList_disassemble]
    exact Instruction.equals_notMem_written _
  simp [Listing.wordLine, Hex.padded, haddress, hdigits, htext]

/-- The registers and the index, each behind a blank but for the first. -/
def fieldTexts (m : Machine) : List (List Char) :=
  m.v.toList.map (fun r => (Hex.signed 2 r).toList) ++ [('I' :: '=' :: (Hex.signed 3 m.i).toList)]

/-- A trace is the line of a listing, filled up with blanks, and the registers and the index behind
it. -/
theorem toList_traceMessage (m : Machine) :
    ∃ gap, m.traceMessage.toList =
      (Listing.wordLine m.advance.fetchedFrom m.opcodeAt).toList ++
        (List.replicate gap ' ' ++ ' ' :: 'V' :: '=' :: [' '].intercalate m.fieldTexts) := by
  have hnonneg : ¬ ((m.advance.fetchedFrom : Int) < 0) := by omega
  have hfields : [' '].intercalate m.fieldTexts =
      (String.intercalate " " (m.v.toList.map (Hex.signed 2)) ++ " I=" ++
        Hex.signed 3 m.i).toList := by
    have hregisters : m.v.toList.map (Hex.signed 2) ≠ [] := by
      rw [Ne, List.map_eq_nil_iff, ← List.length_eq_zero_iff, Vector.length_toList]
      decide
    have hjoin := String.intercalate_append_of_ne_nil (s := " ") (m := ["I=" ++ Hex.signed 3 m.i])
      hregisters (List.cons_ne_nil _ _)
    have hlist := congrArg String.toList hjoin
    rw [String.toList_intercalate] at hlist
    simpa [fieldTexts, Function.comp_def] using hlist
  refine ⟨18 - (disassemble m.opcodeAt).toList.length, ?_⟩
  rw [hfields]
  simp [traceMessage, Listing.wordLine, Hex.signed, hnonneg, List.rightpad]

theorem read_traceMessage (m : Machine) :
    Shown.read m.traceMessage = ⟨low16 m.pc, m.opcodeAt.val, m.v.toList, m.i⟩ := by
  obtain ⟨gap, hmessage⟩ := m.toList_traceMessage
  have hrow : Listing.Row.read m.traceMessage =
    ⟨m.advance.fetchedFrom, Hex.paddedDigits 4 m.opcodeAt.val,
      (disassemble m.opcodeAt).toList ++
        (List.replicate gap ' ' ++ ' ' :: 'V' :: '=' :: [' '].intercalate m.fieldTexts)⟩ := by
    refine Listing.Row.read_eq 1 ?_ (Hex.notMem_paddedDigits (by decide) _ _) ?_
    · rw [hmessage]
      simp [Listing.wordLine, Hex.padded]
    · obtain ⟨c, cs, htext, hc⟩ := Listing.disassemble_cons m.opcodeAt
      rw [htext]
      simpa using hc
  have hbehind : m.traceMessage.toList.dropWhile (· ≠ '=') =
      '=' :: [' '].intercalate m.fieldTexts := by
    have hfront : ∀ c ∈ (Listing.wordLine m.advance.fetchedFrom m.opcodeAt).toList ++
        (List.replicate gap ' ' ++ [' ', 'V']), decide (c ≠ '=') = true := by
      intro c hc
      refine decide_eq_true ?_
      rintro rfl
      simp [equals_notMem_wordLine] at hc
    have hmark : m.traceMessage.toList =
      (Listing.wordLine m.advance.fetchedFrom m.opcodeAt).toList ++
        (List.replicate gap ' ' ++ [' ', 'V']) ++ '=' :: [' '].intercalate m.fieldTexts := by
      rw [hmessage]
      simp
    rw [hmark, List.dropWhile_append_of_pos hfront, List.dropWhile_cons_of_neg (by simp)]
  have hwords : ([' '].intercalate m.fieldTexts).splitOn ' ' = m.fieldTexts := by
    have hnumeral : ∀ width v, ' ' ∉ (Hex.signed width v).toList :=
      Hex.notMem_signed (by decide) (by decide)
    refine List.splitOn_intercalate ' ' ?_ (by simp [fieldTexts])
    intro l hl
    rcases List.mem_append.1 hl with hl | hl
    · obtain ⟨r, -, rfl⟩ := List.mem_map.1 hl
      exact hnumeral 2 r
    · rw [List.mem_singleton.1 hl]
      simp [hnumeral]
  have hregisters : (m.fieldTexts.take 16).map Hex.signedValue = m.v.toList := by
    have hlen : (m.v.toList.map fun r => (Hex.signed 2 r).toList).length = 16 := by simp
    rw [fieldTexts, List.take_left' hlen, List.map_map]
    exact (List.map_congr_left fun r _ => Hex.signedValue_signed 2 r).trans (List.map_id _)
  have hindex : Hex.signedValue ((m.fieldTexts.getLastD []).drop 2) = m.i := by
    simp [fieldTexts, Hex.signedValue_signed]
  rw [fetchedFrom_advance] at hrow
  simp only [Shown.read, hrow, hbehind, List.drop_succ_cons, List.drop_zero, hwords,
    Hex.value_paddedDigits, hregisters, hindex]

/-! ### The records of a step -/

variable {m : Machine}

/-- The key and the register that a debug record names. -/
def readLatch (message : String) : Option Char × Option Char :=
  (message.toList[4]?, message.toList.getLast?)

theorem readLatch_latchMessage (k : Fin 16) (x : Register) :
    readLatch (latchMessage k x) = (some (Hex.upperDigit k), some (Hex.upperDigit x)) := by
  have hmessage : (latchMessage k x).toList = ['k', 'e', 'y', ' '] ++ Hex.upperDigit k ::
      (" latched into V".toList ++ [Hex.upperDigit x]) := by simp [latchMessage]
  rw [readLatch, hmessage]
  simp

/-- There is something to latch just when the next instruction is a key wait that ends: the key that
it takes, with the register that it names. -/
theorem latch?_spec (m : Machine) : (m.latch?.isSome ↔ m.EndsWait) ∧
    ∀ k x, m.latch? = some (k, x) ↔ m.Takes k ∧ x = m.opcodeAt.x := by
  have hno : m.latch? = none → ¬ m.EndsWait → (m.latch?.isSome ↔ m.EndsWait) ∧
      ∀ k x, m.latch? = some (k, x) ↔ m.Takes k ∧ x = m.opcodeAt.x := by
    intro hnone hends
    rw [hnone]
    exact ⟨⟨nofun, fun h => absurd h hends⟩, fun k x => ⟨nofun, fun h => absurd h.1.1 hends⟩⟩
  rcases m.keyWait_cases with ⟨hword, j, hj, -⟩ | hw | hword
  · rw [latch?_of_isKeyWait hword, hj]
    refine ⟨⟨fun _ => (takes_of_firstDown? (k := j) hword hj).1, fun _ => rfl⟩, fun k x => ?_⟩
    rw [(takes_of_firstDown? hword hj).2]
    simp only [Option.map_some, Option.some.injEq, Prod.mk.injEq]
    exact and_congr_right fun _ => eq_comm
  · refine hno ?_ hw.not_endsWait
    rw [latch?_of_isKeyWait hw.word, Keypad.firstDown?_eq_none_iff.2 hw.up]
    rfl
  · exact hno (latch?_of_not_isKeyWait hword) fun h => hword h.1

end Machine

/-- The records tell of the instructions that these machines executed, one after the other. There
may be other records among them, but for traces and latches. -/
structure Tells (rs : List Log.Record) (ms : List Machine) : Prop where
  below : ∀ r ∈ rs, r.level.number < Log.Level.critical.number
  traces : rs.filter (·.level = .trace) = ms.map Machine.traceRecord
  latches : rs.filter (·.level = .debug) = (ms.filterMap Machine.latch?).map Machine.latchRecord

namespace Tells

variable {rs rs' : List Log.Record} {ms ms' : List Machine}

theorem nil : Tells [] [] := ⟨nofun, rfl, rfl⟩

theorem append (h : Tells rs ms) (h' : Tells rs' ms') : Tells (rs ++ rs') (ms ++ ms') where
  below := List.forall_mem_append.2 ⟨h.below, h'.below⟩
  traces := by rw [List.filter_append, h.traces, h'.traces, List.map_append]
  latches := by
    rw [List.filter_append, h.latches, h'.latches, List.filterMap_append, List.map_append]

theorem append_other (h : Tells rs ms) (h' : Tells rs' []) : Tells (rs ++ rs') ms :=
  List.append_nil ms ▸ h.append h'

theorem step (m : Machine) : Tells m.stepRecords [m] := by
  rw [Machine.stepRecords]
  cases hlatch : m.latch? with
  | none =>
    exact ⟨by simp [Machine.traceRecord, Log.Level.number], rfl,
      by simp [hlatch, Machine.traceRecord]⟩
  | some latch =>
    exact ⟨by simp [Machine.traceRecord, Machine.latchRecord, Log.Level.number], rfl,
      by simp [hlatch, Machine.traceRecord, Machine.latchRecord]⟩

theorem info (source : Log.Source) (message : String) : Tells [⟨.info, source, message⟩] [] :=
  ⟨by simp [Log.Level.number], rfl, rfl⟩

theorem error (source : Log.Source) (message : String) : Tells [⟨.error, source, message⟩] [] :=
  ⟨by simp [Log.Level.number], rfl, rfl⟩

/-- With all on record, these are the traces and the latches that a log gains. -/
theorem ofLevel_addAll (h : Tells rs ms) {log : Log} (hlog : log.threshold = .trace) :
    (log.addAll rs).ofLevel .trace = log.ofLevel .trace ++ ms.map Machine.traceRecord ∧
      (log.addAll rs).ofLevel .debug =
        log.ofLevel .debug ++ (ms.filterMap Machine.latch?).map Machine.latchRecord := by
  have htrace : log.threshold.number ≤ Log.Level.trace.number := by rw [hlog]
  have hdebug : log.threshold.number ≤ Log.Level.debug.number := by rw [hlog]; decide
  rw [Log.ofLevel_addAll htrace, Log.ofLevel_addAll hdebug, h.traces, h.latches]
  exact ⟨rfl, rfl⟩

/-- A log above all that is written keeps nothing. -/
theorem addAll_new_critical (h : Tells rs ms) : (Log.new .critical).addAll rs = .new .critical :=
  Log.addAll_of_lt h.below

end Tells

end ChipEight
