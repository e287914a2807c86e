import ChipEight.Listing
import ChipEight.Proofs.Instruction.Assembly

/-! # Reading listings

`Row.read` takes a line apart again: an address and a colon, a row of digits, a text. A line of a
word is read back as the word's address, its four digits and its assembly text (`read_wordLine`), a
line of a byte likewise (`read_byteLine`), so a listing loses nothing of the image:
`lines_lossless`.
-/

namespace ChipEight

theorem Instruction.takeWhile_written (ins : Instruction) :
    ins.written.takeWhile (· ≠ ' ') = ins.mnemonic.text.toList := by
  have hplain : ∀ c ∈ ins.mnemonic.text.toList, decide (c ≠ ' ') = true := fun c hc =>
    decide_eq_true fun heq => ins.mnemonic.plain_text.1 (heq ▸ hc)
  rw [written]
  cases tokens (ins.operands.map Operand.text) with
  | nil => rw [List.intercalate_singleton, List.takeWhile_eq_self_iff.2 hplain]
  | cons w ws =>
    rw [List.intercalate_cons_cons, List.append_assoc, List.takeWhile_append_of_pos hplain]
    exact List.append_nil _

namespace Listing

/-- What stands before the first colon with a blank behind it, and what stands behind the two. -/
def cutColon : List Char → List Char × List Char
  | [] => ([], [])
  | ':' :: ' ' :: cs => ([], cs)
  | c :: cs => (c :: (cutColon cs).1, (cutColon cs).2)

theorem cutColon_append {front : List Char} (h : ':' ∉ front) (behind : List Char) :
    cutColon (front ++ ':' :: ' ' :: behind) = (front, behind) := by
  induction front with
  | nil => rfl
  | cons c front ih =>
    obtain ⟨hc, hfront⟩ := not_or.1 (mt List.mem_cons.2 h)
    rw [List.cons_append, cutColon]
    · rw [ih hfront]
    · intro _ hcolon
      exact absurd hcolon.symm hc

/-- A line that was taken apart. -/
structure Row where
  address : Int
  digits : List Char
  text : List Char
deriving DecidableEq

namespace Row

def read (line : String) : Row :=
  let (front, behind) := cutColon line.toList
  ⟨Hex.signedValue front, behind.takeWhile (· ≠ ' '),
    (behind.dropWhile (· ≠ ' ')).dropWhile (· = ' ')⟩

/-- The line of an odd last byte. -/
def isByte (r : Row) : Bool := r.text.takeWhile (· ≠ ' ') = "DB".toList

theorem read_eq (gap : Nat) {line : String} {address : Int} {digits text : List Char}
    (hline : line.toList = (Hex.signed 3 address).toList ++ ':' :: ' ' ::
      (digits ++ (List.replicate (gap + 1) ' ' ++ text)))
    (hdigits : ' ' ∉ digits) (htext : text.head? ≠ some ' ') :
    read line = ⟨address, digits, text⟩ := by
  have hcolon : ':' ∉ (Hex.signed 3 address).toList :=
    Hex.notMem_signed (by decide) (by decide) 3 address
  have hpos : ∀ c ∈ digits, decide (c ≠ ' ') = true := fun c hc =>
    decide_eq_true fun heq => hdigits (heq ▸ hc)
  have hgap : ∀ c ∈ List.replicate (gap + 1) ' ', decide (c = ' ') = true := fun c hc =>
    decide_eq_true (List.mem_replicate.1 hc).2
  have hrest : text.dropWhile (· = ' ') = text := by
    cases text with
    | nil => rfl
    | cons c cs =>
      have hc : c ≠ ' ' := fun heq => htext (congrArg some heq)
      rw [List.dropWhile_cons_of_neg (by simpa using hc)]
  rw [read, hline, cutColon_append hcolon]
  simp only [Hex.signedValue_signed, List.takeWhile_append_of_pos hpos,
    List.dropWhile_append_of_pos hpos]
  rw [List.replicate_succ, List.cons_append, List.takeWhile_cons_of_neg (by simp),
    List.dropWhile_cons_of_neg (by simp), List.append_nil, ← List.cons_append,
    ← List.replicate_succ, List.dropWhile_append_of_pos hgap, hrest]

end Row

/-- The text begins with its mnemonic. -/
theorem disassemble_cons (w : Opcode) : ∃ c cs, (disassemble w).toList = c :: cs ∧ c ≠ ' ' := by
  have hname : ∀ k : Mnemonic, k.text.toList ≠ [] := by decide
  have htake := (Instruction.decode w).takeWhile_written
  rw [← toList_disassemble] at htake
  cases hw : (disassemble w).toList with
  | nil =>
    rw [hw] at htake
    exact absurd htake.symm (hname _)
  | cons c cs =>
    refine ⟨c, cs, rfl, ?_⟩
    rintro rfl
    rw [hw, List.takeWhile_cons_of_neg (by simp)] at htake
    exact hname _ htake.symm

theorem read_wordLine (address : Int) (w : Opcode) :
    Row.read (wordLine address w) =
      ⟨address, Hex.paddedDigits 4 w.val, (disassemble w).toList⟩ := by
  have hline : (wordLine address w).toList = (Hex.signed 3 address).toList ++
      ':' :: ' ' :: (Hex.paddedDigits 4 w.val ++
        (List.replicate 2 ' ' ++ (disassemble w).toList)) := by
    simp [wordLine, Hex.padded]
  refine Row.read_eq 1 hline (Hex.notMem_paddedDigits (by decide) 4 w.val) ?_
  obtain ⟨c, cs, htext, hc⟩ := disassemble_cons w
  rw [htext]
  simpa using hc

theorem read_byteLine (address : Int) (b : UInt8) :
    Row.read (byteLine address b) =
      ⟨address, Hex.paddedDigits 2 b.toNat,
        'D' :: 'B' :: ' ' :: (Hex.literal 2 b.toNat).toList⟩ := by
  have hline : (byteLine address b).toList = (Hex.signed 3 address).toList ++ ':' :: ' ' ::
      (Hex.paddedDigits 2 b.toNat ++
        (List.replicate 4 ' ' ++ 'D' :: 'B' :: ' ' :: (Hex.literal 2 b.toNat).toList)) := by
    simp [byteLine, Hex.padded]
  exact Row.read_eq 3 hline (Hex.notMem_paddedDigits (by decide) 2 b.toNat) (by simp)

theorem isByte_read_wordLine (address : Int) (w : Opcode) :
    (Row.read (wordLine address w)).isByte = false := by
  have hname : ∀ k : Mnemonic, k.text.toList ≠ "DB".toList := by decide
  rw [read_wordLine, Row.isByte, toList_disassemble, Instruction.takeWhile_written]
  exact decide_eq_false (hname _)

theorem isByte_read_byteLine (address : Int) (b : UInt8) :
    (Row.read (byteLine address b)).isByte = true := by
  rw [read_byteLine]
  exact decide_eq_true rfl

/-! ### The lines of an image -/

theorem length_lines (base : Int) (data : List UInt8) :
    (lines base data).length = (data.length + 1) / 2 := by
  fun_induction lines base data with
  | case1 => rfl
  | case2 => simp
  | case3 base high low rest ih =>
    rw [List.length_cons, ih, List.length_cons, List.length_cons]
    omega

theorem getElem?_lines (base : Int) {data : List UInt8} {k : Nat} (hk : 2 * k < data.length)
    (h : 2 * k + 1 < data.length) : (lines base data)[k]? =
      some (wordLine (base + 2 * k) (.ofBytes data[2 * k].toNat data[2 * k + 1].toNat)) := by
  fun_induction lines base data generalizing k with
  | case1 => simp at h
  | case2 => simp at h
  | case3 base high low rest ih =>
    cases k with
    | zero => simp
    | succ k =>
      have hrest : 2 * k + 1 < rest.length := by simp only [List.length_cons] at h; omega
      have haddress : base + 2 + 2 * (k : Int) = base + 2 * ((k + 1 : Nat) : Int) := by omega
      rw [List.getElem?_cons_succ, ih (Nat.lt_of_succ_lt hrest) hrest, haddress]
      rfl

theorem digits_lines (base : Int) (data : List UInt8) :
    Hex.bytes? (((lines base data).map Row.read).flatMap Row.digits) = some data := by
  fun_induction lines base data with
  | case1 => rfl
  | case2 base b =>
    simpa [read_byteLine, Hex.bytes?] using Hex.bytes?_byte_append b []
  | case3 base high low rest ih =>
    rw [List.map_cons, List.flatMap_cons, read_wordLine,
      Opcode.val_ofBytes high.toNat_lt low.toNat_lt,
      Hex.paddedDigits_word _ low.toNat_lt, List.append_assoc, Hex.bytes?_byte_append,
      Hex.bytes?_byte_append, ih]
    rfl

theorem address_lines (base : Int) (data : List UInt8) :
    ((lines base data).map Row.read).map Row.address =
      (List.range ((data.length + 1) / 2)).map fun k : Nat => base + 2 * k := by
  fun_induction lines base data with
  | case1 => rfl
  | case2 base b => simp [read_byteLine]
  | case3 base high low rest ih =>
    have hn : (rest.length + 1 + 1 + 1) / 2 = (rest.length + 1) / 2 + 1 := by omega
    rw [List.map_cons, List.map_cons, ih, read_wordLine, List.length_cons, List.length_cons, hn,
      List.range_succ_eq_map, List.map_cons, List.map_map]
    refine List.cons_eq_cons.2 ⟨by simp, List.map_congr_left fun k _ => ?_⟩
    simp only [Function.comp_apply]
    omega

theorem isByte_lines (base : Int) (data : List UInt8) :
    ((lines base data).map Row.read).map Row.isByte =
      (List.range ((data.length + 1) / 2)).map fun k =>
        decide (data.length % 2 = 1 ∧ k + 1 = (data.length + 1) / 2) := by
  fun_induction lines base data with
  | case1 => rfl
  | case2 base b => simp [isByte_read_byteLine]
  | case3 base high low rest ih =>
    have hn : (rest.length + 1 + 1 + 1) / 2 = (rest.length + 1) / 2 + 1 := by omega
    rw [List.map_cons, List.map_cons, ih, isByte_read_wordLine, List.length_cons,
      List.length_cons, hn, List.range_succ_eq_map, List.map_cons, List.map_map]
    refine List.cons_eq_cons.2 ⟨?_, List.map_congr_left fun k _ => ?_⟩
    · exact (decide_eq_false (by omega)).symm
    · simp only [Function.comp_apply]
      exact decide_eq_decide.2 (by omega)

/-- A listing has a line for each two bytes, the `k`th with the address `2 * k` behind the base; the
digits of its lines are the bytes of the image, and an odd last byte, nothing else, is on a line of
its own. -/
theorem lines_lossless (base : Int) (data : List UInt8) :
    let n := (data.length + 1) / 2
    let rows := (lines base data).map Row.read
    (lines base data).length = n ∧
    Hex.bytes? (rows.flatMap Row.digits) = some data ∧
    rows.map Row.address = (List.range n).map (fun k : Nat => base + 2 * k) ∧
    rows.map Row.isByte = (List.range n).map (fun k => decide (data.length % 2 = 1 ∧ k + 1 = n)) :=
  ⟨length_lines base data, digits_lines base data, address_lines base data, isByte_lines base data⟩

example : (lines (-2) [0x00, 0xE0, 0x7F]).map Row.read =
    [⟨-2, "00e0".toList, "CLS".toList⟩, ⟨0, "7f".toList, "DB 0x7f".toList⟩] := by decide +kernel

end Listing

end ChipEight
