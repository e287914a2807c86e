import ChipEight.Instruction
import ChipEight.Instruction.Assembly
import ChipEight.Proofs.Text.Hex
import Mathlib.Data.Fintype.Basic
import Mathlib.Data.List.TakeWhile

/-! # Reading assembly text

The text of a word says the instruction that the word decodes to, `Instruction.written`: its
mnemonic with its operands behind it (`toList_disassemble`). They are set apart by blanks and
commas, which occur in neither, so `words` finds them again (`words_written`); each kind of operand
is read back from its own text (`Operand.read_text`), and the mnemonic with the operands tells the
instruction (`ofParts_parts`). So no two instructions are written alike: `written_injective`.
-/

namespace ChipEight

inductive Mnemonic
  | sys | cls | ret | jp | call | se | sne | ld | add | or | and | xor | sub | subn | shr | shl
  | rnd | drw | skp | sknp | dw
deriving DecidableEq

instance : Fintype Mnemonic :=
  .ofList
    [.sys, .cls, .ret, .jp, .call, .se, .sne, .ld, .add, .or, .and, .xor, .sub, .subn, .shr, .shl,
      .rnd, .drw, .skp, .sknp, .dw]
    fun k => by cases k <;> decide

def Mnemonic.text : Mnemonic → String
  | .sys => "SYS"
  | .cls => "CLS"
  | .ret => "RET"
  | .jp => "JP"
  | .call => "CALL"
  | .se => "SE"
  | .sne => "SNE"
  | .ld => "LD"
  | .add => "ADD"
  | .or => "OR"
  | .and => "AND"
  | .xor => "XOR"
  | .sub => "SUB"
  | .subn => "SUBN"
  | .shr => "SHR"
  | .shl => "SHL"
  | .rnd => "RND"
  | .drw => "DRW"
  | .skp => "SKP"
  | .sknp => "SKNP"
  | .dw => "DW"

/-- The operands that have a name of their own. -/
inductive Place
  | delay | sound | key | glyph | decimal | index | memory
deriving DecidableEq

def Place.text : Place → String
  | .delay => "DT"
  | .sound => "ST"
  | .key => "K"
  | .glyph => "F"
  | .decimal => "B"
  | .index => "I"
  | .memory => "[I]"

inductive Operand
  | register (x : Register)
  | byte (nn : Immediate)
  | address (nnn : Address)
  | word (w : Opcode)
  | rows (n : Fin 16)
  | place (p : Place)
deriving DecidableEq

namespace Operand

def text : Operand → String
  | .register x => Assembly.register x
  | .byte nn => Assembly.byte nn
  | .address nnn => Assembly.address nnn
  | .word w => Hex.literal 4 w.val
  | .rows n => toString n.val
  | .place p => p.text

/-- The operand that a text stands for. Hexadecimal numerals are told apart by their lengths. -/
def read : List Char → Operand
  | ['D', 'T'] => .place .delay
  | ['S', 'T'] => .place .sound
  | ['K'] => .place .key
  | ['F'] => .place .glyph
  | ['B'] => .place .decimal
  | ['I'] => .place .index
  | ['[', 'I', ']'] => .place .memory
  | 'V' :: ds => .register (Fin.ofNat 16 (Hex.value ds))
  | '0' :: 'x' :: ds =>
    match ds.length with
    | 2 => .byte ⟨Hex.value ds % 256, Nat.mod_lt _ (by decide)⟩
    | 3 => .address ⟨Hex.value ds % 4096, Nat.mod_lt _ (by decide)⟩
    | _ => .word (.ofInt (Hex.value ds))
  | ds => .rows (Fin.ofNat 16 (ds.foldl (fun n d => 10 * n + (d.toNat - 48)) 0))

end Operand

namespace Instruction

def mnemonic : Instruction → Mnemonic
  | .sys _ => .sys
  | .cls => .cls
  | .ret => .ret
  | .jp _ | .jpV0 _ => .jp
  | .call _ => .call
  | .seByte _ _ | .se _ _ => .se
  | .sneByte _ _ | .sne _ _ => .sne
  | .ldByte _ _ | .ldIndex _ | .alu .ld _ _ => .ld
  | .addByte _ _ | .alu .add _ _ | .misc .addIndex _ => .add
  | .alu .or _ _ => .or
  | .alu .and _ _ => .and
  | .alu .xor _ _ => .xor
  | .alu .sub _ _ => .sub
  | .alu .subn _ _ => .subn
  | .shr _ => .shr
  | .shl _ => .shl
  | .rnd _ _ => .rnd
  | .drw _ _ _ => .drw
  | .skp _ => .skp
  | .sknp _ => .sknp
  | .misc _ _ => .ld
  | .data _ => .dw

def operands : Instruction → List Operand
  | .cls | .ret => []
  | .sys nnn | .jp nnn | .call nnn => [.address nnn]
  | .seByte x nn | .sneByte x nn | .ldByte x nn | .addByte x nn | .rnd x nn =>
    [.register x, .byte nn]
  | .se x y | .sne x y | .alu _ x y => [.register x, .register y]
  | .shr x | .shl x | .skp x | .sknp x => [.register x]
  | .ldIndex nnn => [.place .index, .address nnn]
  | .jpV0 nnn => [.register 0, .address nnn]
  | .drw x y n => [.register x, .register y, .rows n]
  | .misc .readDelay x => [.register x, .place .delay]
  | .misc .waitKey x => [.register x, .place .key]
  | .misc .setDelay x => [.place .delay, .register x]
  | .misc .setSound x => [.place .sound, .register x]
  | .misc .addIndex x => [.place .index, .register x]
  | .misc .glyph x => [.place .glyph, .register x]
  | .misc .decimal x => [.place .decimal, .register x]
  | .misc .store x => [.place .memory, .register x]
  | .misc .load x => [.register x, .place .memory]
  | .data w => [.word w]

/-- The instruction of a mnemonic with operands. -/
def ofParts : Mnemonic → List Operand → Option Instruction
  | .sys, [.address nnn] => some (.sys nnn)
  | .cls, [] => some .cls
  | .ret, [] => some .ret
  | .jp, [.address nnn] => some (.jp nnn)
  | .jp, [.register _, .address nnn] => some (.jpV0 nnn)
  | .call, [.address nnn] => some (.call nnn)
  | .se, [.register x, .byte nn] => some (.seByte x nn)
  | .se, [.register x, .register y] => some (.se x y)
  | .sne, [.register x, .byte nn] => some (.sneByte x nn)
  | .sne, [.register x, .register y] => some (.sne x y)
  | .ld, [.register x, .byte nn] => some (.ldByte x nn)
  | .ld, [.register x, .register y] => some (.alu .ld x y)
  | .ld, [.register x, .place .delay] => some (.misc .readDelay x)
  | .ld, [.register x, .place .key] => some (.misc .waitKey x)
  | .ld, [.register x, .place .memory] => some (.misc .load x)
  | .ld, [.place .index, .address nnn] => some (.ldIndex nnn)
  | .ld, [.place .delay, .register x] => some (.misc .setDelay x)
  | .ld, [.place .sound, .register x] => some (.misc .setSound x)
  | .ld, [.place .glyph, .register x] => some (.misc .glyph x)
  | .ld, [.place .decimal, .register x] => some (.misc .decimal x)
  | .ld, [.place .memory, .register x] => some (.misc .store x)
  | .add, [.register x, .byte nn] => some (.addByte x nn)
  | .add, [.register x, .register y] => some (.alu .add x y)
  | .add, [.place .index, .register x] => some (.misc .addIndex x)
  | .or, [.register x, .register y] => some (.alu .or x y)
  | .and, [.register x, .register y] => some (.alu .and x y)
  | .xor, [.register x, .register y] => some (.alu .xor x y)
  | .sub, [.register x, .register y] => some (.alu .sub x y)
  | .subn, [.register x, .register y] => some (.alu .subn x y)
  | .shr, [.register x] => some (.shr x)
  | .shl, [.register x] => some (.shl x)
  | .rnd, [.register x, .byte nn] => some (.rnd x nn)
  | .drw, [.register x, .register y, .rows n] => some (.drw x y n)
  | .skp, [.register x] => some (.skp x)
  | .sknp, [.register x] => some (.sknp x)
  | .dw, [.word w] => some (.data w)
  | _, _ => none

theorem ofParts_parts (ins : Instruction) : ofParts ins.mnemonic ins.operands = some ins := by
  cases ins with
  | alu op => cases op <;> rfl
  | misc op => cases op <;> rfl
  | _ => rfl

/-- What stands between the blanks of a text, with a comma behind each operand but the last. -/
def tokens : List String → List (List Char)
  | [] => []
  | [a] => [a.toList]
  | a :: b :: ops => (a.toList ++ [',']) :: tokens (b :: ops)

def written (ins : Instruction) : List Char :=
  [' '].intercalate (ins.mnemonic.text.toList :: tokens (ins.operands.map Operand.text))

end Instruction

/-- A text with neither blanks nor commas. -/
def Plain (cs : List Char) : Prop := ' ' ∉ cs ∧ ',' ∉ cs

instance (cs : List Char) : Decidable (Plain cs) := inferInstanceAs (Decidable (_ ∧ _))

/-- What stands between the blanks of a text, up to the commas. -/
def words (cs : List Char) : List (List Char) := (cs.splitOn ' ').map (·.takeWhile (· ≠ ','))

namespace Plain
variable {cs : List Char}

theorem of_mem_digits (h : ∀ c ∈ cs, ∃ d < 16, c = Hex.digit d) : Plain cs := by
  have hdigit : ∀ d < 16, Hex.digit d ≠ ' ' ∧ Hex.digit d ≠ ',' := by decide
  constructor <;> intro hc
  · obtain ⟨d, hd, heq⟩ := h _ hc
    exact (hdigit d hd).1 heq.symm
  · obtain ⟨d, hd, heq⟩ := h _ hc
    exact (hdigit d hd).2 heq.symm

theorem append {ds : List Char} (h : Plain cs) (h' : Plain ds) : Plain (cs ++ ds) :=
  ⟨fun hc => (List.mem_append.1 hc).elim h.1 h'.1, fun hc => (List.mem_append.1 hc).elim h.2 h'.2⟩

theorem takeWhile (h : Plain cs) : cs.takeWhile (· ≠ ',') = cs := by
  rw [List.takeWhile_eq_self_iff]
  intro c hc
  exact decide_eq_true fun heq => h.2 (heq ▸ hc)

theorem takeWhile_comma (h : Plain cs) : (cs ++ [',']).takeWhile (· ≠ ',') = cs := by
  have hpos : ∀ c ∈ cs, decide (c ≠ ',') = true :=
    fun c hc => decide_eq_true fun heq => h.2 (heq ▸ hc)
  rw [List.takeWhile_append_of_pos hpos]
  exact List.append_nil cs

end Plain

theorem Hex.plain_literal (width n : Nat) : Plain (literal width n).toList := by
  have hmark : Plain ['0', 'x'] := by decide
  rw [toList_literal]
  exact hmark.append (Plain.of_mem_digits fun _ => mem_paddedDigits)

theorem Mnemonic.plain_text : ∀ k : Mnemonic, Plain k.text.toList := by decide

theorem Assembly.toList_register (x : Register) :
    (register x).toList = ['V', Hex.upperDigit x] := by
  simp [register]

namespace Operand

theorem plain_text (o : Operand) : Plain o.text.toList := by
  cases o with
  | register x =>
    rw [text, Assembly.toList_register]
    revert x; decide
  | byte | address | word => exact Hex.plain_literal _ _
  | rows n => revert n; decide
  | place p => cases p <;> decide

theorem read_text (o : Operand) : read o.text.toList = o := by
  cases o with
  | register x =>
    rw [text, Assembly.toList_register]
    revert x; decide
  | byte nn =>
    have hlen : (Hex.paddedDigits 2 nn.val).length = 2 := Hex.length_paddedDigits nn.isLt
    rw [text, Assembly.byte, Hex.toList_literal]
    simp only [read, hlen, Hex.value_paddedDigits]
    exact congrArg byte (Fin.ext (Nat.mod_eq_of_lt nn.isLt))
  | address nnn =>
    have hlen : (Hex.paddedDigits 3 nnn.val).length = 3 := Hex.length_paddedDigits nnn.isLt
    rw [text, Assembly.address, Hex.toList_literal]
    simp only [read, hlen, Hex.value_paddedDigits]
    exact congrArg address (Fin.ext (Nat.mod_eq_of_lt nnn.isLt))
  | word w =>
    have hlen : (Hex.paddedDigits 4 w.val).length = 4 := Hex.length_paddedDigits w.val_lt
    rw [text, Hex.toList_literal]
    simp only [read, hlen, Hex.value_paddedDigits]
    exact congrArg word (Opcode.ext (low16_of_lt w.val_lt))
  | rows n => revert n; decide
  | place p => cases p <;> rfl

end Operand

namespace Instruction

variable {ops : List String}

theorem blank_notMem_tokens (hops : ∀ o ∈ ops, Plain o.toList) : ∀ w ∈ tokens ops, ' ' ∉ w := by
  fun_induction tokens ops with
  | case1 => simp
  | case2 a => simpa using (hops a (by simp)).1
  | case3 a b ops ih =>
    obtain ⟨ha, hrest⟩ := List.forall_mem_cons.1 hops
    refine List.forall_mem_cons.2 ⟨?_, ih hrest⟩
    simp [ha.1]

theorem map_takeWhile_tokens (hops : ∀ o ∈ ops, Plain o.toList) :
    (tokens ops).map (·.takeWhile (· ≠ ',')) = ops.map String.toList := by
  fun_induction tokens ops with
  | case1 => rfl
  | case2 a => rw [List.map_singleton, List.map_singleton, (hops a (by simp)).takeWhile]
  | case3 a b ops ih =>
    obtain ⟨ha, hrest⟩ := List.forall_mem_cons.1 hops
    rw [List.map_cons, ha.takeWhile_comma, ih hrest, ← List.map_cons]

theorem words_written (ins : Instruction) :
    words ins.written = ins.mnemonic.text.toList :: ins.operands.map fun o => o.text.toList := by
  have hname := ins.mnemonic.plain_text
  have hops : ∀ t ∈ ins.operands.map Operand.text, Plain t.toList := by
    intro t ht
    obtain ⟨o, -, rfl⟩ := List.mem_map.1 ht
    exact o.plain_text
  have hblank : ∀ w ∈ _ :: tokens _, ' ' ∉ w :=
    List.forall_mem_cons.2 ⟨hname.1, blank_notMem_tokens hops⟩
  rw [words, written, List.splitOn_intercalate ' ' hblank (List.cons_ne_nil _ _), List.map_cons,
    hname.takeWhile, map_takeWhile_tokens hops, List.map_map]
  rfl

theorem mnemonic_prefix_written (ins : Instruction) : ins.mnemonic.text.toList <+: ins.written := by
  rw [written]
  cases tokens (ins.operands.map Operand.text) with
  | nil => exact ⟨[], by simp⟩
  | cons w ws =>
    rw [List.intercalate_cons_cons, List.append_assoc]
    exact List.prefix_append _ _

end Instruction

theorem Mnemonic.text_injective : ∀ {j k : Mnemonic}, j.text = k.text → j = k := by decide

theorem Instruction.written_injective {a b : Instruction} (h : a.written = b.written) : a = b := by
  have hwords := congrArg words h
  rw [words_written, words_written, List.cons.injEq] at hwords
  obtain ⟨hname, hops⟩ := hwords
  have hmnemonic : a.mnemonic = b.mnemonic := Mnemonic.text_injective (String.toList_inj.1 hname)
  have hread := congrArg (List.map Operand.read) hops
  simp only [List.map_map, Function.comp_def, Operand.read_text, List.map_id'] at hread
  have hparts := a.ofParts_parts
  rw [hmnemonic, hread, b.ofParts_parts] at hparts
  exact (Option.some.inj hparts).symm

/-! ### The text of a word -/

namespace Assembly

theorem toList_unary (name a : String) :
    (unary name a).toList = [' '].intercalate (name.toList :: Instruction.tokens [a]) := by
  simp [unary, Instruction.tokens]

theorem toList_binary (name a b : String) :
    (binary name a b).toList = [' '].intercalate (name.toList :: Instruction.tokens [a, b]) := by
  simp [binary, Instruction.tokens]

theorem toList_ternary (name a b c : String) :
    (binary name a b ++ ", " ++ c).toList =
      [' '].intercalate (name.toList :: Instruction.tokens [a, b, c]) := by
  simp [binary, Instruction.tokens]

theorem toList_sys (w : Opcode) : (sys w).toList = (Instruction.decodeSys w).written := by
  unfold sys Instruction.decodeSys
  split
  · rfl
  split
  · rfl
  · exact toList_unary _ _

theorem toList_alu (w : Opcode) : (alu w).toList = (Instruction.decodeAlu w).written := by
  unfold alu Instruction.decodeAlu
  generalize w.n.val = n
  match n with
  | 0x0 | 0x1 | 0x2 | 0x3 | 0x4 | 0x5 | 0x7 => exact toList_binary _ _ _
  | 0x6 | 0xE => exact toList_unary _ _
  | 0x8 | 0x9 | 0xA | 0xB | 0xC | 0xD | _ + 0xF => exact toList_unary _ _

theorem toList_key (w : Opcode) : (key w).toList = (Instruction.decodeKey w).written := by
  unfold key Instruction.decodeKey
  split
  · exact toList_unary _ _
  split
  · exact toList_unary _ _
  · exact toList_unary _ _

theorem toList_misc (w : Opcode) :
    ((misc? w.x w.nn.val).getD (data w)).toList = (Instruction.decodeMisc w).written := by
  fun_cases Instruction.decodeMisc w
  case case10 =>
    have hnone : misc? w.x w.nn.val = none := by
      unfold misc?
      split <;> first | contradiction | rfl
    rw [hnone]
    exact toList_unary _ _
  all_goals
    rename_i h
    rw [h]
    exact toList_binary _ _ _

end Assembly

open Assembly in
theorem toList_disassemble (w : Opcode) :
    (disassemble w).toList = (Instruction.decode w).written := by
  unfold disassemble Instruction.decode
  generalize w.kind = k
  match k with
  | 0x0 => exact toList_sys w
  | 0x1 | 0x2 => exact toList_unary _ _
  | 0x3 | 0x4 | 0x5 | 0x6 | 0x7 | 0x9 | 0xA | 0xB | 0xC => exact toList_binary _ _ _
  | 0x8 => exact toList_alu w
  | 0xD => exact toList_ternary _ _ _ _
  | 0xE => exact toList_key w
  | _ + 0xF => exact toList_misc w

end ChipEight
