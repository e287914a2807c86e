import ChipEight.Proofs.Machine.Event
import ChipEight.Proofs.Machine.Step
import ChipEight.Proofs.Screen.Strokes

/-! # Machines stay well-formed

`Machine.WellFormed` is kept by everything that happens to a machine: each primitive of the
instructions keeps it (`setV`, `advance`, `write`, …), so each instruction does, so a life does
(`live_wellFormed`). A step on a well-formed machine ends in a fault, if in an error at all: sprites
start on the screen and are clipped at its edges.
-/

namespace ChipEight

theorem natCast_low8 (v : Int) : (low8 v : Int) = v % 256 := by
  unfold low8; omega

theorem natCast_low16 (v : Int) : (low16 v : Int) = v % 65536 := by
  unfold low16; omega

theorem low8_mem (v : Int) : (0 : Int) ≤ low8 v ∧ (low8 v : Int) < 256 := by
  have := low8_lt v; omega

theorem low16_mem (v : Int) : (0 : Int) ≤ low16 v ∧ (low16 v : Int) < 65536 := by
  have := low16_lt v; omega

section
variable {a b : Int}

/-- An operation on rows of bits gives a byte on bytes if it does so on those that are not
negative. -/
theorem bitwise_mem {f : Int → Int → Int} {g : Nat → Nat → Nat}
    (hf : ∀ m n : Nat, f m n = (g m n : Nat)) (hg : ∀ m n : Nat, m < 256 → n < 256 → g m n < 256)
    (ha : 0 ≤ a ∧ a < 256) (hb : 0 ≤ b ∧ b < 256) : 0 ≤ f a b ∧ f a b < 256 := by
  obtain ⟨a, rfl⟩ := Int.eq_ofNat_of_zero_le ha.1
  obtain ⟨b, rfl⟩ := Int.eq_ofNat_of_zero_le hb.1
  have hlt : g a b < 256 := hg a b (by omega) (by omega)
  rw [hf]; omega

theorem bitAnd_mem (ha : 0 ≤ a ∧ a < 256) (hb : 0 ≤ b ∧ b < 256) :
    0 ≤ bitAnd a b ∧ bitAnd a b < 256 :=
  bitwise_mem bitAnd_natCast (fun m _ _ hn => Nat.and_lt_two_pow (n := 8) m hn) ha hb

theorem bitOr_mem (ha : 0 ≤ a ∧ a < 256) (hb : 0 ≤ b ∧ b < 256) :
    0 ≤ bitOr a b ∧ bitOr a b < 256 :=
  bitwise_mem bitOr_natCast (fun _ _ hm hn => Nat.or_lt_two_pow (n := 8) hm hn) ha hb

theorem bitXor_mem (ha : 0 ≤ a ∧ a < 256) (hb : 0 ≤ b ∧ b < 256) :
    0 ≤ bitXor a b ∧ bitXor a b < 256 :=
  bitwise_mem bitXor_natCast (fun _ _ hm hn => Nat.xor_lt_two_pow (n := 8) hm hn) ha hb

end

namespace Memory

/-- Every cell holds a byte. -/
def Bytes (m : Memory) : Prop := ∀ a : Fin 4096, m.cells.get a < 256

variable {m : Memory}

theorem Bytes.read_lt (h : m.Bytes) (a : Int) : m.read a < 256 := h (index a)

theorem Bytes.set (h : m.Bytes) {k v : Nat} (hk : k < 4096) (hv : v < 256) :
    Bytes ⟨m.cells.set k v⟩ := by
  intro a
  show (m.cells.set k v)[a] < 256
  simp only [Fin.getElem_fin, Vector.getElem_set]
  split
  · exact hv
  · exact h a

theorem Bytes.write (h : m.Bytes) (a v : Int) : (m.write a v).Bytes :=
  h.set (index a).isLt (low8_lt v)

theorem Bytes.overlay (h : m.Bytes) (start : Nat) (bytes : List UInt8) :
    (m.overlay start bytes).Bytes := by
  induction bytes generalizing m start with
  | nil => exact h
  | cons b bytes ih =>
    rw [Memory.overlay]
    split
    · exact ih (h.set _ b.toNat_lt) _
    · exact h

theorem empty_bytes : empty.Bytes := fun a => by
  show (Vector.replicate 4096 0)[a] < 256
  simp only [Fin.getElem_fin, Vector.getElem_replicate]; decide

end Memory

namespace Machine

namespace WellFormed
variable {m : Machine}

theorem get_mem (h : m.WellFormed) (x : Register) : 0 ≤ m.v.get x ∧ m.v.get x < 256 := h.v_mem x

theorem setV (h : m.WellFormed) (x : Register) {value : Int} (hv : 0 ≤ value ∧ value < 256) :
    (m.setV x value).WellFormed :=
  { h with
    v_mem := fun y => by
      simp only [Machine.setV, Fin.getElem_fin, Vector.getElem_set]
      split
      · exact hv
      · exact h.v_mem y }

theorem setFlagged (h : m.WellFormed) (flag : Bool) (x : Register) {value : Int}
    (hv : 0 ≤ value ∧ value < 256) : (m.setFlagged flag x value).WellFormed :=
  (h.setV 0xF (by have := flag.toNat_le; omega)).setV x hv

theorem pc (h : m.WellFormed) {p : Int} (hp : 0 ≤ p ∧ p < 65536) : WellFormed { m with pc := p } :=
  { h with pc_mem := hp }

theorem i (h : m.WellFormed) {i : Int} (hi : 0 ≤ i ∧ i < 65536) : WellFormed { m with i := i } :=
  { h with i_mem := hi }

theorem delay (h : m.WellFormed) {t : Int} (ht : 0 ≤ t ∧ t < 256) :
    WellFormed { m with delay := t } :=
  { h with delay_mem := ht }

theorem sound (h : m.WellFormed) {t : Int} (ht : 0 ≤ t ∧ t < 256) :
    WellFormed { m with sound := t } :=
  { h with sound_mem := ht }

theorem memory (h : m.WellFormed) {memory : Memory} (hm : memory.Bytes) :
    WellFormed { m with memory := memory } :=
  { h with memory_lt := hm }

theorem screen (h : m.WellFormed) {s : Screen} (hw : s.width = screenWidth)
    (hh : s.height = screenHeight) (hs : s.WellFormed) : WellFormed { m with screen := s } :=
  { h with screen_width := hw, screen_height := hh, screen_wellFormed := hs }

theorem advance (h : m.WellFormed) : m.advance.WellFormed := h.pc (low16_mem _)

theorem skipIf (h : m.WellFormed) (c : Bool) : (m.skipIf c).WellFormed := by
  unfold Machine.skipIf
  split
  · exact h.advance
  · exact h

theorem push (h : m.WellFormed) {a : Int} (ha : 0 ≤ a ∧ a < 65536) {m' : Machine}
    (hm : m.push a = .ok m') : m'.WellFormed := by
  unfold Machine.push at hm
  split at hm
  · cases hm
  next hlt =>
    cases hm
    refine { h with stack_le := ?_, stack_mem := ?_ }
    · simp only [List.length_cons]; omega
    · intro b hb
      rcases List.mem_cons.1 hb with rfl | hb
      · exact ha
      · exact h.stack_mem b hb

theorem pop (h : m.WellFormed) {a : Int} {m' : Machine} (hm : m.pop = .ok (a, m')) :
    (0 ≤ a ∧ a < 65536) ∧ m'.WellFormed := by
  unfold Machine.pop at hm
  split at hm
  · cases hm
  next b rest hs =>
    cases hm
    refine ⟨h.stack_mem a (by simp [hs]), { h with stack_le := ?_, stack_mem := ?_ }⟩
    · have := h.stack_le; rw [hs, List.length_cons] at this; simp only; omega
    · exact fun c hc => h.stack_mem c (by simp [hs, show c ∈ rest from hc])

theorem executeAlu (h : m.WellFormed) (op : Alu) (x y : Register) :
    (m.executeAlu op x y).WellFormed := by
  have ha := h.get_mem x
  have hb := h.get_mem y
  cases op with
  | ld => exact h.setV x hb
  | or => exact h.setV x (bitOr_mem ha hb)
  | and => exact h.setV x (bitAnd_mem ha hb)
  | xor => exact h.setV x (bitXor_mem ha hb)
  | add | sub | subn => exact h.setFlagged _ x (low8_mem _)

/-- Registers modulo the size of the screen name a pixel, where the sprite's corner lies. -/
theorem offScreen_draw (h : m.WellFormed) (x y : Int) (rows : List Nat) :
    (m.screen.draw (x % m.screen.width) (y % m.screen.height) rows).offScreen = false := by
  refine h.screen_wellFormed.offScreen_draw rows (Int.emod_nonneg _ ?_) (Int.emod_nonneg _ ?_)
  · rw [h.screen_width]; decide
  · rw [h.screen_height]; decide

theorem executeDraw_eq (h : m.WellFormed) (x y : Register) (n : Fin 16) :
    m.executeDraw x y n =
      let drawing := m.screen.draw (m.v.get x % m.screen.width) (m.v.get y % m.screen.height)
        (m.memory.slice m.i n.val)
      ({ m with screen := drawing.screen }.setV 0xF drawing.collided.toNat, none) := by
  simp only [Machine.executeDraw, h.offScreen_draw, Bool.false_eq_true, ↓reduceIte]

theorem executeDraw (h : m.WellFormed) (x y : Register) (n : Fin 16) :
    (m.executeDraw x y n).1.WellFormed := by
  rw [h.executeDraw_eq]
  refine (h.screen ?_ ?_ (h.screen_wellFormed.draw _ _ _)).setV 0xF ?_
  · rw [Screen.width_draw, h.screen_width]
  · rw [Screen.height_draw, h.screen_height]
  · have := (m.screen.draw (m.v.get x % m.screen.width) (m.v.get y % m.screen.height)
      (m.memory.slice m.i n.val)).collided.toNat_le
    omega

theorem waitKey (h : m.WellFormed) (x : Register) : (m.waitKey x).WellFormed := by
  unfold Machine.waitKey
  split
  · exact { h with pc_mem := low16_mem _ }
  next key _ =>
    have hkey : (0 : Int) ≤ key.val ∧ (key.val : Int) < 256 := by omega
    exact { h.setV x hkey with }

theorem storeDecimal (h : m.WellFormed) (value : Int) : (m.storeDecimal value).WellFormed :=
  h.memory (((Memory.Bytes.write h.memory_lt _ _).write _ _).write _ _)

theorem storeRegisters (h : m.WellFormed) (x : Register) : (m.storeRegisters x).WellFormed := by
  refine h.memory (List.foldlRecOn (motive := Memory.Bytes) _ _ h.memory_lt ?_)
  exact fun memory hm r _ => hm.write _ _

theorem loadRegisters (h : m.WellFormed) (x : Register) : (m.loadRegisters x).WellFormed := by
  refine { h with v_mem := ?_ }
  refine List.foldlRecOn (motive := fun v : Vector Int 16 => ∀ y : Register, 0 ≤ v[y] ∧ v[y] < 256)
    _ _ h.v_mem fun v hv r _ y => ?_
  simp only [Fin.getElem_fin, Vector.getElem_set]
  split
  · have := Memory.Bytes.read_lt h.memory_lt (m.i + r.val); omega
  · exact hv y

theorem executeMisc (h : m.WellFormed) (op : Misc) (x : Register) :
    (m.executeMisc op x).WellFormed := by
  cases op with
  | readDelay => exact h.setV x h.delay_mem
  | waitKey => exact h.waitKey x
  | setDelay => exact h.delay (h.get_mem x)
  | setSound => exact h.sound (h.get_mem x)
  | addIndex => exact h.i (low16_mem _)
  | glyph =>
    have := h.get_mem x
    exact h.i (by simp only [Font.base, Font.glyphSize]; omega)
  | decimal => exact h.storeDecimal _
  | store => exact h.storeRegisters x
  | load => exact h.loadRegisters x

theorem execute (h : m.WellFormed) (ins : Instruction) : (m.execute ins).1.WellFormed := by
  cases ins with
  | sys | data => exact h
  | cls =>
    exact h.screen h.screen_width h.screen_height (Screen.blank_wellFormed _ _)
  | ret =>
    simp only [Machine.execute]
    split
    · exact h
    next hp => exact (h.pop hp).2.pc (h.pop hp).1
  | jp nnn => exact h.pc (by omega)
  | call nnn =>
    simp only [Machine.execute]
    split
    · exact h
    next hp => exact (h.push h.pc_mem hp).pc (by omega)
  | seByte | sneByte | se | sne | skp | sknp => exact h.skipIf _
  | ldByte x nn => exact h.setV x (by omega)
  | addByte x nn => exact h.setV x (low8_mem _)
  | alu op x y => exact h.executeAlu op x y
  | shr x => exact h.setFlagged _ x (by have := h.get_mem x; omega)
  | shl x => exact h.setFlagged _ x (low8_mem _)
  | ldIndex nnn => exact h.i (by omega)
  | jpV0 nnn =>
    have := h.get_mem 0
    exact h.pc (by omega)
  | rnd x nn =>
    have hle : m.random.next.1 &&& nn.val ≤ nn.val := Nat.and_le_right
    have hbyte : 0 ≤ ((m.random.next.1 &&& nn.val : Nat) : Int) ∧
        ((m.random.next.1 &&& nn.val : Nat) : Int) < 256 := by omega
    exact { h.setV x hbyte with }
  | drw x y n => exact h.executeDraw x y n
  | misc op x => exact h.executeMisc op x

theorem execute_error (h : m.WellFormed) {ins : Instruction} {e : Error}
    (he : (m.execute ins).2 = some e) : ∃ f, e = .fault f := by
  cases ins with
  | ret =>
    simp only [Machine.execute] at he
    split at he
    · exact ⟨_, (Option.some.inj he).symm⟩
    · cases he
  | call nnn =>
    simp only [Machine.execute] at he
    split at he
    · exact ⟨_, (Option.some.inj he).symm⟩
    · cases he
  | drw x y n => rw [Machine.execute, h.executeDraw_eq] at he; cases he
  | _ => cases he

theorem step (h : m.WellFormed) : m.step.1.WellFormed := by
  have hx : m.executed.1.WellFormed := h.advance.execute _
  rw [step_eq]
  exact { hx with }

theorem step_error (h : m.WellFormed) {e : Error} (he : m.step.2 = some e) : ∃ f, e = .fault f := by
  rw [step_eq] at he
  exact h.advance.execute_error he

theorem tick (h : m.WellFormed) : m.tick.WellFormed := by
  have hd : m.tickDelay.WellFormed := by
    refine h.delay ?_
    have := h.delay_mem
    split <;> omega
  have hs := hd.sound_mem
  unfold Machine.tick tickSound
  split
  · have ht : WellFormed { m.tickDelay.signal .start with sound := m.tickDelay.sound - 1 } :=
      { hd with sound_mem := by simp only; omega }
    simp only
    split
    · exact { ht with }
    · exact ht
  · exact { hd with }

theorem keySet (h : m.WellFormed) (key : Int) (down : Bool) : (m.keySet key down).WellFormed :=
  { h with }

theorem load (h : m.WellFormed) {program : List UInt8} {m' : Machine}
    (hm : m.load program = .ok m') : m'.WellFormed := by
  unfold Machine.load at hm
  split at hm
  · cases hm
  · cases hm
    exact h.memory (Memory.Bytes.overlay h.memory_lt _ _)

theorem on (h : m.WellFormed) (e : Event) : (m.on e).WellFormed := by
  cases e with
  | step => exact h.step
  | tick => exact h.tick
  | key e => exact h.keySet e.key e.down

theorem run (h : m.WellFormed) (es : List Event) : (m.run es).WellFormed :=
  List.foldlRecOn (motive := WellFormed) es _ h fun _ hm e _ => hm.on e

theorem act (h : m.WellFormed) (a : Action) : (m.act a).WellFormed := by
  cases a with
  | event e => exact h.on e
  | load program =>
    simp only [Machine.act]
    split
    next hm => exact h.load hm
    · exact h
  | write address value => exact h.memory (Memory.Bytes.write h.memory_lt _ _)

theorem live (h : m.WellFormed) (as : List Action) : (m.live as).WellFormed :=
  List.foldlRecOn (motive := WellFormed) as _ h fun _ hm a _ => hm.act a

end WellFormed

theorem load_of_le (m : Machine) {program : List UInt8} (h : program.length ≤ maxProgramSize) :
    m.load program = .ok { m with memory := m.memory.overlay programStart program } :=
  if_neg (Nat.not_lt.2 h)

theorem load_of_lt (m : Machine) {program : List UInt8} (h : maxProgramSize < program.length) :
    m.load program = .error ⟨program.length⟩ :=
  if_pos h

theorem fresh_wellFormed (audio : Audio) (random : ByteSource) :
    (fresh audio random).WellFormed where
  memory_lt := Memory.Bytes.overlay Memory.empty_bytes _ _
  v_mem x := by simp [fresh, loadFont]
  i_mem := by simp [fresh, loadFont]
  pc_mem := by simp [fresh, loadFont, programStart]
  stack_le := Nat.zero_le _
  stack_mem _ ha := absurd ha List.not_mem_nil
  delay_mem := by simp [fresh, loadFont]
  sound_mem := by simp [fresh, loadFont]
  screen_width := rfl
  screen_height := rfl
  screen_wellFormed := Screen.blank_wellFormed _ _

/-- Whatever is loaded, written, executed and pressed, a machine stays in its ranges, and a step on
it ends in nothing worse than a fault of the call stack. -/
theorem live_wellFormed (audio : Audio) (random : ByteSource) (as : List Action) :
    ((fresh audio random).live as).WellFormed ∧
      (((fresh audio random).live as).step.2 = none ∨
        ∃ f, ((fresh audio random).live as).step.2 = some (.fault f)) := by
  have h := (fresh_wellFormed audio random).live as
  refine ⟨h, ?_⟩
  cases he : ((fresh audio random).live as).step.2 with
  | none => exact .inl rfl
  | some e =>
    obtain ⟨f, rfl⟩ := h.step_error he
    exact .inr ⟨f, rfl⟩

end Machine

end ChipEight
