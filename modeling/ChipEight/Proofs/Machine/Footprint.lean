import ChipEight.Proofs.Machine.KeyWait

/-! # What an instruction may touch

`Effect` lists the ways in which a machine that fetched a word may come out of executing it, with
what has to be written and nothing else; `effect_decode` is the one place where the instructions are
gone through, family by family as they are decoded. From it each part of the machine has its own
lemma, and `Footprint` puts these together: no part changes but through the words that are made for
it, and then only where they say (`step_footprint`).
-/

namespace ChipEight

namespace Opcode

variable (w : Opcode)

/-- The word is `FX` and a low byte. -/
def IsMisc (low : Nat) : Prop := w.kind = 0xF ∧ w.nn.val = low

instance (low : Nat) : Decidable (w.IsMisc low) := inferInstanceAs (Decidable (_ ∧ _))

/-- The words that leave a result in VX, apart from those that depend on the keys. -/
def SetsX : Prop :=
  w.kind = 0x6 ∨ w.kind = 0x7 ∨ (w.kind = 0x8 ∧ (w.n.val ≤ 7 ∨ w.n.val = 0xE)) ∨ w.kind = 0xC ∨
  w.IsMisc 0x07

instance : Decidable w.SetsX := inferInstanceAs (Decidable (_ ∨ _))

/-- The words with a carry, a borrow or a bit that is shifted out. -/
def SetsFlag : Prop := w.kind = 0x8 ∧ (4 ≤ w.n.val ∧ w.n.val ≤ 7 ∨ w.n.val = 0xE)

instance : Decidable w.SetsFlag := inferInstanceAs (Decidable (_ ∧ _))

end Opcode

/-- If each step sets one place and leaves the others, then steps in a row set the places that they
are for. -/
theorem foldl_sets {σ α β : Type} [DecidableEq α] {step : σ → α → σ} (look : σ → α → β)
    {new : α → β} (hstep : ∀ s q r, look (step s q) r = if q = r then new q else look s r)
    (qs : List α) (s : σ) (r : α) :
    look (qs.foldl step s) r = if r ∈ qs then new r else look s r := by
  induction qs generalizing s with
  | nil => rfl
  | cons q qs ih =>
    rw [List.foldl_cons, ih, hstep]
    simp only [List.mem_cons]
    by_cases hmem : r ∈ qs
    · rw [if_pos hmem, if_pos (.inr hmem)]
    by_cases heq : q = r
    · rw [if_neg hmem, if_pos heq, if_pos (.inl heq.symm), heq]
    · rw [if_neg hmem, if_neg heq, if_neg (not_or.2 ⟨Ne.symm heq, hmem⟩)]

namespace Machine

section
variable (m : Machine) (w : Opcode)

/-- The word stores something at address `a`. -/
def Stores (a : Int) : Prop :=
  ∃ k : Nat, (m.i + k) % 4096 = a % 4096 ∧ (w.IsMisc 0x33 ∧ k ≤ 2 ∨ w.IsMisc 0x55 ∧ k ≤ w.x.val)

/-- The word sets register `r`. -/
def Sets (r : Register) : Prop :=
  r = w.x ∧ (w.SetsX ∨ w.IsKeyWait ∧ ¬ m.keypad.AllUp) ∨ r ≤ w.x ∧ w.IsMisc 0x65 ∨
    r = 0xF ∧ (w.SetsFlag ∨ w.kind = 0xD)

instance (r : Register) : Decidable (m.Sets w r) := inferInstanceAs (Decidable (_ ∨ _))

/-- The word is a skip, and its condition holds. -/
def Skips : Prop :=
  w.kind = 0x3 ∧ m.v.get w.x = w.nn.val ∨ w.kind = 0x4 ∧ m.v.get w.x ≠ w.nn.val ∨
    w.kind = 0x5 ∧ m.v.get w.x = m.v.get w.y ∨ w.kind = 0x9 ∧ m.v.get w.x ≠ m.v.get w.y ∨
    w.kind = 0xE ∧ (w.nn.val = 0x9E ∧ m.keypad.isDown (m.v.get w.x) = true ∨
      w.nn.val = 0xA1 ∧ m.keypad.isDown (m.v.get w.x) = false)

instance : Decidable (m.Skips w) := inferInstanceAs (Decidable (_ ∨ _))

/-- After the word comes another instruction than the one behind it. -/
def Branches : Prop :=
  w.kind = 0x1 ∨ w.kind = 0x2 ∨ w.kind = 0xB ∨ w.val = 0x00EE ∨ m.Skips w ∨
  w.IsKeyWait ∧ m.keypad.AllUp

instance : Decidable (m.Branches w) := inferInstanceAs (Decidable (_ ∨ _))

/-- All that may be different after a step on the word. -/
structure Footprint (m' : Machine) : Prop where
  memory : ∀ a, m'.memory.read a ≠ m.memory.read a → m.Stores w a
  v : ∀ r, m'.v.get r ≠ m.v.get r → m.Sets w r
  i : m'.i ≠ m.i → w.kind = 0xA ∨ w.IsMisc 0x1E ∨ w.IsMisc 0x29
  pc : ¬ m.Branches w → m'.pc = (m.pc + 2) % 65536
  stack : m'.stack ≠ m.stack →
    (w.kind = 0x2 ∧ ∃ a, m'.stack = a :: m.stack) ∨ (w.val = 0x00EE ∧ ∃ a, m.stack = a :: m'.stack)
  delay : m'.delay ≠ m.delay → w.IsMisc 0x15
  sound : m'.sound ≠ m.sound → w.IsMisc 0x18
  screen : m'.screen ≠ m.screen → w.val = 0x00E0 ∨ w.kind = 0xD
  keypad : m'.keypad ≠ m.keypad → w.IsKeyWait ∧ ¬ m.keypad.AllUp
  waiting : m'.waiting ≠ m.waiting → w.IsKeyWait
  random : m'.random = { m.random with used := m.random.used + if w.kind = 0xC then 1 else 0 }
  audio : m'.audio = m.audio
  cycles : m'.cycles = m.cycles + 1

/-- The machines that may come of executing the word on a machine that fetched it. -/
inductive Effect : Machine → Prop
  | rest (hw : w.kind ≠ 0xC) : Effect m
  | clear (hw : w.val = 0x00E0) (screen : Screen) : Effect { m with screen }
  | ret (hw : w.val = 0x00EE) {a : Int} {stack : List Int} (hs : m.stack = a :: stack) :
      Effect { m with pc := a, stack }
  | call (hw : w.kind = 0x2) (pc : Int) : Effect { m with pc, stack := m.pc :: m.stack }
  | jump (hw : w.kind = 0x1 ∨ w.kind = 0xB) (pc : Int) : Effect { m with pc }
  | skip (hw : m.Skips w) : Effect m.advance
  | set (hw : w.SetsX) (hrnd : w.kind ≠ 0xC) (value : Int) : Effect (m.setV w.x value)
  | flagged (hw : w.SetsFlag) (flag : Bool) (value : Int) : Effect (m.setFlagged flag w.x value)
  | draw (hw : w.kind = 0xD) (screen : Screen) (value : Int) :
      Effect ({ m with screen }.setV 0xF value)
  | rnd (hw : w.kind = 0xC) (value : Int) :
      Effect ({ m with random := m.random.next.2 }.setV w.x value)
  | index (hw : w.kind = 0xA ∨ w.IsMisc 0x1E ∨ w.IsMisc 0x29) (i : Int) : Effect { m with i }
  | delay (hw : w.IsMisc 0x15) (delay : Int) : Effect { m with delay }
  | sound (hw : w.IsMisc 0x18) (sound : Int) : Effect { m with sound }
  | decimal (hw : w.IsMisc 0x33) (value : Int) : Effect (m.storeDecimal value)
  | store (hw : w.IsMisc 0x55) : Effect (m.storeRegisters w.x)
  | load (hw : w.IsMisc 0x65) : Effect (m.loadRegisters w.x)
  | wait (hw : w.IsKeyWait) (hup : m.keypad.AllUp) (pc : Int) :
      Effect { m with pc, waiting := true }
  | latch (hw : w.IsKeyWait) (hdown : ¬ m.keypad.AllUp) (value : Int) (keypad : Keypad) :
      Effect { m.setV w.x value with keypad, waiting := false }

end

variable {m m' : Machine} {w : Opcode}

theorem effect_skipIf {c : Bool} (hrnd : w.kind ≠ 0xC) (hc : c = true → m.Skips w) :
    m.Effect w (m.skipIf c) := by
  unfold skipIf
  split
  next h => exact .skip (hc h)
  · exact .rest hrnd

theorem effect_decodeSys (hk : w.kind = 0x0)
    (hok : (m.execute (Instruction.decodeSys w)).2 = none) :
    m.Effect w (m.execute (Instruction.decodeSys w)).1 := by
  have hrnd : w.kind ≠ 0xC := by omega
  unfold Instruction.decodeSys at hok ⊢
  by_cases hcls : w.val = 0x00E0
  · rw [if_pos hcls]
    exact .clear hcls _
  rw [if_neg hcls] at hok ⊢
  by_cases hret : w.val = 0x00EE
  · rw [if_pos hret, execute_ret] at hok ⊢
    cases hs : m.stack with
    | nil => rw [hs] at hok; cases hok
    | cons a rest => exact .ret hret hs
  · rw [if_neg hret]
    exact .rest hrnd

theorem effect_decodeAlu (hk : w.kind = 0x8) :
    m.Effect w (m.execute (Instruction.decodeAlu w)).1 := by
  have hrnd : w.kind ≠ 0xC := by omega
  have hset : w.n.val ≤ 7 ∨ w.n.val = 0xE → w.SetsX := fun hn => .inr (.inr (.inl ⟨hk, hn⟩))
  have hflag : 4 ≤ w.n.val ∧ w.n.val ≤ 7 ∨ w.n.val = 0xE → w.SetsFlag := fun hn => ⟨hk, hn⟩
  unfold Instruction.decodeAlu
  split
  next hn => exact .set (hset (by omega)) hrnd _
  next hn => exact .set (hset (by omega)) hrnd _
  next hn => exact .set (hset (by omega)) hrnd _
  next hn => exact .set (hset (by omega)) hrnd _
  next hn => exact .flagged (hflag (by omega)) _ _
  next hn => exact .flagged (hflag (by omega)) _ _
  next hn => exact .flagged (hflag (by omega)) _ _
  next hn => exact .flagged (hflag (by omega)) _ _
  next hn => exact .flagged (hflag (by omega)) _ _
  · exact .rest hrnd

theorem effect_decodeKey (hk : w.kind = 0xE) :
    m.Effect w (m.execute (Instruction.decodeKey w)).1 := by
  have hrnd : w.kind ≠ 0xC := by omega
  unfold Instruction.decodeKey
  by_cases hskp : w.nn.val = 0x9E
  · rw [if_pos hskp]
    exact effect_skipIf hrnd fun hc => .inr (.inr (.inr (.inr ⟨hk, .inl ⟨hskp, hc⟩⟩)))
  rw [if_neg hskp]
  by_cases hsknp : w.nn.val = 0xA1
  · rw [if_pos hsknp]
    refine effect_skipIf hrnd fun hc => .inr (.inr (.inr (.inr ⟨hk, .inr ⟨hsknp, ?_⟩⟩)))
    exact Bool.not_eq_true' _ ▸ hc
  · rw [if_neg hsknp]
    exact .rest hrnd

theorem effect_waitKey (hw : w.IsKeyWait) : m.Effect w (m.waitKey w.x) := by
  unfold waitKey
  split
  next hnone => exact .wait hw (Keypad.firstDown?_eq_none_iff.1 hnone) _
  next key hsome => exact .latch hw (Keypad.lowest_of_firstDown? hsome).not_allUp _ _

theorem effect_decodeMisc (hk : w.kind = 0xF) :
    m.Effect w (m.execute (Instruction.decodeMisc w)).1 := by
  have hrnd : w.kind ≠ 0xC := by omega
  unfold Instruction.decodeMisc
  split
  next hn => exact .set (.inr (.inr (.inr (.inr ⟨hk, hn⟩)))) hrnd _
  next hn => exact effect_waitKey ⟨hk, hn⟩
  next hn => exact .delay ⟨hk, hn⟩ _
  next hn => exact .sound ⟨hk, hn⟩ _
  next hn => exact .index (.inr (.inl ⟨hk, hn⟩)) _
  next hn => exact .index (.inr (.inr ⟨hk, hn⟩)) _
  next hn => exact .decimal ⟨hk, hn⟩ _
  next hn => exact .store ⟨hk, hn⟩
  next hn => exact .load ⟨hk, hn⟩
  · exact .rest hrnd

theorem effect_call (hk : w.kind = 0x2) (hok : (m.execute (.call w.nnn)).2 = none) :
    m.Effect w (m.execute (.call w.nnn)).1 := by
  rw [execute_call] at hok ⊢
  by_cases hfull : stackDepth ≤ m.stack.length
  · rw [if_pos hfull] at hok; cases hok
  · rw [if_neg hfull]
    exact .call hk _

theorem effect_drw (hk : w.kind = 0xD) {x y : Register} {n : Fin 16}
    (hok : (m.execute (.drw x y n)).2 = none) :
    m.Effect w (m.execute (.drw x y n)).1 := by
  simp only [execute, executeDraw] at hok ⊢
  split at hok
  · cases hok
  next hoff =>
    rw [if_neg hoff]
    exact .draw hk _ _

theorem effect_decode (hok : (m.execute (.decode w)).2 = none) :
    m.Effect w (m.execute (.decode w)).1 := by
  unfold Instruction.decode at hok ⊢
  split at hok
  next hk => exact effect_decodeSys hk hok
  next hk => exact .jump (.inl hk) _
  next hk => exact effect_call hk hok
  next hk => exact effect_skipIf (by omega) fun hc => .inl ⟨hk, beq_iff_eq.1 hc⟩
  next hk => exact effect_skipIf (by omega) fun hc => .inr (.inl ⟨hk, bne_iff_ne.1 hc⟩)
  next hk => exact effect_skipIf (by omega) fun hc => .inr (.inr (.inl ⟨hk, beq_iff_eq.1 hc⟩))
  next hk => exact .set (.inl hk) (by omega) _
  next hk => exact .set (.inr (.inl hk)) (by omega) _
  next hk => exact effect_decodeAlu hk
  next hk =>
    exact effect_skipIf (by omega) fun hc => .inr (.inr (.inr (.inl ⟨hk, bne_iff_ne.1 hc⟩)))
  next hk => exact .index (.inl hk) _
  next hk => exact .jump (.inr hk) _
  next hk => exact .rnd hk _
  next hk => exact effect_drw hk hok
  next hk => exact effect_decodeKey hk
  next =>
    have hlt := w.kind_lt
    exact effect_decodeMisc (by grind)

theorem read_storeDecimal (m : Machine) (value : Int) {a : Int}
    (h : ∀ k : Nat, k ≤ 2 → (m.i + k) % 4096 ≠ a % 4096) :
    (m.storeDecimal value).memory.read a = m.memory.read a := by
  have h0 := h 0 (by omega)
  have h1 := h 1 (by omega)
  have h2 := h 2 (by omega)
  simp only [storeDecimal, Memory.read_write]
  rw [if_neg (by omega), if_neg (by omega), if_neg (by omega)]

/-- The registers that go to memory, or come from it. -/
theorem mem_block {x r : Register} : r ∈ (List.finRange 16).filter (· ≤ x) ↔ r ≤ x := by simp

theorem read_storeRegisters (m : Machine) (x : Register) {a : Int}
    (h : ∀ k : Nat, k ≤ x.val → (m.i + k) % 4096 ≠ a % 4096) :
    (m.storeRegisters x).memory.read a = m.memory.read a := by
  refine List.foldlRecOn (motive := fun memory : Memory => memory.read a = m.memory.read a) _ _
    rfl ?_
  intro memory hmemory r hr
  rw [Memory.read_write, if_neg (h r (mem_block.1 hr))]
  exact hmemory

theorem get_loadRegisters (m : Machine) (x r : Register) :
    (m.loadRegisters x).v.get r = if r ≤ x then (m.memory.read (m.i + r.val) : Int)
      else m.v.get r := by
  have hset (v : Vector Int 16) (q r : Register) :
      (v.set q (m.memory.read (m.i + q.val)) q.lt).get r =
        if q = r then (m.memory.read (m.i + q.val) : Int) else v.get r := by
    show (v.set q (m.memory.read (m.i + q.val)) q.lt)[r] =
      if q = r then (m.memory.read (m.i + q.val) : Int) else v[r]
    simp only [Fin.getElem_fin, Vector.getElem_set, Fin.ext_iff]
  have hfold := foldl_sets Vector.get hset ((List.finRange 16).filter (· ≤ x)) m.v r
  simp only [mem_block] at hfold
  exact hfold

theorem eq_of_get_setV_ne {x r : Register} {value : Int}
    (h : (m.setV x value).v.get r ≠ m.v.get r) : r = x := by
  by_contra hne
  exact h (by rw [get_setV, if_neg hne])

namespace Effect

theorem memory (h : m.Effect w m') {a : Int} (ha : m'.memory.read a ≠ m.memory.read a) :
    m.Stores w a := by
  cases h with
  | decimal hw value =>
    by_contra hno
    exact ha (m.read_storeDecimal value fun k hk heq => hno ⟨k, heq, .inl ⟨hw, hk⟩⟩)
  | store hw =>
    by_contra hno
    exact ha (m.read_storeRegisters w.x fun k hk heq => hno ⟨k, heq, .inr ⟨hw, hk⟩⟩)
  | _ => exact absurd rfl ha

theorem v (h : m.Effect w m') {r : Register} (hr : m'.v.get r ≠ m.v.get r) : m.Sets w r := by
  cases h with
  | set hw => exact .inl ⟨eq_of_get_setV_ne hr, .inl hw⟩
  | rnd hw => exact .inl ⟨eq_of_get_setV_ne hr, .inl (.inr (.inr (.inr (.inl hw))))⟩
  | latch hw hdown => exact .inl ⟨eq_of_get_setV_ne (m := m) hr, .inr ⟨hw, hdown⟩⟩
  | draw hw => exact .inr (.inr ⟨eq_of_get_setV_ne hr, .inr hw⟩)
  | flagged hw =>
    -- the result register, or else VF
    rw [get_setFlagged] at hr
    by_cases hx : r = w.x
    · obtain ⟨hk, hn⟩ := hw
      exact .inl ⟨hx, .inl (.inr (.inr (.inl ⟨hk, by omega⟩)))⟩
    · rw [if_neg hx] at hr
      by_cases hf : r = 0xF
      · exact .inr (.inr ⟨hf, .inl hw⟩)
      · rw [if_neg hf] at hr
        exact absurd rfl hr
  | load hw =>
    rw [get_loadRegisters] at hr
    by_cases hle : r ≤ w.x
    · exact .inr (.inl ⟨hle, hw⟩)
    · rw [if_neg hle] at hr
      exact absurd rfl hr
  | _ => exact absurd rfl hr

theorem i (h : m.Effect w m') (hi : m'.i ≠ m.i) : w.kind = 0xA ∨ w.IsMisc 0x1E ∨ w.IsMisc 0x29 := by
  cases h with
  | index hw => exact hw
  | _ => exact absurd rfl hi

theorem pc (h : m.Effect w m') (hb : ¬ m.Branches w) : m'.pc = m.pc := by
  unfold Branches at hb
  cases h with
  | ret hw => exact absurd (.inr (.inr (.inr (.inl hw)))) hb
  | call hw => exact absurd (.inr (.inl hw)) hb
  | jump hw =>
    rcases hw with hw | hw
    · exact absurd (.inl hw) hb
    · exact absurd (.inr (.inr (.inl hw))) hb
  | skip hw => exact absurd (.inr (.inr (.inr (.inr (.inl hw))))) hb
  | wait hw hup => exact absurd (.inr (.inr (.inr (.inr (.inr ⟨hw, hup⟩))))) hb
  | _ => rfl

theorem stack (h : m.Effect w m') (hne : m'.stack ≠ m.stack) :
    (w.kind = 0x2 ∧ ∃ a, m'.stack = a :: m.stack) ∨
    (w.val = 0x00EE ∧ ∃ a, m.stack = a :: m'.stack) := by
  cases h with
  | call hw => exact .inl ⟨hw, m.pc, rfl⟩
  | ret hw hs => exact .inr ⟨hw, _, hs⟩
  | _ => exact absurd rfl hne

theorem delay_of_ne (h : m.Effect w m') (hne : m'.delay ≠ m.delay) : w.IsMisc 0x15 := by
  cases h with
  | delay hw => exact hw
  | _ => exact absurd rfl hne

theorem sound_of_ne (h : m.Effect w m') (hne : m'.sound ≠ m.sound) : w.IsMisc 0x18 := by
  cases h with
  | sound hw => exact hw
  | _ => exact absurd rfl hne

theorem screen (h : m.Effect w m') (hs : m'.screen ≠ m.screen) : w.val = 0x00E0 ∨ w.kind = 0xD := by
  cases h with
  | clear hw => exact .inl hw
  | draw hw => exact .inr hw
  | _ => exact absurd rfl hs

theorem keypad (h : m.Effect w m') (hpad : m'.keypad ≠ m.keypad) :
    w.IsKeyWait ∧ ¬ m.keypad.AllUp := by
  cases h with
  | latch hw hdown => exact ⟨hw, hdown⟩
  | _ => exact absurd rfl hpad

theorem waiting (h : m.Effect w m') (hflag : m'.waiting ≠ m.waiting) : w.IsKeyWait := by
  cases h with
  | wait hw => exact hw
  | latch hw => exact hw
  | _ => exact absurd rfl hflag

theorem random (h : m.Effect w m') :
    m'.random = { m.random with used := m.random.used + if w.kind = 0xC then 1 else 0 } := by
  have hsame (hw : w.kind ≠ 0xC) :
      m.random = { m.random with used := m.random.used + if w.kind = 0xC then 1 else 0 } := by
    rw [if_neg hw, Nat.add_zero]
  cases h with
  | rnd hw => rw [if_pos hw]; rfl
  | rest hw => exact hsame hw
  | set _ hw => exact hsame hw
  | clear hw | ret hw => exact hsame (by rw [Opcode.kind, hw]; decide)
  | call hw | draw hw => exact hsame (by rw [hw]; decide)
  | flagged hw | delay hw | sound hw | decimal hw | store hw | load hw | wait hw | latch hw =>
    exact hsame (by rw [hw.1]; decide)
  | jump hw | skip hw | index hw => exact hsame (by grind [Skips, Opcode.IsMisc])

theorem audio (h : m.Effect w m') : m'.audio = m.audio := by cases h <;> rfl

theorem cycles (h : m.Effect w m') : m'.cycles = m.cycles := by cases h <;> rfl

theorem footprint (h : m.advance.Effect w m') :
    m.Footprint w { m' with cycles := m'.cycles + 1 } where
  memory _ ha := h.memory ha
  v _ hr := h.v hr
  i := h.i
  pc hb := (h.pc hb).trans (natCast_low16 _)
  stack := h.stack
  delay := h.delay_of_ne
  sound := h.sound_of_ne
  screen := h.screen
  keypad := h.keypad
  waiting := h.waiting
  random := h.random
  audio := h.audio
  cycles := congrArg (· + 1) h.cycles

end Effect

/-- A step that does not fault changes no part of the machine but through the words that are made to
change it, and there only what they name. It counts one cycle, takes a random byte if it is `CXNN`,
and signals nothing. -/
theorem step_footprint (hok : m.step.2 = none) : m.Footprint m.opcodeAt m.step.1 := by
  rw [error_step] at hok
  have heffect : m.advance.Effect m.opcodeAt m.executed.1 := effect_decode hok
  rw [m.step_of_ok (Prod.ext rfl hok)]
  exact heffect.footprint

/-- Storing V0 and V1 from the last address of memory on writes the first address too, and nothing
else. -/
theorem step_footprint_of_store :
    let m := { (fresh .silent .zeros).act (.load [0xF1, 0x55]) with i := 0xFFF }
    m.step.2 = none ∧ (∀ a, m.step.1.memory.read a ≠ m.memory.read a →
      a % 4096 = 0xFFF ∨ a % 4096 = 0) ∧
      (∀ r, m.step.1.v.get r = m.v.get r) ∧ m.step.1.i = 0xFFF ∧ m.step.1.pc = 0x202 := by
  intro m
  have hbefore : m.step.2 = none ∧ m.opcodeAt.x.val = 1 ∧ ¬ m.opcodeAt.IsMisc 0x33 ∧
      (∀ r, ¬ m.Sets m.opcodeAt r) ∧ ¬ m.Branches m.opcodeAt ∧
      ¬ (m.opcodeAt.kind = 0xA ∨ m.opcodeAt.IsMisc 0x1E ∨ m.opcodeAt.IsMisc 0x29) := by
    decide +kernel
  obtain ⟨hok, hx, hdecimal, hsets, hbranches, hindex⟩ := hbefore
  have hprint := step_footprint hok
  refine ⟨hok, fun a ha => ?_, fun r => ?_, ?_, hprint.pc hbranches⟩
  · obtain ⟨k, hk, ⟨hw, -⟩ | ⟨-, hle⟩⟩ := hprint.memory a ha
    · exact absurd hw hdecimal
    · have hi : m.i = 0xFFF := rfl
      omega
  · exact not_not.1 (mt (hprint.v r) (hsets r))
  · exact not_not.1 (mt hprint.i hindex)

end Machine

end ChipEight
