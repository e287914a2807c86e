import ChipEight.Proofs.Machine.WellFormed
import ChipEight.Proofs.Memory.Growth
import ChipEight.Session

/-! # Loading

A font goes into memory from cell `0x50` on and a program from cell `0x200` on, and nothing else of
the machine changes. A program that does not fit is refused, and then nothing changes at all
(`loads`). After any calls of both an address holds the byte of the last call that reaches it
(`read_loadAll`), and the memory is what addresses see of a store that an overlong font has made
larger (`shows_loadAll`).
-/

namespace ChipEight

/-- A call of one of the two loaders. -/
inductive Loading
  | font (glyphs : List UInt8)
  | program (image : List UInt8)

namespace Loading

/-- The cell of the first byte. -/
def start : Loading → Nat
  | font _ => Font.base
  | program _ => programStart

/-- The bytes that get in. There are none of a program that is refused. -/
def bytes : Loading → List UInt8
  | font glyphs => glyphs
  | program image => if image.length ≤ maxProgramSize then image else []

def landing? (c : Loading) (a : Int) : Option UInt8 := Memory.landing? c.start c.bytes a

def put (m : Memory) (c : Loading) : Memory := m.overlay c.start c.bytes

/-- The same on a store that grows. -/
def splice (store : List Nat) (c : Loading) : List Nat := Memory.splice store c.start c.bytes

theorem start_le : ∀ c : Loading, c.start ≤ 4096
  | font _ => show Font.base ≤ 4096 by decide
  | program _ => show programStart ≤ 4096 by decide

/-- The latest call that reaches an address decides what it holds. -/
theorem read_foldl_put (calls : List Loading) (m : Memory) (a : Int) :
    (calls.foldl put m).read a =
      ((calls.reverse.findSome? (·.landing? a)).map UInt8.toNat).getD (m.read a) := by
  induction calls generalizing m with
  | nil => rfl
  | cons c calls ih =>
    rw [List.foldl_cons, ih, put, Memory.read_overlay_landing, List.reverse_cons,
      List.findSome?_append]
    cases calls.reverse.findSome? (·.landing? a) with
    | some b => rfl
    | none =>
      rw [Option.none_or, List.findSome?_singleton]
      rfl

theorem shows_foldl {m : Memory} {store : List Nat} (h : m.Shows store) (calls : List Loading) :
    (calls.foldl put m).Shows (calls.foldl splice store) := by
  induction calls generalizing m store with
  | nil => exact h
  | cons c calls ih => exact ih (h.splice c.start_le c.bytes)

end Loading

namespace Session

/-- The session after a call of a loader. -/
def call (s : Session) : Loading → Session
  | .font glyphs => { s with machine := s.machine.loadFont glyphs }
  | .program image => (s.load image).1

def loadAll (s : Session) (calls : List Loading) : Session := calls.foldl call s

/-- What the loaders do in a session. -/
structure Loads (s : Session) : Prop where
  refuses : ∀ program, (∃ e, s.machine.load program = .error e) ↔ 3584 < program.length
  refused : ∀ program, 3584 < program.length → s.load program = (s, some ⟨program.length⟩)
  accepted : ∀ program, program.length ≤ 3584 → ∃ memory,
    s.machine.load program = .ok { s.machine with memory } ∧
    s.load program =
      ({ s with
          machine := { s.machine with memory }
          log := s.log.add (Machine.loadRecord program) }, none) ∧
    s.machine.memory.Overlaid 0x200 program memory
  font : ∀ glyphs, ∃ memory,
    s.machine.loadFont glyphs = { s.machine with memory } ∧
      s.machine.memory.Overlaid 0x50 glyphs memory

variable (s : Session)

theorem load_of_lt {program : List UInt8} (h : 3584 < program.length) :
    s.load program = (s, some ⟨program.length⟩) := by
  simp only [load, Machine.loadLogged, Machine.load_of_lt _ h]

theorem load_of_le {program : List UInt8} (h : program.length ≤ 3584) :
    s.load program =
      ({ s with
          machine := { s.machine with memory := s.machine.memory.overlay programStart program }
          log := s.log.add (Machine.loadRecord program) }, none) := by
  simp only [load, Machine.loadLogged, Machine.load_of_le _ h]

theorem loads : s.Loads where
  refuses program := by
    constructor
    · rintro ⟨e, he⟩
      refine Nat.not_le.1 fun hle => ?_
      cases (s.machine.load_of_le hle).symm.trans he
    · intro hlt
      exact ⟨_, s.machine.load_of_lt hlt⟩
  refused _ hlt := s.load_of_lt hlt
  accepted program hle :=
    ⟨_, s.machine.load_of_le hle, s.load_of_le hle, s.machine.memory.overlaid_overlay 0x200 program⟩
  font glyphs := ⟨_, rfl, s.machine.memory.overlaid_overlay 0x50 glyphs⟩

theorem machine_call (c : Loading) :
    (s.call c).machine = { s.machine with memory := c.put s.machine.memory } := by
  cases c with
  | font glyphs => rfl
  | program image =>
    rw [call, Loading.put, Loading.bytes]
    split
    next hle => rw [load_of_le s hle]; rfl
    next hlt => rw [load_of_lt s (Nat.not_le.1 hlt)]; rfl

theorem machine_loadAll (calls : List Loading) :
    (s.loadAll calls).machine =
      { s.machine with memory := calls.foldl Loading.put s.machine.memory } := by
  induction calls generalizing s with
  | nil => rfl
  | cons c calls ih =>
    have hrest : ((s.call c).loadAll calls).machine = _ := ih (s.call c)
    rw [machine_call] at hrest
    exact hrest

/-- After any calls of the loaders the next one does what it is for. Of the machine they have
changed the memory alone, an address has the byte of the last call that reached it, and a store that
has grown shows the same. -/
theorem loads_exactly (calls : List Loading) :
    (s.loadAll calls).Loads ∧
      (∃ memory, (s.loadAll calls).machine = { s.machine with memory }) ∧
      (∀ a, (s.loadAll calls).machine.memory.read a =
        ((calls.reverse.findSome? (·.landing? a)).map UInt8.toNat).getD (s.machine.memory.read a)) ∧
      ∀ store, s.machine.memory.Shows store →
        (s.loadAll calls).machine.memory.Shows (calls.foldl Loading.splice store) := by
  refine ⟨loads _, ⟨_, s.machine_loadAll calls⟩, ?_, ?_⟩
  · intro a
    rw [machine_loadAll]
    exact Loading.read_foldl_put calls s.machine.memory a
  · intro store hshows
    rw [machine_loadAll]
    exact Loading.shows_foldl hshows calls

/-- A font that goes over the end of memory, the largest program and one that is a byte too
large. -/
theorem loads_exactly_of_overlong :
    let s := ofRates (.fresh .silent .zeros) (.recorder (.new none)) 500 60 .trace
    let calls : List Loading :=
      [.font (List.replicate 5000 7), .program (List.replicate 3584 9),
        .program (List.replicate 3585 1)]
    let store := s.machine.memory.cells.toList
    s.machine.memory.Shows store ∧
      (s.loadAll calls).machine.memory.Shows (calls.foldl Loading.splice store) ∧
      [-1, 0, 0x4F, 0x50, 0x1FF, 0x200, 0x1000].map (s.loadAll calls).machine.memory.read =
        [9, 0, 0, 7, 7, 9, 0] := by
  intro s calls store
  obtain ⟨-, -, hread, hgrown⟩ := s.loads_exactly calls
  have hshows : s.machine.memory.Shows store := s.machine.memory.shows_toList
  refine ⟨hshows, hgrown store hshows, ?_⟩
  simp only [List.map_cons, List.map_nil, hread]
  decide +kernel

end Session

end ChipEight
