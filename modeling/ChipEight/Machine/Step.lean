import ChipEight.Instruction
import ChipEight.Machine

/-! # Executing instructions

`Machine.step` fetches, advances the program counter and executes. A step that ends in an error
leaves the machine as it was after the fetch, apart from what a sprite has drawn until then.
-/

namespace ChipEight.Machine

def setV (m : Machine) (x : Register) (value : Int) : Machine :=
  { m with v := m.v.set x value x.lt }

/-- Registers VF and `x`, the flag first: a result in VF replaces the flag. -/
def setFlagged (m : Machine) (flag : Bool) (x : Register) (value : Int) : Machine :=
  (m.setV 0xF flag.toNat).setV x value

def skipIf (m : Machine) (c : Bool) : Machine := if c then m.advance else m

/-- Both operands are read before anything is written. -/
def executeAlu (m : Machine) (op : Alu) (x y : Register) : Machine :=
  let a := m.v.get x
  let b := m.v.get y
  match op with
  | .ld => m.setV x b
  | .or => m.setV x (bitOr a b)
  | .and => m.setV x (bitAnd a b)
  | .xor => m.setV x (bitXor a b)
  | .add => m.setFlagged (255 < a + b) x (low8 (a + b))
  | .sub => m.setFlagged (b ≤ a) x (low8 (a - b))
  | .subn => m.setFlagged (a ≤ b) x (low8 (b - a))

/-- Sprites start on the screen. VF tells whether a lit pixel went dark. -/
def executeDraw (m : Machine) (x y : Register) (n : Fin 16) : Machine × Option Error :=
  let rows := m.memory.slice m.i n.val
  let drawing := m.screen.draw (m.v.get x % m.screen.width) (m.v.get y % m.screen.height) rows
  let m := { m with screen := drawing.screen }
  if drawing.offScreen then (m, some .offScreen) else (m.setV 0xF drawing.collided.toNat, none)

/-- The lowest key that is down is stored and counts as released. With no key down the program
counter goes back, so that the same instruction comes again. -/
def waitKey (m : Machine) (x : Register) : Machine :=
  match m.keypad.firstDown? with
  | none => { m with pc := m.fetchedFrom, waiting := true }
  | some key =>
    { m.setV x key.val with keypad := m.keypad.set key.val false, waiting := false }

/-- The hundreds, the tens and the ones go to memory. -/
def storeDecimal (m : Machine) (value : Int) : Machine :=
  { m with
    memory := ((m.memory.write m.i (value / 100)).write (m.i + 1) (value / 10 % 10)).write
      (m.i + 2) (value % 10) }

/-- V0 to the register go to memory, in this order. -/
def storeRegisters (m : Machine) (x : Register) : Machine :=
  { m with
    memory := ((List.finRange 16).filter (· ≤ x)).foldl
      (fun (memory : Memory) (r : Register) => memory.write (m.i + r.val) (m.v.get r)) m.memory }

/-- V0 to the register come from memory, in this order. -/
def loadRegisters (m : Machine) (x : Register) : Machine :=
  { m with
    v := ((List.finRange 16).filter (· ≤ x)).foldl
      (fun (v : Vector Int 16) (r : Register) => v.set r (m.memory.read (m.i + r.val)) r.lt) m.v }

def executeMisc (m : Machine) (op : Misc) (x : Register) : Machine :=
  match op with
  | .readDelay => m.setV x m.delay
  | .waitKey => m.waitKey x
  | .setDelay => { m with delay := m.v.get x }
  | .setSound => { m with sound := m.v.get x }
  | .addIndex => { m with i := low16 (m.i + m.v.get x) }
  | .glyph => { m with i := Font.base + Font.glyphSize * m.v.get x }
  | .decimal => m.storeDecimal (m.v.get x)
  | .store => m.storeRegisters x
  | .load => m.loadRegisters x

/-- Executes an instruction that was fetched. -/
def execute (m : Machine) : Instruction → Machine × Option Error
  | .sys _ => (m, none)
  | .cls => ({ m with screen := m.screen.clear }, none)
  | .ret =>
    match m.pop with
    | .error f => (m, some (.fault f))
    | .ok (address, m) => ({ m with pc := address }, none)
  | .jp nnn => ({ m with pc := nnn }, none)
  | .call nnn =>
    match m.push m.pc with
    | .error f => (m, some (.fault f))
    | .ok m => ({ m with pc := nnn }, none)
  | .seByte x nn => (m.skipIf (m.v.get x == nn.val), none)
  | .sneByte x nn => (m.skipIf (m.v.get x != nn.val), none)
  | .se x y => (m.skipIf (m.v.get x == m.v.get y), none)
  | .ldByte x nn => (m.setV x nn, none)
  | .addByte x nn => (m.setV x (low8 (m.v.get x + nn.val)), none)
  | .alu op x y => (m.executeAlu op x y, none)
  | .shr x => (m.setFlagged (m.v.get x % 2 == 1) x (m.v.get x / 2), none)
  | .shl x => (m.setFlagged (m.v.get x / 128 % 2 == 1) x (low8 (2 * m.v.get x)), none)
  | .sne x y => (m.skipIf (m.v.get x != m.v.get y), none)
  | .ldIndex nnn => ({ m with i := nnn }, none)
  | .jpV0 nnn => ({ m with pc := nnn + m.v.get 0 }, none)
  | .rnd x nn =>
    let (byte, random) := m.random.next
    ({ m with random := random }.setV x (byte &&& nn.val : Nat), none)
  | .drw x y n => m.executeDraw x y n
  | .skp x => (m.skipIf (m.keypad.isDown (m.v.get x)), none)
  | .sknp x => (m.skipIf (!m.keypad.isDown (m.v.get x)), none)
  | .misc op x => (m.executeMisc op x, none)
  | .data _ => (m, none)

/-- One instruction. -/
def step (m : Machine) : Machine × Option Error :=
  match m.advance.execute (.decode m.opcodeAt) with
  | (m, none) => ({ m with cycles := m.cycles + 1 }, none)
  | (m, some e) => (m, some e)

end ChipEight.Machine
