import ChipEight.Instruction.Assembly
import ChipEight.Log
import ChipEight.Machine.Step

/-! # What the machine logs

Each step leaves a trace record, which shows the machine before the instruction, whether or not the
instruction succeeds; a key wait that ends leaves a second one, and loading a program leaves one.
-/

namespace ChipEight.Machine

/-- The address, the word and its text, then the registers and the index. -/
def traceMessage (m : Machine) : String :=
  let w := m.opcodeAt
  Hex.padded 3 m.advance.fetchedFrom ++ ": " ++ Hex.padded 4 w.val ++ "  " ++
    String.ofList ((disassemble w).toList.rightpad 18 ' ') ++
    " V=" ++ String.intercalate " " (m.v.toList.map (Hex.signed 2)) ++ " I=" ++ Hex.signed 3 m.i

def latchMessage (key : Fin 16) (x : Register) : String :=
  "key " ++ String.singleton (Hex.upperDigit key) ++ " latched into V" ++
    String.singleton (Hex.upperDigit x)

/-- The record of a program that was loaded. -/
def loadRecord (program : List UInt8) : Log.Record :=
  ⟨.info, .machine,
    "loaded " ++ toString program.length ++ " bytes at " ++ Hex.literal 3 programStart⟩

/-- A key wait, which leaves a record of the key that it takes, and the log after it. -/
def waitKeyLogged (m : Machine) (x : Register) (log : Log) : Machine × Log :=
  match m.keypad.firstDown? with
  | none => (m.waitKey x, log)
  | some key => (m.waitKey x, log.add ⟨.debug, .machine, latchMessage key x⟩)

/-- An instruction that was fetched, and the log after it. -/
def executeLogged (m : Machine) (log : Log) : Instruction → (Machine × Option Error) × Log
  | .misc .waitKey x =>
    let (m, log) := m.waitKeyLogged x log
    ((m, none), log)
  | instruction => (m.execute instruction, log)

/-- A step and the log after it. The trace record comes before anything is executed. -/
def stepLogged (m : Machine) (log : Log) : (Machine × Option Error) × Log :=
  let log := log.add ⟨.trace, .machine, m.traceMessage⟩
  match m.advance.executeLogged log (.decode m.opcodeAt) with
  | ((m, none), log) => (({ m with cycles := m.cycles + 1 }, none), log)
  | ((m, some e), log) => ((m, some e), log)

/-- Loading and the log after it. A program that is refused leaves no record. -/
def loadLogged (m : Machine) (program : List UInt8) (log : Log) : Except Oversize Machine × Log :=
  match m.load program with
  | .error e => (.error e, log)
  | .ok m => (.ok m, log.add (loadRecord program))

end ChipEight.Machine
