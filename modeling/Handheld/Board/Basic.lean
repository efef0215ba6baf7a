import Handheld.Bus.Access
import Handheld.Cpu.Opcode

/-! The processor with the bus that it drives, and the steps of which instructions consist:
fetches, stack operations and access to operands. Each step happens at once and in order, so
a fault leaves behind exactly what came before it.
-/

namespace Handheld

/-- The processor and its bus. -/
structure Board where
  cpu : Cpu
  bus : Bus

namespace Board

instance : Inhabited Board :=
  ⟨⟨default, default⟩⟩

/-- What a board does that can be watched from outside. -/
inductive Event where
  /-- A byte is put on the bus for an address. -/
  | write (address : UInt16) (value : UInt8)
  /-- An instruction begins; its opcode has been fetched. -/
  | instruction (instruction : Instruction)
  /-- An interrupt is acknowledged. -/
  | interrupt (source : Interrupt)
  deriving DecidableEq, Repr

end Board

/-- A state around a board, in which the actions of the board run. It may keep a record of
what it notices.
-/
class Housing (State : Type) where
  /-- An action of the board, as an action of the whole state. -/
  onBoard {α : Type} : Act Board α → Act State α
  /-- The state after noticing an event. -/
  notice : Board.Event → State → State

/-- A board by itself keeps no record. -/
instance : Housing Board where
  onBoard act := act
  notice _ board := board

namespace Board

variable {State : Type} [Housing State]

/-- An action of the bus, as an action of the board. -/
def onBus {α : Type} (act : Act Bus α) : Act State α :=
  Housing.onBoard fun ⟨cpu, bus⟩ =>
    match act bus with
    | .ok value bus => .ok value ⟨cpu, bus⟩
    | .error fault bus => .error fault ⟨cpu, bus⟩

def inspect {α : Type} (view : Board → α) : Act State α :=
  Housing.onBoard fun board => .ok (view board) board

def observe {α : Type} (view : Cpu → α) : Act State α :=
  inspect fun board => view board.cpu

/-- A change of the board that cannot fail. -/
def alter (change : Board → Board) : Act State Unit :=
  Housing.onBoard (modify change)

def modifyCpu (change : Cpu → Cpu) : Act State Unit :=
  alter fun board => { board with cpu := change board.cpu }

def modifyBus (change : Bus → Bus) : Act State Unit :=
  alter fun board => { board with bus := change board.bus }

/-- An event shown to whoever watches. -/
def notice (event : Event) : Act State Unit :=
  modify (Housing.notice event)

def read (address : UInt16) : Act State UInt8 :=
  onBus (Bus.read address)

def write (address : UInt16) (value : UInt8) : Act State Unit := do
  notice (.write address value)
  onBus (Bus.write address value)

/-- Writing two bytes, low byte first. -/
def writeWord (address value : UInt16) : Act State Unit := do
  write address (lowByte value)
  write (address + 1) (highByte value)

/-- The byte at the program counter, which moves past it. -/
def fetch : Act State UInt8 := do
  let value ← read (← observe (·.pc))
  modifyCpu fun cpu => { cpu with pc := cpu.pc + 1 }
  pure value

/-- The word at the program counter, low byte first. -/
def fetchWord : Act State UInt16 := do
  let low ← fetch
  let high ← fetch
  pure (wordOf high low)

/-- One byte put on the stack; the stack pointer moves first. -/
def pushByte (value : UInt8) : Act State Unit := do
  modifyCpu fun cpu => { cpu with sp := cpu.sp - 1 }
  write (← observe (·.sp)) value

/-- One byte taken off the stack; the stack pointer moves after the read. -/
def popByte : Act State UInt8 := do
  let value ← read (← observe (·.sp))
  modifyCpu fun cpu => { cpu with sp := cpu.sp + 1 }
  pure value

/-- A word put on the stack, so that its low byte lies at the lower address. -/
def push (value : UInt16) : Act State Unit := do
  pushByte (highByte value)
  pushByte (lowByte value)

def pop : Act State UInt16 := do
  let low ← popByte
  let high ← popByte
  pure (wordOf high low)

def readOperand : Operand → Act State UInt8
  | .register register => observe (·.byte register)
  | .atHl => do read (← observe (·.hl))

def writeOperand (operand : Operand) (value : UInt8) : Act State Unit :=
  match operand with
  | .register register => modifyCpu (·.setByte register value)
  | .atHl => do write (← observe (·.hl)) value

def pointerAddress (pointer : Pointer) (cpu : Cpu) : UInt16 :=
  match pointer with
  | .bc => cpu.bc
  | .de => cpu.de
  | .hlUp | .hlDown => cpu.hl

/-- The processor after a pointer was used at an address. -/
def movePointer (pointer : Pointer) (address : UInt16) (cpu : Cpu) : Cpu :=
  match pointer with
  | .bc | .de => cpu
  | .hlUp => cpu.setHl (address + 1)
  | .hlDown => cpu.setHl (address - 1)

/-- Whether a branch is taken; one without a condition always is. -/
def branches (condition : Option Condition) (cpu : Cpu) : Bool :=
  condition.all (·.holds cpu.flags)

/-- The larger of two costs for an operand in memory, the smaller for one in a register. -/
def operandCost (operand : Operand) (inRegister inMemory : Nat) : Nat :=
  match operand with
  | .register _ => inRegister
  | .atHl => inMemory

end Board

end Handheld
