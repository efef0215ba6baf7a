import Handheld.Cpu.Arithmetic

/-! The instruction set. -/

namespace Handheld

/-- Where a byte operand lives: in a register, or in memory at HL. -/
inductive Operand where
  | register (register : ByteRegister)
  | atHl
  deriving DecidableEq, Repr

/-- The condition of a branch. -/
inductive Condition where
  | notZero
  | zero
  | notCarry
  | carry
  deriving DecidableEq, Repr

def Condition.holds (condition : Condition) (flags : Flags) : Bool :=
  match condition with
  | .notZero => !flags.zero
  | .zero => flags.zero
  | .notCarry => !flags.carry
  | .carry => flags.carry

/-- A pair used as an address, with what happens to it afterwards. -/
inductive Pointer where
  | bc
  | de
  | hlUp
  | hlDown
  deriving DecidableEq, Repr

/-- The rotations of the accumulator. -/
inductive Rotation where
  | rlca
  | rrca
  | rla
  | rra
  deriving DecidableEq, Repr

/-- The shift that a rotation of the accumulator performs. -/
def Rotation.toShift : Rotation → ShiftOp
  | .rlca => .rlc
  | .rrca => .rrc
  | .rla => .rl
  | .rra => .rr

/-- The instructions named by one opcode byte. -/
inductive Instruction where
  | nop
  | stop
  | halt
  | disableInterrupts
  | enableInterrupts
  | loadWord (target : WordRegister)
  | storeA (pointer : Pointer)
  | loadA (pointer : Pointer)
  | storeSp
  | incrementWord (target : WordRegister)
  | decrementWord (target : WordRegister)
  | increment (target : Operand)
  | decrement (target : Operand)
  | loadImmediate (target : Operand)
  | load (target source : Operand)
  | rotate (rotation : Rotation)
  | addHl (source : WordRegister)
  | jumpRelative (condition : Option Condition)
  | decimalAdjust
  | complement
  | setCarry
  | complementCarry
  | alu (op : AluOp) (source : Operand)
  | aluImmediate (op : AluOp)
  | ret (condition : Option Condition)
  | returnInterrupt
  | pop (target : StackRegister)
  | push (source : StackRegister)
  | jump (condition : Option Condition)
  | jumpHl
  | call (condition : Option Condition)
  | restart (address : UInt16)
  /-- The operation is named by the next byte. -/
  | extended
  | storeHigh
  | loadHigh
  | storeHighC
  | loadHighC
  | storeAbsolute
  | loadAbsolute
  | addSp
  | loadHlSp
  | loadSpHl
  deriving DecidableEq, Repr

/-- The operations of the extended page. -/
inductive BitOp where
  | shift (op : ShiftOp)
  | test (bit : Fin 8)
  | reset (bit : Fin 8)
  | set (bit : Fin 8)
  deriving DecidableEq, Repr

end Handheld
