import Handheld.Proofs.Manual.Effect
import Handheld.Proofs.Manual.Results

/-! The table of instructions is laid out by octal fields. The same layout orders the manual, so
the two can be compared field by field.
-/

namespace Handheld.Opcode

open scoped Manual
open Manual (quarter middleDigit lastDigit pairCode conditionCode aluOps)

/-- The pairs of word arithmetic, in the order of their codes. -/
def words : Vector WordRegister 4 :=
  #v[.bc, .de, .hl, .sp]

/-- The pairs of indirect loads, in the order of their codes. -/
def pointers : Vector Pointer 4 :=
  #v[.bc, .de, .hlUp, .hlDown]

/-- The pairs that go through the stack, in the order of their codes. -/
def stackRegisters : Vector StackRegister 4 :=
  #v[.bc, .de, .hl, .af]

/-- The conditions, in the order of their codes. -/
def conditions : Vector Condition 4 :=
  #v[.notZero, .zero, .notCarry, .carry]

-----------------------------------------------------------------------------------------
-- The first page
-----------------------------------------------------------------------------------------

def relativeJump (y : Fin 8) : Instruction :=
  match y with
  | 0 => .nop
  | 1 => .storeSp
  | 2 => .stop
  | 3 => .jumpRelative none
  | y => .jumpRelative (some (conditions.get (conditionCode y)))

def wordLoad (y : Fin 8) : Instruction :=
  if y.val % 2 = 0 then .loadWord (words.get (pairCode y))
  else .addHl (words.get (pairCode y))

def indirectLoad (y : Fin 8) : Instruction :=
  if y.val % 2 = 0 then .storeA (pointers.get (pairCode y))
  else .loadA (pointers.get (pairCode y))

def wordStep (y : Fin 8) : Instruction :=
  if y.val % 2 = 0 then .incrementWord (words.get (pairCode y))
  else .decrementWord (words.get (pairCode y))

def accumulatorOp (y : Fin 8) : Instruction :=
  match y with
  | 0 => .rotate .rlca
  | 1 => .rotate .rrca
  | 2 => .rotate .rla
  | 3 => .rotate .rra
  | 4 => .decimalAdjust
  | 5 => .complement
  | 6 => .setCarry
  | 7 => .complementCarry

def inFirstQuarter (y z : Fin 8) : Instruction :=
  match z with
  | 0 => relativeJump y
  | 1 => wordLoad y
  | 2 => indirectLoad y
  | 3 => wordStep y
  | 4 => .increment (operands.get y)
  | 5 => .decrement (operands.get y)
  | 6 => .loadImmediate (operands.get y)
  | 7 => accumulatorOp y

def inSecondQuarter (y z : Fin 8) : Instruction :=
  if y = 6 ∧ z = 6 then .halt else .load (operands.get y) (operands.get z)

def conditionalReturn (y : Fin 8) : Instruction :=
  match y with
  | 4 => .storeHigh
  | 5 => .addSp
  | 6 => .loadHigh
  | 7 => .loadHlSp
  | y => .ret (some (conditions.get (conditionCode y)))

def popOrReturn (y : Fin 8) : Instruction :=
  match y with
  | 1 => .ret none
  | 3 => .returnInterrupt
  | 5 => .jumpHl
  | 7 => .loadSpHl
  | y => .pop (stackRegisters.get (pairCode y))

def conditionalJump (y : Fin 8) : Instruction :=
  match y with
  | 4 => .storeHighC
  | 5 => .storeAbsolute
  | 6 => .loadHighC
  | 7 => .loadAbsolute
  | y => .jump (some (conditions.get (conditionCode y)))

def jump? (y : Fin 8) : Option Instruction :=
  match y with
  | 0 => some (.jump none)
  | 1 => some .extended
  | 6 => some .disableInterrupts
  | 7 => some .enableInterrupts
  | _ => none

def conditionalCall? (y : Fin 8) : Option Instruction :=
  if y.val < 4 then some (.call (some (conditions.get (conditionCode y)))) else none

def push? (y : Fin 8) : Option Instruction :=
  match y with
  | 1 => some (.call none)
  | 3 | 5 | 7 => none
  | y => some (.push (stackRegisters.get (pairCode y)))

def inLastQuarter? (y z : Fin 8) : Option Instruction :=
  match z with
  | 0 => some (conditionalReturn y)
  | 1 => some (popOrReturn y)
  | 2 => some (conditionalJump y)
  | 3 => jump? y
  | 4 => conditionalCall? y
  | 5 => push? y
  | 6 => some (.aluImmediate (aluOps.get y))
  | 7 => some (.restart (.ofNat (8 * y.val)))

/-- The instruction at a place of the first page. -/
def atPlace? (x : Fin 4) (y z : Fin 8) : Option Instruction :=
  match x with
  | 0 => some (inFirstQuarter y z)
  | 1 => some (inSecondQuarter y z)
  | 2 => some (.alu (aluOps.get y) (operands.get z))
  | 3 => inLastQuarter? y z

/-- An opcode is decoded by its three fields. -/
theorem decode?_eq_atPlace? (opcode : UInt8)
    : decode? opcode = atPlace? (quarter opcode) (middleDigit opcode) (lastDigit opcode) := by
  revert opcode
  refine Manual.forall_byte ?_
  decide +kernel

-----------------------------------------------------------------------------------------
-- The extended page
-----------------------------------------------------------------------------------------

/-- The operation in a row of the extended page. -/
def bitOp (x : Fin 4) (y : Fin 8) : BitOp :=
  match x with
  | 0 => .shift (shifts.get y)
  | 1 => .test y
  | 2 => .reset y
  | 3 => .set y

/-- An opcode of the extended page is decoded by its three fields. -/
theorem decodeExtended_eq (opcode : UInt8)
    : decodeExtended opcode
      = (bitOp (quarter opcode) (middleDigit opcode), operands.get (lastDigit opcode)) := by
  revert opcode
  refine Manual.forall_byte ?_
  decide +kernel

end Handheld.Opcode
