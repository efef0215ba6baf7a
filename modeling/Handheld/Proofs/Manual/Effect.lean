import Handheld.Proofs.Bus.Accesses
import Handheld.Proofs.Manual.Arithmetic

/-! The instruction set as its manual lays it out. An opcode is read as three octal fields: the
quarter of the page, then two digits that name operands, conditions, register pairs and
operations. What an instruction does is told at once: the registers after it, its accesses in
order, and the machine cycles that it takes.
-/

namespace Handheld.Manual

-----------------------------------------------------------------------------------------
-- Registers
-----------------------------------------------------------------------------------------

/-- The registers that instructions work on. -/
structure Registers where
  b : UInt8
  c : UInt8
  d : UInt8
  e : UInt8
  h : UInt8
  l : UInt8
  a : UInt8
  flags : Flags
  sp : UInt16
  pc : UInt16
  /-- Whether interrupts are served. -/
  interruptsOn : Bool
  /-- After how many instructions interrupts are switched on, or zero if that is not planned. -/
  enableIn : Nat
  halted : Bool
  stopped : Bool
  deriving DecidableEq, Repr

namespace Registers

/-- The registers that a processor holds. -/
def ofCpu (cpu : Cpu) : Registers :=
  { b := cpu.b, c := cpu.c, d := cpu.d, e := cpu.e, h := cpu.h, l := cpu.l, a := cpu.a
    flags := flagsOf cpu.f, sp := cpu.sp, pc := cpu.pc, interruptsOn := cpu.interruptsOn
    enableIn := cpu.enableDelay.toNat, halted := cpu.halted, stopped := cpu.stopped }

/-- A register by its code. Code 6 stands for the byte at HL, which is no register. -/
def byte (r : Registers) : Fin 8 → UInt8
  | 0 => r.b
  | 1 => r.c
  | 2 => r.d
  | 3 => r.e
  | 4 => r.h
  | 5 => r.l
  | 6 => 0
  | 7 => r.a

def setByte (r : Registers) (code : Fin 8) (value : UInt8) : Registers :=
  match code with
  | 0 => { r with b := value }
  | 1 => { r with c := value }
  | 2 => { r with d := value }
  | 3 => { r with e := value }
  | 4 => { r with h := value }
  | 5 => { r with l := value }
  | 6 => r
  | 7 => { r with a := value }

/-- A register pair by its code. -/
def pair (r : Registers) : Fin 4 → UInt16
  | 0 => join r.b r.c
  | 1 => join r.d r.e
  | 2 => join r.h r.l
  | 3 => r.sp

def setPair (r : Registers) (code : Fin 4) (value : UInt16) : Registers :=
  match code with
  | 0 => { r with b := upper value, c := lower value }
  | 1 => { r with d := upper value, e := lower value }
  | 2 => { r with h := upper value, l := lower value }
  | 3 => { r with sp := value }

/-- HL, the pair that points to the operand in memory. -/
def hl (r : Registers) : UInt16 :=
  r.pair 2

/-- A pair that goes through the stack: the last code stands for the accumulator with the
flags.
-/
def stackPair (r : Registers) : Fin 4 → UInt16
  | 3 => join r.a (flagByte r.flags)
  | code => r.pair code

def setStackPair (r : Registers) (code : Fin 4) (value : UInt16) : Registers :=
  match code with
  | 3 => { r with a := upper value, flags := flagsOf (lower value) }
  | code => r.setPair code value

/-- Whether a condition holds: NZ, Z, NC, C. -/
def holds (r : Registers) : Fin 4 → Bool
  | 0 => !r.flags.zero
  | 1 => r.flags.zero
  | 2 => !r.flags.carry
  | 3 => r.flags.carry

/-- The accumulator and flags after an operation. -/
def setResult (r : Registers) (result : UInt8 × Flags) : Registers :=
  { r with a := result.1, flags := result.2 }

/-- The registers while an instruction runs whose opcode has been fetched. Interrupts that were
to be switched on after it will be on then, unless it says otherwise.
-/
def started (r : Registers) : Registers :=
  { r with
    pc := r.pc + 1
    interruptsOn := r.interruptsOn || r.enableIn == 1
    enableIn := r.enableIn - 1 }

end Registers

-----------------------------------------------------------------------------------------
-- Effects
-----------------------------------------------------------------------------------------

/-- What an instruction does. -/
structure Effect where
  after : Registers
  /-- What it does on the bus, in order. -/
  accesses : List Access
  /-- The machine cycles that it takes. -/
  cycles : Nat

/-- An instruction that stays within the processor. -/
def quiet (after : Registers) (cycles : Nat) : Effect :=
  { after, accesses := [], cycles }

variable (memory : UInt16 → UInt8) (r : Registers)

/-- A read, and what follows from the byte. -/
def reading (address : UInt16) (rest : UInt8 → Effect) : Effect :=
  let effect := rest (memory address)
  { effect with accesses := .read address :: effect.accesses }

/-- The next byte of the instruction, and what follows from it. -/
def immediate (rest : UInt8 → Registers → Effect) : Effect :=
  reading memory r.pc fun value => rest value { r with pc := r.pc + 1 }

/-- The next two bytes of the instruction, low byte first. -/
def immediateWord (rest : UInt16 → Registers → Effect) : Effect :=
  immediate memory r fun low r => immediate memory r fun high r => rest (join high low) r

/-- The word on top of the stack, which is taken off. -/
def popping (rest : UInt16 → Registers → Effect) : Effect :=
  reading memory r.sp fun low => reading memory (r.sp + 1) fun high =>
    rest (join high low) { r with sp := r.sp + 2 }

/-- A word put on the stack, high byte first. -/
def pushing (value : UInt16) (after : Registers) (cycles : Nat) : Effect :=
  { after := { after with sp := r.sp - 2 }
    accesses := [.write (r.sp - 1) (upper value), .write (r.sp - 2) (lower value)]
    cycles }

/-- An operand by its code, and what follows from it. -/
def operand (code : Fin 8) (rest : UInt8 → Effect) : Effect :=
  if code = 6 then reading memory r.hl rest else rest (r.byte code)

/-- The end of an instruction that stores its result in an operand, with the machine cycles
that it takes for a register and for memory.
-/
def store (code : Fin 8) (value : UInt8) (inRegister inMemory : Nat) : Effect :=
  if code = 6 then { after := r, accesses := [.write r.hl value], cycles := inMemory }
  else quiet (r.setByte code value) inRegister

/-- The machine cycles of an operand that is only read. -/
def readCycles (code : Fin 8) (inRegister inMemory : Nat) : Nat :=
  if code = 6 then inMemory else inRegister

/-- The code of a pair, which takes the upper two bits of its digit. -/
def pairCode (digit : Fin 8) : Fin 4 :=
  .ofNat 4 (digit.val / 2)

/-- The code of a condition, which takes the lower two bits of its digit. -/
def conditionCode (digit : Fin 8) : Fin 4 :=
  .ofNat 4 digit.val

-----------------------------------------------------------------------------------------
-- The first quarter of the page
-----------------------------------------------------------------------------------------

/-- NOP, LD (nn),SP, STOP, JR d and JR cc,d. -/
def relativeJumps (y : Fin 8) : Effect :=
  match y with
  | 0 => quiet r 1
  | 1 =>
      immediateWord memory r fun address r =>
        { after := r
          accesses := [.write address (lower r.sp), .write (address + 1) (upper r.sp)]
          cycles := 5 }
  | 2 =>
      immediate memory r fun _ r =>
        { after := { r with stopped := true }, accesses := [.restartDivider], cycles := 1 }
  | 3 => immediate memory r fun distance r => quiet { r with pc := displace r.pc distance } 3
  | y =>
      immediate memory r fun distance r =>
        if r.holds (conditionCode y) then quiet { r with pc := displace r.pc distance } 3
        else quiet r 2

/-- LD rr,nn and ADD HL,rr. -/
def wordLoads (y : Fin 8) : Effect :=
  if y.val % 2 = 0 then
    immediateWord memory r fun value r => quiet (r.setPair (pairCode y) value) 3
  else
    let (result, flags) := sumOfWords r.hl (r.pair (pairCode y)) r.flags
    quiet ({ r with flags }.setPair 2 result) 2

/-- The address of an indirect load, and the registers after it: BC and DE stay as they are, HL
moves up or down.
-/
def indirect (code : Fin 4) : UInt16 × Registers :=
  match code with
  | 0 => (r.pair 0, r)
  | 1 => (r.pair 1, r)
  | 2 => (r.hl, r.setPair 2 (r.hl + 1))
  | 3 => (r.hl, r.setPair 2 (r.hl - 1))

/-- LD (rr),A and LD A,(rr). -/
def indirectLoads (y : Fin 8) : Effect :=
  let (address, moved) := indirect r (pairCode y)
  if y.val % 2 = 0 then { after := moved, accesses := [.write address r.a], cycles := 2 }
  else reading memory address fun value => quiet { moved with a := value } 2

/-- INC rr and DEC rr. -/
def wordSteps (y : Fin 8) : Effect :=
  let code := pairCode y
  if y.val % 2 = 0 then quiet (r.setPair code (r.pair code + 1)) 2
  else quiet (r.setPair code (r.pair code - 1)) 2

/-- RLCA, RRCA, RLA, RRA, DAA, CPL, SCF and CCF. -/
def accumulatorOps (y : Fin 8) : Effect :=
  match y with
  | 4 => quiet (r.setResult (decimal r.a r.flags)) 1
  | 5 =>
      quiet
        { r with
          a := .ofNat (255 - r.a.toNat)
          flags := { r.flags with subtract := true, half := true } } 1
  | 6 =>
      quiet { r with flags := { r.flags with subtract := false, half := false, carry := true } } 1
  | 7 =>
      quiet
        { r with
          flags := { r.flags with subtract := false, half := false, carry := !r.flags.carry } } 1
  | code =>
      let (result, out) := shift code r.a r.flags.carry
      quiet
        (r.setResult
          (result, { zero := false, subtract := false, half := false, carry := out })) 1

def firstQuarter (y z : Fin 8) : Effect :=
  match z with
  | 0 => relativeJumps memory r y
  | 1 => wordLoads memory r y
  | 2 => indirectLoads memory r y
  | 3 => wordSteps r y
  | 4 =>
      operand memory r y fun value =>
        let (result, flags) := increment value r.flags
        store { r with flags } y result 1 3
  | 5 =>
      operand memory r y fun value =>
        let (result, flags) := decrement value r.flags
        store { r with flags } y result 1 3
  | 6 => immediate memory r fun value r => store r y value 2 3
  | 7 => accumulatorOps r y

-----------------------------------------------------------------------------------------
-- The two quarters in the middle
-----------------------------------------------------------------------------------------

/-- LD r,r, with HALT in the place of a load from memory to memory. -/
def loads (y z : Fin 8) : Effect :=
  if y = 6 ∧ z = 6 then quiet { r with halted := true } 1
  else operand memory r z fun value => store r y value (readCycles z 1 2) 2

/-- The operations between the accumulator and an operand. -/
def operations (y z : Fin 8) : Effect :=
  operand memory r z fun value => quiet (r.setResult (alu y r.a value r.flags)) (readCycles z 1 2)

-----------------------------------------------------------------------------------------
-- The last quarter
-----------------------------------------------------------------------------------------

/-- RET cc, LDH (n),A, ADD SP,d, LDH A,(n) and LD HL,SP+d. -/
def conditionalReturns (y : Fin 8) : Effect :=
  match y with
  | 4 =>
      immediate memory r fun offset r =>
        { after := r, accesses := [.write (join 0xFF offset) r.a], cycles := 3 }
  | 5 =>
      immediate memory r fun distance r =>
        let (result, flags) := sumWithDistance r.sp distance
        quiet { r with sp := result, flags } 4
  | 6 =>
      immediate memory r fun offset r =>
        reading memory (join 0xFF offset) fun value => quiet { r with a := value } 3
  | 7 =>
      immediate memory r fun distance r =>
        let (result, flags) := sumWithDistance r.sp distance
        quiet ({ r with flags }.setPair 2 result) 3
  | y =>
      if r.holds (conditionCode y) then
        popping memory r fun address r => quiet { r with pc := address } 5
      else quiet r 2

/-- POP rr, RET, RETI, JP HL and LD SP,HL. -/
def pops (y : Fin 8) : Effect :=
  match y with
  | 1 => popping memory r fun address r => quiet { r with pc := address } 4
  | 3 =>
      popping memory r fun address r => quiet { r with pc := address, interruptsOn := true } 4
  | 5 => quiet { r with pc := r.hl } 1
  | 7 => quiet { r with sp := r.hl } 2
  | y => popping memory r fun value r => quiet (r.setStackPair (pairCode y) value) 3

/-- JP cc,nn, and the loads between the accumulator and a given address. -/
def conditionalJumps (y : Fin 8) : Effect :=
  match y with
  | 4 => { after := r, accesses := [.write (join 0xFF r.c) r.a], cycles := 2 }
  | 5 =>
      immediateWord memory r fun address r =>
        { after := r, accesses := [.write address r.a], cycles := 4 }
  | 6 => reading memory (join 0xFF r.c) fun value => quiet { r with a := value } 2
  | 7 =>
      immediateWord memory r fun address r =>
        reading memory address fun value => quiet { r with a := value } 4
  | y =>
      immediateWord memory r fun address r =>
        if r.holds (conditionCode y) then quiet { r with pc := address } 4 else quiet r 3

/-- The extended page: shifts, BIT, RES and SET. -/
def extended (x : Fin 4) (y z : Fin 8) : Effect :=
  operand memory r z fun value =>
    match x with
    | 0 =>
        let (result, flags) := shiftWithFlags y value r.flags
        store { r with flags } z result 2 4
    | 1 =>
        quiet
          { r with
            flags := { r.flags with zero := !bit value y, subtract := false, half := true } }
          (readCycles z 2 3)
    | 2 => store r z (withBit value y false) 2 4
    | 3 => store r z (withBit value y true) 2 4

/-- The quarter in which an opcode lies, its first octal field. -/
def quarter (opcode : UInt8) : Fin 4 :=
  .ofNat 4 (opcode.toNat / 64)

/-- The second octal field of an opcode. -/
def middleDigit (opcode : UInt8) : Fin 8 :=
  .ofNat 8 (opcode.toNat / 8)

/-- The last octal field of an opcode. -/
def lastDigit (opcode : UInt8) : Fin 8 :=
  .ofNat 8 opcode.toNat

/-- JP nn, the extended page, DI and EI. The other places are empty. -/
def jumps? (y : Fin 8) : Option Effect :=
  match y with
  | 0 => some (immediateWord memory r fun address r => quiet { r with pc := address } 4)
  | 1 =>
      some (immediate memory r fun opcode r =>
        extended memory r (quarter opcode) (middleDigit opcode) (lastDigit opcode))
  | 6 => some (quiet { r with interruptsOn := false, enableIn := 0 } 1)
  | 7 => some (quiet { r with enableIn := 1 } 1)
  | _ => none

/-- CALL cc,nn. The places without a condition are empty. -/
def conditionalCalls? (y : Fin 8) : Option Effect :=
  if y.val < 4 then
    some (immediateWord memory r fun address r =>
      if r.holds (conditionCode y) then pushing r r.pc { r with pc := address } 6
      else quiet r 3)
  else none

/-- PUSH rr and CALL nn. The other places are empty. -/
def pushes? (y : Fin 8) : Option Effect :=
  match y with
  | 1 =>
      some (immediateWord memory r fun address r =>
        pushing r r.pc { r with pc := address } 6)
  | 3 | 5 | 7 => none
  | y => some (pushing r (r.stackPair (pairCode y)) r 4)

def lastQuarter? (y z : Fin 8) : Option Effect :=
  match z with
  | 0 => some (conditionalReturns memory r y)
  | 1 => some (pops memory r y)
  | 2 => some (conditionalJumps memory r y)
  | 3 => jumps? memory r y
  | 4 => conditionalCalls? memory r y
  | 5 => pushes? memory r y
  | 6 =>
      some (immediate memory r fun value r =>
        quiet (r.setResult (alu y r.a value r.flags)) 2)
  | 7 => some (pushing r r.pc { r with pc := .ofNat (8 * y.val) } 4)

/-- What the rest of an instruction does whose opcode has been fetched. -/
def row? (x : Fin 4) (y z : Fin 8) : Option Effect :=
  match x with
  | 0 => some (firstQuarter memory r y z)
  | 1 => some (loads memory r y z)
  | 2 => some (operations memory r y z)
  | 3 => lastQuarter? memory r y z

/-- What the instruction at the program counter does. An opcode that names no instruction does
nothing of the kind.
-/
def effect? : Option Effect :=
  let opcode := memory r.pc
  (row? memory r.started (quarter opcode) (middleDigit opcode) (lastDigit opcode)).map fun rest =>
    { rest with accesses := .read r.pc :: rest.accesses }

/-- The opcodes that name no instruction. -/
def undefinedOpcodes : List UInt8 :=
  [0xD3, 0xDB, 0xDD, 0xE3, 0xE4, 0xEB, 0xEC, 0xED, 0xF4, 0xFC, 0xFD]

end Handheld.Manual
