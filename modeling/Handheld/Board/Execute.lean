import Handheld.Board.Basic

/-! The effect of every instruction, and the machine cycles it takes. -/

namespace Handheld.Board

variable {State : Type} [Housing State]

/-- A result put into the accumulator together with its flags. -/
def setResult (result : UInt8 × Flags) (cpu : Cpu) : Cpu :=
  { cpu with a := result.1, f := result.2.toByte }

/-- An operation between the accumulator and a value. -/
def applyAlu (op : AluOp) (value : UInt8) (cpu : Cpu) : Cpu :=
  setResult (op.apply cpu.a value cpu.flags.carry) cpu

/-- A byte operand replaced by a result, after the flags are set. -/
def updateOperand (operand : Operand) (compute : UInt8 → Flags → UInt8 × Flags)
    : Act State Unit := do
  let value ← readOperand operand
  let (result, flags) := compute value (← observe (·.flags))
  modifyCpu (·.setFlags flags)
  writeOperand operand result

/-- An operation of the extended page. Testing a bit only reads its operand. -/
def runBitOp (op : BitOp) (operand : Operand) : Act State Nat := do
  match op with
  | .shift shift =>
      updateOperand operand fun value flags => shift.apply value flags.carry
      pure (operandCost operand 2 4)
  | .test bit =>
      let value ← readOperand operand
      modifyCpu fun cpu =>
        cpu.setFlags
          { zero := value &&& (1 <<< UInt8.ofNat bit.val) == 0
            subtract := false, half := true, carry := cpu.flags.carry }
      pure (operandCost operand 2 3)
  | .reset bit =>
      let value ← readOperand operand
      writeOperand operand (value &&& ~~~(1 <<< UInt8.ofNat bit.val))
      pure (operandCost operand 2 4)
  | .set bit =>
      let value ← readOperand operand
      writeOperand operand (value ||| (1 <<< UInt8.ofNat bit.val))
      pure (operandCost operand 2 4)

/-- An instruction whose opcode has been fetched. -/
def run : Instruction → Act State Nat
  | .nop => pure 1
  | .stop => do
      -- the byte after the opcode is skipped
      let _ ← fetch
      modifyBus (·.resetDivider)
      modifyCpu fun cpu => { cpu with stopped := true }
      pure 1
  | .halt => do
      modifyCpu fun cpu => { cpu with halted := true }
      pure 1
  | .disableInterrupts => do
      modifyCpu fun cpu => { cpu with interruptsOn := false, enableDelay := 0 }
      pure 1
  | .enableInterrupts => do
      modifyCpu fun cpu => { cpu with enableDelay := 2 }
      pure 1
  | .loadWord target => do
      let value ← fetchWord
      modifyCpu (·.setWord target value)
      pure 3
  | .storeA pointer => do
      let address ← observe (pointerAddress pointer)
      write address (← observe (·.a))
      modifyCpu (movePointer pointer address)
      pure 2
  | .loadA pointer => do
      let address ← observe (pointerAddress pointer)
      let value ← read address
      modifyCpu fun cpu => movePointer pointer address { cpu with a := value }
      pure 2
  | .storeSp => do
      let address ← fetchWord
      writeWord address (← observe (·.sp))
      pure 5
  | .incrementWord target => do
      modifyCpu fun cpu => cpu.setWord target (cpu.word target + 1)
      pure 2
  | .decrementWord target => do
      modifyCpu fun cpu => cpu.setWord target (cpu.word target - 1)
      pure 2
  | .increment target => do
      updateOperand target Arithmetic.increment
      pure (operandCost target 1 3)
  | .decrement target => do
      updateOperand target Arithmetic.decrement
      pure (operandCost target 1 3)
  | .loadImmediate target => do
      let value ← fetch
      writeOperand target value
      pure (operandCost target 2 3)
  | .load target source => do
      let value ← readOperand source
      writeOperand target value
      pure (max (operandCost target 1 2) (operandCost source 1 2))
  | .rotate rotation => do
      modifyCpu fun cpu =>
        let (result, out) := rotation.toShift.shift cpu.a cpu.flags.carry
        setResult
          (result, { zero := false, subtract := false, half := false, carry := out }) cpu
      pure 1
  | .addHl source => do
      modifyCpu fun cpu =>
        let (result, flags) := Arithmetic.addWords cpu.hl (cpu.word source) cpu.flags
        (cpu.setFlags flags).setHl result
      pure 2
  | .jumpRelative condition => do
      let offset ← fetch
      if ← observe (branches condition) then
        modifyCpu fun cpu => { cpu with pc := cpu.pc + Arithmetic.signExtend offset }
        pure 3
      else pure 2
  | .decimalAdjust => do
      modifyCpu fun cpu => setResult (Arithmetic.decimalAdjust cpu.a cpu.flags) cpu
      pure 1
  | .complement => do
      modifyCpu fun cpu =>
        setResult (~~~cpu.a, { cpu.flags with subtract := true, half := true }) cpu
      pure 1
  | .setCarry => do
      modifyCpu fun cpu =>
        cpu.setFlags { cpu.flags with subtract := false, half := false, carry := true }
      pure 1
  | .complementCarry => do
      modifyCpu fun cpu =>
        cpu.setFlags
          { cpu.flags with subtract := false, half := false, carry := !cpu.flags.carry }
      pure 1
  | .alu op source => do
      let value ← readOperand source
      modifyCpu (applyAlu op value)
      pure (operandCost source 1 2)
  | .aluImmediate op => do
      let value ← fetch
      modifyCpu (applyAlu op value)
      pure 2
  | .ret none => do
      let address ← pop
      modifyCpu fun cpu => { cpu with pc := address }
      pure 4
  | .ret (some condition) => do
      if ← observe (branches (some condition)) then
        let address ← pop
        modifyCpu fun cpu => { cpu with pc := address }
        pure 5
      else pure 2
  | .returnInterrupt => do
      let address ← pop
      modifyCpu fun cpu => { cpu with pc := address, interruptsOn := true }
      pure 4
  | .pop target => do
      let value ← pop
      modifyCpu (·.setStackWord target value)
      pure 3
  | .push source => do
      push (← observe (·.stackWord source))
      pure 4
  | .jump condition => do
      let address ← fetchWord
      if ← observe (branches condition) then
        modifyCpu fun cpu => { cpu with pc := address }
        pure 4
      else pure 3
  | .jumpHl => do
      modifyCpu fun cpu => { cpu with pc := cpu.hl }
      pure 1
  | .call condition => do
      let address ← fetchWord
      if ← observe (branches condition) then
        push (← observe (·.pc))
        modifyCpu fun cpu => { cpu with pc := address }
        pure 6
      else pure 3
  | .restart address => do
      push (← observe (·.pc))
      modifyCpu fun cpu => { cpu with pc := address }
      pure 4
  | .extended => do
      let (op, operand) := Opcode.decodeExtended (← fetch)
      runBitOp op operand
  | .storeHigh => do
      let offset ← fetch
      write (wordOf 0xFF offset) (← observe (·.a))
      pure 3
  | .loadHigh => do
      let offset ← fetch
      let value ← read (wordOf 0xFF offset)
      modifyCpu fun cpu => { cpu with a := value }
      pure 3
  | .storeHighC => do
      write (wordOf 0xFF (← observe (·.c))) (← observe (·.a))
      pure 2
  | .loadHighC => do
      let value ← read (wordOf 0xFF (← observe (·.c)))
      modifyCpu fun cpu => { cpu with a := value }
      pure 2
  | .storeAbsolute => do
      let address ← fetchWord
      write address (← observe (·.a))
      pure 4
  | .loadAbsolute => do
      let address ← fetchWord
      let value ← read address
      modifyCpu fun cpu => { cpu with a := value }
      pure 4
  | .addSp => do
      let offset ← fetch
      modifyCpu fun cpu =>
        let (result, flags) := Arithmetic.addOffset cpu.sp offset
        { cpu.setFlags flags with sp := result }
      pure 4
  | .loadHlSp => do
      let offset ← fetch
      modifyCpu fun cpu =>
        let (result, flags) := Arithmetic.addOffset cpu.sp offset
        (cpu.setFlags flags).setHl result
      pure 3
  | .loadSpHl => do
      modifyCpu fun cpu => { cpu with sp := cpu.hl }
      pure 2

/-- The processor after some machine cycles were spent on an instruction. -/
def countCycles (cycles : Nat) (cpu : Cpu) : Cpu :=
  { cpu with cycles := cpu.cycles + cycles, lastCycles := cycles }

/-- The end of an instruction: its cycles are counted and the timer runs for them. -/
def finish (cycles : Nat) : Act State Nat := do
  modifyCpu (countCycles cycles)
  modifyBus (·.runTimer cycles)
  pure cycles

/-- The processor after a planned switch-on of interrupts has come one instruction nearer.
The switch happens if it was due when the instruction started and was not called off.
-/
def settleEnable (wasDue : Bool) (cpu : Cpu) : Cpu :=
  if cpu.enableDelay = 0 then cpu
  else
    { cpu with
      interruptsOn := cpu.interruptsOn || wasDue
      enableDelay := cpu.enableDelay - 1 }

/-- The next instruction, fetched and run. -/
def executeNext : Act State Nat := do
  let wasDue ← observe (·.enableDelay == 1)
  let pc ← observe (·.pc)
  let opcode ← fetch
  match Opcode.decode? opcode with
  | none => throw (.undefinedOpcode opcode pc)
  | some instruction =>
      notice (.instruction instruction)
      let cycles ← run instruction
      modifyCpu (settleEnable wasDue)
      finish cycles

/-- The next instruction, or one idle machine cycle while the processor is halted. -/
def continueUnlessHalted : Act State Nat := do
  if ← observe (·.halted) then finish 1 else executeNext

/-- Whether a key press has been requested as an interrupt. -/
def keyPressed (board : Board) : Bool :=
  Interrupt.joypad.isIn board.bus.requests

/-- One instruction, or one idle machine cycle while the processor is stopped or halted. A
key press ends a stop. The result is the machine cycles taken.
-/
def execute : Act State Nat := do
  if ← observe (·.stopped) then
    if ← inspect keyPressed then
      modifyCpu fun cpu => { cpu with stopped := false }
      continueUnlessHalted
    else finish 1
  else continueUnlessHalted

end Handheld.Board
