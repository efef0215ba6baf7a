import Handheld.Board.Step
import Handheld.Proofs.Board.Modest
import Handheld.Proofs.Coupling

/-! What the parts of an instruction keep, every instruction keeps: fetches, stack operations
and access to operands are chains of a few parts, instructions are chains of these, and a
step adds the serving of an interrupt and the video unit. On the way the costs come out: one
to six machine cycles for an instruction, five for an interrupt.
-/

namespace Handheld

open Board

namespace Coupling

variable {Left Right : Type} [Housing Left] [Housing Right]

/-- A coupling kept by the parts of which instructions consist. They change the processor modestly,
except for the plan to switch interrupts on.
-/
structure KeepsParts (coupling : Coupling Left Right) : Prop where
  observe {α : Type} (view : Cpu → α) : coupling.Keeps Eq (observe view) (observe view)
  keyPressed : coupling.Keeps Eq (inspect keyPressed) (inspect keyPressed)
  modifyCpu {change : Cpu → Cpu} (modest : Modest change)
    : coupling.Keeps Eq (modifyCpu change) (modifyCpu change)
  planEnable (wasDue : Bool) : coupling.Keeps Eq (planEnable wasDue) (planEnable wasDue)
  instruction (instruction : Instruction)
    : coupling.Keeps Eq (notice (.instruction instruction)) (notice (.instruction instruction))
  read (address : UInt16) : coupling.Keeps Eq (read address) (read address)
  write (address : UInt16) (value : UInt8)
    : coupling.Keeps Eq (write address value) (write address value)
  resetDivider : coupling.Keeps Eq (modifyBus (·.resetDivider)) (modifyBus (·.resetDivider))
  runTimer (cycles : Nat)
    : coupling.Keeps Eq (modifyBus (·.runTimer cycles)) (modifyBus (·.runTimer cycles))

/-- A coupling kept by the parts of an interrupt's dispatch too. -/
structure KeepsDispatch (coupling : Coupling Left Right) : Prop extends KeepsParts coupling where
  nextInterrupt : coupling.Keeps Eq (inspect nextInterrupt?) (inspect nextInterrupt?)
  acknowledge (source : Interrupt)
    : coupling.Keeps Eq (acknowledge source) (acknowledge source)

/-- A coupling kept by all parts of a step of the board. -/
structure KeepsStep (coupling : Coupling Left Right) : Prop extends KeepsDispatch coupling where
  runVideo (clocks : Nat)
    : coupling.Keeps Eq (modifyBus fun bus => (bus.runVideo clocks).1)
        (modifyBus fun bus => (bus.runVideo clocks).1)
  leaveBoot : coupling.Keeps Eq (alter leaveBoot) (alter leaveBoot)

/-- Equal machine cycles, as many as one instruction may take. -/
def SameCost (left right : Nat) : Prop :=
  left = right ∧ 1 ≤ left ∧ left ≤ 6

instance (left right : Nat) : Decidable (SameCost left right) :=
  inferInstanceAs (Decidable (_ ∧ _ ∧ _))

/-- Equal machine cycles of an interrupt: none without one, else those of its dispatch. -/
def SameServing (left right : Nat) : Prop :=
  left = right ∧ (left = 0 ∨ left = dispatchCycles)

/-- Equal clocks, as many as one step of the board may take. -/
def SameClocks (left right : Nat) : Prop :=
  left = right ∧ 4 ≤ left ∧ left ≤ 44 ∧ 4 ∣ left

/-- The cost of an operand is a cost of an instruction when both its values are. -/
theorem SameCost.operand (operand : Operand) {inRegister inMemory : Nat}
    (register : SameCost inRegister inRegister) (memory : SameCost inMemory inMemory)
    : SameCost (operandCost operand inRegister inMemory)
        (operandCost operand inRegister inMemory) := by
  cases operand with
  | register _ => exact register
  | atHl => exact memory

/-- So is the larger of two costs. -/
theorem SameCost.max {first second : Nat} (left : SameCost first first)
    (right : SameCost second second)
    : SameCost (max first second) (max first second) := by
  obtain ⟨-, leftLeast, leftMost⟩ := left
  obtain ⟨-, rightLeast, rightMost⟩ := right
  exact ⟨rfl, by omega, by omega⟩

namespace KeepsParts

variable {coupling : Coupling Left Right} (parts : coupling.KeepsParts)

include parts

/-- The parts after a change of other registers than flags and plans are kept too. -/
theorem elsewhere {α β : Type} {results : α → β → Prop} {change : Cpu → Cpu}
    {nextLeft : Unit → Act Left α} {nextRight : Unit → Act Right β}
    (same : ∀ cpu, (change cpu).f = cpu.f ∧ (change cpu).enableDelay = cpu.enableDelay)
    (next : ∀ x, coupling.Keeps results (nextLeft x) (nextRight x))
    : coupling.Keeps results (Board.modifyCpu change >>= nextLeft)
        (Board.modifyCpu change >>= nextRight) :=
  (parts.modifyCpu (.elsewhere same)).andThen next

/-- So are the parts after a change that sets the flags. -/
theorem flagging {α β : Type} {results : α → β → Prop} {change : Cpu → Cpu}
    {nextLeft : Unit → Act Left α} {nextRight : Unit → Act Right β}
    (sets
      : ∀ cpu,
        (∃ flags : Flags, (change cpu).f = flags.toByte)
        ∧ (change cpu).enableDelay = cpu.enableDelay)
    (next : ∀ x, coupling.Keeps results (nextLeft x) (nextRight x))
    : coupling.Keeps results (Board.modifyCpu change >>= nextLeft)
        (Board.modifyCpu change >>= nextRight) :=
  (parts.modifyCpu (.flagging sets)).andThen next

/-- A fetch reads and moves the program counter. -/
theorem fetch
    : coupling.Keeps Eq fetch fetch :=
  (parts.observe _).andThen fun _ =>
    (parts.read _).andThen fun _ => parts.elsewhere (fun _ => ⟨rfl, rfl⟩) fun _ => .pure rfl

/-- A word is fetched as two bytes. -/
theorem fetchWord
    : coupling.Keeps Eq fetchWord fetchWord :=
  parts.fetch.andThen fun _ => parts.fetch.andThen fun _ => .pure rfl

/-- A word is written as two bytes. -/
theorem writeWord (address value : UInt16)
    : coupling.Keeps Eq (writeWord address value) (writeWord address value) :=
  (parts.write _ _).andThen fun _ => parts.write _ _

/-- A push moves the stack pointer and writes. -/
theorem pushByte (value : UInt8)
    : coupling.Keeps Eq (pushByte value) (pushByte value) :=
  parts.elsewhere (fun _ => ⟨rfl, rfl⟩) fun _ =>
    (parts.observe _).andThen fun _ => parts.write _ _

/-- A pop reads and moves the stack pointer. -/
theorem popByte
    : coupling.Keeps Eq popByte popByte :=
  (parts.observe _).andThen fun _ =>
    (parts.read _).andThen fun _ => parts.elsewhere (fun _ => ⟨rfl, rfl⟩) fun _ => .pure rfl

/-- A word is pushed as two bytes. -/
theorem push (value : UInt16)
    : coupling.Keeps Eq (push value) (push value) :=
  (parts.pushByte _).andThen fun _ => parts.pushByte _

/-- A word is popped as two bytes. -/
theorem pop
    : coupling.Keeps Eq pop pop :=
  parts.popByte.andThen fun _ => parts.popByte.andThen fun _ => .pure rfl

/-- An operand is read from a register or from memory. -/
theorem readOperand (operand : Operand)
    : coupling.Keeps Eq (readOperand operand) (readOperand operand) := by
  cases operand with
  | register register => exact parts.observe (·.byte register)
  | atHl => exact (parts.observe _).andThen fun _ => parts.read _

/-- An operand is written to a register or to memory. -/
theorem writeOperand (operand : Operand) (value : UInt8)
    : coupling.Keeps Eq (writeOperand operand value) (writeOperand operand value) := by
  cases operand with
  | register register => exact parts.modifyCpu (modest_setByte register value)
  | atHl => exact (parts.observe _).andThen fun _ => parts.write _ _

/-- An update reads its operand, sets the flags and writes the operand back. -/
theorem updateOperand (operand : Operand) (compute : UInt8 → Flags → UInt8 × Flags)
    : coupling.Keeps Eq (updateOperand operand compute) (updateOperand operand compute) :=
  (parts.readOperand operand).andThen fun _ =>
    (parts.observe _).andThen fun _ =>
      (parts.modifyCpu (modest_setFlags _)).andThen fun _ => parts.writeOperand operand _

/-- Every operation of the extended page keeps the coupling, by cases of the operation. -/
theorem runBitOp (op : BitOp) (operand : Operand)
    : coupling.Keeps SameCost (runBitOp op operand) (runBitOp op operand) := by
  have four : SameCost (operandCost operand 2 4) (operandCost operand 2 4) :=
    .operand operand (by decide) (by decide)
  cases op with
  | shift shift => exact (parts.updateOperand operand _).andThen fun _ => .pure four
  | test bit =>
      exact (parts.readOperand operand).andThen fun _ =>
        parts.flagging (fun _ => ⟨⟨_, rfl⟩, rfl⟩) fun _ =>
          .pure (.operand operand (by decide) (by decide))
  | reset bit =>
      exact (parts.readOperand operand).andThen fun _ =>
        (parts.writeOperand operand _).andThen fun _ => .pure four
  | set bit =>
      exact (parts.readOperand operand).andThen fun _ =>
        (parts.writeOperand operand _).andThen fun _ => .pure four

/-- Every instruction keeps the coupling and takes one to six machine cycles, by cases of the
instruction, each a chain of the parts above. The plan to switch interrupts on is settled only after
the instruction that makes it.
-/
theorem run {instruction : Instruction} (other : instruction ≠ .enableInterrupts)
    : coupling.Keeps SameCost (run instruction) (run instruction) := by
  cases instruction with
  | nop => exact .pure (by decide)
  | stop =>
      exact parts.fetch.andThen fun _ => parts.resetDivider.andThen fun _ =>
        parts.elsewhere (fun _ => ⟨rfl, rfl⟩) fun _ => .pure (by decide)
  | halt => exact parts.elsewhere (fun _ => ⟨rfl, rfl⟩) fun _ => .pure (by decide)
  | disableInterrupts => exact (parts.modifyCpu modest_disable).andThen fun _ => .pure (by decide)
  | enableInterrupts => exact absurd rfl other
  | loadWord target =>
      exact parts.fetchWord.andThen fun _ =>
        (parts.modifyCpu (modest_setWord target _)).andThen fun _ => .pure (by decide)
  | storeA pointer =>
      exact (parts.observe _).andThen fun _ => (parts.observe _).andThen fun _ =>
        (parts.write _ _).andThen fun _ =>
          (parts.modifyCpu (modest_movePointer pointer _)).andThen fun _ => .pure (by decide)
  | loadA pointer =>
      exact (parts.observe _).andThen fun _ => (parts.read _).andThen fun _ =>
        (parts.modifyCpu (modest_loadPointer pointer _ _)).andThen fun _ => .pure (by decide)
  | storeSp =>
      exact parts.fetchWord.andThen fun _ => (parts.observe _).andThen fun _ =>
        (parts.writeWord _ _).andThen fun _ => .pure (by decide)
  | incrementWord target =>
      exact (parts.modifyCpu (modest_setWord target _)).andThen fun _ => .pure (by decide)
  | decrementWord target =>
      exact (parts.modifyCpu (modest_setWord target _)).andThen fun _ => .pure (by decide)
  | increment target =>
      exact (parts.updateOperand target _).andThen fun _ =>
        .pure (.operand target (by decide) (by decide))
  | decrement target =>
      exact (parts.updateOperand target _).andThen fun _ =>
        .pure (.operand target (by decide) (by decide))
  | loadImmediate target =>
      exact parts.fetch.andThen fun _ => (parts.writeOperand target _).andThen fun _ =>
        .pure (.operand target (by decide) (by decide))
  | load target source =>
      exact (parts.readOperand source).andThen fun _ =>
        (parts.writeOperand target _).andThen fun _ =>
          .pure
            (.max (.operand target (by decide) (by decide))
              (.operand source (by decide) (by decide)))
  | rotate rotation => exact parts.flagging (fun _ => ⟨⟨_, rfl⟩, rfl⟩) fun _ => .pure (by decide)
  | addHl source => exact parts.flagging (fun _ => ⟨⟨_, rfl⟩, rfl⟩) fun _ => .pure (by decide)
  | jumpRelative condition =>
      exact parts.fetch.andThen fun _ => (parts.observe _).andThen fun _ =>
        .branch (fun _ => parts.elsewhere (fun _ => ⟨rfl, rfl⟩) fun _ => .pure (by decide))
          fun _ => .pure (by decide)
  | decimalAdjust => exact parts.flagging (fun _ => ⟨⟨_, rfl⟩, rfl⟩) fun _ => .pure (by decide)
  | complement => exact parts.flagging (fun _ => ⟨⟨_, rfl⟩, rfl⟩) fun _ => .pure (by decide)
  | setCarry => exact parts.flagging (fun _ => ⟨⟨_, rfl⟩, rfl⟩) fun _ => .pure (by decide)
  | complementCarry => exact parts.flagging (fun _ => ⟨⟨_, rfl⟩, rfl⟩) fun _ => .pure (by decide)
  | alu op source =>
      exact (parts.readOperand source).andThen fun _ =>
        parts.flagging (fun _ => ⟨⟨_, rfl⟩, rfl⟩) fun _ =>
          .pure (.operand source (by decide) (by decide))
  | aluImmediate op =>
      exact parts.fetch.andThen fun _ =>
        parts.flagging (fun _ => ⟨⟨_, rfl⟩, rfl⟩) fun _ => .pure (by decide)
  | ret condition =>
      cases condition with
      | none =>
          exact parts.pop.andThen fun _ =>
            parts.elsewhere (fun _ => ⟨rfl, rfl⟩) fun _ => .pure (by decide)
      | some condition =>
          exact (parts.observe _).andThen fun _ =>
            .branch
              (fun _ => parts.pop.andThen fun _ =>
                parts.elsewhere (fun _ => ⟨rfl, rfl⟩) fun _ => .pure (by decide))
              fun _ => .pure (by decide)
  | returnInterrupt =>
      exact parts.pop.andThen fun _ =>
        parts.elsewhere (fun _ => ⟨rfl, rfl⟩) fun _ => .pure (by decide)
  | pop target =>
      exact parts.pop.andThen fun _ =>
        (parts.modifyCpu (modest_setStackWord target _)).andThen fun _ => .pure (by decide)
  | push source =>
      exact (parts.observe _).andThen fun _ =>
        (parts.push _).andThen fun _ => .pure (by decide)
  | jump condition =>
      exact parts.fetchWord.andThen fun _ => (parts.observe _).andThen fun _ =>
        .branch (fun _ => parts.elsewhere (fun _ => ⟨rfl, rfl⟩) fun _ => .pure (by decide))
          fun _ => .pure (by decide)
  | jumpHl => exact parts.elsewhere (fun _ => ⟨rfl, rfl⟩) fun _ => .pure (by decide)
  | call condition =>
      exact parts.fetchWord.andThen fun _ => (parts.observe _).andThen fun _ =>
        .branch
          (fun _ => (parts.observe _).andThen fun _ => (parts.push _).andThen fun _ =>
            parts.elsewhere (fun _ => ⟨rfl, rfl⟩) fun _ => .pure (by decide))
          fun _ => .pure (by decide)
  | restart address =>
      exact (parts.observe _).andThen fun _ => (parts.push _).andThen fun _ =>
        parts.elsewhere (fun _ => ⟨rfl, rfl⟩) fun _ => .pure (by decide)
  | extended => exact parts.fetch.andThen fun _ => parts.runBitOp _ _
  | storeHigh =>
      exact parts.fetch.andThen fun _ => (parts.observe _).andThen fun _ =>
        (parts.write _ _).andThen fun _ => .pure (by decide)
  | loadHigh =>
      exact parts.fetch.andThen fun _ => (parts.read _).andThen fun _ =>
        parts.elsewhere (fun _ => ⟨rfl, rfl⟩) fun _ => .pure (by decide)
  | storeHighC =>
      exact (parts.observe _).andThen fun _ => (parts.observe _).andThen fun _ =>
        (parts.write _ _).andThen fun _ => .pure (by decide)
  | loadHighC =>
      exact (parts.observe _).andThen fun _ => (parts.read _).andThen fun _ =>
        parts.elsewhere (fun _ => ⟨rfl, rfl⟩) fun _ => .pure (by decide)
  | storeAbsolute =>
      exact parts.fetchWord.andThen fun _ => (parts.observe _).andThen fun _ =>
        (parts.write _ _).andThen fun _ => .pure (by decide)
  | loadAbsolute =>
      exact parts.fetchWord.andThen fun _ => (parts.read _).andThen fun _ =>
        parts.elsewhere (fun _ => ⟨rfl, rfl⟩) fun _ => .pure (by decide)
  | addSp =>
      exact parts.fetch.andThen fun _ =>
        parts.flagging (fun _ => ⟨⟨_, rfl⟩, rfl⟩) fun _ => .pure (by decide)
  | loadHlSp =>
      exact parts.fetch.andThen fun _ =>
        parts.flagging (fun _ => ⟨⟨_, rfl⟩, rfl⟩) fun _ => .pure (by decide)
  | loadSpHl => exact parts.elsewhere (fun _ => ⟨rfl, rfl⟩) fun _ => .pure (by decide)

/-- Spending an allowed number of machine cycles counts them and runs the timer. -/
theorem finish {cycles : Nat} (cost : SameCost cycles cycles)
    : coupling.Keeps SameCost (finish cycles) (finish cycles) :=
  parts.elsewhere (fun _ => ⟨rfl, rfl⟩) fun _ =>
    (parts.runTimer _).andThen fun _ => .pure cost

/-- The next instruction keeps the coupling, whether or not its opcode names one. -/
theorem executeNext
    : coupling.Keeps SameCost executeNext executeNext := by
  refine (parts.observe _).andThen fun _ => (parts.observe _).andThen fun _ =>
    parts.fetch.andThen fun opcode => ?_
  cases Opcode.decode? opcode with
  | none => exact .throw _
  | some instruction =>
      refine (parts.instruction instruction).andThen fun _ => ?_
      by_cases enables : instruction = .enableInterrupts
      · subst enables
        rw [run_enableInterrupts, run_enableInterrupts]
        exact (parts.planEnable _).andThen fun _ => parts.finish (by decide)
      · refine (parts.run enables).bind ?_
        intro cycles _ ⟨same, bounds⟩
        subst same
        exact (parts.modifyCpu (modest_settleEnable _)).andThen fun _ =>
          parts.finish ⟨rfl, bounds⟩

/-- So does an idle machine cycle of a halted processor. -/
theorem continueUnlessHalted
    : coupling.Keeps SameCost continueUnlessHalted continueUnlessHalted :=
  (parts.observe _).andThen fun _ =>
    .branch (fun _ => parts.finish (by decide)) fun _ => parts.executeNext

/-- Execution keeps the coupling in every running state of the processor. -/
theorem execute
    : coupling.Keeps SameCost execute execute :=
  (parts.observe _).andThen fun _ =>
    .branch
      (fun _ => parts.keyPressed.andThen fun _ =>
        .branch
          (fun _ => parts.elsewhere (fun _ => ⟨rfl, rfl⟩) fun _ => parts.continueUnlessHalted)
          fun _ => parts.finish (by decide))
      fun _ => parts.continueUnlessHalted

end KeepsParts

namespace KeepsDispatch

variable {coupling : Coupling Left Right} (parts : coupling.KeepsDispatch)

include parts

/-- The dispatch of an interrupt keeps the coupling and takes five machine cycles. -/
theorem serve (source : Interrupt)
    : coupling.Keeps SameServing (serve source) (serve source) :=
  (parts.modifyCpu modest_disable).andThen fun _ => (parts.acknowledge source).andThen fun _ =>
    (parts.observe _).andThen fun _ => (parts.push _).andThen fun _ =>
      parts.elsewhere (fun _ => ⟨rfl, rfl⟩) fun _ =>
        (parts.runTimer _).andThen fun _ => .pure ⟨rfl, .inr rfl⟩

/-- Admitting an interrupt keeps the coupling, whether or not one is served. -/
theorem admitInterrupt
    : coupling.Keeps SameServing admitInterrupt admitInterrupt := by
  refine parts.nextInterrupt.andThen fun next => ?_
  cases next with
  | none => exact .pure ⟨rfl, .inl rfl⟩
  | some source =>
      exact parts.elsewhere (fun _ => ⟨rfl, rfl⟩) fun _ => (parts.observe _).andThen fun _ =>
        .branch (fun _ => parts.serve source) fun _ => .pure ⟨rfl, .inl rfl⟩

end KeepsDispatch

namespace KeepsStep

variable {coupling : Coupling Left Right} (parts : coupling.KeepsStep)

include parts

/-- A step keeps the coupling and takes 4 to 44 clocks, by the bounds on its two parts. -/
theorem step
    : coupling.Keeps SameClocks step step := by
  refine parts.execute.bind ?_
  rintro spent _ ⟨rfl, least, most⟩
  refine parts.admitInterrupt.bind ?_
  rintro serving _ ⟨rfl, taken⟩
  refine (parts.runVideo _).andThen fun _ => parts.leaveBoot.andThen fun _ => .pure ⟨rfl, ?_⟩
  have fourfold : (spent + serving) * clocksPerCycle = 4 * (spent + serving) := Nat.mul_comm _ _
  rw [fourfold]
  rcases taken with rfl | rfl
  · omega
  · simp only [dispatchCycles]
    omega

/-- A run keeps the coupling, by induction on the steps it may take. -/
theorem runUntil (goal steps elapsed : Nat)
    : coupling.Keeps Eq (runUntil goal steps elapsed) (runUntil goal steps elapsed) := by
  induction steps generalizing elapsed with
  | zero => exact .pure rfl
  | succ steps ih =>
      refine .branch (fun _ => parts.step.bind ?_) fun _ => .pure rfl
      rintro clocks _ ⟨rfl, _⟩
      exact ih (elapsed + clocks)

end KeepsStep

end Coupling

end Handheld
