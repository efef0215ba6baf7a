import Handheld.Proofs.Board.Makes
import Handheld.Proofs.Manual.Layout

/-! Instructions beside their effects. A running instruction agrees with the manual on the
registers, apart from a planned switch-on of interrupts, which the manual settles when an
instruction starts and the board when it ends. The parts of instructions follow the parts of
effects in that view.
-/

namespace Handheld

open Board

namespace Manual

-----------------------------------------------------------------------------------------
-- Registers of a running instruction
-----------------------------------------------------------------------------------------

namespace Registers

/-- The registers of a running instruction as they would be if it ended now. -/
def ofRunning (due : Bool) (cpu : Cpu) : Registers :=
  { ofCpu cpu with
    interruptsOn :=
      if cpu.enableDelay = 0 then cpu.interruptsOn else cpu.interruptsOn || due
    enableIn := cpu.enableDelay.toNat - 1 }

theorem ofCpu_settleEnable (due : Bool) (cpu : Cpu)
    : ofCpu (settleEnable due cpu) = ofRunning due cpu := by
  unfold settleEnable
  by_cases idle : cpu.enableDelay = 0
  · simp [ofRunning, ofCpu, idle]
  · have least : 1 ≤ cpu.enableDelay := by
      rw [UInt8.le_iff_toNat_le]
      have nonzero : cpu.enableDelay.toNat ≠ 0 := by
        rw [← UInt8.toNat_zero, Ne, UInt8.toNat_inj]
        exact idle
      exact Nat.one_le_iff_ne_zero.mpr nonzero
    simp [ofRunning, ofCpu, idle, UInt8.toNat_sub_of_le _ _ least]

/-- An instruction starts behind its opcode. -/
theorem started_ofCpu (cpu : Cpu)
    : (ofCpu cpu).started
      = ofRunning (cpu.enableDelay == 1) { cpu with pc := cpu.pc + 1 } := by
  have planned : (cpu.enableDelay.toNat == 1) = (cpu.enableDelay == 1) := by
    rw [Bool.eq_iff_iff, beq_iff_eq, beq_iff_eq, ← UInt8.toNat_inj]
    rfl
  by_cases idle : cpu.enableDelay = 0
  · simp [started, ofRunning, ofCpu, idle]
  · simp [started, ofRunning, ofCpu, idle, planned]

variable (due : Bool) (cpu : Cpu)

@[simp]
theorem flags_ofRunning
    : (ofRunning due cpu).flags = cpu.flags :=
  flagsOf_eq cpu.f

@[simp]
theorem ofRunning_setFlags (flags : Flags)
    : ofRunning due (cpu.setFlags flags) = { ofRunning due cpu with flags } := by
  simp only [ofRunning, ofCpu, Cpu.setFlags, flagsOf_toByte]
  rfl

theorem ofRunning_setFlags_sp (flags : Flags) (sp : UInt16)
    : ofRunning due { cpu.setFlags flags with sp } = { ofRunning due cpu with sp, flags } := by
  simp only [ofRunning, ofCpu, Cpu.setFlags, flagsOf_toByte]
  rfl

@[simp]
theorem ofRunning_setResult (result : UInt8 × Flags)
    : ofRunning due (Board.setResult result cpu) = (ofRunning due cpu).setResult result := by
  simp only [ofRunning, ofCpu, Board.setResult, setResult, flagsOf_toByte]
  rfl

@[simp]
theorem pair_ofRunning (code : Fin 4)
    : (ofRunning due cpu).pair code = cpu.word (Opcode.words.get code) :=
  match code with
  | 0 => join_eq cpu.b cpu.c
  | 1 => join_eq cpu.d cpu.e
  | 2 => join_eq cpu.h cpu.l
  | 3 => rfl

@[simp]
theorem hl_ofRunning
    : (ofRunning due cpu).hl = cpu.hl :=
  join_eq cpu.h cpu.l

@[simp]
theorem ofRunning_setWord (code : Fin 4) (value : UInt16)
    : ofRunning due (cpu.setWord (Opcode.words.get code) value)
      = (ofRunning due cpu).setPair code value := by
  have high := upper_eq value
  have low := lower_eq value
  match code with
  | 0 | 1 | 2 =>
      simp only [setPair, high, low]
      rfl
  | 3 => rfl

@[simp]
theorem ofRunning_setHl (value : UInt16)
    : ofRunning due (cpu.setHl value) = (ofRunning due cpu).setPair 2 value :=
  ofRunning_setWord due cpu 2 value

/-- The accumulator is pushed with the byte of its flags. -/
@[simp]
theorem stackPair_ofRunning (code : Fin 4)
    : (ofRunning due cpu).stackPair code = cpu.stackWord (Opcode.stackRegisters.get code) := by
  match code with
  | 0 => exact join_eq cpu.b cpu.c
  | 1 => exact join_eq cpu.d cpu.e
  | 2 => exact join_eq cpu.h cpu.l
  | 3 =>
      change join cpu.a (flagByte (flagsOf cpu.f)) = wordOf cpu.a cpu.f &&& 0xFFF0
      rw [flagByte_flagsOf, join_eq, wordOf_and]

@[simp]
theorem ofRunning_setStackWord (code : Fin 4) (value : UInt16)
    : ofRunning due (cpu.setStackWord (Opcode.stackRegisters.get code) value)
      = (ofRunning due cpu).setStackPair code value := by
  match code with
  | 0 => exact ofRunning_setWord due cpu 0 value
  | 1 => exact ofRunning_setWord due cpu 1 value
  | 2 => exact ofRunning_setWord due cpu 2 value
  | 3 =>
      have flags : flagsOf (lowByte value &&& 0xF0) = flagsOf (lower value) := by
        rw [flagsOf_and, lower_eq]
      simp only [setStackPair, upper_eq, ← flags]
      rfl

@[simp]
theorem holds_ofRunning (code : Fin 4)
    : (ofRunning due cpu).holds code = branches (some (Opcode.conditions.get code)) cpu := by
  match code with
  | 0 | 1 | 2 | 3 =>
      simp only [holds, flags_ofRunning]
      rfl

end Registers

end Manual

-----------------------------------------------------------------------------------------
-- Effects of actions
-----------------------------------------------------------------------------------------

namespace Board

open Manual Manual.Registers

/-- What a running instruction keeps that the manual has no register for: the count of cycles,
and zeros in the lower half of the flag register.
-/
structure KeepsRest (before after : Cpu) : Prop where
  cycles : after.cycles = before.cycles
  padding : before.f &&& 0x0F = 0 → after.f &&& 0x0F = 0

theorem KeepsRest.trans {first second third : Cpu} (left : KeepsRest first second)
    (right : KeepsRest second third)
    : KeepsRest first third :=
  ⟨right.cycles.trans left.cycles, fun clear => right.padding (left.padding clear)⟩

theorem keepsRest_setFlags (cpu : Cpu) (flags : Flags)
    : KeepsRest cpu (cpu.setFlags flags) :=
  ⟨rfl, fun _ => padding_toByte flags⟩

theorem keepsRest_setResult (cpu : Cpu) (result : UInt8 × Flags)
    : KeepsRest cpu (setResult result cpu) :=
  ⟨rfl, fun _ => padding_toByte result.2⟩

theorem keepsRest_setWord (cpu : Cpu) (register : WordRegister) (value : UInt16)
    : KeepsRest cpu (cpu.setWord register value) := by
  cases register <;> exact ⟨rfl, id⟩

theorem keepsRest_setStackWord (cpu : Cpu) (register : StackRegister) (value : UInt16)
    : KeepsRest cpu (cpu.setStackWord register value) := by
  cases register with
  | af => exact ⟨rfl, fun _ => padding_setAf cpu value⟩
  | _ => exact ⟨rfl, id⟩

/-- Started with some processor while the bus shows some memory, an action has an effect. -/
def Follows (act : Act Probed Nat) (due : Bool) (cpu : Cpu) (memory : UInt16 → UInt8)
    (effect : Effect)
    : Prop :=
  Makes act cpu memory effect.accesses fun cycles final =>
    cycles = effect.cycles ∧ ofRunning due final = effect.after ∧ KeepsRest cpu final

namespace Follows

variable {due : Bool} {cpu : Cpu} {memory : UInt16 → UInt8} {effect : Effect}
  {after : Registers}

-----------------------------------------------------------------------------------------
-- The processor alone
-----------------------------------------------------------------------------------------

/-- An instruction ends with the registers that it has reached. -/
theorem done (cycles : Nat) (reached : ofRunning due cpu = after)
    : Follows (pure cycles) due cpu memory (quiet after cycles) :=
  .pure ⟨rfl, reached, rfl, id⟩

/-- An effect counts for what was kept before too. -/
theorem since {act : Act Probed Nat} {before : Cpu} (kept : KeepsRest before cpu)
    (follows : Follows act due cpu memory effect)
    : Makes act cpu memory effect.accesses fun cycles final =>
        cycles = effect.cycles ∧ ofRunning due final = effect.after ∧ KeepsRest before final := by
  refine Makes.mono follows ?_
  rintro cycles final ⟨taken, reached, keptSince⟩
  exact ⟨taken, reached, kept.trans keptSince⟩

theorem observe {α : Type} {next : α → Act Probed Nat} (view : Cpu → α)
    (rest : Follows (next (view cpu)) due cpu memory effect)
    : Follows (Board.observe view >>= next) due cpu memory effect :=
  rest

theorem modifyCpu {next : Unit → Act Probed Nat} (change : Cpu → Cpu)
    (kept : KeepsRest cpu (change cpu))
    (rest : Follows (next ()) due (change cpu) memory effect)
    : Follows (Board.modifyCpu change >>= next) due cpu memory effect :=
  Makes.modifyCpu change (rest.since kept)

/-- The last change of the registers. -/
theorem changed (cycles : Nat) (change : Cpu → Cpu)
    (reached : ofRunning due (change cpu) = after)
    (kept : KeepsRest cpu (change cpu))
    : Follows (Board.modifyCpu change >>= fun _ => pure cycles) due cpu memory
        (quiet after cycles) :=
  .modifyCpu change kept (.done cycles reached)

-----------------------------------------------------------------------------------------
-- Accesses
-----------------------------------------------------------------------------------------

theorem read {next : UInt8 → Act Probed Nat} {rest : UInt8 → Effect} (address : UInt16)
    (follows : ∀ value, Follows (next value) due cpu memory (rest value))
    : Follows (Board.read address >>= next) due cpu memory (reading memory address rest) :=
  Makes.read address (follows (memory address))

theorem write {next : Unit → Act Probed Nat} {accesses : List Access} {cycles : Nat}
    (address : UInt16) (value : UInt8)
    (rest : ∀ memory, Follows (next ()) due cpu memory { after, accesses, cycles })
    : Follows (Board.write address value >>= next) due cpu memory
        { after, accesses := .write address value :: accesses, cycles } :=
  Makes.write address value rest

theorem restartDivider {next : Unit → Act Probed Nat} {accesses : List Access} {cycles : Nat}
    (rest : ∀ memory, Follows (next ()) due cpu memory { after, accesses, cycles })
    : Follows (modifyBus (·.resetDivider) >>= next) due cpu memory
        { after, accesses := .restartDivider :: accesses, cycles } :=
  Makes.restartDivider rest

/-- A choice has the effect of the branch that is taken. -/
theorem branch {yes no : Act Probed Nat} {taken untaken : Effect} (condition : Bool)
    (whenTrue : Follows yes due cpu memory taken)
    (whenFalse : Follows no due cpu memory untaken)
    : Follows (if condition then yes else no) due cpu memory
        (if condition then taken else untaken) := by
  cases condition with
  | true => exact whenTrue
  | false => exact whenFalse

/-- A byte of the instruction is fetched. -/
theorem fetch {next : UInt8 → Act Probed Nat} {rest : UInt8 → Registers → Effect}
    (follows : ∀ value,
      Follows (next value) due { cpu with pc := cpu.pc + 1 } memory
        (rest value (ofRunning due { cpu with pc := cpu.pc + 1 })))
    : Follows (Board.fetch >>= next) due cpu memory
        (immediate memory (ofRunning due cpu) rest) :=
  Makes.fetch ((follows (memory cpu.pc)).since ⟨rfl, id⟩)

/-- A word of the instruction is fetched. -/
theorem fetchWord {next : UInt16 → Act Probed Nat} {rest : UInt16 → Registers → Effect}
    (follows : ∀ value,
      Follows (next value) due { cpu with pc := cpu.pc + 1 + 1 } memory
        (rest value (ofRunning due { cpu with pc := cpu.pc + 1 + 1 })))
    : Follows (Board.fetchWord >>= next) due cpu memory
        (immediateWord memory (ofRunning due cpu) rest) := by
  refine Makes.fetchWord ?_
  rw [← join_eq]
  exact (follows _).since ⟨rfl, id⟩

/-- A word is popped. -/
theorem pop {next : UInt16 → Act Probed Nat} {rest : UInt16 → Registers → Effect}
    (follows : ∀ value,
      Follows (next value) due { cpu with sp := cpu.sp + 2 } memory
        (rest value (ofRunning due { cpu with sp := cpu.sp + 2 })))
    : Follows (Board.pop >>= next) due cpu memory
        (popping memory (ofRunning due cpu) rest) := by
  refine Makes.pop ?_
  rw [← join_eq]
  exact (follows _).since ⟨rfl, id⟩

/-- A word is pushed. -/
theorem push {next : Unit → Act Probed Nat} {cycles : Nat} (value : UInt16)
    (follows : ∀ memory,
      Follows (next ()) due { cpu with sp := cpu.sp - 2 } memory
        (quiet { after with sp := cpu.sp - 2 } cycles))
    : Follows (Board.push value >>= next) due cpu memory
        (pushing (ofRunning due cpu) value after cycles) := by
  have kept : KeepsRest cpu { cpu with sp := cpu.sp - 2 } := ⟨rfl, id⟩
  unfold Follows pushing
  rw [upper_eq, lower_eq]
  exact Makes.push value fun memory => (follows memory).since kept

-----------------------------------------------------------------------------------------
-- Operands
-----------------------------------------------------------------------------------------

/-- An operand is found by its code: six registers, the byte at HL, the accumulator. -/
theorem operand {next : UInt8 → Act Probed Nat} {rest : UInt8 → Effect} (code : Fin 8)
    (follows : ∀ value, Follows (next value) due cpu memory (rest value))
    : Follows (readOperand (Opcode.operands.get code) >>= next) due cpu memory
        (Manual.operand memory (ofRunning due cpu) code rest) := by
  match code with
  | 0 | 1 | 2 | 3 | 4 | 5 | 7 => exact follows _
  | 6 =>
      change Follows (Board.observe (·.hl) >>= Board.read >>= next) due cpu memory
        (reading memory (ofRunning due cpu).hl rest)
      rw [hl_ofRunning, bind_assoc]
      exact .observe _ (.read _ follows)

/-- The last step of an instruction may store its result in an operand. -/
theorem store {cycles inRegister inMemory : Nat} (code : Fin 8) (value : UInt8)
    (cost : cycles = readCycles code inRegister inMemory)
    : Follows (writeOperand (Opcode.operands.get code) value >>= fun _ => pure cycles) due cpu
        memory
        (Manual.store (ofRunning due cpu) code value inRegister inMemory) := by
  subst cost
  match code with
  | 0 => exact .changed _ (·.setByte .b value) rfl ⟨rfl, id⟩
  | 1 => exact .changed _ (·.setByte .c value) rfl ⟨rfl, id⟩
  | 2 => exact .changed _ (·.setByte .d value) rfl ⟨rfl, id⟩
  | 3 => exact .changed _ (·.setByte .e value) rfl ⟨rfl, id⟩
  | 4 => exact .changed _ (·.setByte .h value) rfl ⟨rfl, id⟩
  | 5 => exact .changed _ (·.setByte .l value) rfl ⟨rfl, id⟩
  | 6 =>
      change Follows
        (Board.observe (·.hl) >>= (Board.write · value) >>= fun _ => pure inMemory) due cpu memory
        { after := ofRunning due cpu
          accesses := [.write (ofRunning due cpu).hl value]
          cycles := inMemory }
      rw [hl_ofRunning, bind_assoc]
      exact .observe _ (.write _ _ fun _ => .done _ rfl)
  | 7 => exact .changed _ (·.setByte .a value) rfl ⟨rfl, id⟩

end Follows

/-- The manual charges operands as the board does. -/
theorem operandCost_eq (code : Fin 8) (inRegister inMemory : Nat)
    : operandCost (Opcode.operands.get code) inRegister inMemory
      = readCycles code inRegister inMemory := by
  match code with
  | 0 | 1 | 2 | 3 | 4 | 5 | 6 | 7 => rfl

end Board

end Handheld
