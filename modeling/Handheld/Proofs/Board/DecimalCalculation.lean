import Handheld.Proofs.Board.RoundTrip
import Handheld.Proofs.Decimal

/-! Decimal numbers of any length. Executions of ADD or SUB for the lowest bytes and of ADC or SBC
for the others, each with DAA after it, calculate with packed numbers as on paper: the carry flag is
all that one column needs from the one before.
-/

namespace Handheld

/-- Whether an operation takes the carry flag in. -/
def AluOp.takesCarry (op : AluOp) : Bool :=
  op == .adc || op == .sbc

/-- The accumulator and the flags are those of a result, and the processor goes on. -/
structure Cpu.Holds (cpu : Cpu) (result : UInt8 × Flags) : Prop where
  a : cpu.a = result.1
  flags : cpu.flags = result.2
  awake : cpu.halted = false
  going : cpu.stopped = false

namespace Board

open Decimal

/-- The next instruction is an operation between the accumulator and some byte: that of a register,
the one in memory at HL or the one after the opcode.
-/
inductive Offers (board : Board) (op : AluOp) : UInt8 → Prop
  | register {opcode : UInt8} (register : ByteRegister)
      (fetched : board.bus.peek board.cpu.pc = .ok opcode)
      (decoded : Opcode.decode? opcode = some (.alu op (.register register)))
      : Offers board op (board.cpu.byte register)
  | atHl {opcode value : UInt8} (fetched : board.bus.peek board.cpu.pc = .ok opcode)
      (decoded : Opcode.decode? opcode = some (.alu op .atHl))
      (held : board.bus.peek board.cpu.hl = .ok value)
      : Offers board op value
  | immediate {opcode value : UInt8} (fetched : board.bus.peek board.cpu.pc = .ok opcode)
      (decoded : Opcode.decode? opcode = some (.aluImmediate op))
      (held : board.bus.peek (board.cpu.pc + 1) = .ok value)
      : Offers board op value

/-- Where one byte of a number meets the byte of another one. -/
structure Column where
  board : Board
  operand : UInt8

namespace Column

variable (column : Column)

/-- The board after the operation. -/
def operated : Board :=
  execute.endsIn column.board

/-- The board after the operation and DAA. -/
def adjusted : Board :=
  execute.endsIn column.operated

/-- The byte that is left in the accumulator. -/
def result : UInt8 :=
  column.adjusted.cpu.a

/-- The carry that an operation takes in. -/
def incoming (op : AluOp) : Bool :=
  op.takesCarry && column.board.cpu.flags.carry

/-- A running processor is about to execute an operation with the operand, and after it DAA. -/
structure Ready (op : AluOp) : Prop where
  awake : column.board.cpu.halted = false
  going : column.board.cpu.stopped = false
  offers : Offers column.board op column.operand
  followed : column.operated.bus.peek column.operated.cpu.pc = .ok 0x27

/-- Both instructions are executed. -/
def Executes : Prop :=
  (∃ cycles, execute column.board = .ok cycles column.operated)
  ∧ ∃ cycles, execute column.operated = .ok cycles column.adjusted

end Column

/-- Columns from the lowest one up, the first with one operation and all others with another one,
and the board after them. Whatever happens between two columns keeps the carry flag.
-/
inductive Calculation : AluOp → AluOp → List Column → Board → Prop
  | last {op next : AluOp} {column : Column} (ready : column.Ready op)
      : Calculation op next [column] column.adjusted
  | more {op next : AluOp} {column following : Column} {columns : List Column} {final : Board}
      (ready : column.Ready op)
      (carried : following.board.cpu.flags.carry = column.adjusted.cpu.flags.carry)
      (rest : Calculation next next (following :: columns) final)
      : Calculation op next (column :: following :: columns) final

/-- What columns leave: both instructions of each are executed, the accumulator receives the bytes
of a number one after another, all of them packed, and in the end the carry flag is set exactly when
something was carried.
-/
structure Leaves (columns : List Column) (final : Board) (number : Nat) (carried : Prop)
    : Prop where
  executes : ∀ column ∈ columns, column.Executes
  digits : ∀ column ∈ columns, IsPacked column.result
  bytes : columns.map Column.result = packed columns.length number
  carry : final.cpu.flags.carry = true ↔ carried

-----------------------------------------------------------------------------------------
-- Single executions
-----------------------------------------------------------------------------------------

/-- An instruction that reads some bytes and puts a result is executed where the bytes are found. -/
theorem execute_of_result {board : Board} (awake : board.cpu.halted = false)
    (going : board.cpu.stopped = false) {opcode : UInt8}
    (fetched : board.bus.peek board.cpu.pc = .ok opcode) {instruction : Instruction}
    (decoded : Opcode.decode? opcode = some instruction) {addresses : List UInt16}
    (found : ∀ address ∈ addresses, ∃ value, board.bus.peek address = .ok value)
    {result : UInt8 × Flags}
    (makes
      : Makes (run instruction) { board.cpu with pc := board.cpu.pc + 1 } board.bus.shown
          (addresses.map .read) fun _ final => ∃ pc, final = setResult result { board.cpu with pc })
    : ∃ cycles,
        execute board = .ok cycles (execute.endsIn board)
        ∧ (execute.endsIn board).cpu.Holds result := by
  have all : ∀ address ∈ board.cpu.pc :: addresses, ∃ value, board.bus.peek address = .ok value :=
    List.forall_mem_cons.mpr ⟨⟨opcode, fetched⟩, found⟩
  obtain ⟨after, performed, -⟩ := Bus.reads_ok all
  obtain ⟨cycles, final, ran, pc, rfl⟩ :=
    execute_of_makes awake going fetched decoded makes performed
  obtain ⟨_, _, settled⟩ := settleEnable_elsewhere (board.cpu.enableDelay == 1)
    (setResult result { board.cpu with pc })
  rw [settled] at ran
  rw [Act.endsIn, ran]
  have flags : Flags.ofByte result.2.toByte = result.2 := by
    rw [← Manual.flagsOf_eq, Manual.flagsOf_toByte]
  exact ⟨cycles, rfl, rfl, flags, awake, going⟩

/-- An offered operation is executed, by cases of where its operand is. -/
theorem execute_operation {board : Board} (awake : board.cpu.halted = false)
    (going : board.cpu.stopped = false) {op : AluOp} {operand : UInt8}
    (offers : Offers board op operand)
    : ∃ cycles,
        execute board = .ok cycles (execute.endsIn board)
        ∧ (execute.endsIn board).cpu.Holds
          (op.apply board.cpu.a operand board.cpu.flags.carry) := by
  cases offers with
  | register register fetched decoded =>
      have nowhere : ∀ address ∈ [], ∃ value, board.bus.peek address = .ok value := by simp
      have same : Cpu.byte { board.cpu with pc := board.cpu.pc + 1 } register
          = board.cpu.byte register := by
        cases register <;> rfl
      rw [← same]
      refine execute_of_result awake going fetched decoded nowhere ?_
      refine .observe (·.byte register) ?_
      exact .modifyCpu _ (.pure ⟨_, rfl⟩)
  | atHl fetched decoded held =>
      have found : ∀ address ∈ [board.cpu.hl], ∃ value, board.bus.peek address = .ok value := by
        simp [held]
      rw [← Bus.shown_of_peek held]
      refine execute_of_result awake going fetched decoded found ?_
      simp only [run, readOperand, bind_assoc]
      exact .observe _ (.read _ (.modifyCpu _ (.pure ⟨_, rfl⟩)))
  | immediate fetched decoded held =>
      have found : ∀ address ∈ [board.cpu.pc + 1], ∃ value,
          board.bus.peek address = .ok value := by
        simp [held]
      rw [← Bus.shown_of_peek held]
      refine execute_of_result awake going fetched decoded found ?_
      refine .fetch ?_
      exact .modifyCpu _ (.pure ⟨_, rfl⟩)

/-- DAA is executed. -/
theorem execute_decimalAdjust {board : Board} (awake : board.cpu.halted = false)
    (going : board.cpu.stopped = false) (fetched : board.bus.peek board.cpu.pc = .ok 0x27)
    : ∃ cycles,
        execute board = .ok cycles (execute.endsIn board)
        ∧ (execute.endsIn board).cpu.Holds
          (Arithmetic.decimalAdjust board.cpu.a board.cpu.flags) := by
  have nowhere : ∀ address ∈ [], ∃ value, board.bus.peek address = .ok value := by simp
  refine execute_of_result awake going fetched rfl nowhere ?_
  exact .modifyCpu _ (.pure ⟨_, rfl⟩)

-----------------------------------------------------------------------------------------
-- Columns
-----------------------------------------------------------------------------------------

namespace Column

variable {column : Column} {op : AluOp}

/-- In a column DAA corrects the result of the operation. -/
theorem Ready.executes (ready : column.Ready op)
    : column.Executes
      ∧ let outcome := op.apply column.board.cpu.a column.operand column.board.cpu.flags.carry
        column.adjusted.cpu.Holds (Arithmetic.decimalAdjust outcome.1 outcome.2) := by
  obtain ⟨awake, going, offers, followed⟩ := ready
  obtain ⟨cycles, operates, held⟩ := execute_operation awake going offers
  obtain ⟨more, adjusts, holds⟩ := execute_decimalAdjust held.awake held.going followed
  rw [held.a, held.flags] at holds
  exact ⟨⟨⟨cycles, operates⟩, ⟨more, adjusts⟩⟩, holds⟩

/-- A column of an addition. -/
theorem Ready.value_add (ready : column.Ready op) (kind : op = .add ∨ op = .adc)
    (left : IsPacked column.board.cpu.a) (right : IsPacked column.operand)
    : IsPacked column.result
      ∧ value column.result + 100 * column.adjusted.cpu.flags.carry.toNat
        = value column.board.cpu.a + value column.operand + (column.incoming op).toNat := by
  obtain ⟨-, holds⟩ := ready.executes
  have same : op.apply column.board.cpu.a column.operand column.board.cpu.flags.carry
      = Arithmetic.add column.board.cpu.a column.operand (column.incoming op) := by
    rcases kind with rfl | rfl <;> rfl
  rw [same] at holds
  rw [result, holds.a, holds.flags]
  exact Decimal.value_add (column.incoming op) left right

/-- A column of a subtraction. -/
theorem Ready.value_sub (ready : column.Ready op) (kind : op = .sub ∨ op = .sbc)
    (left : IsPacked column.board.cpu.a) (right : IsPacked column.operand)
    : IsPacked column.result
      ∧ value column.board.cpu.a + 100 * column.adjusted.cpu.flags.carry.toNat
        = value column.result + value column.operand + (column.incoming op).toNat := by
  obtain ⟨-, holds⟩ := ready.executes
  have same : op.apply column.board.cpu.a column.operand column.board.cpu.flags.carry
      = Arithmetic.sub column.board.cpu.a column.operand (column.incoming op) := by
    rcases kind with rfl | rfl <;> rfl
  rw [same] at holds
  rw [result, holds.a, holds.flags]
  exact Decimal.value_sub (column.incoming op) left right

end Column

-----------------------------------------------------------------------------------------
-- Whole calculations
-----------------------------------------------------------------------------------------

namespace Calculation

variable {op next : AluOp} {columns : List Column} {final : Board}

/-- Every column has one of the two operations. -/
theorem ready (calculation : Calculation op next columns final)
    : ∀ column ∈ columns, ∃ operation, (operation = op ∨ operation = next)
        ∧ column.Ready operation := by
  induction calculation with
  | last ready =>
      rintro column member
      cases List.mem_singleton.mp member
      exact ⟨_, .inl rfl, ready⟩
  | more ready _ _ ih =>
      refine List.forall_mem_cons.mpr ⟨⟨_, .inl rfl, ready⟩, ?_⟩
      intro column member
      obtain ⟨operation, kind, others⟩ := ih column member
      exact ⟨operation, .inr (or_self_iff.mp kind), others⟩

/-- If in every column a byte and the carry out of it make up two other bytes and what is carried
in, then so do the numbers of which these are the columns, by induction on the columns.
-/
theorem number_eq (calculation : Calculation op next columns final)
    (takes : next.takesCarry = true) {left right total : Column → UInt8}
    (balanced
      : ∀ column ∈ columns, ∀ operation, operation = op ∨ operation = next →
          column.Ready operation →
          value (total column) + 100 * column.adjusted.cpu.flags.carry.toNat
          = value (left column) + value (right column) + (column.incoming operation).toNat)
    : number (columns.map total) + 100 ^ columns.length * final.cpu.flags.carry.toNat
      = number (columns.map left) + number (columns.map right)
        + (columns.head?.any (·.incoming op)).toNat := by
  induction calculation with
  | @last op next column ready =>
      have single := balanced column List.mem_cons_self op (.inl rfl) ready
      simpa [number] using single
  | @more op next column following columns final ready carried rest ih =>
      have first := balanced column List.mem_cons_self op (.inl rfl) ready
      have others := ih takes (fun column member operation kind =>
        balanced column (List.mem_cons_of_mem _ member) operation (.inr (or_self_iff.mp kind)))
      have passed : following.incoming next = column.adjusted.cpu.flags.carry := by
        rw [Column.incoming, takes, carried, Bool.true_and]
      simp only [List.map_cons, number_cons, List.length_cons, Nat.pow_succ', Nat.mul_assoc,
        List.head?_cons, Option.any_some, passed] at others ⊢
      omega

/-- An operation that does not take the carry flag in starts from nothing. -/
theorem starts_without_carry (alone : op.takesCarry = false) (columns : List Column)
    : columns.head?.any (·.incoming op) = false := by
  cases columns with
  | nil => rfl
  | cons column _ =>
      rw [List.head?_cons, Option.any_some, Column.incoming, alone, Bool.false_and]

/-- From columns that leave packed bytes and balance, a calculation that starts from nothing makes
numbers that balance.
-/
theorem balance (calculation : Calculation op next columns final)
    (alone : op.takesCarry = false) (takes : next.takesCarry = true)
    {left right total : Column → UInt8}
    (balanced
      : ∀ column ∈ columns, ∀ operation, operation = op ∨ operation = next →
          column.Ready operation →
          IsPacked column.result
          ∧ value (total column) + 100 * column.adjusted.cpu.flags.carry.toNat
            = value (left column) + value (right column) + (column.incoming operation).toNat)
    : (∀ column ∈ columns, IsPacked column.result)
      ∧ number (columns.map Column.result) < 100 ^ columns.length
      ∧ number (columns.map total) + 100 ^ columns.length * final.cpu.flags.carry.toNat
        = number (columns.map left) + number (columns.map right) := by
  have digits : ∀ column ∈ columns, IsPacked column.result := by
    intro column member
    obtain ⟨operation, kind, ready⟩ := calculation.ready column member
    exact (balanced column member operation kind ready).1
  have small := number_lt (List.forall_mem_map.mpr digits)
  rw [List.length_map] at small
  have numbers := calculation.number_eq takes fun column member operation kind ready =>
    (balanced column member operation kind ready).2
  rw [starts_without_carry alone] at numbers
  exact ⟨digits, small, numbers⟩

/-- Columns leave a number when they leave packed bytes that hold it. -/
theorem leaves_of_number (calculation : Calculation op next columns final)
    (digits : ∀ column ∈ columns, IsPacked column.result) {total : Nat}
    (holds : number (columns.map Column.result) = total) {carried : Prop}
    (carry : final.cpu.flags.carry = true ↔ carried)
    : Leaves columns final total carried := by
  refine ⟨?_, digits, ?_, carry⟩
  · intro column member
    obtain ⟨_, -, ready⟩ := calculation.ready column member
    exact ready.executes.1
  · have bytes := packed_number (List.forall_mem_map.mpr digits)
    rw [List.length_map, holds] at bytes
    exact bytes.symm

variable (lefts : ∀ column ∈ columns, IsPacked column.board.cpu.a)
  (rights : ∀ column ∈ columns, IsPacked column.operand)

include lefts rights

/-- ADD and ADC leave the lowest digits of the sum and carry when there are more. -/
theorem leaves_sum (calculation : Calculation .add .adc columns final)
    : let x := number (columns.map (·.board.cpu.a))
      let y := number (columns.map Column.operand)
      Leaves columns final ((x + y) % 100 ^ columns.length) (100 ^ columns.length ≤ x + y) := by
  intro x y
  obtain ⟨digits, small, total⟩ := calculation.balance rfl rfl
    fun column member _ kind ready =>
      ready.value_add kind (lefts column member) (rights column member)
  apply calculation.leaves_of_number digits
  · calc number (columns.map Column.result)
      _ = (number (columns.map Column.result)
            + 100 ^ columns.length * final.cpu.flags.carry.toNat) % 100 ^ columns.length := by
          rw [Nat.add_mul_mod_self_left, Nat.mod_eq_of_lt small]
      _ = (x + y) % 100 ^ columns.length := by rw [total]
  · change _ = x + y at total
    cases carried : final.cpu.flags.carry <;> simp [carried] at total ⊢ <;> omega

/-- SUB and SBC leave the lowest digits of the difference and carry when it is negative. -/
theorem leaves_difference (calculation : Calculation .sub .sbc columns final)
    : let x := number (columns.map (·.board.cpu.a))
      let y := number (columns.map Column.operand)
      Leaves columns final (((x : Int) - y) % 100 ^ columns.length).toNat (x < y) := by
  intro x y
  obtain ⟨digits, small, total⟩ := calculation.balance rfl rfl
    fun column member _ kind ready =>
      ready.value_sub kind (lefts column member) (rights column member)
  change x + _ = _ + y at total
  apply calculation.leaves_of_number digits
  · have wrapped : (x : Int) - y
        = number (columns.map Column.result)
          + 100 ^ columns.length * -final.cpu.flags.carry.toNat := by
      zify at total
      linarith
    have below : (number (columns.map Column.result) : Int) < 100 ^ columns.length := by
      exact_mod_cast small
    rw [wrapped, Int.add_mul_emod_self_left, Int.emod_eq_of_lt (Int.natCast_nonneg _) below,
      Int.toNat_natCast]
  · cases carried : final.cpu.flags.carry <;> simp [carried] at total ⊢ <;> omega

end Calculation

/-- Calculations with decimal numbers of any length are right. For columns whose bytes are packed
and hold two numbers, ADD, ADC and DAA leave the packed bytes of their sum, with a carry exactly
when the sum has more digits than the columns; SUB, SBC and DAA leave those of their difference,
with a carry exactly when that is negative. What does not fit wraps around. No instruction fails.
-/
theorem decimal_calculation {columns : List Column} {final : Board}
    (lefts : ∀ column ∈ columns, IsPacked column.board.cpu.a)
    (rights : ∀ column ∈ columns, IsPacked column.operand)
    : let n := columns.length
      let x := number (columns.map (·.board.cpu.a))
      let y := number (columns.map Column.operand)
      (Calculation .add .adc columns final →
        Leaves columns final ((x + y) % 100 ^ n) (100 ^ n ≤ x + y))
      ∧ (Calculation .sub .sbc columns final →
          Leaves columns final (((x : Int) - y) % 100 ^ n).toNat (x < y)) :=
  ⟨Calculation.leaves_sum lefts rights, Calculation.leaves_difference lefts rights⟩

/-- A column at the start of some start-up code, with its operand in B. -/
def firstColumn (code : ByteArray) (left right : UInt8) : Column :=
  ⟨⟨{ Cpu.powerOn with a := left, b := right }, (Bus.initial .strict).mapBoot code⟩, right⟩

/-- The column after another one, for which A and B were loaded. -/
def nextColumn (column : Column) (left right : UInt8) : Column :=
  let board := column.adjusted
  ⟨{ board with cpu := { board.cpu with a := left, b := right } }, right⟩

/-- With two columns 9958 + 0167 leaves 0125 and a carry, and 0125 - 0167 takes that back. -/
theorem decimal_calculation_two_columns
    : let low := firstColumn ⟨#[0x80, 0x27, 0x88, 0x27]⟩ 0x58 0x67
      let high := nextColumn low 0x99 0x01
      let lowAgain := firstColumn ⟨#[0x90, 0x27, 0x98, 0x27]⟩ 0x25 0x67
      let highAgain := nextColumn lowAgain 0x01 0x01
      [low.result, high.result] = [0x25, 0x01]
      ∧ high.adjusted.cpu.flags.carry = true
      ∧ [lowAgain.result, highAgain.result] = [0x58, 0x99]
      ∧ highAgain.adjusted.cpu.flags.carry = true := by
  intro low high lowAgain highAgain
  have add : low.Ready .add := by
    have fetched : low.board.bus.peek low.board.cpu.pc = .ok 0x80 := by decide +kernel
    exact ⟨rfl, rfl, .register .b fetched rfl, by decide +kernel⟩
  have adc : high.Ready .adc := by
    have fetched : high.board.bus.peek high.board.cpu.pc = .ok 0x88 := by decide +kernel
    exact ⟨by decide +kernel, by decide +kernel, .register .b fetched rfl, by decide +kernel⟩
  have sub : lowAgain.Ready .sub := by
    have fetched : lowAgain.board.bus.peek lowAgain.board.cpu.pc = .ok 0x90 := by decide +kernel
    exact ⟨rfl, rfl, .register .b fetched rfl, by decide +kernel⟩
  have sbc : highAgain.Ready .sbc := by
    have fetched : highAgain.board.bus.peek highAgain.board.cpu.pc = .ok 0x98 := by decide +kernel
    exact ⟨by decide +kernel, by decide +kernel, .register .b fetched rfl, by decide +kernel⟩
  have leftsAdded : ∀ column ∈ [low, high], IsPacked column.board.cpu.a := by decide +kernel
  have rightsAdded : ∀ column ∈ [low, high], IsPacked column.operand := by decide +kernel
  have leftsTaken : ∀ column ∈ [lowAgain, highAgain], IsPacked column.board.cpu.a := by
    decide +kernel
  have rightsTaken : ∀ column ∈ [lowAgain, highAgain], IsPacked column.operand := by
    decide +kernel
  have added := (decimal_calculation leftsAdded rightsAdded).1 (.more add rfl (.last adc))
  have taken := (decimal_calculation leftsTaken rightsTaken).2 (.more sub rfl (.last sbc))
  refine ⟨added.bytes.trans ?_, added.carry.mpr ?_, taken.bytes.trans ?_, taken.carry.mpr ?_⟩
  · decide +kernel
  · decide +kernel
  · decide +kernel
  · decide +kernel

end Board

end Handheld
