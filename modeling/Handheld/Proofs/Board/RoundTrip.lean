import Handheld.Proofs.Bus.Ram
import Handheld.Proofs.Manual.Execution

/-! Accumulator and flags through the stack. A push to RAM puts both there and a pop takes both
back, whatever happened in between, as long as it left the stack pointer and the two bytes alone.
-/

namespace Handheld.Board

open Manual

variable {cpu : Cpu} {bus : Bus}

-----------------------------------------------------------------------------------------
-- Words of the stack
-----------------------------------------------------------------------------------------

theorem highByte_wordOf (high low : UInt8)
    : highByte (wordOf high low) = high := by
  rw [← upper_eq, ← join_eq, upper_join]

theorem lowByte_wordOf (high low : UInt8)
    : lowByte (wordOf high low) = low := by
  rw [← lower_eq, ← join_eq, lower_join]

/-- A word is made of its two bytes. -/
theorem wordOf_halves (word : UInt16)
    : wordOf (highByte word) (lowByte word) = word := by
  have small := word.toNat_lt
  rw [← upper_eq, ← lower_eq, ← join_eq, ← UInt16.toNat_inj]
  simp only [join, upper, lower, UInt8.toNat_ofNat', UInt16.toNat_ofNat']
  omega

/-- Of the two bytes on top of the stack the upper one is next to the lower one. -/
theorem sub_two_add_one (sp : UInt16)
    : sp - 2 + 1 = sp - 1 := by
  rw [UInt16.sub_eq_add_neg, UInt16.sub_eq_add_neg, UInt16.add_assoc]
  rfl

/-- Without anything else in the flag register, both registers are pushed as they are. -/
theorem stackWord_af (clear : cpu.f &&& 0x0F = 0)
    : cpu.stackWord .af = wordOf cpu.a cpu.f := by
  change wordOf cpu.a cpu.f &&& 0xFFF0 = _
  rw [wordOf_and, and_upper_of_clear _ clear]

-----------------------------------------------------------------------------------------
-- Executions
-----------------------------------------------------------------------------------------

variable (awake : cpu.halted = false) (going : cpu.stopped = false)

include awake going

/-- An instruction that makes some accesses is executed when its fetch and all of these succeed. -/
theorem execute_of_makes {opcode : UInt8} (fetched : bus.peek cpu.pc = .ok opcode)
    {instruction : Instruction} (decoded : Opcode.decode? opcode = some instruction)
    {accesses : List Access} {ends : Nat → Cpu → Prop}
    (makes : Makes (run instruction) { cpu with pc := cpu.pc + 1 } bus.shown accesses ends)
    {after : Bus}
    (performed : Access.performAll (.read cpu.pc :: accesses) bus = .ok () after)
    : ∃ cycles final,
        execute (⟨cpu, bus⟩ : Board)
          = .ok cycles
            ⟨countCycles cycles (settleEnable (cpu.enableDelay == 1) final), after.runTimer cycles⟩
        ∧ ends cycles final := by
  have keeps := Probed.besideBoard_keepsStep.execute
  rcases bus.read_cases cpu.pc with ⟨middle, -, given, made, noting⟩ | ⟨fault, missing, -⟩
  · rw [Access.performAll, Act.bind_of_ok made] at performed
    rw [Bus.shown_of_peek fetched] at given
    obtain ⟨succeeds, -⟩ := completes makes noting.shown_eq []
    obtain ⟨cycles, final, ran, ended⟩ := succeeds after performed
    have observed := execute_eq_executeNext bus going awake []
    rw [executeNext_eq, Act.bind_of_ok (fetch_ok [] given), decoded] at observed
    obtain ⟨_, alone, same, -⟩ := Probed.plain_of_ok keeps (observed.trans ran)
    subst same
    exact ⟨cycles, final, alone, ended⟩
  · rw [fetched] at missing
    cases missing

/-- An instruction that first reads some bytes and goes on with other accesses is executed when all
bytes are found and these accesses succeed, whatever was noted of the reads.
-/
theorem execute_of_reads {opcode : UInt8} (fetched : bus.peek cpu.pc = .ok opcode)
    {instruction : Instruction} (decoded : Opcode.decode? opcode = some instruction)
    {addresses : List UInt16} {accesses : List Access} {ends : Nat → Cpu → Prop}
    (makes
      : Makes (run instruction) { cpu with pc := cpu.pc + 1 } bus.shown
          (addresses.map .read ++ accesses) ends)
    (found : ∀ address ∈ addresses, ∃ value, bus.peek address = .ok value)
    {reached : Bus → Prop}
    (goesOn
      : ∀ noted, bus.Noting noted →
        ∃ after, Access.performAll accesses noted = .ok () after ∧ reached after)
    : ∃ cycles final after,
        execute (⟨cpu, bus⟩ : Board)
          = .ok cycles
            ⟨countCycles cycles (settleEnable (cpu.enableDelay == 1) final), after.runTimer cycles⟩
        ∧ ends cycles final
        ∧ reached after := by
  have all : ∀ address ∈ cpu.pc :: addresses, ∃ value, bus.peek address = .ok value :=
    List.forall_mem_cons.mpr ⟨⟨opcode, fetched⟩, found⟩
  obtain ⟨noted, reads, noting⟩ := Bus.reads_ok all
  obtain ⟨after, performed, there⟩ := goesOn noted noting
  have whole
      : Access.performAll (.read cpu.pc :: (addresses.map .read ++ accesses)) bus
        = .ok () after := by
    rw [← List.cons_append, ← List.map_cons, Access.performAll_append, Act.bind_of_ok reads]
    exact performed
  obtain ⟨cycles, final, ran, ended⟩ := execute_of_makes awake going fetched decoded makes whole
  exact ⟨cycles, final, after, ran, ended, there⟩

/-- A push of accumulator and flags to RAM puts the accumulator above the flags. -/
theorem execute_pushAf (clear : cpu.f &&& 0x0F = 0) (opcode : bus.peek cpu.pc = .ok 0xF5)
    (above : bus.IsRam (cpu.sp - 1)) (below : bus.IsRam (cpu.sp - 2))
    : ∃ pushed,
        execute (⟨cpu, bus⟩ : Board) = .ok 4 pushed
        ∧ pushed.cpu.sp = cpu.sp - 2
        ∧ pushed.bus.peek (cpu.sp - 1) = .ok cpu.a
        ∧ pushed.bus.peek (cpu.sp - 2) = .ok cpu.f := by
  let started : Cpu := { cpu with pc := cpu.pc + 1 }
  have makes
      : Makes (run (.push .af)) started bus.shown
          [.write (cpu.sp - 1) (highByte (cpu.stackWord .af)),
            .write (cpu.sp - 2) (lowByte (cpu.stackWord .af))]
          fun cycles final => cycles = 4 ∧ final = { started with sp := cpu.sp - 2 } :=
    .observe _ (.push _ fun _ => .pure ⟨rfl, rfl⟩)
  rw [stackWord_af clear, highByte_wordOf, lowByte_wordOf] at makes
  -- the three accesses, one after another
  obtain ⟨fetched, fetches, noting⟩ := Bus.read_ok opcode
  obtain ⟨first, putsA, holdsA, keptFirst, -⟩ := (noting.isRam above).write cpu.a
  have ramA : first.IsRam (cpu.sp - 1) := keptFirst _ (noting.isRam above)
  have ramF : first.IsRam (cpu.sp - 2) := keptFirst _ (noting.isRam below)
  obtain ⟨second, putsF, holdsF, kept, next⟩ := ramF.write cpu.f
  rw [sub_two_add_one] at next
  have puts : Access.performAll [.write (cpu.sp - 2) cpu.f] first = .ok () second :=
    Act.bind_of_ok putsF _
  have performed
      : Access.performAll
          [.read cpu.pc, .write (cpu.sp - 1) cpu.a, .write (cpu.sp - 2) cpu.f] bus
        = .ok () second :=
    (Act.bind_of_ok fetches _).trans ((Act.bind_of_ok putsA _).trans puts)
  obtain ⟨_, _, ran, rfl, rfl⟩ := execute_of_makes awake going opcode rfl makes performed
  obtain ⟨_, _, settled⟩ :=
    settleEnable_elsewhere (cpu.enableDelay == 1) { started with sp := cpu.sp - 2 }
  rw [settled] at ran
  refine ⟨_, ran, rfl, ?_, ?_⟩
  · rw [(kept _ ramA).peek_runTimer, next ramA, holdsA]
  · rw [(kept _ ramF).peek_runTimer, holdsF]

/-- An instruction that pops a word and then changes the processor by it is executed when its opcode
and both bytes of the word are found.
-/
theorem execute_of_pop {opcode high low : UInt8} (fetched : bus.peek cpu.pc = .ok opcode)
    {instruction : Instruction} (decoded : Opcode.decode? opcode = some instruction)
    {change : UInt16 → Cpu → Cpu} {cycles : Nat}
    (pops
      : (run instruction : Act Probed Nat)
        = pop >>= fun word => modifyCpu (change word) >>= fun _ => pure cycles)
    (above : bus.peek (cpu.sp + 1) = .ok high) (below : bus.peek cpu.sp = .ok low)
    : ∃ popped,
        execute (⟨cpu, bus⟩ : Board) = .ok cycles popped
        ∧ popped.cpu
          = countCycles cycles
            (settleEnable (cpu.enableDelay == 1)
              (change (wordOf high low) { cpu with pc := cpu.pc + 1, sp := cpu.sp + 2 })) := by
  let lifted : Cpu := { cpu with pc := cpu.pc + 1, sp := cpu.sp + 2 }
  have makes
      : Makes (run instruction) { cpu with pc := cpu.pc + 1 } bus.shown
          [.read cpu.sp, .read (cpu.sp + 1)]
          fun spent final =>
            spent = cycles
            ∧ final = change (wordOf (bus.shown (cpu.sp + 1)) (bus.shown cpu.sp)) lifted := by
    rw [pops]
    exact .pop (.modifyCpu _ (.pure ⟨rfl, rfl⟩))
  rw [Bus.shown_of_peek above, Bus.shown_of_peek below] at makes
  have found : ∀ address ∈ [cpu.sp, cpu.sp + 1], ∃ value, bus.peek address = .ok value := by
    simp [above, below]
  obtain ⟨_, _, _, ran, ⟨rfl, rfl⟩, -⟩ :=
    execute_of_reads awake going fetched decoded makes found fun noted noting =>
      ⟨noted, rfl, noting⟩
  exact ⟨_, ran, rfl⟩

/-- A pop takes both back. -/
theorem execute_popAf (opcode : bus.peek cpu.pc = .ok 0xF1) {a f : UInt8}
    (above : bus.peek (cpu.sp + 1) = .ok a) (below : bus.peek cpu.sp = .ok f)
    (clear : f &&& 0x0F = 0)
    : ∃ popped,
        execute (⟨cpu, bus⟩ : Board) = .ok 3 popped
        ∧ popped.cpu.sp = cpu.sp + 2
        ∧ popped.cpu.a = a
        ∧ popped.cpu.f = f := by
  have pops
      : (run (.pop .af) : Act Probed Nat)
        = pop >>= fun word => modifyCpu (·.setAf word) >>= fun _ => pure 3 := rfl
  obtain ⟨popped, ran, same⟩ := execute_of_pop awake going opcode rfl pops above below
  obtain ⟨_, _, settled⟩ := settleEnable_elsewhere (cpu.enableDelay == 1)
    (Cpu.setAf { cpu with pc := cpu.pc + 1, sp := cpu.sp + 2 } (wordOf a f))
  rw [settled] at same
  refine ⟨popped, ran, ?_, ?_, ?_⟩
  · rw [same]
    rfl
  · rw [same]
    exact highByte_wordOf a f
  · rw [same]
    change lowByte (wordOf a f) &&& 0xF0 = f
    rw [lowByte_wordOf, and_upper_of_clear _ clear]

end Handheld.Board
