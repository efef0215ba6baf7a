import Handheld.Proofs.Bus.Faults
import Handheld.Proofs.Manual.Agreement

/-! Executions refine the manual. A processor that is neither halted nor stopped executes what the
manual says of the memory that it finds, access by access, and refuses exactly the opcodes
that name no instruction.
-/

namespace Handheld.Board

open Manual Manual.Registers

variable {cpu : Cpu} {bus : Bus}

/-- The table has eleven places without an instruction. -/
theorem decode?_eq_none_iff (opcode : UInt8)
    : Opcode.decode? opcode = none ↔ opcode ∈ undefinedOpcodes := by
  revert opcode
  refine forall_byte ?_
  decide +kernel

/-- The manual does not know the instruction where an opcode without one stands. -/
theorem effect?_eq_none_iff (memory : UInt16 → UInt8) (cpu : Cpu)
    : effect? memory (ofCpu cpu) = none ↔ memory cpu.pc ∈ undefinedOpcodes := by
  have agrees := follows_decoded memory cpu
  rw [← decode?_eq_none_iff, effect?_eq, Option.map_eq_none_iff]
  revert agrees
  generalize Opcode.decode? (memory cpu.pc) = decoded
  generalize row? memory _ _ _ _ = row
  intro agrees
  cases agrees with
  | none => exact iff_of_true rfl rfl
  | some _ => exact iff_of_false (Option.some_ne_none _) (Option.some_ne_none _)

/-- A processor that is neither stopped nor halted executes the next instruction. -/
theorem execute_eq_executeNext (bus : Bus) (going : cpu.stopped = false)
    (awake : cpu.halted = false) (events : List Event)
    : execute (⟨⟨cpu, bus⟩, events⟩ : Probed) = executeNext (⟨⟨cpu, bus⟩, events⟩ : Probed) := by
  have continued : execute (⟨⟨cpu, bus⟩, events⟩ : Probed)
      = (if cpu.stopped then
          inspect keyPressed >>= fun pressed =>
            if pressed then do
              modifyCpu fun cpu => { cpu with stopped := false }
              continueUnlessHalted
            else finish 1
        else continueUnlessHalted) (⟨⟨cpu, bus⟩, events⟩ : Probed) := rfl
  have halting : continueUnlessHalted (⟨⟨cpu, bus⟩, events⟩ : Probed)
      = (if cpu.halted then finish 1 else executeNext) (⟨⟨cpu, bus⟩, events⟩ : Probed) := rfl
  rw [continued, going, if_neg Bool.false_ne_true, halting, awake, if_neg Bool.false_ne_true]

variable (awake : cpu.halted = false) (going : cpu.stopped = false)

include awake going

/-- A known instruction is executed with its effect. -/
theorem execute_of_effect {effect : Effect}
    (known : effect? bus.shown (ofCpu cpu) = some effect)
    : (∀ after, Access.performAll effect.accesses bus = .ok () after →
        ∃ final,
          execute (⟨cpu, bus⟩ : Board) = .ok effect.cycles ⟨final, after.runTimer effect.cycles⟩
          ∧ Reaches cpu effect final)
      ∧ ∀ fault after, Access.performAll effect.accesses bus = .error fault after →
        ∃ last, execute (⟨cpu, bus⟩ : Board) = .error fault ⟨last, after⟩ := by
  have observed := execute_eq_executeNext bus going awake []
  have keeps := Probed.besideBoard_keepsStep.execute
  obtain ⟨_, _, succeeds, fails⟩ := executeNext_of_effect [] known
  refine ⟨?_, ?_⟩
  · intro after performed
    obtain ⟨final, ran, reached⟩ := succeeds after performed
    obtain ⟨cycles, alone, taken, -⟩ := Probed.plain_of_ok keeps (observed.trans ran)
    subst taken
    exact ⟨final, alone, reached⟩
  · intro fault after performed
    obtain ⟨last, more, ran⟩ := fails fault after performed
    exact ⟨last, Probed.plain_of_error keeps (observed.trans ran)⟩

/-- An execution reports an opcode as undefined if the manual does not know the instruction, and
only then: all faults of accesses are others.
-/
theorem execute_eq_undefinedOpcode_iff (opcode : UInt8) (pc : UInt16)
    : (∃ after, execute (⟨cpu, bus⟩ : Board) = .error (.undefinedOpcode opcode pc) after)
      ↔ bus.peek cpu.pc = .ok opcode ∧ opcode ∈ undefinedOpcodes ∧ pc = cpu.pc := by
  cases known : effect? bus.shown (ofCpu cpu) with
  | none =>
      obtain ⟨peeked, last, ran, -⟩ := executeNext_of_no_effect [] known
      have observed := execute_eq_executeNext bus going awake []
      have alone := Probed.plain_of_error Probed.besideBoard_keepsStep.execute
        (observed.trans ran)
      have undefined := (effect?_eq_none_iff bus.shown cpu).mp known
      constructor
      · rintro ⟨after, failed⟩
        rw [alone] at failed
        cases failed
        exact ⟨peeked, undefined, rfl⟩
      · rintro ⟨found, -, rfl⟩
        rw [peeked] at found
        cases found
        exact ⟨_, alone⟩
  | some effect =>
      obtain ⟨succeeds, fails⟩ := execute_of_effect awake going known
      refine iff_of_false ?_ ?_
      · rintro ⟨after, failed⟩
        cases performed : Access.performAll effect.accesses bus with
        | ok _ middle =>
            obtain ⟨final, ran, -⟩ := succeeds middle performed
            rw [ran] at failed
            cases failed
        | error fault middle =>
            obtain ⟨last, ran⟩ := fails fault middle performed
            rw [ran] at failed
            cases failed
            have outcome := Bus.respects_performAll effect.accesses bus rfl
            rw [performed] at outcome
            exact outcome.2.elim
      · rintro ⟨found, undefined, -⟩
        rw [← Bus.shown_of_peek found, ← effect?_eq_none_iff, known] at undefined
        cases undefined

omit awake going

/-- Whatever processor and bus, if the processor is neither halted nor stopped and the manual
knows the instruction at its program counter, then an execution performs exactly the accesses
of the manual in order, ends with the registers of the manual after the machine cycles of the
manual, and counts these; should an access fail, it fails with it at the same state of the
bus. The manual knows all instructions but the eleven whose opcodes are undefined, and an
execution reports an opcode as undefined, with its own address, exactly for these.
-/
theorem execute_refines_manual (cpu : Cpu) (bus : Bus) (awake : cpu.halted = false)
    (going : cpu.stopped = false)
    : (∀ effect, effect? bus.shown (ofCpu cpu) = some effect →
        (∀ after, Access.performAll effect.accesses bus = .ok () after →
          ∃ final,
            execute (⟨cpu, bus⟩ : Board)
              = .ok effect.cycles ⟨final, after.runTimer effect.cycles⟩
            ∧ Reaches cpu effect final)
        ∧ ∀ fault after, Access.performAll effect.accesses bus = .error fault after →
          ∃ last, execute (⟨cpu, bus⟩ : Board) = .error fault ⟨last, after⟩)
      ∧ (effect? bus.shown (ofCpu cpu) = none ↔ bus.shown cpu.pc ∈ undefinedOpcodes)
      ∧ ∀ opcode pc,
          (∃ after, execute (⟨cpu, bus⟩ : Board) = .error (.undefinedOpcode opcode pc) after)
          ↔ bus.peek cpu.pc = .ok opcode ∧ opcode ∈ undefinedOpcodes ∧ pc = cpu.pc := by
  refine ⟨?_, effect?_eq_none_iff bus.shown cpu, ?_⟩
  · intro effect known
    exact execute_of_effect awake going known
  · intro opcode pc
    exact execute_eq_undefinedOpcode_iff awake going opcode pc

/-- Without a cartridge the first opcode is a restart: it pushes the address behind it, here into
the gap after object memory, which ignores writes, and jumps to its handler after four
machine cycles.
-/
theorem execute_refines_manual_restart
    : let cpu := { Cpu.powerOn with sp := 0xFEA2 }
      cpu.halted = false
      ∧ cpu.stopped = false
      ∧ ∃ final,
          execute (⟨cpu, .initial .strict⟩ : Board)
            = .ok 4 ⟨final, (Bus.initial .strict).runTimer 4⟩
          ∧ final.pc = 0x38
          ∧ final.sp = 0xFEA0
          ∧ final.cycles = 4 := by
  refine ⟨rfl, rfl, ?_⟩
  obtain ⟨agrees, -, -⟩ :=
    execute_refines_manual { Cpu.powerOn with sp := 0xFEA2 } (.initial .strict) rfl rfl
  obtain ⟨succeeds, -⟩ := agrees _ rfl
  obtain ⟨final, ran, reached⟩ := succeeds (.initial .strict) rfl
  have pc : final.pc = 0x38 := congrArg Registers.pc reached.registers
  have sp : final.sp = 0xFEA0 := congrArg Registers.sp reached.registers
  exact ⟨final, ran, pc, sp, reached.cycles⟩

end Handheld.Board
