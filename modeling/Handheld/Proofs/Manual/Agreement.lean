import Handheld.Proofs.Manual.Follows

/-! Every instruction does what the manual says. The instructions are compared row by row of the
octal layout, and an execution is one row with the fetch of its opcode before it and the
count of its cycles after it.
-/

namespace Handheld.Board

open Manual Manual.Registers

variable {due : Bool} {cpu : Cpu} {memory : UInt16 → UInt8}

-----------------------------------------------------------------------------------------
-- The first quarter of the page
-----------------------------------------------------------------------------------------

theorem follows_jumpRelative (code : Fin 4)
    : Follows (run (.jumpRelative (some (Opcode.conditions.get code)))) due cpu memory
        (immediate memory (ofRunning due cpu) fun distance r =>
          if r.holds code then quiet { r with pc := displace r.pc distance } 3
          else quiet r 2) := by
  refine .fetch fun distance => .observe _ ?_
  rw [holds_ofRunning]
  refine .branch _ (.changed 3 _ ?_ ⟨rfl, id⟩) (.done 2 rfl)
  rw [displace_eq]
  rfl

theorem follows_relativeJumps (y : Fin 8)
    : Follows (run (Opcode.relativeJump y)) due cpu memory
        (relativeJumps memory (ofRunning due cpu) y) := by
  match y with
  | 0 => exact .done 1 rfl
  | 1 =>
      refine .fetchWord fun address => .observe _ ?_
      unfold writeWord
      rw [bind_assoc, lower_eq, upper_eq]
      exact .write _ _ fun _ => .write _ _ fun _ => .done 5 rfl
  | 2 =>
      exact .fetch fun _ => .restartDivider fun _ =>
        .changed 1 (fun cpu => { cpu with stopped := true }) rfl ⟨rfl, id⟩
  | 3 =>
      refine .fetch fun distance => .observe _ (.changed 3 _ ?_ ⟨rfl, id⟩)
      rw [displace_eq]
      rfl
  | 4 | 5 | 6 | 7 => exact follows_jumpRelative _

theorem follows_wordLoads (y : Fin 8)
    : Follows (run (Opcode.wordLoad y)) due cpu memory
        (wordLoads memory (ofRunning due cpu) y) := by
  unfold Opcode.wordLoad wordLoads
  split
  · refine .fetchWord fun value => .changed 3 _ ?_ (keepsRest_setWord ..)
    exact ofRunning_setWord ..
  · rw [sumOfWords_eq, hl_ofRunning, pair_ofRunning, flags_ofRunning]
    refine .changed 2 _ ?_ ⟨rfl, fun _ => padding_toByte _⟩
    rw [ofRunning_setHl, ofRunning_setFlags]
    rfl

theorem indirect_ofRunning (code : Fin 4)
    : indirect (ofRunning due cpu) code
      = (pointerAddress (Opcode.pointers.get code) cpu,
        ofRunning due
          (movePointer (Opcode.pointers.get code)
            (pointerAddress (Opcode.pointers.get code) cpu) cpu)) := by
  match code with
  | 0 => simp only [indirect, pair_ofRunning]; rfl
  | 1 => simp only [indirect, pair_ofRunning]; rfl
  | 2 => simp only [indirect, hl_ofRunning, ← ofRunning_setHl]; rfl
  | 3 => simp only [indirect, hl_ofRunning, ← ofRunning_setHl]; rfl

theorem follows_indirectLoads (y : Fin 8)
    : Follows (run (Opcode.indirectLoad y)) due cpu memory
        (indirectLoads memory (ofRunning due cpu) y) := by
  unfold Opcode.indirectLoad indirectLoads
  simp only [indirect_ofRunning]
  generalize Opcode.pointers.get (pairCode y) = pointer
  split
  · refine .observe _ (.observe _ (.write _ _ fun _ => .changed 2 _ rfl ?_))
    cases pointer <;> exact ⟨rfl, id⟩
  · refine .observe _ (.read _ fun value => .changed 2 _ ?_ ?_)
    · cases pointer <;> rfl
    · cases pointer <;> exact ⟨rfl, id⟩

theorem follows_wordSteps (y : Fin 8)
    : Follows (run (Opcode.wordStep y)) due cpu memory (wordSteps (ofRunning due cpu) y) := by
  unfold Opcode.wordStep wordSteps
  simp only [pair_ofRunning]
  split
  · exact .changed 2 _ (ofRunning_setWord ..) (keepsRest_setWord ..)
  · exact .changed 2 _ (ofRunning_setWord ..) (keepsRest_setWord ..)

/-- An operand is replaced after the flags are set, which has no influence on where it lies. -/
theorem follows_updateOperand (code : Fin 8) (compute : UInt8 → Flags → UInt8 × Flags)
    {cycles inRegister inMemory : Nat} (cost : cycles = readCycles code inRegister inMemory)
    : Follows (updateOperand (Opcode.operands.get code) compute >>= fun _ => pure cycles) due cpu
        memory
        (operand memory (ofRunning due cpu) code fun value =>
          store { ofRunning due cpu with flags := (compute value cpu.flags).2 } code
            (compute value cpu.flags).1 inRegister inMemory) := by
  unfold updateOperand
  simp only [bind_assoc]
  refine .operand code fun value => .observe _ (.modifyCpu _ (keepsRest_setFlags ..) ?_)
  rw [← ofRunning_setFlags]
  exact .store code _ cost

theorem follows_accumulatorOps (y : Fin 8)
    : Follows (run (Opcode.accumulatorOp y)) due cpu memory
        (accumulatorOps (ofRunning due cpu) y) := by
  have rotates (code : Fin 8) (rotation : Rotation)
      (same : rotation.toShift = Opcode.shifts.get code)
      : Follows (run (.rotate rotation)) due cpu memory
          (quiet
            ((ofRunning due cpu).setResult
              ((shift code (ofRunning due cpu).a (ofRunning due cpu).flags.carry).1,
                { zero := false, subtract := false, half := false
                  carry :=
                    (shift code (ofRunning due cpu).a (ofRunning due cpu).flags.carry).2 })) 1)
      := by
    rw [shift_eq, flags_ofRunning, ← same]
    exact .changed 1 _ (ofRunning_setResult ..) (keepsRest_setResult ..)
  match y with
  | 0 => exact rotates 0 .rlca rfl
  | 1 => exact rotates 1 .rrca rfl
  | 2 => exact rotates 2 .rla rfl
  | 3 => exact rotates 3 .rra rfl
  | 4 =>
      refine .changed 1 _ ?_ (keepsRest_setResult ..)
      rw [decimal_eq, flags_ofRunning]
      exact ofRunning_setResult ..
  | 5 =>
      refine .changed 1 _ ?_ (keepsRest_setResult ..)
      rw [complement_eq, flags_ofRunning]
      exact ofRunning_setResult ..
  | 6 =>
      refine .changed 1 _ ?_ (keepsRest_setFlags ..)
      rw [flags_ofRunning]
      exact ofRunning_setFlags ..
  | 7 =>
      refine .changed 1 _ ?_ (keepsRest_setFlags ..)
      rw [flags_ofRunning]
      exact ofRunning_setFlags ..

theorem follows_firstQuarter (y z : Fin 8)
    : Follows (run (Opcode.inFirstQuarter y z)) due cpu memory
        (firstQuarter memory (ofRunning due cpu) y z) := by
  match z with
  | 0 => exact follows_relativeJumps y
  | 1 => exact follows_wordLoads y
  | 2 => exact follows_indirectLoads y
  | 3 => exact follows_wordSteps y
  | 4 =>
      simp only [firstQuarter, increment_eq, flags_ofRunning]
      exact follows_updateOperand y _ (operandCost_eq y 1 3)
  | 5 =>
      simp only [firstQuarter, decrement_eq, flags_ofRunning]
      exact follows_updateOperand y _ (operandCost_eq y 1 3)
  | 6 => exact .fetch fun value => .store y value (operandCost_eq y 2 3)
  | 7 => exact follows_accumulatorOps y

-----------------------------------------------------------------------------------------
-- The two quarters in the middle
-----------------------------------------------------------------------------------------

/-- A load takes as long as the slower of its two operands. -/
theorem follows_loads (y z : Fin 8)
    : Follows (run (Opcode.inSecondQuarter y z)) due cpu memory
        (loads memory (ofRunning due cpu) y z) := by
  unfold Opcode.inSecondQuarter loads
  split
  · exact .changed 1 (fun cpu => { cpu with halted := true }) rfl ⟨rfl, id⟩
  · refine .operand z fun value => .store y value ?_
    rw [operandCost_eq, operandCost_eq]
    simp only [readCycles]
    split <;> split <;> rfl

theorem follows_alu (code : Fin 8) (value : UInt8) (cycles : Nat)
    : Follows (Board.modifyCpu (applyAlu (aluOps.get code) value) >>= fun _ => pure cycles) due cpu
        memory
        (quiet
          ((ofRunning due cpu).setResult
            (alu code (ofRunning due cpu).a value (ofRunning due cpu).flags)) cycles) := by
  rw [alu_eq, flags_ofRunning]
  exact .changed cycles _ (ofRunning_setResult ..) (keepsRest_setResult ..)

theorem follows_operations (y z : Fin 8)
    : Follows (run (.alu (aluOps.get y) (Opcode.operands.get z))) due cpu memory
        (operations memory (ofRunning due cpu) y z) := by
  refine .operand z fun value => ?_
  rw [operandCost_eq]
  exact follows_alu y value _

-----------------------------------------------------------------------------------------
-- The last quarter
-----------------------------------------------------------------------------------------

theorem follows_conditionalReturn (code : Fin 4)
    : Follows (run (.ret (some (Opcode.conditions.get code)))) due cpu memory
        (if (ofRunning due cpu).holds code then
          popping memory (ofRunning due cpu) fun address r => quiet { r with pc := address } 5
        else quiet (ofRunning due cpu) 2) := by
  refine .observe _ ?_
  rw [holds_ofRunning]
  refine .branch _ (.pop fun address => ?_) (.done 2 rfl)
  exact .changed 5 (fun cpu => { cpu with pc := address }) rfl ⟨rfl, id⟩

theorem follows_conditionalReturns (y : Fin 8)
    : Follows (run (Opcode.conditionalReturn y)) due cpu memory
        (conditionalReturns memory (ofRunning due cpu) y) := by
  match y with
  | 0 | 1 | 2 | 3 => exact follows_conditionalReturn _
  | 4 =>
      refine .fetch fun offset => .observe _ ?_
      rw [join_eq]
      exact .write _ _ fun _ => .done 3 rfl
  | 5 =>
      refine .fetch fun distance => ?_
      rw [sumWithDistance_eq]
      exact .changed 4 _ (ofRunning_setFlags_sp ..)
        ⟨rfl, fun _ => padding_toByte _⟩
  | 6 =>
      refine .fetch fun offset => ?_
      rw [join_eq]
      exact .read _ fun value => .changed 3 (fun cpu => { cpu with a := value }) rfl ⟨rfl, id⟩
  | 7 =>
      refine .fetch fun distance => ?_
      rw [sumWithDistance_eq]
      refine .changed 3 _ ?_ ⟨rfl, fun _ => padding_toByte _⟩
      rw [ofRunning_setHl, ofRunning_setFlags]
      rfl

theorem follows_pops (y : Fin 8)
    : Follows (run (Opcode.popOrReturn y)) due cpu memory
        (pops memory (ofRunning due cpu) y) := by
  match y with
  | 0 | 2 | 4 | 6 =>
      exact .pop fun value =>
        .changed 3 _ (ofRunning_setStackWord ..) (keepsRest_setStackWord ..)
  | 1 => exact .pop fun address => .changed 4 (fun cpu => { cpu with pc := address }) rfl ⟨rfl, id⟩
  | 3 =>
      refine .pop fun address =>
        .changed 4 (fun cpu => { cpu with pc := address, interruptsOn := true }) ?_ ⟨rfl, id⟩
      simp [ofRunning, ofCpu]
  | 5 =>
      refine .changed 1 (fun cpu => { cpu with pc := cpu.hl }) ?_ ⟨rfl, id⟩
      rw [hl_ofRunning]
      rfl
  | 7 =>
      refine .changed 2 (fun cpu => { cpu with sp := cpu.hl }) ?_ ⟨rfl, id⟩
      rw [hl_ofRunning]
      rfl

theorem follows_conditionalJump (code : Fin 4)
    : Follows (run (.jump (some (Opcode.conditions.get code)))) due cpu memory
        (immediateWord memory (ofRunning due cpu) fun address r =>
          if r.holds code then quiet { r with pc := address } 4 else quiet r 3) := by
  refine .fetchWord fun address => .observe _ ?_
  rw [holds_ofRunning]
  exact .branch _ (.changed 4 (fun cpu => { cpu with pc := address }) rfl ⟨rfl, id⟩) (.done 3 rfl)

theorem follows_conditionalJumps (y : Fin 8)
    : Follows (run (Opcode.conditionalJump y)) due cpu memory
        (conditionalJumps memory (ofRunning due cpu) y) := by
  match y with
  | 0 | 1 | 2 | 3 => exact follows_conditionalJump _
  | 4 =>
      refine .observe _ (.observe _ ?_)
      rw [← join_eq]
      exact .write _ _ fun _ => .done 2 rfl
  | 5 => exact .fetchWord fun address => .observe _ (.write _ _ fun _ => .done 4 rfl)
  | 6 =>
      refine .observe _ ?_
      rw [← join_eq]
      exact .read _ fun value => .changed 2 (fun cpu => { cpu with a := value }) rfl ⟨rfl, id⟩
  | 7 =>
      exact .fetchWord fun address => .read _ fun value =>
        .changed 4 (fun cpu => { cpu with a := value }) rfl ⟨rfl, id⟩

/-- Every operation of the extended page has its effect, by cases of the quarter. -/
theorem follows_extended (x : Fin 4) (y z : Fin 8)
    : Follows (runBitOp (Opcode.bitOp x y) (Opcode.operands.get z)) due cpu memory
        (Manual.extended memory (ofRunning due cpu) x y z) := by
  match x with
  | 0 =>
      simp only [Manual.extended, shiftWithFlags_eq, flags_ofRunning]
      exact follows_updateOperand z
        (fun value flags => (Opcode.shifts.get y).apply value flags.carry) (operandCost_eq z 2 4)
  | 1 =>
      refine .operand z fun value => ?_
      rw [operandCost_eq, not_bit_eq, flags_ofRunning]
      exact .changed _ _ (ofRunning_setFlags ..) (keepsRest_setFlags ..)
  | 2 =>
      refine .operand z fun value => ?_
      rw [withBit_false]
      exact .store z _ (operandCost_eq z 2 4)
  | 3 =>
      refine .operand z fun value => ?_
      rw [withBit_true]
      exact .store z _ (operandCost_eq z 2 4)

theorem follows_jump? (unplanned : cpu.enableDelay = 0 → due = false) (y : Fin 8)
    : Option.Rel (fun instruction effect => Follows (run instruction) due cpu memory effect)
        (Opcode.jump? y) (jumps? memory (ofRunning due cpu) y) := by
  match y with
  | 0 =>
      refine .some (.fetchWord fun address => .observe _ ?_)
      exact .changed 4 (fun cpu => { cpu with pc := address }) rfl ⟨rfl, id⟩
  | 1 =>
      refine .some (.fetch fun opcode => ?_)
      rw [Opcode.decodeExtended_eq]
      exact follows_extended _ _ _
  | 2 | 3 | 4 | 5 => exact .none
  | 6 =>
      exact .some
        (.changed 1 (fun cpu => { cpu with interruptsOn := false, enableDelay := 0 }) rfl
          ⟨rfl, id⟩)
  | 7 =>
      refine .some (.changed 1 (fun cpu => { cpu with enableDelay := 2 }) ?_ ⟨rfl, id⟩)
      -- a switch-on that was not planned before is not due
      by_cases idle : cpu.enableDelay = 0
      · simp [ofRunning, ofCpu, idle, unplanned idle]
      · simp [ofRunning, ofCpu, idle]

theorem follows_call (code : Fin 4)
    : Follows (run (.call (some (Opcode.conditions.get code)))) due cpu memory
        (immediateWord memory (ofRunning due cpu) fun address r =>
          if r.holds code then pushing r r.pc { r with pc := address } 6 else quiet r 3) := by
  refine .fetchWord fun address => .observe _ ?_
  rw [holds_ofRunning]
  refine .branch _ (.observe _ (.push _ fun _ => ?_)) (.done 3 rfl)
  exact .changed 6 (fun cpu => { cpu with pc := address }) rfl ⟨rfl, id⟩

theorem follows_conditionalCall? (y : Fin 8)
    : Option.Rel (fun instruction effect => Follows (run instruction) due cpu memory effect)
        (Opcode.conditionalCall? y) (conditionalCalls? memory (ofRunning due cpu) y) := by
  unfold Opcode.conditionalCall? conditionalCalls?
  split
  · exact .some (follows_call _)
  · exact .none

theorem follows_push? (y : Fin 8)
    : Option.Rel (fun instruction effect => Follows (run instruction) due cpu memory effect)
        (Opcode.push? y) (pushes? memory (ofRunning due cpu) y) := by
  have pushes (code : Fin 4)
      : Follows (run (.push (Opcode.stackRegisters.get code))) due cpu memory
          (pushing (ofRunning due cpu) ((ofRunning due cpu).stackPair code)
            (ofRunning due cpu) 4) := by
    rw [stackPair_ofRunning]
    exact .observe _ (.push _ fun _ => .done 4 rfl)
  match y with
  | 0 | 2 | 4 | 6 => exact .some (pushes _)
  | 1 =>
      refine .some (.fetchWord fun address => .observe _ (.observe _ (.push _ fun _ => ?_)))
      exact .changed 6 (fun cpu => { cpu with pc := address }) rfl ⟨rfl, id⟩
  | 3 | 5 | 7 => exact .none

theorem follows_lastQuarter? (unplanned : cpu.enableDelay = 0 → due = false) (y z : Fin 8)
    : Option.Rel (fun instruction effect => Follows (run instruction) due cpu memory effect)
        (Opcode.inLastQuarter? y z) (lastQuarter? memory (ofRunning due cpu) y z) := by
  match z with
  | 0 => exact .some (follows_conditionalReturns y)
  | 1 => exact .some (follows_pops y)
  | 2 => exact .some (follows_conditionalJumps y)
  | 3 => exact follows_jump? unplanned y
  | 4 => exact follows_conditionalCall? y
  | 5 => exact follows_push? y
  | 6 => exact .some (.fetch fun value => follows_alu y value 2)
  | 7 =>
      refine .some (.observe _ (.push _ fun _ => ?_))
      exact .changed 4 (fun cpu => { cpu with pc := .ofNat (8 * y.val) }) rfl ⟨rfl, id⟩

/-- Instructions and effects stand at the same places, and agree there. -/
theorem follows_row? (unplanned : cpu.enableDelay = 0 → due = false) (x : Fin 4) (y z : Fin 8)
    : Option.Rel (fun instruction effect => Follows (run instruction) due cpu memory effect)
        (Opcode.atPlace? x y z) (row? memory (ofRunning due cpu) x y z) := by
  match x with
  | 0 => exact .some (follows_firstQuarter y z)
  | 1 => exact .some (follows_loads y z)
  | 2 => exact .some (follows_operations y z)
  | 3 => exact follows_lastQuarter? unplanned y z

-----------------------------------------------------------------------------------------
-- Whole instructions
-----------------------------------------------------------------------------------------

/-- A processor after an instruction with some effect: the registers of the manual, zeros in the
lower half of the flag register if they were there before, and the cycles counted.
-/
structure Reaches (before : Cpu) (effect : Effect) (after : Cpu) : Prop where
  registers : ofCpu after = effect.after
  padding : before.f &&& 0x0F = 0 → after.f &&& 0x0F = 0
  cycles : after.cycles = before.cycles + effect.cycles
  lastCycles : after.lastCycles = effect.cycles

theorem Reaches.ofFollows {effect : Effect} {final : Cpu}
    (reached : ofRunning due final = effect.after) (kept : KeepsRest cpu final)
    : Reaches cpu effect (countCycles effect.cycles (settleEnable due final)) := by
  have registers : ofCpu (settleEnable due final) = effect.after :=
    (ofCpu_settleEnable due final).trans reached
  obtain ⟨_, _, settled⟩ := settleEnable_elsewhere due final
  rw [settled] at registers ⊢
  exact ⟨registers, kept.padding, congrArg (· + effect.cycles) kept.cycles, rfl⟩

/-- An instruction that has been decoded is noticed and run, a planned switch-on of interrupts is
settled, and its cycles are counted.
-/
theorem completes {instruction : Instruction} {accesses : List Access} {ends : Nat → Cpu → Prop}
    {bus : Bus} (makes : Makes (run instruction) cpu memory accesses ends)
    (shown : bus.shown = memory) (events : List Event)
    : (∀ after, Access.performAll accesses bus = .ok () after →
        ∃ cycles final,
          (do
            notice (.instruction instruction)
            let cycles ← run instruction
            modifyCpu (settleEnable due)
            finish cycles : Act Probed Nat) ⟨⟨cpu, bus⟩, events⟩
            = .ok cycles
              ⟨⟨countCycles cycles (settleEnable due final), after.runTimer cycles⟩,
                events ++ .instruction instruction :: accesses.flatMap eventsOfAccess⟩
          ∧ ends cycles final)
      ∧ ∀ fault after, Access.performAll accesses bus = .error fault after →
        ∃ last more,
          (do
            notice (.instruction instruction)
            let cycles ← run instruction
            modifyCpu (settleEnable due)
            finish cycles : Act Probed Nat) ⟨⟨cpu, bus⟩, events⟩
            = .error fault ⟨⟨last, after⟩, more⟩ := by
  obtain ⟨succeeds, fails⟩ := makes bus (events ++ [.instruction instruction]) shown
  have noticed : notice (.instruction instruction) (⟨⟨cpu, bus⟩, events⟩ : Probed)
      = .ok () ⟨⟨cpu, bus⟩, events ++ [.instruction instruction]⟩ := rfl
  refine ⟨?_, ?_⟩
  · intro after performed
    obtain ⟨cycles, final, ran, ended⟩ := succeeds after performed
    refine ⟨cycles, final, ?_, ended⟩
    rw [Act.bind_of_ok noticed, Act.bind_of_ok ran, List.append_assoc]
    rfl
  · intro fault after performed
    obtain ⟨last, more, ran⟩ := fails fault after performed
    refine ⟨last, more, ?_⟩
    rw [Act.bind_of_ok noticed, Act.bind_of_error ran]

/-- What the manual knows of a processor is the row of its opcode, after the fetch. -/
theorem effect?_eq (memory : UInt16 → UInt8) (cpu : Cpu)
    : effect? memory (ofCpu cpu)
      = (row? memory (ofRunning (cpu.enableDelay == 1) { cpu with pc := cpu.pc + 1 })
          (quarter (memory cpu.pc)) (middleDigit (memory cpu.pc))
          (lastDigit (memory cpu.pc))).map fun rest =>
        { rest with accesses := .read cpu.pc :: rest.accesses } := by
  unfold effect?
  rw [started_ofCpu]
  rfl

/-- The instruction at the program counter agrees with the row of its opcode. -/
theorem follows_decoded (memory : UInt16 → UInt8) (cpu : Cpu)
    : Option.Rel
        (fun instruction effect =>
          Follows (run instruction) (cpu.enableDelay == 1) { cpu with pc := cpu.pc + 1 } memory
            effect)
        (Opcode.decode? (memory cpu.pc))
        (row? memory (ofRunning (cpu.enableDelay == 1) { cpu with pc := cpu.pc + 1 })
          (quarter (memory cpu.pc)) (middleDigit (memory cpu.pc))
          (lastDigit (memory cpu.pc))) := by
  rw [Opcode.decode?_eq_atPlace?]
  apply follows_row?
  intro idle
  have undelayed : cpu.enableDelay = 0 := idle
  rw [undelayed]
  rfl

/-- A fetch reads what is shown at the program counter and passes it. -/
theorem fetch_ok {cpu : Cpu} {bus after : Bus} {value : UInt8} (events : List Event)
    (given : Bus.read cpu.pc bus = .ok value after)
    : fetch (⟨⟨cpu, bus⟩, events⟩ : Probed)
      = .ok value ⟨⟨{ cpu with pc := cpu.pc + 1 }, after⟩, events⟩ := by
  have lifted : Board.read cpu.pc (⟨⟨cpu, bus⟩, events⟩ : Probed)
      = .ok value ⟨⟨cpu, after⟩, events⟩ := by
    simp only [Board.read, onBus, Housing.onBoard, given]
  change (Board.read cpu.pc >>= fun value => do
    Board.modifyCpu fun cpu => { cpu with pc := cpu.pc + 1 }
    pure value) _ = _
  rw [Act.bind_of_ok lifted]
  rfl

theorem fetch_error {cpu : Cpu} {bus after : Bus} {fault : Fault} (events : List Event)
    (failed : Bus.read cpu.pc bus = .error fault after)
    : fetch (⟨⟨cpu, bus⟩, events⟩ : Probed) = .error fault ⟨⟨cpu, after⟩, events⟩ := by
  have lifted : Board.read cpu.pc (⟨⟨cpu, bus⟩, events⟩ : Probed)
      = .error fault ⟨⟨cpu, after⟩, events⟩ := by
    simp only [Board.read, onBus, Housing.onBoard, failed]
  change (Board.read cpu.pc >>= fun value => do
    Board.modifyCpu fun cpu => { cpu with pc := cpu.pc + 1 }
    pure value) _ = _
  rw [Act.bind_of_error lifted]

theorem executeNext_eq (cpu : Cpu) (bus : Bus) (events : List Event)
    : executeNext (⟨⟨cpu, bus⟩, events⟩ : Probed)
      = (fetch >>= fun opcode =>
          match Opcode.decode? opcode with
          | none => throw (.undefinedOpcode opcode cpu.pc)
          | some instruction => do
              notice (.instruction instruction)
              let cycles ← run instruction
              modifyCpu (settleEnable (cpu.enableDelay == 1))
              finish cycles) (⟨⟨cpu, bus⟩, events⟩ : Probed) :=
  rfl

/-- An instruction that the manual knows is executed with its effect: after the fetch of the
opcode the row of the opcode applies, and the end counts its cycles.
-/
theorem executeNext_of_effect {bus : Bus} {effect : Effect} (events : List Event)
    (known : effect? bus.shown (ofCpu cpu) = some effect)
    : ∃ instruction,
        Opcode.decode? (bus.shown cpu.pc) = some instruction
        ∧ (∀ after, Access.performAll effect.accesses bus = .ok () after →
          ∃ final,
            executeNext (⟨⟨cpu, bus⟩, events⟩ : Probed)
              = .ok effect.cycles
                ⟨⟨final, after.runTimer effect.cycles⟩,
                  events ++ .instruction instruction
                    :: effect.accesses.flatMap eventsOfAccess⟩
            ∧ Reaches cpu effect final)
        ∧ ∀ fault after, Access.performAll effect.accesses bus = .error fault after →
          ∃ last more,
            executeNext (⟨⟨cpu, bus⟩, events⟩ : Probed) = .error fault ⟨⟨last, after⟩, more⟩ := by
  have agrees := follows_decoded bus.shown cpu
  rw [effect?_eq, Option.map_eq_some_iff] at known
  obtain ⟨rest, found, rfl⟩ := known
  rw [found] at agrees
  cases decoded : Opcode.decode? (bus.shown cpu.pc) with
  | none =>
      rw [decoded] at agrees
      cases agrees
  | some instruction =>
      rw [decoded] at agrees
      cases agrees with
      | some follows =>
      refine ⟨instruction, rfl, ?_⟩
      rw [executeNext_eq, Access.performAll]
      rcases bus.read_cases cpu.pc with ⟨middle, -, given, made, noting⟩ | ⟨fault, -, failed, made⟩
      · rw [Act.bind_of_ok (fetch_ok events given), Act.bind_of_ok made, decoded]
        obtain ⟨succeeds, fails⟩ := completes follows noting.shown_eq events
        refine ⟨?_, fails⟩
        intro after performed
        obtain ⟨cycles, final, ran, taken, reached, kept⟩ := succeeds after performed
        subst taken
        have ending := Reaches.ofFollows reached kept
        exact ⟨_, ran, ending.registers, ending.padding, ending.cycles, ending.lastCycles⟩
      · rw [Act.bind_of_error (fetch_error events failed), Act.bind_of_error made]
        refine ⟨?_, ?_⟩
        · rintro after ⟨⟩
        · rintro _ _ ⟨⟩
          exact ⟨cpu, events, rfl⟩

/-- Of an opcode that the manual does not know, an execution says which it is and where. -/
theorem executeNext_of_no_effect {bus : Bus} (events : List Event)
    (unknown : effect? bus.shown (ofCpu cpu) = none)
    : bus.peek cpu.pc = .ok (bus.shown cpu.pc)
      ∧ ∃ after,
          executeNext (⟨⟨cpu, bus⟩, events⟩ : Probed)
            = .error (.undefinedOpcode (bus.shown cpu.pc) cpu.pc) after
          ∧ bus.Noting after.board.bus := by
  have agrees := follows_decoded bus.shown cpu
  rw [effect?_eq, Option.map_eq_none_iff] at unknown
  rw [unknown] at agrees
  cases decoded : Opcode.decode? (bus.shown cpu.pc) with
  | some instruction =>
      rw [decoded] at agrees
      cases agrees
  | none =>
      rcases bus.read_cases cpu.pc with ⟨middle, peeked, given, -, noting⟩ | ⟨fault, peeked, -, -⟩
      · refine ⟨peeked, ?_⟩
        rw [executeNext_eq, Act.bind_of_ok (fetch_ok events given), decoded]
        exact ⟨_, rfl, noting⟩
      · -- where nothing can be read a zero is shown, which is an opcode
        have zero : bus.shown cpu.pc = 0 := by
          rw [Bus.shown, peeked]
          rfl
        rw [zero] at decoded
        cases decoded

end Handheld.Board
