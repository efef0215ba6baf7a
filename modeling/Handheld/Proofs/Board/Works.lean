import Handheld.Proofs.Bus.Faults
import Handheld.Proofs.Manual.Agreement
import Handheld.Proofs.Manual.Plain

/-! The work that takes time. A board spends machine cycles in three ways: it idles, it runs an
instruction, it calls the handler of an interrupt. Each performs some accesses and then counts
its cycles, in the processor and in the timer alike.
-/

namespace Handheld.Board

open Manual Manual.Registers

/-- From some state, an action performs some accesses on a bus and spends machine cycles on them.
Beside its writes a watcher notices what caused them.
-/
structure Works (act : Act Probed Nat) (probed : Probed) (start : Bus) (cycles : Nat)
    (accesses : List Access) (causes : List Event) : Prop where
  ok {after : Bus}
    : Access.performAll accesses start = .ok () after →
      ∃ final,
        act probed
          = .ok cycles
            ⟨⟨final, after.runTimer cycles⟩,
              probed.events ++ (causes ++ accesses.flatMap eventsOfAccess)⟩
        ∧ final.cycles = probed.board.cpu.cycles + cycles
  error {fault : Fault} {after : Bus}
    : Access.performAll accesses start = .error fault after →
      ∃ last more, act probed = .error fault ⟨⟨last, after⟩, more⟩
  noWrite : ∀ address value, .write address value ∉ causes
  stop : .instruction .stop ∈ causes ↔ .restartDivider ∈ accesses

-----------------------------------------------------------------------------------------
-- Executions
-----------------------------------------------------------------------------------------

/-- A processor that idles, whatever else changes, counts one machine cycle. -/
theorem works_idle {act : Act Probed Nat} {probed : Probed} {cpu : Cpu}
    (idles : act probed = finish 1 ⟨⟨cpu, probed.board.bus⟩, probed.events⟩)
    (same : cpu.cycles = probed.board.cpu.cycles)
    : Works act probed probed.board.bus 1 [] [] where
  ok := by
    rintro _ ⟨⟩
    refine ⟨countCycles 1 cpu, ?_, congrArg (· + 1) same⟩
    rw [idles, List.flatMap_nil, List.append_nil, List.append_nil]
    rfl
  error := by
    rintro _ _ ⟨⟩
  noWrite _ _ := List.not_mem_nil
  stop := iff_of_false List.not_mem_nil List.not_mem_nil

/-- An instruction works, unless its opcode is undefined. -/
theorem works_executeNext {act : Act Probed Nat} {probed : Probed} {cpu : Cpu}
    (runs : act probed = executeNext ⟨⟨cpu, probed.board.bus⟩, probed.events⟩)
    (same : cpu.cycles = probed.board.cpu.cycles)
    : (∃ opcode pc after,
        act probed = .error (.undefinedOpcode opcode pc) after
        ∧ probed.board.bus.Noting after.board.bus)
      ∨ ∃ cycles accesses causes,
          Works act probed probed.board.bus cycles accesses causes := by
  cases known : effect? probed.board.bus.shown (ofCpu cpu) with
  | none =>
      obtain ⟨-, after, ran, noting⟩ := executeNext_of_no_effect probed.events known
      exact .inl ⟨_, _, after, runs.trans ran, noting⟩
  | some effect =>
      obtain ⟨instruction, decoded, succeeds, fails⟩ :=
        executeNext_of_effect probed.events known
      refine .inr ⟨effect.cycles, effect.accesses, [.instruction instruction], ?_, ?_, ?_, ?_⟩
      · intro after performed
        obtain ⟨final, ran, reached⟩ := succeeds after performed
        exact ⟨final, runs.trans ran, reached.cycles.trans (congrArg (· + effect.cycles) same)⟩
      · intro fault after performed
        obtain ⟨last, more, ran⟩ := fails fault after performed
        exact ⟨last, more, runs.trans ran⟩
      · intro address value written
        cases List.mem_singleton.mp written
      · rw [effect?_eq, Option.map_eq_some_iff] at known
        obtain ⟨rest, found, rfl⟩ := known
        have restarts := restartDivider_mem_row?_iff found
        rw [← Opcode.decode?_eq_atPlace?, decoded] at restarts
        simp [restarts, eq_comm]

/-- An instruction that succeeds has the effect that the manual knows. -/
theorem executeNext_ok {cpu : Cpu} {bus : Bus} {events : List Event} {cycles : Nat}
    {after : Probed} (ran : executeNext (⟨⟨cpu, bus⟩, events⟩ : Probed) = .ok cycles after)
    : ∃ effect instruction,
        effect? bus.shown (ofCpu cpu) = some effect
        ∧ Opcode.decode? (bus.shown cpu.pc) = some instruction
        ∧ after.events
          = events ++ .instruction instruction :: effect.accesses.flatMap eventsOfAccess
        ∧ Reaches cpu effect after.board.cpu := by
  cases known : effect? bus.shown (ofCpu cpu) with
  | none =>
      obtain ⟨-, _, failed, -⟩ := executeNext_of_no_effect events known
      rw [failed] at ran
      cases ran
  | some effect =>
      obtain ⟨instruction, decoded, succeeds, fails⟩ := executeNext_of_effect events known
      refine ⟨effect, instruction, rfl, decoded, ?_⟩
      cases performed : Access.performAll effect.accesses bus with
      | ok _ written =>
          obtain ⟨final, succeeded, reaches⟩ := succeeds written performed
          rw [succeeded] at ran
          cases ran
          exact ⟨rfl, reaches⟩
      | error fault written =>
          obtain ⟨_, _, failed⟩ := fails fault written performed
          rw [failed] at ran
          cases ran

theorem continueUnlessHalted_cases (probed : Probed)
    : continueUnlessHalted probed = finish 1 probed
      ∨ continueUnlessHalted probed = executeNext probed := by
  have chooses : continueUnlessHalted probed
      = (if probed.board.cpu.halted then finish 1 else executeNext) probed := rfl
  rw [chooses]
  split
  · exact .inl rfl
  · exact .inr rfl

/-- An execution idles or runs an instruction, by the running state of the processor. A stop may end
first.
-/
theorem execute_cases (probed : Probed)
    : ∃ cpu stopped,
        cpu = { probed.board.cpu with stopped }
        ∧ (execute probed = finish 1 ⟨⟨cpu, probed.board.bus⟩, probed.events⟩
          ∨ execute probed = executeNext ⟨⟨cpu, probed.board.bus⟩, probed.events⟩) := by
  cases stopped : probed.board.cpu.stopped with
  | false =>
      have continues : execute probed = continueUnlessHalted probed := by
        change (if probed.board.cpu.stopped then _ else continueUnlessHalted) probed = _
        rw [stopped, if_neg Bool.false_ne_true]
      rw [continues]
      exact ⟨_, _, rfl, continueUnlessHalted_cases probed⟩
  | true =>
      let woken : Cpu := { probed.board.cpu with stopped := false }
      have chooses : execute probed
          = (if keyPressed probed.board then
              modifyCpu (fun cpu => { cpu with stopped := false }) >>= fun _ =>
                continueUnlessHalted
            else finish 1) probed := by
        change (if probed.board.cpu.stopped then inspect keyPressed >>= _ else _) probed = _
        rw [stopped, if_pos rfl]
        rfl
      rw [chooses]
      split
      · exact ⟨woken, false, rfl,
          continueUnlessHalted_cases ⟨⟨woken, probed.board.bus⟩, probed.events⟩⟩
      · exact ⟨_, _, rfl, .inl rfl⟩

/-- An execution works, unless it finds an undefined opcode. -/
theorem works_execute (probed : Probed)
    : (∃ opcode pc after,
        execute probed = .error (.undefinedOpcode opcode pc) after
        ∧ probed.board.bus.Noting after.board.bus)
      ∨ ∃ cycles accesses causes,
          Works execute probed probed.board.bus cycles accesses causes := by
  obtain ⟨_, _, rfl, idles | runs⟩ := execute_cases probed
  · exact .inr ⟨1, [], [], works_idle idles rfl⟩
  · exact works_executeNext runs rfl

-----------------------------------------------------------------------------------------
-- Dispatches
-----------------------------------------------------------------------------------------

/-- The processor in the handler of an interrupt: interrupts are switched off and the return
address lies on the stack.
-/
def calling (source : Interrupt) (cpu : Cpu) : Cpu :=
  { cpu with
    interruptsOn := false
    enableDelay := 0
    sp := cpu.sp - 2
    pc := source.vector
    cycles := cpu.cycles + dispatchCycles }

/-- The return address is put on the stack by two writes. -/
def returnWrites (cpu : Cpu) : List Access :=
  [.write (cpu.sp - 1) (highByte cpu.pc), .write (cpu.sp - 2) (lowByte cpu.pc)]

/-- The call of an interrupt's handler acknowledges the interrupt and then pushes the return
address; it fails as these writes do.
-/
theorem serve_of_writes (source : Interrupt) (cpu : Cpu) (bus : Bus) (events : List Event)
    : (∀ after, Access.performAll (returnWrites cpu) (bus.acknowledge source) = .ok () after →
        serve source (⟨⟨cpu, bus⟩, events⟩ : Probed)
          = .ok dispatchCycles
            ⟨⟨calling source cpu, after.runTimer dispatchCycles⟩,
              events ++ ([.interrupt source] ++ (returnWrites cpu).flatMap eventsOfAccess)⟩)
      ∧ ∀ fault after,
        Access.performAll (returnWrites cpu) (bus.acknowledge source) = .error fault after →
          ∃ last more,
            serve source (⟨⟨cpu, bus⟩, events⟩ : Probed) = .error fault ⟨⟨last, after⟩, more⟩ := by
  let masked := { cpu with interruptsOn := false, enableDelay := 0 }
  let start := bus.acknowledge source
  have begins : serve source (⟨⟨cpu, bus⟩, events⟩ : Probed)
      = (push cpu.pc >>= fun _ => do
          modifyCpu fun cpu =>
            { cpu with pc := source.vector, cycles := cpu.cycles + dispatchCycles }
          modifyBus (·.runTimer dispatchCycles)
          pure dispatchCycles) ⟨⟨masked, start⟩, events ++ [.interrupt source]⟩ := rfl
  have pushes : Makes (push cpu.pc) masked start.shown (returnWrites cpu) _ := .pushed cpu.pc
  obtain ⟨succeeds, fails⟩ := pushes start (events ++ [.interrupt source]) rfl
  constructor
  · intro after performed
    obtain ⟨_, final, ran, rfl⟩ := succeeds after performed
    rw [begins, Act.bind_of_ok ran, List.append_assoc]
    rfl
  · intro fault after performed
    obtain ⟨last, more, ran⟩ := fails fault after performed
    exact ⟨last, more, by rw [begins, Act.bind_of_error ran]⟩

/-- A dispatch that succeeds has called the handler of its source. -/
theorem calling_of_serve {source : Interrupt} {probed after : Probed} {cycles : Nat}
    (served : serve source probed = .ok cycles after)
    : cycles = dispatchCycles
      ∧ after.board.cpu = calling source probed.board.cpu
      ∧ after.events
        = probed.events
          ++ ([.interrupt source] ++ (returnWrites probed.board.cpu).flatMap eventsOfAccess) := by
  obtain ⟨⟨cpu, bus⟩, events⟩ := probed
  obtain ⟨succeeds, fails⟩ := serve_of_writes source cpu bus events
  cases performed : Access.performAll (returnWrites cpu) (bus.acknowledge source) with
  | ok _ written =>
      rw [succeeds written performed] at served
      cases served
      exact ⟨rfl, rfl, rfl⟩
  | error fault written =>
      obtain ⟨_, _, failed⟩ := fails fault written performed
      rw [failed] at served
      cases served

theorem works_serve {act : Act Probed Nat} {probed : Probed} {cpu : Cpu} {source : Interrupt}
    (serves : act probed = serve source ⟨⟨cpu, probed.board.bus⟩, probed.events⟩)
    (same : cpu.cycles = probed.board.cpu.cycles)
    : Works act probed (probed.board.bus.acknowledge source) dispatchCycles (returnWrites cpu)
        [.interrupt source] where
  ok performed :=
    ⟨calling source cpu, serves.trans ((serve_of_writes source cpu _ _).1 _ performed),
      congrArg (· + dispatchCycles) same⟩
  error performed := by
    obtain ⟨last, more, failed⟩ := (serve_of_writes source cpu _ probed.events).2 _ _ performed
    exact ⟨last, more, serves.trans failed⟩
  noWrite address value written := by cases List.mem_singleton.mp written
  stop := by simp [returnWrites]

/-- With nothing to serve an admission does nothing. -/
theorem admitInterrupt_of_none (probed : Probed) (none : nextInterrupt? probed.board = none)
    : admitInterrupt probed = .ok 0 probed := by
  have looked : (inspect nextInterrupt? : Act Probed _) probed
      = .ok (nextInterrupt? probed.board) probed := rfl
  rw [none] at looked
  exact Act.bind_of_ok looked _

/-- Anything to serve ends a halt, and is served while interrupts are on. -/
theorem admitInterrupt_of_some (probed : Probed) {source : Interrupt}
    (next : nextInterrupt? probed.board = some source)
    : admitInterrupt probed
      = (if probed.board.cpu.interruptsOn then serve source else pure 0)
        ⟨⟨{ probed.board.cpu with halted := false }, probed.board.bus⟩, probed.events⟩ := by
  have looked : (inspect nextInterrupt? : Act Probed _) probed
      = .ok (nextInterrupt? probed.board) probed := rfl
  rw [next] at looked
  exact Act.bind_of_ok looked _

/-- While interrupts are off it ends the halt and nothing else. -/
theorem admitInterrupt_of_off {board : Board} {source : Interrupt}
    (off : board.cpu.interruptsOn = false) (next : nextInterrupt? board = some source)
    : admitInterrupt board = .ok 0 { board with cpu := { board.cpu with halted := false } } := by
  have chooses := admitInterrupt_of_some (.ofBoard board) next
  rw [Probed.ofBoard, off, if_neg Bool.false_ne_true] at chooses
  obtain ⟨_, alone, rfl, -⟩ :=
    Probed.plain_of_ok Probed.besideBoard_keepsStep.admitInterrupt chooses
  exact alone

/-- An admission leaves everything but a halt as it is, or it serves the next interrupt while
interrupts are on.
-/
theorem admitInterrupt_cases (probed : Probed)
    : (∃ halted,
        admitInterrupt probed
          = .ok 0 ⟨⟨{ probed.board.cpu with halted }, probed.board.bus⟩, probed.events⟩
        ∧ (probed.board.cpu.interruptsOn → nextInterrupt? probed.board = none)
        ∧ (nextInterrupt? probed.board = none → halted = probed.board.cpu.halted))
      ∨ ∃ source,
          admitInterrupt probed
            = serve source
              ⟨⟨{ probed.board.cpu with halted := false }, probed.board.bus⟩, probed.events⟩
          ∧ probed.board.cpu.interruptsOn
          ∧ nextInterrupt? probed.board = some source := by
  cases next : nextInterrupt? probed.board with
  | none =>
      have idle := admitInterrupt_of_none probed next
      exact .inl ⟨probed.board.cpu.halted, idle, fun _ => rfl, fun _ => rfl⟩
  | some source =>
      have chooses := admitInterrupt_of_some probed next
      cases on : probed.board.cpu.interruptsOn with
      | true =>
          rw [on, if_pos rfl] at chooses
          exact .inr ⟨source, chooses, rfl, rfl⟩
      | false =>
          rw [on, if_neg Bool.false_ne_true] at chooses
          exact .inl ⟨false, chooses, nofun, nofun⟩

/-- An admission leaves everything but a halt as it is, or works on a dispatch. -/
theorem works_admitInterrupt (probed : Probed)
    : (∃ cpu,
        admitInterrupt probed = .ok 0 ⟨⟨cpu, probed.board.bus⟩, probed.events⟩
        ∧ cpu.cycles = probed.board.cpu.cycles)
      ∨ ∃ source accesses,
          Works admitInterrupt probed (probed.board.bus.acknowledge source) dispatchCycles accesses
            [.interrupt source] := by
  rcases admitInterrupt_cases probed with ⟨halted, idle, -⟩ | ⟨source, serves, -⟩
  · exact .inl ⟨_, idle, rfl⟩
  · exact .inr ⟨source, _, works_serve serves rfl⟩

end Handheld.Board
