import Handheld.Proofs.Board.Probe
import Handheld.Proofs.Bus.Accesses

/-! Actions of a board by what they do on the bus. An action is followed from its first part
to its last; each part adds its accesses to those of the rest, and what is left in the end is
one list of accesses and what is known of the result and of the processor.
-/

namespace Handheld.Board

/-- What a watcher notices of an access. -/
def eventsOfAccess : Access → List Event
  | .write address value => [.write address value]
  | .read _ | .restartDivider => []

/-- A watcher notices exactly the writes among some accesses. -/
theorem write_mem_events_iff {accesses : List Access} {address : UInt16} {value : UInt8}
    : .write address value ∈ accesses.flatMap eventsOfAccess
      ↔ .write address value ∈ accesses := by
  rw [List.mem_flatMap]
  constructor
  · intro noticed
    obtain ⟨access, member, shown⟩ := noticed
    cases access with
    | write _ _ =>
        cases List.mem_singleton.mp shown
        exact member
    | read _ | restartDivider => cases shown
  · intro member
    exact ⟨_, member, List.mem_singleton_self _⟩

theorem instruction_not_mem_events {accesses : List Access} {instruction : Instruction}
    : .instruction instruction ∉ accesses.flatMap eventsOfAccess := by
  intro noticed
  obtain ⟨access, -, shown⟩ := List.mem_flatMap.mp noticed
  cases access with
  | write _ _ => cases List.mem_singleton.mp shown
  | read _ | restartDivider => cases shown

/-- Started with some processor while the bus shows some memory, an action makes some accesses
and ends with a result and a processor of some kind. If an access fails, the action fails with
it.
-/
def Makes {α : Type} (act : Act Probed α) (cpu : Cpu) (memory : UInt16 → UInt8)
    (accesses : List Access) (ends : α → Cpu → Prop)
    : Prop :=
  ∀ bus events, bus.shown = memory →
    (∀ after, Access.performAll accesses bus = .ok () after →
      ∃ result final,
        act ⟨⟨cpu, bus⟩, events⟩
          = .ok result ⟨⟨final, after⟩, events ++ accesses.flatMap eventsOfAccess⟩
        ∧ ends result final)
    ∧ ∀ fault after, Access.performAll accesses bus = .error fault after →
        ∃ last more, act ⟨⟨cpu, bus⟩, events⟩ = .error fault ⟨⟨last, after⟩, more⟩

namespace Makes

variable {α β : Type} {cpu : Cpu} {memory : UInt16 → UInt8} {accesses : List Access}
  {ends : β → Cpu → Prop}

-----------------------------------------------------------------------------------------
-- The parts
-----------------------------------------------------------------------------------------

theorem pure {result : β} (reached : ends result cpu)
    : Makes (Pure.pure result) cpu memory [] ends := by
  intro bus events _
  refine ⟨?_, ?_⟩
  · intro after ran
    cases ran
    rw [List.flatMap_nil, List.append_nil]
    exact ⟨result, cpu, rfl, reached⟩
  · intro fault after ran
    cases ran

/-- What is known of the end may be weakened. -/
theorem mono {act : Act Probed β} {other : β → Cpu → Prop}
    (makes : Makes act cpu memory accesses ends)
    (weaker : ∀ result final, ends result final → other result final)
    : Makes act cpu memory accesses other := by
  intro bus events shown
  obtain ⟨succeeds, fails⟩ := makes bus events shown
  refine ⟨?_, fails⟩
  intro after ran
  obtain ⟨result, final, ended, known⟩ := succeeds after ran
  exact ⟨result, final, ended, weaker result final known⟩

/-- Looking at the processor makes no access. -/
theorem observe {next : α → Act Probed β} (view : Cpu → α)
    (rest : Makes (next (view cpu)) cpu memory accesses ends)
    : Makes (Board.observe view >>= next) cpu memory accesses ends :=
  rest

/-- A branch that is taken makes the accesses of what it leads to. -/
theorem taken {condition : Option Condition} {taken otherwise : Act Probed β}
    (holds : branches condition cpu) (rest : Makes taken cpu memory accesses ends)
    : Makes (Board.observe (branches condition) >>= fun holds => if holds then taken else otherwise)
        cpu memory accesses ends := by
  refine .observe _ ?_
  rw [if_pos holds]
  exact rest

/-- Changing the processor makes no access. -/
theorem modifyCpu {next : Unit → Act Probed β} (change : Cpu → Cpu)
    (rest : Makes (next ()) (change cpu) memory accesses ends)
    : Makes (Board.modifyCpu change >>= next) cpu memory accesses ends :=
  rest

/-- A read gives what the bus shows, and the rest finds the same memory. -/
theorem read {next : UInt8 → Act Probed β} (address : UInt16)
    (rest : Makes (next (memory address)) cpu memory accesses ends)
    : Makes (Board.read address >>= next) cpu memory (.read address :: accesses) ends := by
  rintro bus events rfl
  rcases bus.read_cases address with ⟨middle, -, given, made, noting⟩ | ⟨fault, -, given, made⟩
  · have first : Board.read address (⟨⟨cpu, bus⟩, events⟩ : Probed)
        = .ok (bus.shown address) ⟨⟨cpu, middle⟩, events⟩ := by
      simp only [Board.read, onBus, Housing.onBoard, given]
    rw [Act.bind_of_ok first, Access.performAll, Act.bind_of_ok made]
    exact rest middle events noting.shown_eq
  · have first : Board.read address (⟨⟨cpu, bus⟩, events⟩ : Probed)
        = .error fault ⟨⟨cpu, bus⟩, events⟩ := by
      simp only [Board.read, onBus, Housing.onBoard, given]
    rw [Act.bind_of_error first, Access.performAll, Act.bind_of_error made]
    refine ⟨?_, ?_⟩
    · intro after ran
      cases ran
    · rintro _ _ ⟨⟩
      exact ⟨cpu, events, rfl⟩

/-- A write may change what the bus shows, so the rest must not depend on it. -/
theorem write {next : Unit → Act Probed β} (address : UInt16) (value : UInt8)
    (rest : ∀ memory, Makes (next ()) cpu memory accesses ends)
    : Makes (Board.write address value >>= next) cpu memory (.write address value :: accesses)
        ends := by
  intro bus events _
  have lifted : Board.write address value (⟨⟨cpu, bus⟩, events⟩ : Probed)
      = onBus (Bus.write address value) (⟨⟨cpu, bus⟩, events ++ [.write address value]⟩ : Probed)
    := rfl
  cases written : Bus.write address value bus with
  | ok _ middle =>
      have first : Board.write address value (⟨⟨cpu, bus⟩, events⟩ : Probed)
          = .ok () ⟨⟨cpu, middle⟩, events ++ [.write address value]⟩ := by
        rw [lifted]
        simp only [onBus, Housing.onBoard, written]
      have made : (Access.write address value).perform bus = .ok () middle := written
      rw [Act.bind_of_ok first, Access.performAll, Act.bind_of_ok made]
      have continued := rest middle.shown middle (events ++ [.write address value]) rfl
      rwa [List.append_assoc] at continued
  | error fault middle =>
      have first : Board.write address value (⟨⟨cpu, bus⟩, events⟩ : Probed)
          = .error fault ⟨⟨cpu, middle⟩, events ++ [.write address value]⟩ := by
        rw [lifted]
        simp only [onBus, Housing.onBoard, written]
      have made : (Access.write address value).perform bus = .error fault middle := written
      rw [Act.bind_of_error first, Access.performAll, Act.bind_of_error made]
      refine ⟨?_, ?_⟩
      · intro after ran
        cases ran
      · rintro _ _ ⟨⟩
        exact ⟨cpu, _, rfl⟩

theorem restartDivider {next : Unit → Act Probed β}
    (rest : ∀ memory, Makes (next ()) cpu memory accesses ends)
    : Makes (Board.modifyBus (·.resetDivider) >>= next) cpu memory
        (.restartDivider :: accesses) ends := by
  intro bus events _
  exact rest bus.resetDivider.shown bus.resetDivider events rfl

-----------------------------------------------------------------------------------------
-- Fetches, stack operations and operands
-----------------------------------------------------------------------------------------

/-- A fetch reads at the program counter and moves it on. -/
theorem fetch {next : UInt8 → Act Probed β}
    (rest : Makes (next (memory cpu.pc)) { cpu with pc := cpu.pc + 1 } memory accesses ends)
    : Makes (Board.fetch >>= next) cpu memory (.read cpu.pc :: accesses) ends := by
  unfold Board.fetch
  simp only [bind_assoc, pure_bind]
  exact .observe _ (.read _ (.modifyCpu _ rest))

/-- A word is fetched low byte first. -/
theorem fetchWord {next : UInt16 → Act Probed β}
    (rest : Makes (next (wordOf (memory (cpu.pc + 1)) (memory cpu.pc)))
      { cpu with pc := cpu.pc + 1 + 1 } memory accesses ends)
    : Makes (Board.fetchWord >>= next) cpu memory
        (.read cpu.pc :: .read (cpu.pc + 1) :: accesses) ends := by
  unfold Board.fetchWord
  simp only [bind_assoc, pure_bind]
  exact .fetch (.fetch rest)

/-- A word is pushed high byte first, each byte below the one before. -/
theorem push {next : Unit → Act Probed β} (value : UInt16)
    (rest : ∀ memory, Makes (next ()) { cpu with sp := cpu.sp - 2 } memory accesses ends)
    : Makes (Board.push value >>= next) cpu memory
        (.write (cpu.sp - 1) (highByte value) :: .write (cpu.sp - 2) (lowByte value)
          :: accesses)
        ends := by
  have both : cpu.sp - 2 = cpu.sp - 1 - 1 := by
    rw [UInt16.sub_eq_add_neg, UInt16.sub_eq_add_neg, UInt16.sub_eq_add_neg, UInt16.add_assoc]
    rfl
  rw [both] at rest ⊢
  unfold Board.push pushByte
  simp only [bind_assoc]
  exact .modifyCpu _ (.observe _ (.write _ _ fun _ =>
    .modifyCpu _ (.observe _ (.write _ _ rest))))

/-- A push by itself moves the stack pointer and changes no other register. -/
theorem pushed (value : UInt16)
    : Makes (Board.push value) cpu memory
        [.write (cpu.sp - 1) (highByte value), .write (cpu.sp - 2) (lowByte value)]
        fun _ final => final = { cpu with sp := cpu.sp - 2 } := by
  rw [← bind_pure (Board.push value)]
  exact .push value fun _ => .pure rfl

/-- A word is popped low byte first. -/
theorem pop {next : UInt16 → Act Probed β}
    (rest : Makes (next (wordOf (memory (cpu.sp + 1)) (memory cpu.sp)))
      { cpu with sp := cpu.sp + 2 } memory accesses ends)
    : Makes (Board.pop >>= next) cpu memory
        (.read cpu.sp :: .read (cpu.sp + 1) :: accesses) ends := by
  have both : cpu.sp + 2 = cpu.sp + 1 + 1 := (UInt16.add_assoc cpu.sp 1 1).symm
  rw [both] at rest
  unfold Board.pop popByte
  simp only [bind_assoc, pure_bind]
  exact .observe _ (.read _ (.modifyCpu _ (.observe _ (.read _ (.modifyCpu _ rest)))))

end Makes

end Handheld.Board
