import Handheld.Proofs.Board.Stack

/-! Instructions that use the stack. A push, a call and a restart put a word below the stack
pointer; a pop and a return take the word that lies above it. Each is executed where storage is.
-/

namespace Handheld

/-- A word that was laid stays in its cells as the timer runs. -/
theorem Bus.Lays.runTimer {sp word : UInt16} {before after : Bus} (lays : before.Lays sp word after)
    (above : IsStorage (sp - 1)) (below : IsStorage (sp - 2)) (cycles : Nat)
    : before.Lays sp word (after.runTimer cycles) where
  upper := (above.steady.peek_runTimer after cycles).trans lays.upper
  lower := (below.steady.peek_runTimer after cycles).trans lays.lower
  others steady notUpper notLower :=
    (steady.peek_runTimer after cycles).trans (lays.others steady notUpper notLower)

/-- What is noted before a word is laid makes no difference. -/
theorem Bus.Lays.of_noting {sp word : UInt16} {before noted after : Bus}
    (lays : noted.Lays sp word after) (noting : before.Noting noted)
    : before.Lays sp word after where
  upper := lays.upper
  lower := lays.lower
  others steady notUpper notLower :=
    (lays.others steady notUpper notLower).trans (congrFun noting.peek_eq _)

namespace Board

-----------------------------------------------------------------------------------------
-- Instructions that put a word on the stack
-----------------------------------------------------------------------------------------

/-- A board finds an instruction at its program counter. -/
def Finds (board : Board) (instruction : Instruction) : Prop :=
  ∃ opcode,
    board.bus.peek board.cpu.pc = .ok opcode
    ∧ Opcode.decode? opcode = some instruction

/-- A board finds an instruction that puts a word on the stack and goes on at some address. -/
inductive Puts (board : Board) : (word target : UInt16) → Prop
  | push {source : StackRegister} (finds : Finds board (.push source))
    : Puts board (board.cpu.stackWord source) (board.cpu.pc + 1)
  /-- A call that is taken puts the address behind its two operand bytes. -/
  | call {condition : Option Condition} {low high : UInt8}
    (finds : Finds board (.call condition))
    (taken : branches condition board.cpu)
    (first : board.bus.peek (board.cpu.pc + 1) = .ok low)
    (second : board.bus.peek (board.cpu.pc + 2) = .ok high)
    : Puts board (board.cpu.pc + 3) (wordOf high low)
  | restart {vector : UInt16} (finds : Finds board (.restart vector))
    : Puts board (board.cpu.pc + 1) vector

/-- What a board is after such an instruction. Of the registers only program counter, stack pointer
and the counts change, and interrupts may come on that were planned before.
-/
structure Put (word target : UInt16) (cycles : Nat) (before after : Board) : Prop where
  cpu
    : after.cpu
      = countCycles cycles
        (settleEnable (before.cpu.enableDelay == 1)
          { before.cpu with pc := target, sp := before.cpu.sp - 2 })
  lays : before.bus.Lays before.cpu.sp word after.bus

variable {board : Board} {word target : UInt16}

/-- An instruction that ends with a push is executed where there is a cell for both bytes. -/
theorem execute_of_push (addresses : List UInt16) (spent : Nat)
    (awake : board.cpu.halted = false) (going : board.cpu.stopped = false)
    (above : IsStorage (board.cpu.sp - 1)) (below : IsStorage (board.cpu.sp - 2))
    {instruction : Instruction} (finds : Finds board instruction)
    (makes
      : Makes (run instruction) { board.cpu with pc := board.cpu.pc + 1 } board.bus.shown
          (addresses.map .read
            ++ [.write (board.cpu.sp - 1) (highByte word),
              .write (board.cpu.sp - 2) (lowByte word)])
          fun cycles final =>
            cycles = spent ∧ final = { board.cpu with pc := target, sp := board.cpu.sp - 2 })
    (found : ∀ address ∈ addresses, ∃ value, board.bus.peek address = .ok value)
    : ∃ cycles after, execute board = .ok cycles after ∧ Put word target cycles board after := by
  obtain ⟨opcode, fetched, decoded⟩ := finds
  have lays
      : ∀ noted, board.bus.Noting noted →
        ∃ after,
          Access.performAll [.write (board.cpu.sp - 1) (highByte word),
              .write (board.cpu.sp - 2) (lowByte word)] noted
            = .ok () after
          ∧ board.bus.Lays board.cpu.sp word after := by
    intro noted noting
    obtain ⟨after, performed, -, laid⟩ := performAll_push noted above below word
    exact ⟨after, performed, laid.of_noting noting⟩
  obtain ⟨cycles, _, after, ran, ⟨-, rfl⟩, laid⟩ :=
    execute_of_reads awake going fetched decoded makes found lays
  exact ⟨cycles, _, ran, rfl, laid.runTimer above below cycles⟩

/-- Each instruction that puts a word is executed, by cases of the instruction. -/
theorem Puts.executes (puts : Puts board word target) (awake : board.cpu.halted = false)
    (going : board.cpu.stopped = false) (above : IsStorage (board.cpu.sp - 1))
    (below : IsStorage (board.cpu.sp - 2))
    : ∃ cycles after, execute board = .ok cycles after ∧ Put word target cycles board after := by
  cases puts with
  | push finds =>
      refine execute_of_push [] 4 awake going above below finds ?_ (List.forall_mem_nil _)
      exact .observe _ (.push _ fun _ => .pure ⟨rfl, rfl⟩)
  | call finds taken first second =>
      have next : board.cpu.pc + 2 = board.cpu.pc + 1 + 1 := by grind
      have behind : board.cpu.pc + 3 = board.cpu.pc + 1 + 1 + 1 := by grind
      rw [next] at second
      refine execute_of_push [board.cpu.pc + 1, board.cpu.pc + 1 + 1] 6 awake going above below
        finds ?_ ?_
      · rw [behind, ← Bus.shown_of_peek first, ← Bus.shown_of_peek second]
        exact .fetchWord (.taken taken
          (.observe _ (.push _ fun _ => .modifyCpu _ (.pure ⟨rfl, rfl⟩))))
      · simp [first, second]
  | restart finds =>
      refine execute_of_push [] 4 awake going above below finds ?_ (List.forall_mem_nil _)
      exact .observe _ (.push _ fun _ => .modifyCpu _ (.pure ⟨rfl, rfl⟩))

-----------------------------------------------------------------------------------------
-- Instructions that take a word off the stack
-----------------------------------------------------------------------------------------

/-- A board finds an instruction that takes a word off the stack, which makes some processor of its
own. A return that is taken goes to the word.
-/
inductive Takes (board : Board) (word : UInt16) : Cpu → Prop
  | pop {target : StackRegister} (finds : Finds board (.pop target))
    : Takes board word
        (Cpu.setStackWord { board.cpu with pc := board.cpu.pc + 1, sp := board.cpu.sp + 2 }
          target word)
  | ret {condition : Option Condition} (finds : Finds board (.ret condition))
    (taken : branches condition board.cpu)
    : Takes board word { board.cpu with pc := word, sp := board.cpu.sp + 2 }

/-- What a board is after such an instruction. Memory does not change but for what the timer does.
-/
structure Took (made : Cpu) (cycles : Nat) (before after : Board) : Prop where
  cpu
    : after.cpu = countCycles cycles (settleEnable (before.cpu.enableDelay == 1) made)
  kept {address : UInt16} : Steady address → after.bus.peek address = before.bus.peek address

/-- An instruction that pops a word first is executed where both bytes are found. -/
theorem execute_of_taking (spent : Nat) (awake : board.cpu.halted = false)
    (going : board.cpu.stopped = false)
    (upper : board.bus.peek (board.cpu.sp + 1) = .ok (highByte word))
    (lower : board.bus.peek board.cpu.sp = .ok (lowByte word)) {instruction : Instruction}
    (finds : Finds board instruction) {made : Cpu}
    (makes
      : Makes (run instruction) { board.cpu with pc := board.cpu.pc + 1 } board.bus.shown
          [.read board.cpu.sp, .read (board.cpu.sp + 1)]
          fun cycles final => cycles = spent ∧ final = made)
    : ∃ cycles after, execute board = .ok cycles after ∧ Took made cycles board after := by
  obtain ⟨opcode, fetched, decoded⟩ := finds
  have found
      : ∀ address ∈ [board.cpu.sp, board.cpu.sp + 1], ∃ value,
        board.bus.peek address = .ok value := by
    simp [upper, lower]
  obtain ⟨cycles, _, noted, ran, ⟨-, rfl⟩, noting⟩ :=
    execute_of_reads awake going fetched decoded makes found fun noted noting =>
      ⟨noted, rfl, noting⟩
  refine ⟨cycles, _, ran, rfl, fun steady => ?_⟩
  exact (steady.peek_runTimer noted cycles).trans (congrFun noting.peek_eq _)

/-- Each instruction that takes a word is executed where the word lies on the stack, by cases of the
instruction.
-/
theorem Takes.executes {made : Cpu} (takes : Takes board word made)
    (awake : board.cpu.halted = false) (going : board.cpu.stopped = false)
    (upper : board.bus.peek (board.cpu.sp + 1) = .ok (highByte word))
    (lower : board.bus.peek board.cpu.sp = .ok (lowByte word))
    : ∃ cycles after, execute board = .ok cycles after ∧ Took made cycles board after := by
  have given
      : wordOf (board.bus.shown (board.cpu.sp + 1)) (board.bus.shown board.cpu.sp) = word := by
    rw [Bus.shown_of_peek upper, Bus.shown_of_peek lower, wordOf_halves]
  cases takes with
  | pop finds =>
      refine execute_of_taking 3 awake going upper lower finds
        (.pop (.modifyCpu _ (.pure ⟨rfl, ?_⟩)))
      rw [given]
  | @ret condition finds taken =>
      cases condition with
      | none =>
          refine execute_of_taking 4 awake going upper lower finds
            (.pop (.modifyCpu _ (.pure ⟨rfl, ?_⟩)))
          rw [given]
      | some condition =>
          refine execute_of_taking 5 awake going upper lower finds
            (.taken taken (.pop (.modifyCpu _ (.pure ⟨rfl, ?_⟩))))
          rw [given]

-----------------------------------------------------------------------------------------
-- Where they leave the processor
-----------------------------------------------------------------------------------------

/-- The processor neither idles in a halt nor is it stopped. -/
structure Awake (board : Board) : Prop where
  halted : board.cpu.halted = false
  stopped : board.cpu.stopped = false

/-- The end of an instruction changes only counts and what concerns interrupts. -/
theorem counted_elsewhere (cycles : Nat) (wasDue : Bool) (cpu : Cpu)
    : ∃ interruptsOn enableDelay total lastCycles,
        countCycles cycles (settleEnable wasDue cpu)
          = { cpu with interruptsOn, enableDelay, cycles := total, lastCycles } := by
  obtain ⟨interruptsOn, enableDelay, settled⟩ := settleEnable_elsewhere wasDue cpu
  rw [settled]
  exact ⟨interruptsOn, enableDelay, _, _, rfl⟩

/-- Where an instruction that puts a word leaves the processor. -/
theorem Put.registers {cycles : Nat} {after : Board} (put : Put word target cycles board after)
    : after.cpu.pc = target
      ∧ after.cpu.sp = board.cpu.sp - 2
      ∧ (Awake board → Awake after) := by
  obtain ⟨_, _, _, _, counted⟩ := counted_elsewhere cycles (board.cpu.enableDelay == 1)
    { board.cpu with pc := target, sp := board.cpu.sp - 2 }
  have cpu := put.cpu.trans counted
  refine ⟨congrArg Cpu.pc cpu, congrArg Cpu.sp cpu, fun awake => ⟨?_, ?_⟩⟩
  · exact (congrArg Cpu.halted cpu).trans awake.halted
  · exact (congrArg Cpu.stopped cpu).trans awake.stopped

/-- Where an instruction that takes a word leaves the processor. -/
theorem Took.registers {made : Cpu} {cycles : Nat} {after : Board}
    (took : Took made cycles board after) (takes : Takes board word made)
    : after.cpu.pc = made.pc
      ∧ after.cpu.sp = board.cpu.sp + 2
      ∧ (Awake board → Awake after) := by
  obtain ⟨_, _, _, _, counted⟩ := counted_elsewhere cycles (board.cpu.enableDelay == 1) made
  have cpu := took.cpu.trans counted
  have others
      : made.sp = board.cpu.sp + 2
        ∧ made.halted = board.cpu.halted
        ∧ made.stopped = board.cpu.stopped := by
    cases takes with
    | @pop target _ => cases target <;> exact ⟨rfl, rfl, rfl⟩
    | ret _ _ => exact ⟨rfl, rfl, rfl⟩
  obtain ⟨sp, halted, stopped⟩ := others
  rw [cpu]
  refine ⟨rfl, sp, fun awake => ⟨?_, ?_⟩⟩
  · rw [cpu]
    exact halted.trans awake.halted
  · rw [cpu]
    exact stopped.trans awake.stopped

end Board

end Handheld
