import Handheld.Proofs.Board.StackInstructions

/-! Nested use of the stack. As long as there is room, whatever happens in between, the instructions
that take words find the newest one that was put. So a return goes to the instruction behind its
call, to any depth.
-/

namespace Handheld.Board

variable {board : Board} {word target : UInt16}

-----------------------------------------------------------------------------------------
-- Any run
-----------------------------------------------------------------------------------------

/-- Words lie in the cells below a stack pointer, the newest one lowest. -/
def Piled (sp : UInt16) (bus : Bus) : List UInt16 → Prop
  | [] => True
  | word :: older =>
      bus.peek (lowered sp older.length - 1) = .ok (highByte word)
      ∧ bus.peek (lowered sp older.length - 2) = .ok (lowByte word)
      ∧ Piled sp bus older

/-- They lie there as long as their cells show the same, by induction on them. -/
theorem Piled.of_kept {sp : UInt16} {before after : Bus} {waiting : List UInt16}
    (piled : Piled sp before waiting)
    (kept
      : ∀ index < 2 * waiting.length,
        after.peek (stackByte sp index) = before.peek (stackByte sp index))
    : Piled sp after waiting := by
  induction waiting with
  | nil => trivial
  | cons word older ih =>
      obtain ⟨upper, lower, below⟩ := piled
      have cells (index : Nat) (within : index < 2)
          : after.peek (stackByte (lowered sp older.length) index)
            = before.peek (stackByte (lowered sp older.length) index) := by
        rw [stackByte_lowered]
        exact kept _ (by rw [List.length_cons]; omega)
      refine ⟨(cells 0 (by omega)).trans upper, (cells 1 (by omega)).trans lower, ih below ?_⟩
      intro index within
      exact kept index (by rw [List.length_cons]; omega)

/-- A run in which words are put on the stack and taken off it, with the words that wait there in
between. Beside that anything may happen that leaves the stack pointer and their cells alone.
-/
inductive Stacks (start : Board) (room : Nat) : (waiting : List UInt16) → Board → Prop
  | start : Stacks start room [] start
  | puts {waiting : List UInt16} {board after : Board} {word target : UInt16} {cycles : Nat}
    (earlier : Stacks start room waiting board)
    (fits : waiting.length < room)
    (awake : Awake board)
    (puts : Puts board word target)
    (ran : execute board = .ok cycles after)
    : Stacks start room (word :: waiting) after
  | takes {waiting : List UInt16} {board after : Board} {word : UInt16} {made : Cpu} {cycles : Nat}
    (earlier : Stacks start room (word :: waiting) board)
    (awake : Awake board)
    (takes : Takes board word made)
    (ran : execute board = .ok cycles after)
    : Stacks start room waiting after
  | between {waiting : List UInt16} {board after : Board}
    (earlier : Stacks start room waiting board)
    (stack : after.cpu.sp = board.cpu.sp)
    (kept
      : ∀ index < 2 * waiting.length,
        after.bus.peek (stackByte start.cpu.sp index)
          = board.bus.peek (stackByte start.cpu.sp index))
    : Stacks start room waiting after

/-- The words that wait lie below the stack pointer from which a run started, and the next one will
be put right below them.
-/
structure Holding (sp : UInt16) (room : Nat) (waiting : List UInt16) (board : Board) : Prop where
  fits : waiting.length ≤ room
  stack : board.cpu.sp = lowered sp waiting.length
  piled : Piled sp board.bus waiting

namespace Holding

variable {sp : UInt16} {room : Nat} {waiting : List UInt16}

/-- With room for one more word, its cells lie in storage. -/
theorem top (holding : Holding sp room waiting board) (spacious : HasRoom sp room)
    (fits : waiting.length < room)
    : IsStorage (board.cpu.sp - 1) ∧ IsStorage (board.cpu.sp - 2) := by
  obtain ⟨more, rfl⟩ := Nat.exists_eq_add_of_lt fits
  rw [holding.stack]
  rw [Nat.add_assoc] at spacious
  exact spacious.lowered.top

/-- So an instruction that puts a word is executed. -/
theorem puts (holding : Holding sp room waiting board) (spacious : HasRoom sp room)
    (fits : waiting.length < room) (awake : Awake board) (puts : Puts board word target)
    : ∃ cycles after, execute board = .ok cycles after ∧ Put word target cycles board after := by
  obtain ⟨above, below⟩ := holding.top spacious fits
  exact puts.executes awake.halted awake.stopped above below

/-- After that its word waits too, and the others lie where they did. -/
theorem of_put (holding : Holding sp room waiting board) (spacious : HasRoom sp room)
    (fits : waiting.length < room) {cycles : Nat} {after : Board}
    (put : Put word target cycles board after)
    : Holding sp room (word :: waiting) after := by
  obtain ⟨-, stack, -⟩ := put.registers
  have upper := put.lays.upper
  have lower := put.lays.lower
  rw [holding.stack] at stack upper lower
  refine ⟨fits, stack.trans (lowered_succ _ _).symm, upper, lower, holding.piled.of_kept ?_⟩
  intro index within
  have apart (byte : Nat) (next : byte < 2)
      : home (stackByte sp index) ≠ home (stackByte board.cpu.sp byte) := by
    rw [holding.stack, stackByte_lowered]
    exact spacious.apart _ (by omega) _ (by omega)
  exact put.lays.others (spacious.stored index (by omega)).steady (apart 0 (by omega))
    (apart 1 (by omega))

/-- While a word waits, an instruction that takes one is executed with the newest. -/
theorem takes (holding : Holding sp room (word :: waiting) board) (awake : Awake board)
    {made : Cpu} (takes : Takes board word made)
    : ∃ cycles after, execute board = .ok cycles after ∧ Took made cycles board after := by
  have stack : board.cpu.sp = lowered sp waiting.length - 2 :=
    holding.stack.trans (lowered_succ _ _)
  obtain ⟨upper, lower, -⟩ := holding.piled
  rw [← sub_two_add_one, ← stack] at upper
  rw [← stack] at lower
  exact takes.executes awake.halted awake.stopped upper lower

/-- After that the others lie where they did. -/
theorem of_took (holding : Holding sp room (word :: waiting) board) (spacious : HasRoom sp room)
    {made : Cpu} {cycles : Nat} {after : Board} (took : Took made cycles board after)
    (takes : Takes board word made)
    : Holding sp room waiting after := by
  obtain ⟨-, stack, -⟩ := took.registers takes
  have fits : waiting.length < room := holding.fits
  obtain ⟨-, -, piled⟩ := holding.piled
  refine ⟨fits.le, ?_, piled.of_kept ?_⟩
  · rw [stack, holding.stack, List.length_cons, lowered_succ, UInt16.sub_add_cancel]
  · intro index within
    exact took.kept (spacious.stored index (by omega)).steady

end Holding

/-- In every board of a run the words that wait lie on the stack, by induction on the run. -/
theorem Stacks.holding {start : Board} {room : Nat} {waiting : List UInt16}
    (history : Stacks start room waiting board) (spacious : HasRoom start.cpu.sp room)
    : Holding start.cpu.sp room waiting board := by
  induction history with
  | start => exact ⟨Nat.zero_le _, (lowered_zero _).symm, trivial⟩
  | puts _ fits awake puts ran ih =>
      obtain ⟨_, _, again, put⟩ := ih.puts spacious fits awake puts
      cases ran.symm.trans again
      exact ih.of_put spacious fits put
  | takes _ awake takes ran ih =>
      obtain ⟨_, _, again, took⟩ := ih.takes awake takes
      cases ran.symm.trans again
      exact ih.of_took spacious took takes
  | between _ stack kept ih => exact ⟨ih.fits, stack.trans ih.stack, ih.piled.of_kept kept⟩

-----------------------------------------------------------------------------------------
-- Nested code
-----------------------------------------------------------------------------------------

/-- Some code has an instruction at an address. -/
def Places (code : UInt16 → Option UInt8) (address : UInt16) (instruction : Instruction) : Prop :=
  ∃ opcode, code address = some opcode ∧ Opcode.decode? opcode = some instruction

/-- An instruction at one address of some code puts a word that the one at another address takes.
Between them the code goes on at an inner address, after them at the next one, which for a call
and a restart is that of the instruction behind it.
-/
inductive Pairs (code : UInt16 → Option UInt8) (pc last : UInt16) : (inner next : UInt16) → Prop
  | push {source target : StackRegister}
    (puts : Places code pc (.push source))
    (takes : Places code last (.pop target))
    : Pairs code pc last (pc + 1) (last + 1)
  | call {low high : UInt8}
    (puts : Places code pc (.call none))
    (first : code (pc + 1) = some low)
    (second : code (pc + 2) = some high)
    (takes : Places code last (.ret none))
    : Pairs code pc last (wordOf high low) (pc + 3)
  | restart {vector : UInt16}
    (puts : Places code pc (.restart vector))
    (takes : Places code last (.ret none))
    : Pairs code pc last vector (pc + 1)

/-- Code that consists of such pairs, one after another and one within another up to some depth,
with the addresses at which it executes instructions from its start to its finish.
-/
inductive Nested (code : UInt16 → Option UInt8)
    : (depth : Nat) → (pc : UInt16) → (route : List UInt16) → (finish : UInt16) → Prop
  | done {depth : Nat} {pc : UInt16} : Nested code depth pc [] pc
  | pair {depth : Nat} {pc last inner next finish : UInt16} {body more : List UInt16}
    (pair : Pairs code pc last inner next)
    (within : Nested code depth inner body last)
    (rest : Nested code (depth + 1) next more finish)
    : Nested code (depth + 1) pc (pc :: body ++ last :: more) finish

/-- A bus shows some code, which lies outside the room for some words and is steady. -/
structure Shows (bus : Bus) (code : UInt16 → Option UInt8) (sp : UInt16) (words : Nat) : Prop where
  found {address : UInt16} {byte : UInt8} : code address = some byte → bus.peek address = .ok byte
  steady {address : UInt16} {byte : UInt8} : code address = some byte → Steady address
  outside {address : UInt16} {byte : UInt8}
    : code address = some byte → ¬Reserved sp words address

/-- At steady addresses outside the room for some words two buses show the same. -/
def Spares (sp : UInt16) (words : Nat) (before after : Bus) : Prop :=
  ∀ address, Steady address → ¬Reserved sp words address → after.peek address = before.peek address

/-- What is left alone twice is left alone. -/
theorem Spares.trans {sp : UInt16} {words : Nat} {first second third : Bus}
    (left : Spares sp words first second) (right : Spares sp words second third)
    : Spares sp words first third :=
  fun address steady outside => (right address steady outside).trans (left address steady outside)

/-- What is left alone below a word is left alone with it. -/
theorem Spares.of_below {sp : UInt16} {words : Nat} {before after : Bus}
    (spares : Spares (sp - 2) words before after)
    : Spares sp (words + 1) before after :=
  fun address steady outside => spares address steady (outside ·.of_below)

/-- Putting a word leaves everything outside its cells alone. -/
theorem Put.spares {cycles : Nat} {after : Board} (put : Put word target cycles board after)
    (words : Nat)
    : Spares board.cpu.sp (words + 1) board.bus after.bus := by
  intro address steady outside
  obtain ⟨notUpper, notLower⟩ := home_ne_of_not_reserved outside
  exact put.lays.others steady notUpper notLower

namespace Shows

variable {bus : Bus} {code : UInt16 → Option UInt8} {sp : UInt16} {words : Nat}

/-- Code in the ROM windows lies outside any room. -/
theorem of_rom (room : HasRoom sp words)
    (rom : ∀ address byte, code address = some byte → address.toNat < 0x8000)
    (found : ∀ address byte, code address = some byte → bus.peek address = .ok byte)
    : Shows bus code sp words where
  found given := found _ _ given
  steady given := by
    have low := rom _ _ given
    simp only [Steady, UInt16.le_iff_toNat_le, ← UInt16.toNat_inj, ne_eq, UInt16.reduceToNat]
    omega
  outside given := by
    rintro ⟨index, within, same⟩
    have low := rom _ _ given
    have stored := room.stored index within
    have located := Location.ofAddress_home (stackByte sp index)
    rw [← same, Location.ofAddress_home] at located
    exact Location.absurd_of_stored stored located.symm (congrArg Location.home? (if_pos low))

/-- Code stays where it is while only the room changes. -/
theorem of_spares {after : Bus} (shows : Shows bus code sp words)
    (spares : Spares sp words bus after)
    : Shows after code sp words where
  found given := (spares _ (shows.steady given) (shows.outside given)).trans (shows.found given)
  steady := shows.steady
  outside := shows.outside

/-- Code outside the room lies outside the part of it below the first word. -/
theorem below (shows : Shows bus code sp (words + 1))
    : Shows bus code (sp - 2) words where
  found := shows.found
  steady := shows.steady
  outside given reserved := shows.outside given reserved.of_below

/-- A board finds the instruction of its code. -/
theorem finds {instruction : Instruction} (shows : Shows board.bus code sp words)
    (places : Places code board.cpu.pc instruction)
    : Finds board instruction := by
  obtain ⟨opcode, given, decoded⟩ := places
  exact ⟨opcode, shows.found given, decoded⟩

/-- At the first instruction of a pair it puts a word, and at the second one it takes this word and
goes on behind the pair, by cases of the pair.
-/
theorem pairs {last inner next : UInt16} (shows : Shows board.bus code sp words)
    (pair : Pairs code board.cpu.pc last inner next)
    : ∃ word,
        Puts board word inner
        ∧ ∀ closing : Board,
          closing.cpu.pc = last →
          Shows closing.bus code sp words →
          ∃ made, Takes closing word made ∧ made.pc = next := by
  cases pair with
  | @push _ target puts takes =>
      refine ⟨_, .push (shows.finds puts), ?_⟩
      rintro closing rfl still
      refine ⟨_, .pop (still.finds takes), ?_⟩
      cases target <;> rfl
  | call puts first second takes =>
      refine ⟨_, .call (shows.finds puts) rfl (shows.found first) (shows.found second), ?_⟩
      rintro closing rfl still
      exact ⟨_, .ret (still.finds takes) rfl, rfl⟩
  | restart puts takes =>
      refine ⟨_, .restart (shows.finds puts), ?_⟩
      rintro closing rfl still
      exact ⟨_, .ret (still.finds takes) rfl, rfl⟩

end Shows

/-- Executions one after another, with the addresses of their instructions. -/
inductive Executes : Board → List UInt16 → Board → Prop
  | done {board : Board} : Executes board [] board
  | next {board middle after : Board} {cycles : Nat} {route : List UInt16}
    (ran : execute board = .ok cycles middle)
    (rest : Executes middle route after)
    : Executes board (board.cpu.pc :: route) after

/-- Executions go on where others ended. -/
theorem Executes.append {first second third : Board} {route more : List UInt16}
    (left : Executes first route second) (right : Executes second more third)
    : Executes first (route ++ more) third := by
  induction left with
  | done => exact right
  | next ran _ ih => exact .next ran (ih right)

/-- From one board to another, code was executed along some route and came to its finish. The stack
pointer is where it was, and outside the room for some words memory is left alone.
-/
structure Traverses (words : Nat) (route : List UInt16) (finish : UInt16) (before after : Board)
    : Prop where
  executes : Executes before route after
  pc : after.cpu.pc = finish
  stack : after.cpu.sp = before.cpu.sp
  awake : Awake after
  spares : Spares before.cpu.sp words before.bus after.bus

/-- One pair is executed around what is executed between its instructions. The word that the first
one put is still there for the second one.
-/
theorem Traverses.enclose {words : Nat} {opened closing : Board} {body : List UInt16}
    {last : UInt16} {cycles : Nat} {made : Cpu} (room : HasRoom board.cpu.sp (words + 1))
    (opens : execute board = .ok cycles opened) (put : Put word target cycles board opened)
    (inner : Traverses words body last opened closing) (takes : Takes closing word made)
    : ∃ after, Traverses (words + 1) (board.cpu.pc :: body ++ [last]) made.pc board after := by
  obtain ⟨-, stack, -⟩ := put.registers
  have low : closing.cpu.sp = board.cpu.sp - 2 := inner.stack.trans stack
  have left := inner.spares
  rw [stack] at left
  obtain ⟨above, below⟩ := room.top
  have upper := (left _ above.steady (room.not_reserved Nat.two_pos)).trans put.lays.upper
  have lower := (left _ below.steady (room.not_reserved Nat.one_lt_two)).trans put.lays.lower
  rw [← sub_two_add_one, ← low] at upper
  rw [← low] at lower
  obtain ⟨_, after, closes, took⟩ :=
    takes.executes inner.awake.halted inner.awake.stopped upper lower
  obtain ⟨pc, raised, awake⟩ := took.registers takes
  have final : Executes closing [last] after := inner.pc ▸ .next closes .done
  refine ⟨after, .next opens (inner.executes.append final), pc, ?_, awake inner.awake, ?_⟩
  · rw [raised, low, UInt16.sub_add_cancel]
  · exact ((put.spares words).trans left.of_below).trans fun _ steady _ => took.kept steady

/-- What is executed next follows along a longer route. -/
theorem Traverses.append {words : Nat} {first second third : Board} {route more : List UInt16}
    {middle finish : UInt16} (left : Traverses words route middle first second)
    (right : Traverses words more finish second third)
    : Traverses words (route ++ more) finish first third where
  executes := left.executes.append right.executes
  pc := right.pc
  stack := right.stack.trans left.stack
  awake := right.awake
  spares := left.spares.trans (left.stack ▸ right.spares)

/-- Nested code is executed along its route where there is room for its depth, by induction on the
code.
-/
theorem Nested.traverses {code : UInt16 → Option UInt8} {depth : Nat} {pc finish : UInt16}
    {route : List UInt16} (nested : Nested code depth pc route finish) {board : Board}
    (start : board.cpu.pc = pc) (awake : Awake board) (room : HasRoom board.cpu.sp depth)
    (shows : Shows board.bus code board.cpu.sp depth)
    : ∃ after, Traverses depth route finish board after := by
  induction nested generalizing board with
  | done => exact ⟨board, .done, start, rfl, awake, fun _ _ _ => rfl⟩
  | @pair words pc last inner next finish body more pair _ _ ihWithin ihRest =>
      subst start
      obtain ⟨word, puts, takes⟩ := shows.pairs pair
      obtain ⟨above, below⟩ := room.top
      obtain ⟨_, opened, opens, put⟩ := puts.executes awake.halted awake.stopped above below
      obtain ⟨entered, stack, awakeInside⟩ := put.registers
      have showsInside := (shows.of_spares (put.spares words)).below
      rw [← stack] at showsInside
      obtain ⟨closing, within⟩ :=
        ihWithin entered (awakeInside awake) (stack ▸ room.below) showsInside
      have left := within.spares
      rw [stack] at left
      obtain ⟨made, takesWord, next⟩ :=
        takes closing within.pc (shows.of_spares ((put.spares words).trans left.of_below))
      obtain ⟨closed, whole⟩ := Traverses.enclose room opens put within takesWord
      have same := whole.stack
      have showsAfter := shows.of_spares whole.spares
      obtain ⟨after, rest⟩ :=
        ihRest (whole.pc.trans next) whole.awake (same.symm ▸ room) (same.symm ▸ showsAfter)
      have all := whole.append rest
      rw [List.append_assoc] at all
      exact ⟨after, all⟩

-----------------------------------------------------------------------------------------
-- Last in, first out
-----------------------------------------------------------------------------------------

/-- The stack is last in, first out, where the bytes of some words have cells of their own below the
stack pointer. Words pushed there are popped in reverse order, with no change beside their cells. In
a run that leaves the waiting words alone, every instruction that puts a word succeeds while there
is room and every one that takes a word gets the newest. Nested code outside the room is executed to
its finish, and each return in it goes to the instruction behind its call.
-/
theorem lastIn_firstOut
    : (∀ (board : Board) (words : List UInt16),
        HasRoom board.cpu.sp words.length →
        ∃ pushed popped,
          pushAll words board = .ok () pushed
          ∧ popAll words.length pushed = .ok words.reverse popped
          ∧ popped.cpu = board.cpu
          ∧ popped.bus = board.bus.withStorage popped.bus.storage
          ∧ ∀ address, ¬Reserved board.cpu.sp words.length address →
              popped.bus.peek address = board.bus.peek address)
      ∧ (∀ (start board : Board) (room : Nat) (waiting : List UInt16),
          HasRoom start.cpu.sp room →
          Stacks start room waiting board →
          board.cpu.sp = lowered start.cpu.sp waiting.length
          ∧ (Awake board →
              (∀ word target, waiting.length < room → Puts board word target →
                ∃ cycles after,
                  execute board = .ok cycles after ∧ Put word target cycles board after)
              ∧ ∀ word older made, waiting = word :: older → Takes board word made →
                ∃ cycles after,
                  execute board = .ok cycles after ∧ Took made cycles board after))
      ∧ ∀ (board : Board) (code : UInt16 → Option UInt8) (depth : Nat) (route : List UInt16)
          (finish : UInt16),
          HasRoom board.cpu.sp depth →
          Shows board.bus code board.cpu.sp depth →
          Nested code depth board.cpu.pc route finish →
          Awake board →
          ∃ after, Traverses depth route finish board after := by
  refine ⟨fun board words room => popAll_pushAll words board room, ?_, ?_⟩
  · intro start board room waiting spacious history
    have holding := history.holding spacious
    refine ⟨holding.stack, fun awake => ⟨?_, ?_⟩⟩
    · intro word target fits puts
      exact holding.puts spacious fits awake puts
    · rintro word older made rfl takes
      exact holding.takes awake takes
  · intro board code depth route finish room shows nested awake
    exact nested.traverses rfl awake room shows

/-- A call, around a push and a pop, around a restart to a return. -/
def nestedBytes : List UInt8 :=
  [0xCD, 0x08, 0x00, 0x00, 0x00, 0x00, 0x00, 0x00, 0xC5, 0xD7, 0xD1, 0xC9, 0x00, 0x00, 0x00, 0x00,
    0xC9]

def nestedCode (address : UInt16) : Option UInt8 :=
  nestedBytes[address.toNat]?

/-- A board about to run it as start-up code. Its stack reaches from the echo into work RAM. -/
def aboutToNest : Board :=
  { cpu := { Cpu.afterBoot with pc := 0, sp := 0xE001 }
    bus := (Bus.initial .strict).mapBoot ⟨nestedBytes.toArray⟩ }

/-- Three words come back from there in reverse order, the call puts the address behind it, and the
code comes to its end with the stack pointer where it was.
-/
theorem lastIn_firstOut_nested
    : HasRoom 0xE001 3
      ∧ (∃ pushed popped,
          pushAll [0x0102, 0x0304, 0x0506] aboutToNest = .ok () pushed
          ∧ popAll 3 pushed = .ok [0x0506, 0x0304, 0x0102] popped
          ∧ popped.cpu = aboutToNest.cpu)
      ∧ (∃ cycles after,
          execute aboutToNest = .ok cycles after
          ∧ Stacks aboutToNest 3 [0x0003] after
          ∧ after.cpu.pc = 0x0008
          ∧ after.cpu.sp = 0xDFFF)
      ∧ ∃ after,
          Executes aboutToNest [0x0000, 0x0008, 0x0009, 0x0010, 0x000A, 0x000B] after
          ∧ after.cpu.pc = 0x0003
          ∧ after.cpu.sp = 0xE001 := by
  have room : HasRoom 0xE001 3 := ⟨by decide, by decide⟩
  have awake : Awake aboutToNest := ⟨rfl, rfl⟩
  have covered : ∀ number < 17,
      aboutToNest.bus.peek (UInt16.ofNat number) = .ok (nestedBytes.getD number 0) := by
    decide +kernel
  have low : ∀ address byte, nestedCode address = some byte → address.toNat < 17 := by
    intro address byte given
    obtain ⟨inside, -⟩ := List.getElem?_eq_some_iff.mp given
    exact inside
  have shows : Shows aboutToNest.bus nestedCode 0xE001 3 := by
    refine .of_rom room (fun address byte given => (low address byte given).trans (by decide)) ?_
    intro address byte given
    have shown := covered address.toNat (low address byte given)
    have same : nestedBytes.getD address.toNat 0 = byte := congrArg (Option.getD · 0) given
    rwa [UInt16.ofNat_toNat, same] at shown
  obtain ⟨stack, history, nesting⟩ := lastIn_firstOut
  obtain ⟨pushed, popped, pushes, pops, cpu, -⟩ := stack aboutToNest [0x0102, 0x0304, 0x0506] room
  have calls : Puts aboutToNest 0x0003 0x0008 :=
    .call ⟨0xCD, covered 0 (by decide), rfl⟩ rfl (covered 1 (by decide)) (covered 2 (by decide))
  obtain ⟨puts, -⟩ := (history aboutToNest aboutToNest 3 [] room .start).2 awake
  obtain ⟨cycles, after, called, put⟩ := puts _ _ (by decide) calls
  obtain ⟨pc, sp, -⟩ := put.registers
  have restarts : Pairs nestedCode 0x0009 0x0010 0x0010 0x000A :=
    .restart ⟨0xD7, rfl, rfl⟩ ⟨0xC9, rfl, rfl⟩
  have pushing : Pairs nestedCode 0x0008 0x000A 0x0009 0x000B :=
    .push ⟨0xC5, rfl, rfl⟩ ⟨0xD1, rfl, rfl⟩
  have calling : Pairs nestedCode 0x0000 0x000B 0x0008 0x0003 :=
    @Pairs.call nestedCode 0x0000 0x000B 0x08 0x00 ⟨0xCD, rfl, rfl⟩ rfl rfl ⟨0xC9, rfl, rfl⟩
  have done {depth : Nat} {pc : UInt16} : Nested nestedCode depth pc [] pc := .done
  have nested := Nested.pair calling (.pair pushing (.pair restarts (@done 0 _) done) done) done
  obtain ⟨last, traverses⟩ := nesting aboutToNest nestedCode 3 _ _ room shows nested awake
  refine ⟨room, ⟨pushed, popped, pushes, pops, cpu⟩, ⟨cycles, after, called, ?_, pc, sp⟩, ?_⟩
  · exact .puts .start (by decide) awake calls called
  · exact ⟨last, traverses.executes, traverses.pc, traverses.stack⟩

end Handheld.Board
