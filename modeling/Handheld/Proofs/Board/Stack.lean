import Handheld.Proofs.Board.Handler

/-! The stack of a board, which grows downwards in storage. What was pushed last is popped first:
every push and pop touches two cells of its own, and all of these are different cells as long as
there is room.
-/

namespace Handheld

-----------------------------------------------------------------------------------------
-- The place below a stack pointer
-----------------------------------------------------------------------------------------

/-- The addresses below a stack pointer, downwards from the nearest one. -/
def stackByte (sp : UInt16) (index : Nat) : UInt16 :=
  sp - UInt16.ofNat (index + 1)

/-- The stack pointer with some words below it. -/
def lowered (sp : UInt16) (words : Nat) : UInt16 :=
  sp - UInt16.ofNat (2 * words)

theorem lowered_zero (sp : UInt16)
    : lowered sp 0 = sp :=
  UInt16.sub_zero sp

theorem lowered_succ (sp : UInt16) (words : Nat)
    : lowered sp (words + 1) = lowered sp words - 2 := by
  unfold lowered
  rw [Nat.mul_succ, UInt16.ofNat_add]
  grind

/-- Below a lowered stack pointer come the addresses that follow. -/
theorem stackByte_lowered (sp : UInt16) (words index : Nat)
    : stackByte (lowered sp words) index = stackByte sp (2 * words + index) := by
  unfold stackByte lowered
  rw [Nat.add_assoc, UInt16.ofNat_add (2 * words)]
  grind

/-- Below a stack pointer there is a cell for each byte of some words, and no two of them are
the same.
-/
structure HasRoom (sp : UInt16) (words : Nat) : Prop where
  stored : ∀ index < 2 * words, IsStorage (stackByte sp index)
  apart
    : ∀ lower < 2 * words, ∀ upper < lower,
      home (stackByte sp upper) ≠ home (stackByte sp lower)

/-- An address stands for one of the cells that some words below a stack pointer take. -/
def Reserved (sp : UInt16) (words : Nat) (address : UInt16) : Prop :=
  ∃ index < 2 * words, home address = home (stackByte sp index)

variable {sp : UInt16} {words : Nat}

/-- Room for more words below a word is room below the lowered stack pointer. -/
theorem HasRoom.lowered {used : Nat} (room : HasRoom sp (used + words))
    : HasRoom (lowered sp used) words where
  stored index within := by
    rw [stackByte_lowered]
    exact room.stored _ (by omega)
  apart lower within upper above := by
    rw [stackByte_lowered, stackByte_lowered]
    exact room.apart _ (by omega) _ (by omega)

/-- What is reserved there is reserved from the start. -/
theorem Reserved.of_lowered {used : Nat} {address : UInt16}
    (reserved : Reserved (Handheld.lowered sp used) words address)
    : Reserved sp (used + words) address := by
  obtain ⟨index, within, same⟩ := reserved
  rw [stackByte_lowered] at same
  exact ⟨2 * used + index, by omega, same⟩

/-- Room for some words is room for all but one of them below that one. -/
theorem HasRoom.below (room : HasRoom sp (words + 1))
    : HasRoom (sp - 2) words := by
  rw [Nat.add_comm] at room
  exact room.lowered

/-- What is reserved below a word is reserved with it. -/
theorem Reserved.of_below {address : UInt16} (reserved : Reserved (sp - 2) words address)
    : Reserved sp (words + 1) address := by
  rw [Nat.add_comm]
  exact Reserved.of_lowered reserved

/-- The two cells of a word are not among those of the words below it. -/
theorem HasRoom.not_reserved (room : HasRoom sp (words + 1)) {index : Nat} (within : index < 2)
    : ¬Reserved (sp - 2) words (stackByte sp index) := by
  rintro ⟨other, below, same⟩
  have place : stackByte (sp - 2) other = stackByte sp (2 * 1 + other) :=
    stackByte_lowered sp 1 other
  rw [place] at same
  exact room.apart (2 * 1 + other) (by omega) index (by omega) same

/-- An address outside the room for some words stands for neither cell of the first. -/
theorem home_ne_of_not_reserved {address : UInt16} (outside : ¬Reserved sp (words + 1) address)
    : home address ≠ home (sp - 1) ∧ home address ≠ home (sp - 2) :=
  ⟨fun same => outside ⟨0, by omega, same⟩, fun same => outside ⟨1, by omega, same⟩⟩

/-- With room for a word there is a cell for each of its bytes. -/
theorem HasRoom.top (room : HasRoom sp (words + 1))
    : IsStorage (sp - 1) ∧ IsStorage (sp - 2) :=
  ⟨room.stored 0 (by omega), room.stored 1 (by omega)⟩

-----------------------------------------------------------------------------------------
-- Memory while time passes
-----------------------------------------------------------------------------------------

/-- An address at which nothing changes by itself: neither a register of the timer nor the interrupt
requests.
-/
def Steady (address : UInt16) : Prop :=
  ¬(0xFF04 ≤ address ∧ address ≤ 0xFF07) ∧ address ≠ 0xFF0F

instance (address : UInt16) : Decidable (Steady address) :=
  inferInstanceAs (Decidable (_ ∧ _))

/-- Storage does not change by itself. -/
theorem IsStorage.steady {address : UInt16} (stored : IsStorage address)
    : Steady address := by
  rw [Location.isStorage_iff] at stored
  simp only [Steady, UInt16.le_iff_toNat_le, ← UInt16.toNat_inj, ne_eq, UInt16.reduceToNat]
  omega

/-- The registers of the timer stand at four addresses. -/
theorem Location.range_of_ofAddress_eq_timer {address : UInt16} {register : Timer.Register}
    (located : ofAddress address = .timer register)
    : 0xFF04 ≤ address ∧ address ≤ 0xFF07 := by
  rcases ofAddress_cases address with page | ⟨-, absent, -⟩
  · rw [page] at located
    grind [ofRegister, Timer.Register.at?]
  · exact absurd located (absent register)

/-- As the timer runs, nothing changes at a steady address. -/
theorem Steady.peek_runTimer {address : UInt16} (steady : Steady address) (bus : Bus) (cycles : Nat)
    : (bus.runTimer cycles).peek address = bus.peek address := by
  unfold Bus.peek
  cases located : Location.ofAddress address with
  | timer register => exact absurd (Location.range_of_ofAddress_eq_timer located) steady.1
  | requests => exact absurd (Location.ofAddress_eq_requests_iff.mp located) steady.2
  | _ => rfl

-----------------------------------------------------------------------------------------
-- One word
-----------------------------------------------------------------------------------------

/-- A word lies below a stack pointer, its lower byte at the lower address. At steady addresses that
stand for other cells the two buses show the same.
-/
structure Bus.Lays (sp word : UInt16) (before after : Bus) : Prop where
  upper : after.peek (sp - 1) = .ok (highByte word)
  lower : after.peek (sp - 2) = .ok (lowByte word)
  others {address : UInt16}
    : Steady address
      → home address ≠ home (sp - 1)
      → home address ≠ home (sp - 2)
      → after.peek address = before.peek address

/-- The upper one of two neighbours in storage does not wrap to the start. -/
theorem IsStorage.toNat_sub_one (above : IsStorage (sp - 1))
    : (sp - 1).toNat = (sp - 2).toNat + 1 := by
  have ram : (default : Bus).IsRam (sp - 2 + 1) := by
    rw [Board.sub_two_add_one]
    exact .inl above
  have follows := ram.toNat_next
  rwa [Board.sub_two_add_one] at follows

namespace Board

/-- What a board is after a push by itself. -/
structure Pushed (word : UInt16) (before after : Board) : Prop where
  cpu : after.cpu = { before.cpu with sp := before.cpu.sp - 2 }
  bus : after.bus = before.bus.withStorage after.bus.storage
  lays : before.bus.Lays before.cpu.sp word after.bus

/-- Two writes of a push leave the word below the stack pointer. -/
theorem performAll_push (bus : Bus) {sp : UInt16} (above : IsStorage (sp - 1))
    (below : IsStorage (sp - 2)) (word : UInt16)
    : ∃ after,
        Access.performAll [.write (sp - 1) (highByte word), .write (sp - 2) (lowByte word)] bus
          = .ok () after
        ∧ after = bus.withStorage after.storage
        ∧ bus.Lays sp word after := by
  obtain ⟨after, performed, stored, upper, lower, others⟩ :=
    bus.write_pair above below above.toNat_sub_one (highByte word) (lowByte word)
  exact ⟨after, performed, stored, upper, lower, fun _ => others _⟩

/-- A push succeeds where there is a cell for both bytes. -/
theorem push_ok (board : Board) (word : UInt16) (above : IsStorage (board.cpu.sp - 1))
    (below : IsStorage (board.cpu.sp - 2))
    : ∃ after, push word board = .ok () after ∧ Pushed word board after := by
  obtain ⟨cpu, bus⟩ := board
  obtain ⟨written, performed, stored, lays⟩ := performAll_push bus above below word
  have makes := @Makes.pushed cpu bus.shown word
  obtain ⟨succeeds, -⟩ := makes bus [] rfl
  obtain ⟨_, final, ran, ended⟩ := succeeds written performed
  obtain ⟨_, alone, -⟩ :=
    Probed.plain_of_ok (Probed.besideBoard_keepsStep.push word) ran
  exact ⟨⟨final, written⟩, alone, ended, stored, lays⟩

/-- A read of storage leaves the bus as it is. -/
theorem read_stored {cpu : Cpu} {bus : Bus} {address : UInt16} (stored : IsStorage address)
    {value : UInt8} (found : bus.peek address = .ok value)
    : read address (⟨cpu, bus⟩ : Board) = .ok value ⟨cpu, bus⟩ := by
  have modelled : Bus.isUnmodelled address = false := by
    unfold Bus.isUnmodelled
    cases located : Location.ofAddress address with
    | peripheral | unmapped => exact (Location.absurd_of_stored stored located rfl).elim
    | _ => rfl
  have given : Bus.read address bus = .ok value bus := by
    rw [Bus.read, found]
    dsimp only
    rw [modelled, if_neg Bool.false_ne_true]
  simp only [read, onBus, Housing.onBoard, given]

/-- A pop of a byte moves the stack pointer and changes nothing else. -/
theorem popByte_ok {cpu : Cpu} {bus : Bus} (stored : IsStorage cpu.sp) {value : UInt8}
    (found : bus.peek cpu.sp = .ok value)
    : popByte (⟨cpu, bus⟩ : Board) = .ok value ⟨{ cpu with sp := cpu.sp + 1 }, bus⟩ := by
  have looks : observe Cpu.sp (⟨cpu, bus⟩ : Board) = .ok cpu.sp ⟨cpu, bus⟩ := rfl
  unfold popByte
  rw [Act.bind_of_ok looks, Act.bind_of_ok (read_stored stored found)]
  rfl

/-- A pop takes a word off that was laid below a stack pointer. -/
theorem pop_ok {cpu : Cpu} {bus : Bus} {sp word : UInt16} (low : cpu.sp = sp - 2)
    (above : IsStorage (sp - 1)) (below : IsStorage (sp - 2))
    (upper : bus.peek (sp - 1) = .ok (highByte word))
    (lower : bus.peek (sp - 2) = .ok (lowByte word))
    : pop (⟨cpu, bus⟩ : Board) = .ok word ⟨{ cpu with sp }, bus⟩ := by
  have next : sp - 2 + 1 + 1 = sp := by grind
  rw [← low] at below lower
  rw [← sub_two_add_one, ← low] at above upper
  have first := popByte_ok below lower
  have second : popByte (⟨{ cpu with sp := cpu.sp + 1 }, bus⟩ : Board)
      = .ok (highByte word) ⟨{ cpu with sp := cpu.sp + 1 + 1 }, bus⟩ :=
    popByte_ok above upper
  rw [low, next] at second
  rw [low] at first
  unfold pop
  rw [Act.bind_of_ok first, Act.bind_of_ok second, wordOf_halves]
  rfl

-----------------------------------------------------------------------------------------
-- Many words
-----------------------------------------------------------------------------------------

variable {State : Type} [Housing State]

/-- Pushes of some words, one after another. -/
def pushAll : List UInt16 → Act State Unit
  | [] => pure ()
  | word :: rest => do
      push word
      pushAll rest

/-- Some pops, one after another. The result is the words in the order in which they come. -/
def popAll : (count : Nat) → Act State (List UInt16)
  | 0 => pure []
  | count + 1 => do
      let word ← pop
      let rest ← popAll count
      pure (word :: rest)

/-- The last of some pops may be told apart from the others instead of the first. -/
theorem popAll_succ (count : Nat)
    : (popAll (count + 1) : Act State (List UInt16))
      = popAll count >>= fun words => pop >>= fun word => pure (words ++ [word]) := by
  induction count with
  | zero => simp [popAll]
  | succ count ih =>
      have parted (count : Nat)
          : (popAll (count + 1) : Act State (List UInt16))
            = pop >>= fun word => popAll count >>= fun rest => pure (word :: rest) := rfl
      calc
        popAll (count + 1 + 1)
        _ = pop >>= fun word => popAll count >>= fun rest =>
              pop >>= fun last => pure (word :: rest ++ [last]) := by
          simp only [parted (count + 1), ih, bind_assoc, pure_bind, List.cons_append]
        _ = popAll (count + 1) >>= fun words => pop >>= fun word => pure (words ++ [word]) := by
          simp only [parted count, bind_assoc, pure_bind]

/-- A push changes no address that stands for other cells. -/
theorem Pushed.peek_eq {word : UInt16} {before after : Board} (pushed : Pushed word before after)
    {address : UInt16} (notUpper : home address ≠ home (before.cpu.sp - 1))
    (notLower : home address ≠ home (before.cpu.sp - 2))
    : after.bus.peek address = before.bus.peek address := by
  by_cases stored : IsStorage address
  · exact pushed.lays.others stored.steady notUpper notLower
  · rw [pushed.bus]
    exact Bus.peek_withStorage _ _ stored

/-- Pushed words are popped in reverse order, and then everything is as before except for their
cells. By induction on the words: below the first one there is room for the others, and they are
popped before it without having touched its cells.
-/
theorem popAll_pushAll (words : List UInt16) (board : Board)
    (room : HasRoom board.cpu.sp words.length)
    : ∃ pushed popped,
        pushAll words board = .ok () pushed
        ∧ popAll words.length pushed = .ok words.reverse popped
        ∧ popped.cpu = board.cpu
        ∧ popped.bus = board.bus.withStorage popped.bus.storage
        ∧ ∀ address, ¬Reserved board.cpu.sp words.length address →
            popped.bus.peek address = board.bus.peek address := by
  induction words generalizing board with
  | nil => exact ⟨board, board, rfl, rfl, rfl, rfl, fun _ _ => rfl⟩
  | cons word rest ih =>
      obtain ⟨above, below⟩ := room.top
      obtain ⟨first, pushes, pushed⟩ := push_ok board word above below
      have stack : first.cpu.sp = board.cpu.sp - 2 := congrArg Cpu.sp pushed.cpu
      obtain ⟨last, back, pushesRest, popsRest, cpu, bus, others⟩ := ih first (stack ▸ room.below)
      rw [stack] at others
      -- the word still lies in its cells
      have upper := (others _ (room.not_reserved Nat.two_pos)).trans pushed.lays.upper
      have lower := (others _ (room.not_reserved Nat.one_lt_two)).trans pushed.lays.lower
      have pops := pop_ok ((congrArg Cpu.sp cpu).trans stack) above below upper lower
      let popped : Board := ⟨{ back.cpu with sp := board.cpu.sp }, back.bus⟩
      refine ⟨last, popped, (Act.bind_of_ok pushes _).trans pushesRest, ?_, ?_, ?_, ?_⟩
      · rw [List.length_cons, popAll_succ, Act.bind_of_ok popsRest, Act.bind_of_ok pops,
          List.reverse_cons]
        rfl
      · change { back.cpu with sp := board.cpu.sp } = board.cpu
        rw [cpu, pushed.cpu]
      · change back.bus = board.bus.withStorage back.bus.storage
        rw [bus, pushed.bus]
        rfl
      · intro address outside
        obtain ⟨notUpper, notLower⟩ := home_ne_of_not_reserved outside
        exact (others address (outside ·.of_below)).trans (pushed.peek_eq notUpper notLower)

end Board

end Handheld
