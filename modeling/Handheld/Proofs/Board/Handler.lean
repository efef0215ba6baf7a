import Handheld.Proofs.Board.RoundTrip
import Handheld.Proofs.Board.Works
import Handheld.Proofs.Interrupt
import Handheld.Proofs.Timer

/-! The call of an interrupt's handler and the return from it. A call takes the request back and
saves the program counter on the stack; beside that only the timer goes on, which may request its
own interrupt anew. A return takes the saved address off the stack again.
-/

namespace Handheld

-----------------------------------------------------------------------------------------
-- Two bytes on the stack
-----------------------------------------------------------------------------------------

/-- A word goes into two neighbouring cells, its upper byte first. Both bytes are read back, every
other cell shows what it did, and beside storage the bus is as before.
-/
theorem Bus.write_pair (bus : Bus) {lower upper : UInt16} (above : IsStorage upper)
    (below : IsStorage lower) (follows : upper.toNat = lower.toNat + 1) (high low : UInt8)
    : ∃ after,
        Access.performAll [.write upper high, .write lower low] bus = .ok () after
        ∧ after = bus.withStorage after.storage
        ∧ after.peek upper = .ok high
        ∧ after.peek lower = .ok low
        ∧ ∀ other, home other ≠ home upper → home other ≠ home lower →
            after.peek other = bus.peek other := by
  obtain ⟨first, putsHigh, shownFirst⟩ := bus.write_stored above high
  obtain ⟨second, putsLow, shownSecond⟩ := first.write_stored below low
  have apart : Location.ofAddress upper ≠ Location.ofAddress lower :=
    Location.ofAddress_ne below follows
  have elsewhere {address other : UInt16} (stored : IsStorage address)
      (different : home other ≠ home address)
      : Location.ofAddress other ≠ Location.ofAddress address :=
    fun same => different ((Location.ofAddress_eq_iff stored other).mp same).2
  have puts : Access.performAll [.write lower low] first = .ok () second :=
    Act.bind_of_ok putsLow _
  refine ⟨second, (Act.bind_of_ok putsHigh _).trans puts, ?_, ?_, ?_, ?_⟩
  · calc
      second = first.withStorage second.storage := write_stored_eq below putsLow
      _ = (bus.withStorage first.storage).withStorage second.storage :=
        congrArg (withStorage · second.storage) (write_stored_eq above putsHigh)
      _ = bus.withStorage second.storage := rfl
  · rw [shownSecond, if_neg apart, shownFirst, if_pos rfl]
  · rw [shownSecond, if_pos rfl]
  · intro other notUpper notLower
    rw [shownSecond, if_neg (elsewhere below notLower), shownFirst,
      if_neg (elsewhere above notUpper)]

namespace Board

-----------------------------------------------------------------------------------------
-- Calls
-----------------------------------------------------------------------------------------

/-- What a board is after the handler of an interrupt was called. Nothing changes that is not
mentioned here: no other register, device or cell of memory.
-/
structure Called (source : Interrupt) (before after : Board) : Prop where
  cpu
    : after.cpu
      = { before.cpu with
          halted := false
          interruptsOn := false
          enableDelay := 0
          sp := before.cpu.sp - 2
          pc := 0x40 + 8 * UInt16.ofNat source.bit
          cycles := before.cpu.cycles + 5 }
  /-- Beside what is stored only the timer and the requests change. -/
  bus
    : after.bus
      = { before.bus with
          timer := (before.bus.timer.tick 5).1
          requests := Interrupt.timer.raiseIf (before.bus.timer.tick 5).2
            (before.bus.requests &&& ~~~source.mask) }.withStorage after.bus.storage
  /-- The return address lies on the stack, its lower byte at the lower address. -/
  upper : after.bus.peek (before.cpu.sp - 1) = .ok (highByte before.cpu.pc)
  lower : after.bus.peek (before.cpu.sp - 2) = .ok (lowByte before.cpu.pc)
  others (address : UInt16)
    : IsStorage address
      → home address ≠ home (before.cpu.sp - 1)
      → home address ≠ home (before.cpu.sp - 2)
      → after.bus.peek address = before.bus.peek address

variable {source : Interrupt} {before after : Board}

/-- While interrupts are on, a handler is called if there is a cell for each byte of the return
address.
-/
theorem admitInterrupt_calls {board : Board} (next : nextInterrupt? board = some source)
    (on : board.cpu.interruptsOn) (above : IsStorage (board.cpu.sp - 1))
    (below : IsStorage (board.cpu.sp - 2))
    : ∃ after, admitInterrupt board = .ok 5 after ∧ Called source board after := by
  let woken := { board.cpu with halted := false }
  have ram : board.bus.IsRam (board.cpu.sp - 2 + 1) := by
    rw [sub_two_add_one]
    exact .inl above
  have follows := ram.toNat_next
  rw [sub_two_add_one] at follows
  obtain ⟨written, performed, stored, upper, lower, others⟩ :=
    (board.bus.acknowledge source).write_pair above below follows (highByte woken.pc)
      (lowByte woken.pc)
  have serves : admitInterrupt (Probed.ofBoard board) = serve source ⟨⟨woken, board.bus⟩, []⟩ :=
    (admitInterrupt_of_some (.ofBoard board) next).trans (congrFun (if_pos on) _)
  have observed := serves.trans ((serve_of_writes source woken board.bus []).1 written performed)
  obtain ⟨_, alone, rfl, -⟩ :=
    Probed.plain_of_ok Probed.besideBoard_keepsStep.admitInterrupt observed
  refine ⟨_, alone, ?_, congrArg (·.runTimer 5) stored, ?_, ?_, ?_⟩
  · rw [← source.vector_eq]
    rfl
  · rw [Bus.IsRam.peek_runTimer (.inl above), upper]
  · rw [Bus.IsRam.peek_runTimer (.inl below), lower]
  · intro address cell notUpper notLower
    have storage : (board.bus.acknowledge source).storage = board.bus.storage := rfl
    rw [Bus.IsRam.peek_runTimer (.inl cell), others address notUpper notLower]
    exact Bus.peek_eq_of_storage storage cell

/-- A call leaves the ROM windows alone. -/
theorem Called.peek_rom (called : Called source before after) {address : UInt16}
    (rom : address.toNat < 0x8000)
    : after.bus.peek address = before.bus.peek address := by
  have unstored : ¬IsStorage address := by
    rw [Location.isStorage_iff]
    omega
  have located : Location.ofAddress address = .rom := if_pos rom
  rw [called.bus, Bus.peek_withStorage _ _ unstored]
  unfold Bus.peek
  rw [located]
  rfl

-----------------------------------------------------------------------------------------
-- Returns
-----------------------------------------------------------------------------------------

/-- A return from an interrupt pops the program counter and switches interrupts on. -/
theorem execute_returnInterrupt {cpu : Cpu} {bus : Bus} (awake : cpu.halted = false)
    (going : cpu.stopped = false) (opcode : bus.peek cpu.pc = .ok 0xD9) {high low : UInt8}
    (above : bus.peek (cpu.sp + 1) = .ok high) (below : bus.peek cpu.sp = .ok low)
    : ∃ back,
        execute (⟨cpu, bus⟩ : Board) = .ok 4 back
        ∧ back.cpu.pc = wordOf high low
        ∧ back.cpu.sp = cpu.sp + 2
        ∧ back.cpu.interruptsOn := by
  have pops
      : (run .returnInterrupt : Act Probed Nat)
        = pop >>= fun word =>
          modifyCpu (fun cpu => { cpu with pc := word, interruptsOn := true }) >>= fun _ =>
          pure 4 :=
    rfl
  obtain ⟨back, ran, same⟩ := execute_of_pop awake going opcode rfl pops above below
  let final : Cpu := { cpu with pc := wordOf high low, sp := cpu.sp + 2, interruptsOn := true }
  have on : (settleEnable (cpu.enableDelay == 1) final).interruptsOn := by
    unfold settleEnable
    split <;> rfl
  obtain ⟨_, _, settled⟩ := settleEnable_elsewhere (cpu.enableDelay == 1) final
  refine ⟨back, ran, ?_, ?_, ?_⟩
  · rw [same]
    exact congrArg Cpu.pc settled
  · rw [same]
    exact congrArg Cpu.sp settled
  · rw [same]
    exact on

/-- A handler that returns at once goes back to where it was called from. -/
theorem Called.returns (called : Called source before after) (going : before.cpu.stopped = false)
    (opcode : before.bus.peek after.cpu.pc = .ok 0xD9)
    : ∃ back,
        execute after = .ok 4 back
        ∧ back.cpu.pc = before.cpu.pc
        ∧ back.cpu.sp = before.cpu.sp
        ∧ back.cpu.interruptsOn := by
  obtain ⟨cpu, bus⟩ := after
  have registers : cpu = _ := called.cpu
  have awake : cpu.halted = false := by rw [registers]
  have running : cpu.stopped = false := by rw [registers]; exact going
  have stack : cpu.sp = before.cpu.sp - 2 := by rw [registers]
  have low : cpu.pc.toNat < 0x8000 := by
    rw [registers]
    change (0x40 + 8 * UInt16.ofNat source.bit).toNat < 0x8000
    cases source <;> decide
  have next : bus.peek cpu.pc = .ok 0xD9 := (called.peek_rom low).trans opcode
  have upper : bus.peek (cpu.sp + 1) = .ok (highByte before.cpu.pc) := by
    rw [stack, sub_two_add_one]
    exact called.upper
  have lower : bus.peek cpu.sp = .ok (lowByte before.cpu.pc) := by
    rw [stack]
    exact called.lower
  obtain ⟨back, ran, pc, sp, on⟩ := execute_returnInterrupt awake running next upper lower
  refine ⟨back, ran, ?_, ?_, on⟩
  · rw [pc, wordOf_halves]
  · rw [sp, stack, UInt16.sub_add_cancel]

-----------------------------------------------------------------------------------------
-- Call and return
-----------------------------------------------------------------------------------------

/-- An interrupt is admitted when one is both requested and enabled. Then any halt ends. While
interrupts are on and the stack lies in storage, the handler of the lowest source is called, and if
it consists of a return, the next execution takes the board back to where it was called.
-/
theorem handler_called_and_left (board : Board)
    : let pending := Interrupt.pending board.bus.requests board.bus.enables
      (pending = 0 → admitInterrupt board = .ok 0 board)
      ∧ (pending ≠ 0 → board.cpu.interruptsOn = false →
          admitInterrupt board = .ok 0 { board with cpu := { board.cpu with halted := false } })
      ∧ (pending ≠ 0 → board.cpu.interruptsOn →
          IsStorage (board.cpu.sp - 1) → IsStorage (board.cpu.sp - 2) →
            ∃ source after,
              source.IsLowest pending
              ∧ admitInterrupt board = .ok 5 after
              ∧ Called source board after
              ∧ (board.cpu.stopped = false → board.bus.peek after.cpu.pc = .ok 0xD9 →
                  ∃ back,
                    execute after = .ok 4 back
                    ∧ back.cpu.pc = board.cpu.pc
                    ∧ back.cpu.sp = board.cpu.sp
                    ∧ back.cpu.interruptsOn)) := by
  intro pending
  have first : nextInterrupt? board = Interrupt.first? pending := rfl
  have keeps := Probed.besideBoard_keepsStep.admitInterrupt
  cases next : nextInterrupt? board with
  | none =>
      have empty : pending = 0 := Interrupt.first?_pending_eq_none_iff.mp (first.symm.trans next)
      have idle := admitInterrupt_of_none (.ofBoard board) next
      obtain ⟨_, alone, rfl, -⟩ := Probed.plain_of_ok keeps idle
      exact ⟨fun _ => alone, (absurd empty ·), (absurd empty ·)⟩
  | some source =>
      have raised : pending ≠ 0 := by
        intro empty
        rw [first, Interrupt.first?_pending_eq_none_iff.mpr empty] at next
        cases next
      refine ⟨(absurd · raised), ?_, ?_⟩
      · intro _ off
        exact admitInterrupt_of_off off next
      · intro _ on above below
        obtain ⟨after, admitted, called⟩ := admitInterrupt_calls next on above below
        have lowest := Interrupt.isLowest_of_first? (first.symm.trans next)
        exact ⟨source, after, lowest, admitted, called, called.returns⟩

/-- A halted board on which the timer and a key are requested, with a return at the start of every
handler. The word on top of its stack would reach from work RAM into the echo. The counter of the
timer is about to pass 255.
-/
def aboutToServe : Board :=
  { cpu :=
      { Cpu.afterBoot with pc := 0x1234, sp := 0xE001, interruptsOn := true, halted := true }
    bus :=
      { (Bus.initial .strict).mapBoot (filledBytes 0x100 0xD9) with
        requests := 0x14
        enables := 0x1F
        timer := { Timer.initial with counter := 0xFF, control := 0x05 } } }

/-- Its handler of the timer is called, during which the timer is requested anew, and returns. -/
theorem handler_called_and_left_timer
    : ∃ after back,
        admitInterrupt aboutToServe = .ok 5 after
        ∧ after.cpu.pc = 0x50
        ∧ after.bus.requests = 0x14
        ∧ after.bus.peek 0xE000 = .ok 0x12
        ∧ after.bus.peek 0xDFFF = .ok 0x34
        ∧ execute after = .ok 4 back
        ∧ back.cpu.pc = 0x1234
        ∧ back.cpu.sp = 0xE001
        ∧ back.cpu.interruptsOn := by
  have raised : Interrupt.pending aboutToServe.bus.requests aboutToServe.bus.enables ≠ 0 := by
    decide
  obtain ⟨source, after, lowest, admitted, called, returns⟩ :=
    (handler_called_and_left aboutToServe).2.2 raised rfl (by decide) (by decide)
  have timer : source = .timer := by
    obtain ⟨requested, least⟩ := lowest
    cases source with
    | timer => rfl
    | vblank | lcdStatus | serial => cases requested
    | joypad => exact absurd (least .timer rfl) (by decide)
  subst timer
  have vector : after.cpu.pc = 0x50 := congrArg Cpu.pc called.cpu
  have reloads : (aboutToServe.bus.timer.tick 5).2 = true :=
    congrArg Prod.snd (Timer.tick_of_on rfl 5)
  have requests : after.bus.requests = 0x14 := by
    rw [called.bus, reloads]
    rfl
  have opcode : aboutToServe.bus.peek after.cpu.pc = .ok 0xD9 := by
    have covered (code : ByteArray) (requests enables : UInt8) (timer : Timer)
        : ({ (Bus.initial .strict).mapBoot code with requests, enables, timer } : Bus).peek 0x50
          = .ok (byteOr code 0x50 0xFF) := rfl
    rw [vector, aboutToServe, covered, Cartridge.byteOr_filledBytes (by decide)]
  obtain ⟨back, returned, pc, sp, on⟩ := returns rfl opcode
  exact ⟨after, back, admitted, vector, requests, called.upper, called.lower, returned, pc, sp, on⟩

end Board

end Handheld
