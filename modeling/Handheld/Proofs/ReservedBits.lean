import Handheld.Proofs.Board.Reserved
import Handheld.Proofs.Board.RoundTrip
import Handheld.Proofs.Reachable

/-! Reserved bits of the machines that can come about. The lower half of the flag register and the
upper bits of the requests are clear whatever a machine went through, so that accumulator and flags
survive the stack and a listing shows flags alone.
-/

namespace Handheld

-----------------------------------------------------------------------------------------
-- Listings
-----------------------------------------------------------------------------------------

/-- The text of a word is that of its two bytes. -/
theorem Hex.word_wordOf (high low : UInt8)
    : word (wordOf high low) = byte high ++ byte low := by
  have above := high.toNat_lt
  have below := low.toNat_lt
  have number : (wordOf high low).toNat = 256 * high.toNat + low.toNat := by
    rw [← Manual.join_eq, Manual.join, UInt16.toNat_ofNat']
    omega
  have first : (wordOf high low).toNat / 16 / 16 / 16 % 16 = high.toNat / 16 % 16 := by omega
  have second : (wordOf high low).toNat / 16 / 16 % 16 = high.toNat % 16 := by omega
  have third : (wordOf high low).toNat / 16 % 16 = low.toNat / 16 % 16 := by omega
  have fourth : (wordOf high low).toNat % 16 = low.toNat % 16 := by omega
  simp only [word, byte, digits, first, second, third, fourth, ← String.ofList_append]
  rfl

/-- Without anything else in it, the flag register is the byte of the four flags. -/
theorem Cpu.toByte_flags {cpu : Cpu} (clear : cpu.f &&& 0x0F = 0)
    : cpu.flags.toByte = cpu.f := by
  unfold flags
  rw [← Manual.flagsOf_eq, ← Manual.flagByte_eq, Manual.flagByte_flagsOf,
    Manual.and_upper_of_clear _ clear]

/-- A listing starts with the accumulator and the four flags. -/
theorem Cpu.listing_eq {cpu : Cpu} (clear : cpu.f &&& 0x0F = 0)
    : ∃ rest, cpu.listing = "AF:" ++ Hex.byte cpu.a ++ Hex.byte cpu.flags.toByte ++ rest := by
  rw [toByte_flags clear]
  unfold listing af
  rw [Hex.word_wordOf]
  simp only [String.append_assoc]
  exact ⟨_, rfl⟩

/-- Among the lower five bits there is none of the upper three. -/
theorem Bus.RequestsSources.upper {bus : Bus} (sources : bus.RequestsSources)
    : bus.requests &&& 0xE0 = 0 := by
  unfold RequestsSources at sources
  revert sources
  generalize bus.requests = byte
  revert byte
  refine Manual.forall_byte ?_
  decide +kernel

namespace Machine

-----------------------------------------------------------------------------------------
-- What a machine can go through
-----------------------------------------------------------------------------------------

/-- The machines that come about from a new one by what is asked of it, failing or not, by frames,
keys and resets, and by changes of the cartridge and of the policy.
-/
inductive Driven : Machine → Prop where
  | ofSetup (setup : MachineSetup) : Driven (ofSetup setup)
  | insert {machine : Machine} (cartridge : Cartridge)
    : Driven machine → Driven (machine.insert cartridge)
  | policy {machine : Machine} (policy : AccessPolicy)
    : Driven machine → Driven (machine.withBus (machine.board.bus.withPolicy policy))
  | button {machine : Machine} (button : Button) (down : Bool)
    : Driven machine → Driven (machine.withBus (machine.board.bus.setButton button down))
  | keys {machine : Machine} (keys : UInt8)
    : Driven machine → Driven (machine.withBus (machine.board.bus.setKeys keys))
  | call {machine : Machine} (call : Board.Call)
    : Driven machine → Driven (machine.after [call])
  | frame {machine : Machine} : Driven machine → Driven (advanceFrame.endsIn machine)
  | acknowledge {machine : Machine} : Driven machine → Driven machine.acknowledgeFrame
  | reset {machine : Machine} : Driven machine → Driven machine.reset

/-- Calls one after another lead on from a driven machine, by induction on them. -/
theorem Driven.calls {machine : Machine} (driven : machine.Driven) (calls : List Board.Call)
    : (machine.after calls).Driven := by
  induction calls generalizing machine with
  | nil => exact driven
  | cons call rest ih => exact ih (driven.call call)

/-- Nothing reserved is set. -/
structure Clear (machine : Machine) : Prop where
  cpu : machine.board.cpu.Reserved
  bus : machine.board.bus.RequestsSources

theorem clear_ofSetup (setup : MachineSetup)
    : (ofSetup setup).Clear := by
  have booted : Cpu.afterBoot.Reserved := ⟨by decide, by decide⟩
  have powered : Cpu.powerOn.Reserved := ⟨by decide, by decide⟩
  have vblank : (0x01 : UInt8).toNat < 2 ^ 5 := by decide
  have none : (0 : UInt8).toNat < 2 ^ 5 := by decide
  obtain ⟨policy, bootCode⟩ := setup
  cases bootCode with
  | none => exact ⟨booted, vblank⟩
  | some code => exact ⟨powered, none⟩

/-- A reset starts from a new machine. -/
theorem clear_reset (machine : Machine)
    : machine.reset.Clear := by
  have fresh := clear_ofSetup
    { policy := machine.board.bus.policy, bootCode := machine.board.bus.boot.code }
  unfold reset
  dsimp only
  cases machine.board.bus.cartridge with
  | none => exact fresh
  | some cartridge => exact ⟨fresh.cpu, fresh.bus⟩

/-- Whatever a machine went through, nothing reserved is set, by induction on how it came about. -/
theorem Driven.clear {machine : Machine} (driven : machine.Driven)
    : machine.Clear := by
  have keepsCpu := Board.reserved_keepsCalls
  have keepsBus := Probed.requestsSources_keptByStep
  induction driven with
  | ofSetup setup => exact clear_ofSetup setup
  | insert _ _ ih => exact ⟨ih.cpu, ih.bus⟩
  | policy _ _ ih => exact ⟨ih.cpu, ih.bus⟩
  | button button down _ ih => exact ⟨ih.cpu, Interrupt.toNat_raiseIf_lt .joypad _ ih.bus⟩
  | keys keys _ ih => exact ⟨ih.cpu, Interrupt.toNat_raiseIf_lt .joypad _ ih.bus⟩
  | call call _ ih =>
      exact ⟨(keepsCpu.call call).invariant ih.cpu, keepsBus.after [call] ih.bus⟩
  | @frame machine _ ih =>
      refine ⟨?_, ?_⟩
      · rw [board_advanceFrame]
        exact (keepsCpu.runUntil _ _ _).invariant ih.cpu
      · rw [board_advanceFrame,
          Probed.endsIn_of_besideBoard (Probed.besideBoard_keepsStep.runUntil _ _ _)]
        exact (keepsBus.keepsStep.runUntil _ _ _).invariant ih.bus
  | acknowledge _ ih => exact ⟨ih.cpu, ih.bus⟩
  | @reset machine _ _ => exact clear_reset machine

-----------------------------------------------------------------------------------------
-- What follows from it
-----------------------------------------------------------------------------------------

/-- Nothing reserved is ever set. Whatever a machine went through, failing or not, the lower half of
its flag register and the upper three bits of its requests are clear, a switch-on of interrupts is
at most one instruction away, and a listing shows the accumulator and nothing but the four flags
beside it. At PUSH AF with RAM below the stack pointer the push succeeds. A later POP AF with the
stack pointer and the two bytes that it left takes accumulator, flags and stack pointer back to what
they were.
-/
theorem Driven.reserved_bits {machine : Machine} (driven : machine.Driven)
    : let cpu := machine.board.cpu
      let bus := machine.board.bus
      cpu.f &&& 0x0F = 0
      ∧ bus.requests &&& 0xE0 = 0
      ∧ cpu.enableDelay ≤ 1
      ∧ (∃ rest,
        cpu.listing = "AF:" ++ Hex.byte cpu.a ++ Hex.byte cpu.flags.toByte ++ rest)
      ∧ (cpu.halted = false
        → cpu.stopped = false
        → bus.peek cpu.pc = .ok 0xF5
        → bus.IsRam (cpu.sp - 1)
        → bus.IsRam (cpu.sp - 2)
        → ∃ pushed,
            Board.execute machine.board = .ok 4 pushed
            ∧ ∀ later : Board,
                later.cpu.halted = false
                → later.cpu.stopped = false
                → later.bus.peek later.cpu.pc = .ok 0xF1
                → later.cpu.sp = pushed.cpu.sp
                → later.bus.peek (cpu.sp - 1) = pushed.bus.peek (cpu.sp - 1)
                → later.bus.peek (cpu.sp - 2) = pushed.bus.peek (cpu.sp - 2)
                → ∃ popped,
                    Board.execute later = .ok 3 popped
                    ∧ popped.cpu.a = cpu.a
                    ∧ popped.cpu.f = cpu.f
                    ∧ popped.cpu.sp = cpu.sp) := by
  intro cpu bus
  obtain ⟨⟨padding, delay⟩, sources⟩ := driven.clear
  refine ⟨padding, sources.upper, delay, cpu.listing_eq padding, ?_⟩
  intro awake going opcode above below
  obtain ⟨pushed, ran, lowered, high, low⟩ :=
    Board.execute_pushAf awake going padding opcode above below
  refine ⟨pushed, ran, ?_⟩
  intro later awakeLater goingLater pop sameSp sameHigh sameLow
  have sp : later.cpu.sp = cpu.sp - 2 := sameSp.trans lowered
  have foundA : later.bus.peek (later.cpu.sp + 1) = .ok cpu.a := by
    rw [sp, Board.sub_two_add_one, sameHigh, high]
  have foundF : later.bus.peek later.cpu.sp = .ok cpu.f := by
    rw [sp, sameLow, low]
  obtain ⟨popped, took, raised, a, f⟩ :=
    Board.execute_popAf awakeLater goingLater pop foundA foundF padding
  refine ⟨popped, took, a, f, ?_⟩
  rw [raised, sp, UInt16.sub_add_cancel]

/-- Code that sets accumulator and carry, pushes both to high memory, clears the accumulator and
pops them again.
-/
def stackingCode : ByteArray :=
  ⟨#[0x31, 0xFE, 0xFF, 0x3E, 0x5A, 0x37, 0xF5, 0xAF, 0xF1]⟩

/-- A machine that is about to push them. -/
def stacking : Machine :=
  (ofSetup { policy := .strict, bootCode := some stackingCode }).after [.step, .step, .step]

theorem driven_stacking
    : stacking.Driven :=
  (Driven.ofSetup _).calls _

/-- The cleared accumulator and its flag in between leave no trace. -/
theorem reserved_bits_stacking
    : stacking.board.cpu.f &&& 0x0F = 0
      ∧ ∃ pushed popped,
        let cleared := Board.execute.endsIn pushed
        Board.execute stacking.board = .ok 4 pushed
        ∧ cleared.cpu.a = 0
        ∧ cleared.cpu.f = 0x80
        ∧ Board.execute cleared = .ok 3 popped
        ∧ popped.cpu.a = 0x5A
        ∧ popped.cpu.f = 0x10 := by
  obtain ⟨clear, -, -, -, survives⟩ := Driven.reserved_bits driven_stacking
  obtain ⟨pushed, ran, pops⟩ := survives rfl rfl rfl (.inl (by decide)) (.inl (by decide))
  have ended : pushed = Board.execute.endsIn stacking.board := by
    rw [Act.endsIn, ran]
  subst ended
  obtain ⟨popped, took, a, f, -⟩ :=
    pops (Board.execute.endsIn (Board.execute.endsIn stacking.board))
      (by rfl) (by rfl) (by rfl) (by rfl) (by rfl) (by rfl)
  exact ⟨clear, _, popped, ran, rfl, rfl, took, a, f⟩

end Machine

end Handheld
