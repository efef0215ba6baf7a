import Handheld.Proofs.Board.Faults
import Handheld.Proofs.Board.Phases

/-! Start-up code over the first page of the cartridge. The page shows the code until its switch is
written or a step ends at the cartridge's entry, and the cartridge ever after. The code itself is
never written.
-/

namespace Handheld

-----------------------------------------------------------------------------------------
-- The switch
-----------------------------------------------------------------------------------------

/-- The switch stands at one address. -/
theorem Location.ofAddress_eq_bootSwitch_iff {address : UInt16}
    : ofAddress address = .bootSwitch ↔ address = 0xFF50 := by
  constructor
  · intro located
    have page : ofAddress address = ofRegister address := by grind [ofAddress]
    rw [page] at located
    grind [ofRegister]
  · intro same
    rw [same]
    rfl

namespace Bus

/-- A write reaches the overlay only at the switch, and a zero does nothing there. -/
theorem boot_write (bus : Bus) (address : UInt16) (value : UInt8)
    : ((write address value).endsIn bus).boot
      = if address = 0xFF50 ∧ value ≠ 0 then { bus.boot with mapped := false }
        else bus.boot := by
  by_cases switch : address = 0xFF50
  · subst switch
    by_cases zero : value = 0
    · rw [if_neg (by simp [zero]), zero]
      rfl
    · rw [if_pos ⟨rfl, zero⟩]
      change ((if value = 0 then pure () else modify unmapBoot : Act Bus Unit).endsIn bus).boot = _
      rw [if_neg zero]
      rfl
  · rw [if_neg (by simp [switch])]
    unfold write
    cases located : Location.ofAddress address with
    | bootSwitch => exact absurd (Location.ofAddress_eq_bootSwitch_iff.mp located) switch
    | rom | cartridgeRam =>
        obtain ⟨cartridge, ended⟩ := bus.endsIn_writeCartridge address value
        rw [writeLocation, ended]
    | video register =>
        cases register with
        | transferPage =>
            obtain ⟨noted, video, ended, -⟩ := bus.endsIn_transferObjects value
            rw [writeLocation, ended]
        | _ => rfl
    | peripheral | unmapped =>
        obtain ⟨noted, ended⟩ := bus.noting_writeUnmodelled address
        rw [writeLocation, ended]
    | _ => rfl

/-- Below 0x8000 a read gives a byte of the code while the code covers it, with ones past its end,
and else a byte of the cartridge.
-/
theorem read_below (bus : Bus) {code : ByteArray} (present : bus.boot.code = some code)
    {address : UInt16} (below : address < 0x8000)
    : read address bus
      = .ok
          (if bus.boot.mapped ∧ address < 0x100 then byteOr code address.toNat 0xFF
            else bus.peekCartridge address)
          bus := by
  have number : address.toNat < 0x8000 := below
  have located : Location.ofAddress address = .rom := by
    rw [Location.ofAddress, if_pos number]
  unfold read peek isUnmodelled
  simp only [located, peekRom, present, Bool.and_eq_true, decide_eq_true_eq]
  rfl

end Bus

namespace Board

-----------------------------------------------------------------------------------------
-- One step
-----------------------------------------------------------------------------------------

/-- A write among some events removes the code. -/
def HandsOver (events : List Event) : Prop :=
  ∃ value, value ≠ 0 ∧ .write 0xFF50 value ∈ events

/-- One more event removes the code only as a write to its switch. -/
theorem handsOver_concat {events : List Event} {event : Event}
    : HandsOver (events ++ [event])
      ↔ HandsOver events ∨ ∃ value, value ≠ 0 ∧ event = .write 0xFF50 value := by
  unfold HandsOver
  simp only [List.mem_append, List.mem_singleton, and_or_left, exists_or, eq_comm]

/-- The code is mapped when something held before and no write has removed it since. -/
def MappedSince (before : Prop) (bus : Bus) (events : List Event) : Prop :=
  bus.boot.mapped ↔ before ∧ ¬HandsOver events

variable {before : Prop}

/-- What leaves the overlay alone and writes nothing keeps the code mapped or removed. -/
theorem MappedSince.concat {bus after : Bus} {events : List Event}
    (mapped : MappedSince before bus events) (same : after.boot = bus.boot) {event : Event}
    (noWrite : ∀ value, event ≠ .write 0xFF50 value)
    : MappedSince before after (events ++ [event]) := by
  have none : ¬∃ value, value ≠ 0 ∧ event = .write 0xFF50 value := by
    intro ⟨value, _, written⟩
    exact noWrite value written
  rw [MappedSince, same, handsOver_concat, or_iff_left none]
  exact mapped

/-- Instructions and dispatches remove the code by writes alone. -/
theorem mappedSince_keptByDispatch (before : Prop)
    : Probed.KeptByDispatch (MappedSince before) where
  instruction _ mapped := mapped.concat rfl nofun
  noting := by
    intro _ _ events ⟨noted, same⟩ mapped
    subst same
    exact mapped
  write {bus events} address value mapped := by
    by_cases removes : address = 0xFF50 ∧ value ≠ 0
    · have removed : HandsOver (events ++ [.write address value]) := by
        rw [removes.1]
        exact ⟨value, removes.2, by simp⟩
      rw [MappedSince, bus.boot_write, if_pos removes]
      simp [removed]
    · have none : ¬∃ other, other ≠ 0 ∧ Event.write address value = .write 0xFF50 other := by
        intro ⟨other, nonzero, same⟩
        injection same with switch written
        exact removes ⟨switch, written ▸ nonzero⟩
      rw [MappedSince, bus.boot_write, if_neg removes, handsOver_concat, or_iff_left none]
      exact mapped
  resetDivider mapped := mapped
  runTimer _ mapped := mapped
  acknowledge _ mapped := mapped.concat rfl nofun

/-- At the end of a step the code is removed at the cartridge's entry. -/
theorem mapped_leaveBoot (board : Board)
    : board.leaveBoot.bus.boot.mapped
      ↔ board.bus.boot.mapped ∧ board.leaveBoot.cpu.pc ≠ cartridgeEntry := by
  rw [(clock_leaveBoot board).1]
  unfold leaveBoot
  cases mapped : board.bus.boot.mapped <;> by_cases entry : board.cpu.pc = cartridgeEntry <;>
    simp [mapped, entry, Bus.unmapBoot]

/-- A step leaves the code mapped unless it writes to the switch or ends at the entry. -/
theorem MappedSince.step {probed after : Probed} {clocks : Nat}
    (mapped : MappedSince before probed.board.bus probed.events)
    (stepped : Board.step probed = .ok clocks after)
    : MappedSince (before ∧ after.board.cpu.pc ≠ cartridgeEntry) after.board.bus
        after.events := by
  obtain ⟨spent, serving, middle, served, executed, admitted, -, events, final⟩ :=
    Probed.step_ok stepped
  have parts := (mappedSince_keptByDispatch before).keepsDispatch
  have executing := (parts.execute.ofInvariant_ok executed mapped).2
  have admitting : served.board.bus.boot.mapped ↔ _ :=
    (parts.admitInterrupt.ofInvariant_ok admitted executing).2
  rw [MappedSince, final, events, mapped_leaveBoot]
  change served.board.bus.boot.mapped ∧ _ ↔ _
  rw [admitting]
  exact and_right_comm

-----------------------------------------------------------------------------------------
-- Runs
-----------------------------------------------------------------------------------------

/-- One of some steps ends at the cartridge's entry. -/
def Enters (count : Nat) (board : Board) : Prop :=
  ∃ earlier < count,
    ∃ clocks reached,
      steps (earlier + 1) board = .ok clocks reached ∧ reached.cpu.pc = cartridgeEntry

theorem not_enters_zero (board : Board)
    : ¬Enters 0 board := by
  intro ⟨_, within, _⟩
  exact absurd within (Nat.not_lt_zero _)

/-- The first of some steps ends there, or one of the others does. -/
theorem enters_succ {board middle : Board} {first : Nat} (stepped : step board = .ok first middle)
    (count : Nat)
    : Enters (count + 1) board ↔ middle.cpu.pc = cartridgeEntry ∨ Enters count middle := by
  constructor
  · intro ⟨earlier, within, clocks, reached, ran, entry⟩
    obtain ⟨taken, rest, between, same, remaining, -⟩ := steps_succ_ok ran
    rw [stepped] at same
    cases same
    cases earlier with
    | zero =>
        cases remaining
        exact .inl entry
    | succ earlier =>
        exact .inr ⟨earlier, Nat.lt_of_succ_lt_succ within, rest, reached, remaining, entry⟩
  · intro enters
    rcases enters with entry | ⟨earlier, within, clocks, reached, ran, entry⟩
    · exact ⟨0, Nat.zero_lt_succ _, _, middle, steps_succ_of_ok stepped rfl, entry⟩
    · exact ⟨earlier + 1, Nat.succ_lt_succ within, _, reached, steps_succ_of_ok stepped ran, entry⟩

/-- Steps leave the code mapped unless one of them removes it, by induction on them. -/
theorem MappedSince.steps {probed after : Probed} {count : Nat} {clocks : List Nat}
    (mapped : MappedSince before probed.board.bus probed.events)
    (ran : Board.steps count probed = .ok clocks after)
    : MappedSince (before ∧ ¬Enters count probed.board) after.board.bus after.events := by
  induction count generalizing before probed clocks with
  | zero =>
      cases ran
      rw [MappedSince, and_iff_left (not_enters_zero _)]
      exact mapped
  | succ count ih =>
      obtain ⟨first, rest, middle, stepped, remaining, -⟩ := steps_succ_ok ran
      obtain ⟨_, plain, -⟩ := Probed.plain_of_ok Probed.besideBoard_keepsStep.step stepped
      have later := ih (mapped.step stepped) remaining
      rw [enters_succ plain, not_or, ← and_assoc]
      exact later

/-- Once the code is removed nothing maps it again. -/
theorem unmapped_keptByStep
    : Probed.KeptByStep fun bus _ => bus.boot.mapped = false where
  instruction _ unmapped := unmapped
  noting := by
    intro _ _ _ ⟨noted, same⟩ unmapped
    subst same
    exact unmapped
  write {bus _} address value unmapped := by
    rw [bus.boot_write]
    split
    · rfl
    · exact unmapped
  resetDivider unmapped := unmapped
  runTimer _ unmapped := unmapped
  acknowledge _ unmapped := unmapped
  runVideo _ unmapped := unmapped
  unmapBoot _ := rfl

/-- Start-up code gives way once and for all. After steps from a board that shows it, the code is
removed exactly when one of them wrote anything but zero to its switch or ended at the cartridge's
entry. Whatever is asked of the board, failing or not, code that was removed stays so, the code
itself stays the same, and a read below 0x8000 gives its byte on the first page while it is mapped,
or ones past its end, and the cartridge's byte everywhere else.
-/
theorem overlay_until_handover {board : Board} {code : ByteArray}
    (overlaid : board.bus.boot = { code := some code, mapped := true })
    : (∀ count clocks final,
        steps count board = .ok clocks final
        → (final.bus.boot.mapped = false
          ↔ (∃ value,
              value ≠ 0 ∧ .write 0xFF50 value ∈ Probed.eventsOf (steps count) board)
            ∨ ∃ earlier < count,
                ∃ clocks reached,
                  steps (earlier + 1) board = .ok clocks reached
                  ∧ reached.cpu.pc = 0x0100))
      ∧ ∀ calls,
          let bus := (after calls board).bus
          (bus.boot.mapped = false
            → ∀ more, (after more (after calls board)).bus.boot.mapped = false)
          ∧ bus.boot.code = some code
          ∧ ∀ address < 0x8000,
              Bus.read address bus
              = .ok
                  (if bus.boot.mapped ∧ address < 0x100 then byteOr code address.toNat 0xFF
                    else bus.peekCartridge address)
                  bus := by
  refine ⟨?_, ?_⟩
  · intro count clocks final ran
    obtain ⟨_, observed, -⟩ :=
      Probed.ok_of_besideBoard (Probed.besideBoard_keepsStep.steps count) ran
    have start : MappedSince True (Probed.ofBoard board).board.bus [] := by
      change board.bus.boot.mapped ↔ _
      rw [overlaid]
      simp [HandsOver]
    have mapped : final.bus.boot.mapped ↔ _ := start.steps observed
    rw [true_and, ← not_or] at mapped
    rw [← Bool.not_eq_true, mapped, not_not]
    exact or_comm
  · intro calls bus
    have kept : bus.boot.code = some code := by
      have same : bus.assembly.bootCode = board.bus.boot.code :=
        congrArg Bus.Assembly.bootCode (assembly_after calls board)
      rw [overlaid] at same
      exact same
    refine ⟨?_, kept, fun address below => bus.read_below kept below⟩
    intro unmapped more
    exact unmapped_keptByStep.after more unmapped

/-- A new board with start-up code. -/
def starting (code : ByteArray) : Board :=
  (Machine.ofSetup { policy := .strict, bootCode := some code }).board

theorem overlaid_starting (code : ByteArray)
    : (starting code).bus.boot = { code := some code, mapped := true } :=
  rfl

/-- Code that writes a one to its switch. -/
def switchingCode : ByteArray :=
  ⟨#[0x3E, 0x01, 0xE0, 0x50]⟩

/-- Code that jumps to the cartridge's entry. -/
def enteringCode : ByteArray :=
  ⟨#[0xC3, 0x00, 0x01]⟩

/-- The first code is mapped until its second instruction writes to the switch, the other until its
jump.
-/
theorem overlay_until_handover_switching
    : (∃ final,
        steps 1 (starting switchingCode) = .ok [8] final ∧ final.bus.boot.mapped)
      ∧ (∃ final,
        steps 2 (starting switchingCode) = .ok [8, 12] final
        ∧ final.bus.boot.mapped = false
        ∧ ∀ more,
          (after more (after [.step, .step] (starting switchingCode))).bus.boot.mapped = false)
      ∧ ∃ final,
        steps 1 (starting enteringCode) = .ok [16] final ∧ final.bus.boot.mapped = false := by
  obtain ⟨switching, later⟩ := overlay_until_handover (overlaid_starting switchingCode)
  obtain ⟨entering, -⟩ := overlay_until_handover (overlaid_starting enteringCode)
  refine ⟨⟨_, rfl, ?_⟩, ⟨_, rfl, ?_, ?_⟩, ⟨_, rfl, ?_⟩⟩
  · rfl
  · exact (switching 2 _ _ rfl).mpr (.inl ⟨1, by decide, by decide⟩)
  · exact (later [.step, .step]).1 rfl
  · exact (entering 1 _ _ rfl).mpr (.inr ⟨0, by decide, _, _, rfl, rfl⟩)

end Board

end Handheld
