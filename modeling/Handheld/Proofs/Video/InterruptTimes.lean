import Handheld.Proofs.Video.Elapse
import Handheld.Proofs.Video.Timetable
import Mathlib.Tactic.IntervalCases

/-! When the video unit asks for interrupts. Its position says which ones are due: one of its own
when vertical blanking begins, and those that the status register enables when a line or the blank
at its end begins. A run asks for those that are due at the positions it comes to, and for no other.
-/

namespace Handheld.Video

-----------------------------------------------------------------------------------------
-- Positions at which interrupts are due
-----------------------------------------------------------------------------------------

/-- The status register enables a source of interrupts with one of its bits. -/
def statusEnables (video : Video) (bit : Nat) : Bool :=
  (video.readAt 0xFF41).toNat.testBit bit

/-- The unit asks for a status interrupt when it comes to a position: there a line of the screen has
been transferred, vertical blanking begins, a line of the screen begins, or the compared line does.
-/
inductive AsksAt (video : Video) (position : Nat) : Prop where
  | blank (enabled : video.statusEnables 3) (line : Nat) (onScreen : line < screenHeight)
    (due : position = line * lineClocks + 252)
  | blanking (enabled : video.statusEnables 4) (due : position = blankingPosition)
  | scan (enabled : video.statusEnables 5) (line : Nat) (onScreen : line < screenHeight)
    (due : position = line * lineClocks)
  | compare (enabled : video.statusEnables 6) (inFrame : video.lineCompare.toNat ≤ 153)
    (due : position = video.lineCompare.toNat * lineClocks)

/-- The enabling bits of the register are those last written to it. -/
theorem statusEnables_eq (video : Video) {bit : Nat} (least : 3 ≤ bit) (most : bit ≤ 6)
    : video.statusEnables bit = video.status.toNat.testBit bit := by
  have kept : Nat.testBit 0x78 bit = true ∧ Nat.testBit 0x80 bit = false := by
    interval_cases bit <;> decide
  have mode : video.mode.code.toNat.testBit bit = false := by
    interval_cases bit <;> cases video.mode <;> decide
  have shown
      : (if video.coincidence then (0x04 : UInt8) else 0).toNat.testBit bit = false := by
    interval_cases bit <;> cases video.coincidence <;> decide
  have read : video.statusEnables bit = video.statusByte.toNat.testBit bit := rfl
  rw [read]
  simp [statusByte, kept, mode, shown]

/-- So the masks of the sources tell whether they are enabled. -/
theorem meets_eq_statusEnables (video : Video) {mask : UInt8} (bit : Nat)
    (single : mask.toNat = 2 ^ bit) (least : 3 ≤ bit) (most : bit ≤ 6)
    : (video.status &&& mask != 0) = video.statusEnables bit := by
  rw [meets_eq_testBit single, video.statusEnables_eq least most]

/-- Where a line begins. -/
theorem asksAt_lineStart (video : Video) {line : Nat} (inFrame : line < 154)
    : video.AsksAt (line * lineClocks)
      ↔ (line < 144 ∧ video.statusEnables 5 ∨ line = 144 ∧ video.statusEnables 4)
        ∨ line = video.lineCompare.toNat ∧ video.statusEnables 6 := by
  constructor
  · intro asks
    unfold lineClocks at asks
    cases asks with
    | blank enabled other onScreen due =>
        unfold lineClocks at due
        omega
    | blanking enabled due =>
        unfold blankingPosition lineClocks at due
        exact .inl (.inr ⟨by omega, enabled⟩)
    | scan enabled other onScreen due =>
        unfold lineClocks at due
        have height : screenHeight = 144 := rfl
        exact .inl (.inl ⟨by omega, enabled⟩)
    | compare enabled below due =>
        unfold lineClocks at due
        exact .inr ⟨by omega, enabled⟩
  · rintro ((⟨onScreen, enabled⟩ | ⟨rfl, enabled⟩) | ⟨rfl, enabled⟩)
    · exact .scan enabled line onScreen rfl
    · exact .blanking enabled rfl
    · exact .compare enabled (Nat.le_of_lt_succ inFrame) rfl

/-- Within a line. -/
theorem asksAt_inLine (video : Video) (line : Nat) {rest : Nat} (begun : 0 < rest)
    (within : rest < lineClocks)
    : video.AsksAt (line * lineClocks + rest)
      ↔ line < 144 ∧ rest = 252 ∧ video.statusEnables 3 := by
  have height : screenHeight = 144 := rfl
  unfold lineClocks at within
  constructor
  · intro asks
    unfold lineClocks at asks
    cases asks with
    | blank enabled other onScreen due =>
        unfold lineClocks at due
        exact ⟨by omega, by omega, enabled⟩
    | blanking enabled due =>
        unfold blankingPosition lineClocks at due
        omega
    | scan enabled other onScreen due =>
        unfold lineClocks at due
        omega
    | compare enabled below due =>
        unfold lineClocks at due
        omega
  · rintro ⟨onScreen, rfl, enabled⟩
    exact .blank enabled line onScreen rfl

-----------------------------------------------------------------------------------------
-- One clock
-----------------------------------------------------------------------------------------

/-- The requests have gained those of the two bits of the unit that are due, and nothing else. -/
def Gains (before after : UInt8) (blanking status : Prop) : Prop :=
  ∀ bit,
    after.toNat.testBit bit
    ↔ before.toNat.testBit bit ∨ bit = 0 ∧ blanking ∨ bit = 1 ∧ status

theorem gains_nothing {requests : UInt8} {blanking status : Prop} (notBlanking : ¬blanking)
    (notStatus : ¬status)
    : Gains requests requests blanking status := by
  intro bit
  simp [notBlanking, notStatus]

/-- What is gained in two steps is gained in both together. -/
theorem Gains.trans {first second third : UInt8} {blanking status more other : Prop}
    (gains : Gains first second blanking status) (next : Gains second third more other)
    : Gains first third (blanking ∨ more) (status ∨ other) := by
  intro bit
  rw [next bit, gains bit, and_or_left, and_or_left]
  tauto

theorem Gains.congr {before after : UInt8} {blanking status more other : Prop}
    (gains : Gains before after blanking status) (first : blanking ↔ more)
    (second : status ↔ other)
    : Gains before after more other := by
  intro bit
  rw [gains bit, first, second]

/-- Vertical blanking raises the one bit. -/
theorem gains_vblank (condition : Bool) (requests : UInt8)
    : Gains requests (Interrupt.vblank.raiseIf condition requests) condition False := by
  intro bit
  rw [Interrupt.testBit_raiseIf]
  simp [Interrupt.bit]

/-- The status interrupt raises the other one. -/
theorem gains_lcdStatus (condition : Bool) (requests : UInt8)
    : Gains requests (Interrupt.lcdStatus.raiseIf condition requests) False condition := by
  intro bit
  rw [Interrupt.testBit_raiseIf]
  simp [Interrupt.bit]

/-- The requests have gained what is due at a position. -/
def GainsAt (video : Video) (position : Nat) (before after : UInt8) : Prop :=
  Gains before after (position = blankingPosition) (video.AsksAt position)

section

variable {video : Video} {before after : UInt8} {line : Nat}

theorem gainsAt_lineStart (inFrame : line < 154)
    (gains
      : Gains before after (line = 144)
        ((line < 144 ∧ video.statusEnables 5 ∨ line = 144 ∧ video.statusEnables 4)
          ∨ line = video.lineCompare.toNat ∧ video.statusEnables 6))
    : video.GainsAt (line * lineClocks) before after := by
  refine gains.congr ?_ (video.asksAt_lineStart inFrame).symm
  exact (Nat.mul_left_inj (by decide)).symm

theorem gainsAt_inLine {rest : Nat} (begun : 0 < rest) (within : rest < lineClocks)
    (gains : Gains before after False (line < 144 ∧ rest = 252 ∧ video.statusEnables 3))
    : video.GainsAt (line * lineClocks + rest) before after := by
  refine gains.congr (iff_of_false not_false ?_) (video.asksAt_inLine line begun within).symm
  unfold blankingPosition lineClocks at *
  omega

end

-----------------------------------------------------------------------------------------
-- Leaving a mode
-----------------------------------------------------------------------------------------

section

variable {sweep : Sweep}

/-- Entering a mode requests its source if that is enabled. -/
theorem gains_enter (sweep : Sweep) {video : Video} (same : sweep.video.status = video.status)
    (mode : Mode) (bit : Nat) (single : mode.statusSource.toNat = 2 ^ bit) (least : 3 ≤ bit)
    (most : bit ≤ 6)
    : Gains sweep.requests (sweep.enter mode).requests False (video.statusEnables bit) := by
  rw [← video.meets_eq_statusEnables bit single least most, ← same]
  exact gains_lcdStatus _ _

/-- Moving to a line requests the compared one. -/
theorem gains_moveTo (sweep : Sweep) (line : UInt8)
    : Gains sweep.requests (sweep.moveTo line).requests False
        (line.toNat = sweep.video.lineCompare.toNat ∧ sweep.video.statusEnables 6) := by
  have compared : Gains sweep.requests (sweep.moveTo line).requests False
      (line == sweep.video.lineCompare && sweep.video.status &&& 0x40 != 0) :=
    gains_lcdStatus _ _
  refine compared.congr .rfl ?_
  rw [sweep.video.meets_eq_statusEnables 6 rfl (by decide) (by decide), Bool.and_eq_true,
    beq_iff_eq, UInt8.toNat_inj]

/-- The scan of object memory ends within a line, where nothing is due. -/
theorem gainsAt_leave_oamScan (mode : sweep.video.mode = .oamScan)
    : sweep.video.GainsAt (sweep.video.line.toNat * lineClocks + 80) sweep.requests
        sweep.leaveMode.requests := by
  have silent (sweep : Sweep) : (sweep.enter .transfer).requests = sweep.requests := by
    simp [Sweep.enter, Sweep.requestStatus, Interrupt.raiseIf, Mode.statusSource]
  rw [sweep.leaveMode_oamScan mode, silent]
  exact gainsAt_inLine (by decide) (by decide) (gains_nothing not_false (by simp))

/-- The transfer ends where the blank of its line begins. -/
theorem gainsAt_leave_transfer (mode : sweep.video.mode = .transfer)
    (onScreen : sweep.video.line.toNat < 144)
    : sweep.video.GainsAt (sweep.video.line.toNat * lineClocks + 252) sweep.requests
        sweep.leaveMode.requests := by
  obtain ⟨drawing, windowLine, drawn⟩ := sweep.video.drawLine_eq
  have entered (drawn : Sweep) (same : drawn.video.status = sweep.video.status) :=
    gains_enter drawn same .hblank 3 rfl (by decide) (by decide)
  rw [sweep.leaveMode_transfer mode, drawn]
  refine gainsAt_inLine (by decide) (by decide) ((entered _ rfl).congr .rfl ?_)
  simp only [onScreen, true_and]

/-- The last line on the screen ends where vertical blanking begins. -/
theorem gainsAt_leave_hblank_last (mode : sweep.video.mode = .hblank)
    (last : sweep.video.line + 1 = 144)
    : sweep.video.GainsAt (144 * lineClocks) sweep.requests sweep.leaveMode.requests := by
  let moved := sweep.moveTo 144
  have compared : Gains sweep.requests moved.requests False
      (144 = sweep.video.lineCompare.toNat ∧ sweep.video.statusEnables 6) :=
    gains_moveTo sweep 144
  have completed : Gains moved.requests moved.completeFrame.requests True False :=
    (gains_vblank true _).congr (by simp) .rfl
  have same : moved.completeFrame.video.status = sweep.video.status := rfl
  have entered := gains_enter moved.completeFrame same .vblank 4 rfl (by decide) (by decide)
  rw [sweep.leaveMode_hblank_last mode last, last]
  refine gainsAt_lineStart (by decide) (((compared.trans completed).trans entered).congr ?_ ?_)
  · simp
  · rw [or_false]
    simp [or_comm]

/-- Any other line on the screen ends where the next one begins. -/
theorem gainsAt_leave_hblank_next (mode : sweep.video.mode = .hblank)
    (next : sweep.video.line.toNat + 1 < 144)
    : sweep.video.GainsAt ((sweep.video.line.toNat + 1) * lineClocks) sweep.requests
        sweep.leaveMode.requests := by
  let moved := sweep.moveTo (sweep.video.line + 1)
  have number := toNat_line_succ sweep.video.line (by omega)
  have other : sweep.video.line + 1 ≠ 144 := by
    intro last
    rw [← number, last] at next
    exact absurd next (by decide)
  have compared := gains_moveTo sweep (sweep.video.line + 1)
  have same : moved.video.status = sweep.video.status := rfl
  have entered := gains_enter moved same .oamScan 5 rfl (by decide) (by decide)
  rw [sweep.leaveMode_hblank_next mode other, ← number]
  rw [← number] at next
  have early := Nat.ne_of_lt next
  refine gainsAt_lineStart (Nat.lt_trans next (by decide))
    ((compared.trans entered).congr ?_ ?_)
  · simp only [early, or_false]
  · simp only [next, early, true_and, false_and, or_false]
    exact or_comm

/-- The last line of vertical blanking ends where the frame begins. -/
theorem gainsAt_leave_vblank_last (mode : sweep.video.mode = .vblank)
    (last : sweep.video.line = 153)
    : sweep.video.GainsAt (0 * lineClocks) sweep.requests sweep.leaveMode.requests := by
  let cleared : Sweep := { sweep with video := { sweep.video with windowLine := 0 } }
  have compared : Gains sweep.requests (cleared.moveTo 0).requests False
      (0 = sweep.video.lineCompare.toNat ∧ sweep.video.statusEnables 6) :=
    gains_moveTo cleared 0
  have same : (cleared.moveTo 0).video.status = sweep.video.status := rfl
  have entered := gains_enter (cleared.moveTo 0) same .oamScan 5 rfl (by decide) (by decide)
  rw [sweep.leaveMode_vblank_last mode last]
  refine gainsAt_lineStart (by decide) ((compared.trans entered).congr (by simp) ?_)
  rw [or_comm]
  simp

/-- Any other line of vertical blanking ends where the next one begins. -/
theorem gainsAt_leave_vblank_next (mode : sweep.video.mode = .vblank)
    (hidden : 144 ≤ sweep.video.line.toNat) (next : sweep.video.line.toNat + 1 < 154)
    : sweep.video.GainsAt ((sweep.video.line.toNat + 1) * lineClocks) sweep.requests
        sweep.leaveMode.requests := by
  have number := toNat_line_succ sweep.video.line (by omega)
  have other : sweep.video.line ≠ 153 := by
    intro last
    rw [last] at next
    exact absurd next (by decide)
  rw [sweep.leaveMode_vblank_next mode other, ← number]
  have below : ¬(sweep.video.line + 1).toNat < 144 := by omega
  have past : (sweep.video.line + 1).toNat ≠ 144 := by omega
  refine gainsAt_lineStart (by omega) ((gains_moveTo sweep (sweep.video.line + 1)).congr ?_ ?_)
  · simp only [past]
  · simp only [below, past, false_and, or_false, false_or]

/-- Where the current mode of a unit ends. -/
def modeEnd (video : Video) : Nat :=
  (video.line.toNat * lineClocks + (video.mode.start + video.mode.duration)) % frameClocks

/-- A mode that is left requests what is due where it ends, by cases of the mode. -/
theorem gainsAt_leaveMode (inFrame : sweep.video.line.toNat < 154)
    (blanking : sweep.video.mode = .vblank ↔ 144 ≤ sweep.video.line.toNat)
    : sweep.video.GainsAt sweep.video.modeEnd sweep.requests sweep.leaveMode.requests := by
  have ends : sweep.video.modeEnd = (sweep.video.line.toNat * lineClocks
      + (sweep.video.mode.start + sweep.video.mode.duration)) % frameClocks := rfl
  cases mode : sweep.video.mode with
  | oamScan =>
      have onScreen : sweep.video.line.toNat < 144 := by simpa [mode] using blanking
      have reached : sweep.video.modeEnd = sweep.video.line.toNat * lineClocks + 80 := by
        simp only [ends, mode, Mode.start, Mode.duration, frameClocks, lineClocks]
        omega
      rw [reached]
      exact gainsAt_leave_oamScan mode
  | transfer =>
      have onScreen : sweep.video.line.toNat < 144 := by simpa [mode] using blanking
      have reached : sweep.video.modeEnd = sweep.video.line.toNat * lineClocks + 252 := by
        simp only [ends, mode, Mode.start, Mode.duration, frameClocks, lineClocks]
        omega
      rw [reached]
      exact gainsAt_leave_transfer mode onScreen
  | hblank =>
      have onScreen : sweep.video.line.toNat < 144 := by simpa [mode] using blanking
      have number := toNat_line_succ sweep.video.line (by omega)
      have reached : sweep.video.modeEnd = (sweep.video.line.toNat + 1) * lineClocks := by
        simp only [ends, mode, Mode.start, Mode.duration, frameClocks, lineClocks]
        omega
      rw [reached]
      rcases Nat.lt_or_eq_of_le (Nat.succ_le_of_lt onScreen) with next | last
      · exact gainsAt_leave_hblank_next mode next
      · have below : sweep.video.line + 1 = 144 := UInt8.toNat_inj.mp (number.trans last)
        rw [Nat.succ_eq_add_one] at last
        rw [last]
        exact gainsAt_leave_hblank_last mode below
  | vblank =>
      rcases Nat.lt_or_eq_of_le (Nat.succ_le_of_lt inFrame) with next | last
      · have reached : sweep.video.modeEnd = (sweep.video.line.toNat + 1) * lineClocks := by
          simp only [ends, mode, Mode.start, Mode.duration, frameClocks, lineClocks]
          omega
        rw [reached]
        exact gainsAt_leave_vblank_next mode (blanking.mp mode) next
      · have bottom : sweep.video.line = 153 := UInt8.toNat_inj.mp (Nat.succ.inj last)
        have reached : sweep.video.modeEnd = 0 * lineClocks := by
          rw [ends, mode, bottom]
          rfl
        rw [reached]
        exact gainsAt_leave_vblank_last mode bottom

end

-----------------------------------------------------------------------------------------
-- One clock
-----------------------------------------------------------------------------------------

variable {video : Video}

/-- What is asked for depends on the two registers alone. -/
theorem AsksAt.congr {other : Video} {position : Nat} (asks : video.AsksAt position)
    (status : other.status = video.status) (compare : other.lineCompare = video.lineCompare)
    : other.AsksAt position := by
  have enables (bit : Nat) (least : 3 ≤ bit) (most : bit ≤ 6)
      : other.statusEnables bit = video.statusEnables bit := by
    rw [other.statusEnables_eq least most, video.statusEnables_eq least most, status]
  cases asks with
  | blank enabled line onScreen due =>
      rw [← enables 3 (by decide) (by decide)] at enabled
      exact .blank enabled line onScreen due
  | blanking enabled due =>
      rw [← enables 4 (by decide) (by decide)] at enabled
      exact .blanking enabled due
  | scan enabled line onScreen due =>
      rw [← enables 5 (by decide) (by decide)] at enabled
      exact .scan enabled line onScreen due
  | compare enabled inFrame due =>
      rw [← enables 6 (by decide) (by decide)] at enabled
      rw [← compare] at inFrame due
      exact .compare enabled inFrame due

theorem asksAt_congr {other : Video} {position : Nat} (status : other.status = video.status)
    (compare : other.lineCompare = video.lineCompare)
    : other.AsksAt position ↔ video.AsksAt position :=
  ⟨fun asks => asks.congr status.symm compare.symm, fun asks => asks.congr status compare⟩

/-- As long as the mode goes on nothing is due: on the screen the blank of a line begins with a mode
of its own.
-/
theorem Placed.gainsAt_within (placed : video.Placed)
    (goesOn : video.clock + 1 < video.mode.duration) (requests : UInt8)
    : video.GainsAt ((video.position + 1) % frameClocks) requests requests := by
  have line := placed.line
  have ends := start_add_duration_le video.mode
  have rest : video.mode.start + (video.clock + 1) < lineClocks := by omega
  have next : (video.position + 1) % frameClocks
      = video.line.toNat * lineClocks + (video.mode.start + (video.clock + 1)) := by
    unfold position frameClocks
    unfold lineClocks at *
    omega
  have unasked : ¬(video.line.toNat < 144 ∧ video.mode.start + (video.clock + 1) = 252
      ∧ video.statusEnables 3) := by
    rintro ⟨onScreen, started, -⟩
    have blanking := placed.blanking
    cases mode : video.mode with
    | oamScan | transfer | hblank =>
        simp only [mode, Mode.start, Mode.duration] at started goesOn
        omega
    | vblank => exact absurd (blanking.mp mode) (Nat.not_le_of_lt onScreen)
  rw [next]
  exact gainsAt_inLine (by omega) rest (gains_nothing not_false unasked)

/-- One clock requests what is due at the position it leads to: nothing as long as the mode goes on,
and otherwise what leaving it requests.
-/
theorem Placed.gainsAt_clock (placed : video.Placed) (on : video.lcdOn) (requests : UInt8)
    : video.GainsAt ((video.position + 1) % frameClocks) requests
        (video.advance 1 requests).requests := by
  let begun := video.begin 1 requests
  rw [video.advance_of_on on]
  rcases Nat.lt_or_eq_of_le (Nat.succ_le_of_lt placed.clock) with goesOn | ended
  · rw [Sweep.settle_of_clock_lt goesOn]
    exact placed.gainsAt_within goesOn requests
  · have left : begun.settle = begun.spend.leaveMode := by
      rw [Sweep.settle_of_due (Nat.le_of_eq ended.symm)]
      refine Sweep.settle_of_clock_lt ?_
      have spent : begun.spend.leaveMode.video.clock = 0 := by
        rw [Sweep.clock_leaveMode]
        exact Nat.sub_eq_zero_of_le (Nat.le_of_eq ended)
      rw [spent]
      exact Mode.duration_pos _
    have reached : begun.spend.video.modeEnd = (video.position + 1) % frameClocks := by
      have ends : begun.spend.video.modeEnd
          = (video.line.toNat * lineClocks + (video.mode.start + video.mode.duration))
            % frameClocks := rfl
      rw [ends, ← ended, position, Nat.succ_eq_add_one]
      simp only [Nat.add_assoc]
    have gains : begun.spend.video.GainsAt begun.spend.video.modeEnd begun.spend.requests
        begun.spend.leaveMode.requests :=
      gainsAt_leaveMode placed.line placed.blanking
    rw [reached] at gains
    rw [left]
    exact gains.congr .rfl (asksAt_congr rfl rfl)

-----------------------------------------------------------------------------------------
-- Runs
-----------------------------------------------------------------------------------------

/-- Running leaves the registers that enable interrupts alone. -/
theorem enabling_advance (video : Video) (clocks : Nat) (requests : UInt8)
    : (video.advance clocks requests).video.status = video.status
      ∧ (video.advance clocks requests).video.lineCompare = video.lineCompare := by
  cases on : video.lcdOn with
  | false =>
      rw [video.advance_of_off on]
      exact ⟨rfl, rfl⟩
  | true =>
      refine video.advance_preserves on clocks requests
        (fun sweep => sweep.video.status = video.status
          ∧ sweep.video.lineCompare = video.lineCompare) ⟨rfl, rfl⟩ ?_
      intro state due kept
      have leaving := state.spend.leaving
      generalize state.spend.leaveMode.video = after at leaving
      cases leaving <;> exact kept

/-- A time among the next clocks is one of the first of them or the last. -/
theorem exists_within_succ {position clocks : Nat} {property : Nat → Prop}
    : (∃ time, position < time ∧ time ≤ position + (clocks + 1) ∧ property time)
      ↔ (∃ time, position < time ∧ time ≤ position + clocks ∧ property time)
        ∨ property (position + clocks + 1) := by
  constructor
  · rintro ⟨time, after, before, holds⟩
    rcases Nat.lt_or_eq_of_le before with earlier | rfl
    · exact .inl ⟨time, after, Nat.le_of_lt_succ earlier, holds⟩
    · exact .inr holds
  · rintro (⟨time, after, before, holds⟩ | holds)
    · exact ⟨time, after, Nat.le_succ_of_le before, holds⟩
    · exact ⟨position + clocks + 1, by omega, by omega, holds⟩

/-- A run requests what is due at the positions that it comes to, by induction on its clocks. -/
theorem Placed.gains_advance (placed : video.Placed) (on : video.lcdOn) (clocks : Nat)
    (requests : UInt8)
    : Gains requests (video.advance clocks requests).requests
        (∃ time, video.position < time ∧ time ≤ video.position + clocks
          ∧ time % frameClocks = blankingPosition)
        (∃ time, video.position < time ∧ time ≤ video.position + clocks
          ∧ video.AsksAt (time % frameClocks)) := by
  induction clocks with
  | zero =>
      have still : (video.advance 0 requests).requests = requests := by
        rw [video.advance_of_on on, Sweep.settle_of_clock_lt placed.clock]
        rfl
      rw [still]
      refine gains_nothing ?_ ?_ <;>
        rintro ⟨time, after, before, -⟩ <;>
        omega
  | succ clocks ih =>
      let reached := video.advance clocks requests
      have there : reached.video.Placed := placed.advance clocks requests
      have displayed : reached.video.lcdOn := (video.kept_advance clocks requests).1.trans on
      have position : (reached.video.position + 1) % frameClocks
          = (video.position + clocks + 1) % frameClocks := by
        have moved : reached.video.position = (video.position + clocks) % frameClocks :=
          (placed.settled on).position_eq ((placed.settled on).advance clocks requests)
        rw [moved, Nat.mod_add_mod]
      obtain ⟨status, compare⟩ := video.enabling_advance clocks requests
      have last := there.gainsAt_clock displayed reached.requests
      rw [position] at last
      rw [← goOn_advance]
      refine (ih.trans last).congr exists_within_succ.symm ?_
      rw [exists_within_succ]
      exact or_congr_right (asksAt_congr status compare)

/-- With the display on, a run changes the requests only by adding to them. It adds the one for
vertical blanking exactly when it comes to the position where that begins, and the one for the
status interrupt exactly when it comes to a position where the registers ask for it. The clocks are
meant to fit into the counter of the mode, as always with `advance`.
-/
theorem requested_exactly_when_due (actions : List Action) (clocks : Nat) (requests : UInt8)
    (on : (initial.performAll actions).lcdOn)
    : let video := initial.performAll actions
      let run := video.advance clocks requests
      ∀ bit,
        run.requests.toNat.testBit bit
        ↔ requests.toNat.testBit bit
          ∨ bit = 0 ∧ (∃ time, video.position < time ∧ time ≤ video.position + clocks
            ∧ time % frameClocks = blankingPosition)
          ∨ bit = 1 ∧ (∃ time, video.position < time ∧ time ≤ video.position + clocks
            ∧ video.AsksAt (time % frameClocks)) :=
  (consistent_performAll actions).placed.gains_advance on clocks requests

/-- The first line below the screen is compared, and nothing else is enabled. -/
def comparing : List Action :=
  [.boot, .write 0xFF45 144, .write 0xFF41 0x40]

/-- The frame begins without a request; the comparison asks for one with the clock that leads to the
line.
-/
theorem requested_exactly_when_due_comparing
    : let video := initial.performAll comparing
      video.lcdOn
      ∧ (video.advance 65663 0).requests.toNat.testBit 1 = false
      ∧ (video.advance 65664 0).requests.toNat.testBit 1 := by
  intro video
  have on : video.lcdOn := by decide
  have start : video.position = 0 := by decide
  refine ⟨on, ?_, ?_⟩
  · rw [← Bool.not_eq_true, requested_exactly_when_due comparing 65663 0 on]
    rintro (before | ⟨other, -⟩ | ⟨-, time, -, early, asks⟩)
    · exact absurd before (by decide)
    · cases other
    · cases asks with
      | blank enabled | blanking enabled | scan enabled => exact absurd enabled (by decide)
      | compare enabled inFrame due =>
          have compared : video.lineCompare.toNat = 144 := by decide
          have sooner : time ≤ video.position + 65663 := early
          have there : time % frameClocks = video.lineCompare.toNat * lineClocks := due
          unfold frameClocks lineClocks at there
          omega
  · rw [requested_exactly_when_due comparing 65664 0 on]
    refine .inr (.inr ⟨rfl, 65664, ?_, ?_, ?_⟩)
    · decide
    · rw [start]
    · exact .compare (by decide) (by decide) (by decide)

end Handheld.Video
