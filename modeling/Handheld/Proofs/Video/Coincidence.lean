import Handheld.Proofs.Video.Consistency
import Mathlib.Data.List.Induction

/-! The coincidence bit of the status register. Whatever changes one of the two line registers
compares them, except that the display is switched off: this moves the unit to line 0, and the bit
goes on showing what was found before, until something compares the registers again.
-/

namespace Handheld.Video

-----------------------------------------------------------------------------------------
-- Comparisons
-----------------------------------------------------------------------------------------

/-- The bit shows whether the line registers agree. -/
def Truthful (video : Video) : Prop :=
  video.coincidence = video.linesMatch

/-- The bit is the third one of the status register. -/
theorem testBit_statusByte (video : Video)
    : video.statusByte.toNat.testBit 2 = video.coincidence := by
  have enables : Nat.testBit 0x78 2 = false := by decide
  have unused : Nat.testBit 0x80 2 = false := by decide
  have mode : video.mode.code.toNat.testBit 2 = false := by
    cases video.mode <;> decide
  have shown
      : (if video.coincidence then (0x04 : UInt8) else 0).toNat.testBit 2
        = video.coincidence := by
    cases video.coincidence <;> decide
  simp [statusByte, mode, shown, enables, unused]

/-- Every mode that moves to another line compares it, so leaving a mode keeps the bit truthful. -/
theorem Leaving.truthful {before after : Video} (leaving : before.Leaving after)
    (truthful : before.Truthful)
    : after.Truthful := by
  cases leaving with
  | scan mode => exact truthful
  | draw mode drawing windowLine => exact truthful
  | _ => rfl

variable {video : Video}

/-- Time keeps the bit truthful. With the display off it compares nothing, but the unit stands in
line 0 already.
-/
theorem Truthful.advance (truthful : video.Truthful)
    (start : video.lcdOn = false → video.line = 0) (clocks : Nat) (requests : UInt8)
    : (video.advance clocks requests).video.Truthful := by
  cases on : video.lcdOn with
  | true =>
      apply advance_preserves on clocks requests (fun sweep => sweep.video.Truthful) truthful
      intro sweep due holds
      exact sweep.spend.leaving.truthful holds
  | false =>
      rw [video.advance_of_off on, Truthful, truthful, linesMatch, start on]
      rfl

/-- Every operation keeps the bit truthful, unless it switches the display off. -/
theorem Truthful.perform (truthful : video.Truthful)
    (start : video.lcdOn = false → video.line = 0) {action : Action}
    (stays
      : ∀ value, action = .write 0xFF40 value → switchesOn value = false → video.lcdOn = false)
    : (video.perform action).Truthful := by
  cases action with
  | boot => rfl
  | write address value =>
      simp only [Video.perform, writeAt]
      cases answers : Register.at? address with
      | none => exact truthful
      | some register =>
          cases register with
          | control =>
              have controlled := video.controlled value
              simp only [Video.write]
              generalize video.writeControl value = after at controlled
              cases controlled with
              | kept same => exact truthful
              | switchedOff off =>
                  have stopped := stays value
                    (by rw [Register.at?_eq_control_iff.mp answers]) off
                  rw [Truthful, truthful, linesMatch, start stopped]
                  rfl
              | switchedOn on => rfl
          | lineCompare => rfl
          | _ => exact truthful
  | advance clocks requests => exact truthful.advance start clocks requests
  | storeVram _ _ | storeOam _ _ | replaceObjects _ | acknowledge => exact truthful

-----------------------------------------------------------------------------------------
-- While the display is off
-----------------------------------------------------------------------------------------

/-- An operation that compares the line registers also while the display is off. -/
def Action.Compares : Action → Prop
  | .boot => True
  | .write address value => address = 0xFF45 ∨ address = 0xFF40 ∧ switchesOn value
  | _ => False

/-- The compare register answers at one address. -/
theorem Register.at?_eq_lineCompare_iff {address : UInt16}
    : at? address = some .lineCompare ↔ address = 0xFF45 := by
  constructor
  · intro answers
    have number : address.toNat = 0xFF45 := by grind [at?]
    exact UInt16.toNat_inj.mp number
  · intro same
    rw [same]
    rfl

/-- With the display off, an operation that compares leaves the bit truthful. -/
theorem truthful_of_compares (off : video.lcdOn = false) {action : Action}
    (compares : action.Compares)
    : (video.perform action).Truthful := by
  cases action with
  | boot => rfl
  | write address value =>
      rcases compares with same | ⟨same, on⟩
      · rw [same]
        rfl
      · rw [same]
        change (video.writeControl value).Truthful
        rw [video.writeControl_of_on off on]
        rfl
  | _ => exact compares.elim

/-- With the display off, any other operation leaves it off, and the unit with its line registers
and the bit as they are.
-/
theorem perform_of_not_compares (off : video.lcdOn = false) (start : video.line = 0)
    {action : Action} (silent : ¬action.Compares)
    : let after := video.perform action
      after.lcdOn = false
      ∧ after.line = 0
      ∧ after.lineCompare = video.lineCompare
      ∧ after.coincidence = video.coincidence := by
  cases action with
  | boot => exact absurd trivial silent
  | write address value =>
      simp only [Action.Compares, not_or, not_and, Bool.not_eq_true] at silent
      simp only [Video.perform, writeAt]
      cases answers : Register.at? address with
      | none => exact ⟨off, start, rfl, rfl⟩
      | some register =>
          cases register with
          | control =>
              have same := silent.2 (Register.at?_eq_control_iff.mp answers)
              simp only [Video.write]
              rw [video.writeControl_of_same (same.trans off.symm)]
              exact ⟨same, start, rfl, rfl⟩
          | lineCompare => exact absurd (Register.at?_eq_lineCompare_iff.mp answers) silent.1
          | _ => exact ⟨off, start, rfl, rfl⟩
  | advance clocks requests =>
      simp only [Video.perform]
      rw [video.advance_of_off off]
      exact ⟨off, rfl, rfl, rfl⟩
  | storeVram _ _ | storeOam _ _ | replaceObjects _ | acknowledge => exact ⟨off, start, rfl, rfl⟩

/-- So do some of them, by induction on them. -/
theorem performAll_of_not_compares {actions : List Action} (off : video.lcdOn = false)
    (start : video.line = 0) (silent : ∀ action ∈ actions, ¬action.Compares)
    : let after := video.performAll actions
      after.line = 0
      ∧ after.lineCompare = video.lineCompare
      ∧ after.coincidence = video.coincidence := by
  induction actions generalizing video with
  | nil => exact ⟨start, rfl, rfl⟩
  | cons action rest ih =>
      obtain ⟨stillOff, stillStart, sameCompare, sameBit⟩ :=
        perform_of_not_compares off start (silent action (by simp))
      have later : ∀ other ∈ rest, ¬other.Compares := by
        intro other member
        exact silent other (by simp [member])
      obtain ⟨line, compare, bit⟩ := ih stillOff stillStart later
      exact ⟨line, compare.trans sameCompare, bit.trans sameBit⟩

-----------------------------------------------------------------------------------------
-- Histories
-----------------------------------------------------------------------------------------

/-- Some operations switched the display off in some line, and none has compared the line registers
since.
-/
def LeftIn (line : UInt8) (actions : List Action) : Prop :=
  ∃ earlier value later,
    actions = earlier ++ .write 0xFF40 value :: later
    ∧ (initial.performAll earlier).lcdOn
    ∧ switchesOn value = false
    ∧ (∀ action ∈ later, ¬action.Compares)
    ∧ (initial.performAll earlier).line = line

/-- An operation that compares nothing does not change where the display was switched off. -/
theorem LeftIn.concat {line : UInt8} {actions : List Action} (left : LeftIn line actions)
    {action : Action} (quiet : ¬action.Compares)
    : LeftIn line (actions ++ [action]) := by
  obtain ⟨earlier, value, later, rfl, on, off, silent, stood⟩ := left
  refine ⟨earlier, value, later ++ [action], by simp, on, off, ?_, stood⟩
  intro other member
  rcases List.mem_append.mp member with before | last
  · exact silent other before
  · rw [List.mem_singleton.mp last]
    exact quiet

/-- With the display off, only an operation that compares can switch it on. -/
theorem compares_of_switchesOn (off : video.lcdOn = false) (start : video.line = 0)
    {action : Action} (on : (video.perform action).lcdOn)
    : action.Compares := by
  by_contra silent
  have stillOff := (perform_of_not_compares off start silent).1
  rw [on] at stillOff
  cases stillOff

/-- With the display on the bit is truthful, by induction on the operations: the one that switches
the display on compares.
-/
theorem truthful_of_on (actions : List Action)
    : (initial.performAll actions).lcdOn → (initial.performAll actions).Truthful := by
  induction actions using List.reverseRecOn with
  | nil =>
      intro _
      rfl
  | append_singleton earlier action ih =>
      intro on
      rw [performAll_append, performAll_cons, performAll_nil] at on ⊢
      cases before : (initial.performAll earlier).lcdOn with
      | true =>
          refine (ih before).perform (by simp [before]) ?_
          intro value switched off
          subst switched
          change ((initial.performAll earlier).writeControl value).lcdOn at on
          rw [lcdOn_writeControl, off] at on
          cases on
      | false =>
          have start := ((consistent_performAll earlier).off before).2.1
          exact truthful_of_compares before (compares_of_switchesOn before start on)

/-- Once the display is switched off, the unit stands in line 0, and the bit shows whether the
compare register holds the line in which that happened.
-/
theorem LeftIn.coincidence_eq {line : UInt8} {actions : List Action} (left : LeftIn line actions)
    : let video := initial.performAll actions
      video.line = 0 ∧ video.coincidence = (line == video.lineCompare) := by
  obtain ⟨earlier, value, later, rfl, on, off, silent, rfl⟩ := left
  have truthful := truthful_of_on earlier on
  have switched : initial.performAll (earlier ++ .write 0xFF40 value :: later)
      = ((initial.performAll earlier).writeControl value).performAll later :=
    performAll_append ..
  have stopped := writeControl_of_off (initial.performAll earlier) on off
  generalize (initial.performAll earlier).writeControl value = after at switched stopped
  have stoppedOff : after.lcdOn = false := by
    rw [stopped]
    exact off
  have stoppedStart : after.line = 0 := by rw [stopped]
  obtain ⟨start, compare, bit⟩ := performAll_of_not_compares stoppedOff stoppedStart silent
  rw [switched]
  refine ⟨start, ?_⟩
  rw [bit, compare, stopped]
  exact truthful

/-- Only a display that was switched off leaves the bit other than truthful, by induction on the
operations.
-/
theorem leftIn_of_not_truthful (actions : List Action)
    : ¬(initial.performAll actions).Truthful → ∃ line, LeftIn line actions := by
  induction actions using List.reverseRecOn with
  | nil =>
      intro stale
      exact absurd rfl stale
  | append_singleton earlier action ih =>
      intro stale
      rw [performAll_append, performAll_cons, performAll_nil] at stale
      have start := fun off => ((consistent_performAll earlier).off off).2.1
      by_cases truthful : (initial.performAll earlier).Truthful
      · -- the last operation is the one that switched the display off
        by_contra elsewhere
        apply stale
        apply truthful.perform start
        intro value switched off
        by_contra on
        apply elsewhere
        refine ⟨_, earlier, value, [], by rw [switched], ?_, off, ?_, rfl⟩
        · exact (Bool.not_eq_false _).mp on
        · intro other member
          cases member
      · -- it was switched off before, and the last operation compared nothing
        obtain ⟨line, left⟩ := ih truthful
        have off : (initial.performAll earlier).lcdOn = false := by
          by_contra on
          exact truthful (truthful_of_on earlier ((Bool.not_eq_false _).mp on))
        have quiet : ¬action.Compares := by
          intro compares
          exact stale (truthful_of_compares off compares)
        exact ⟨line, left.concat quiet⟩

-----------------------------------------------------------------------------------------
-- The bit and the line registers
-----------------------------------------------------------------------------------------

/-- A stale comparison with the line in which the display was switched off is right about line 0,
unless that line was another one and the compare register holds either of them.
-/
theorem stale_eq_iff (line compare : UInt8)
    : (line == compare) = ((0 : UInt8) == compare)
      ↔ ¬(line ≠ 0 ∧ (compare = 0 ∨ compare = line)) := by
  by_cases start : line = 0
  · simp [start]
  · by_cases zero : compare = 0
    · simp [start, zero]
    · have other : ¬0 = compare := fun same => zero same.symm
      by_cases same : compare = line
      · simp [same, start, Ne.symm start]
      · have apart : ¬line = compare := fun equal => same equal.symm
        simp [zero, same, apart, other]

/-- The coincidence bit shows whether the line registers agree as long as the display is on. While
it is off, the bit is wrong exactly when the display was switched off in a line other than the
first, nothing has compared the registers since, and the compare register holds 0 or that line: the
unit has moved to line 0 without a comparison.
-/
theorem coincidence_truthful_iff (actions : List Action)
    : let video := initial.performAll actions
      let truthful :=
        (video.readAt 0xFF41).toNat.testBit 2 ↔ video.readAt 0xFF44 = video.readAt 0xFF45
      (video.lcdOn → truthful)
      ∧ (truthful
        ↔ ¬∃ line, LeftIn line actions
          ∧ line ≠ 0
          ∧ (video.readAt 0xFF45 = 0 ∨ video.readAt 0xFF45 = line)) := by
  intro video truthful
  have shown : truthful ↔ video.Truthful := by
    have bits : video.Truthful ↔ (video.coincidence ↔ video.line == video.lineCompare) :=
      Bool.eq_iff_iff
    rw [bits, beq_iff_eq, ← video.testBit_statusByte]
    rfl
  refine ⟨fun on => shown.mpr (truthful_of_on actions on), ?_⟩
  rw [shown]
  constructor
  · rintro right ⟨line, left, moved, compared⟩
    obtain ⟨start, bit⟩ := left.coincidence_eq
    have same : (line == video.lineCompare) = ((0 : UInt8) == video.lineCompare) := by
      rw [← bit, ← start]
      exact right
    exact (stale_eq_iff ..).mp same ⟨moved, compared⟩
  · intro never
    by_contra stale
    obtain ⟨line, left⟩ := leftIn_of_not_truthful actions stale
    obtain ⟨start, bit⟩ := left.coincidence_eq
    have other : ¬(line == video.lineCompare) = ((0 : UInt8) == video.lineCompare) := by
      rw [← bit, ← start]
      exact stale
    rw [stale_eq_iff, not_not] at other
    exact never ⟨line, left, other⟩

/-- The display is switched off a line after start-up. -/
def leftAfterLine : List Action :=
  [.boot, .advance 456 0, .write 0xFF40 0x11]

/-- Line 1 is not in the compare register, and the bit says so. Both registers hold 0 now, but the
bit goes on saying it.
-/
theorem coincidence_stale_leftAfterLine
    : let video := initial.performAll leftAfterLine
      video.readAt 0xFF44 = 0
      ∧ video.readAt 0xFF45 = 0
      ∧ (video.readAt 0xFF41).toNat.testBit 2 = false := by
  let begun := initial.afterBoot.begin 456 0
  let next := begun.spend.leaveMode.spend.leaveMode.spend.leaveMode
  have passed : begun.Passes next :=
    Sweep.Passes.start.leave (by decide) |>.leave (by decide) |>.leave (by decide)
  have settled : initial.afterBoot.advance 456 0 = next := by
    rw [advance_of_on _ rfl, passed.settle_eq]
    exact Sweep.settle_of_clock_lt (by decide)
  have switched : initial.performAll leftAfterLine = next.video.writeControl 0x11 := by
    rw [← settled]
    rfl
  rw [switched]
  decide

end Handheld.Video
