import Handheld.Proofs.Bus.Access
import Handheld.Proofs.Video.Elapse

/-! The announcement of a completed picture. It is there for whoever looks at the video unit from
outside: the unit itself never asks for it, so that one with an announcement pending goes on like
one without.
-/

namespace Handheld.Video

/-- The unit with a completed picture announced, if one is to be. -/
def announcing (video : Video) (ready : Bool) : Video :=
  { video with frameReady := video.frameReady || ready }

variable (ready : Bool)

/-- The unit differs from itself with the announcement taken back by that announcement. -/
theorem eq_announcing (video : Video)
    : video = video.acknowledgeFrame.announcing video.frameReady := by
  simp only [announcing, acknowledgeFrame, Bool.false_or]

-----------------------------------------------------------------------------------------
-- Registers
-----------------------------------------------------------------------------------------

theorem read_announcing (video : Video) (register : Register)
    : (video.announcing ready).read register = video.read register := by
  cases register <;> rfl

/-- A write does the same beside an announcement. One to the control register does so by cases of
what it makes of the display.
-/
theorem write_announcing (video : Video) (register : Register) (value : UInt8)
    : (video.announcing ready).write register value
      = (video.write register value).announcing ready := by
  cases register with
  | control =>
      change (video.announcing ready).writeControl value
        = (video.writeControl value).announcing ready
      have wasOn : (video.announcing ready).lcdOn = video.lcdOn := rfl
      by_cases same : switchesOn value = video.lcdOn
      · rw [writeControl_of_same _ same, writeControl_of_same _ (same.trans wasOn.symm)]
        rfl
      · cases on : video.lcdOn with
        | false =>
            have isOn : switchesOn value := by simpa [on] using same
            rw [writeControl_of_on _ on isOn, writeControl_of_on _ (wasOn.trans on) isOn]
            rfl
        | true =>
            have isOff : switchesOn value = false := by simpa [on] using same
            rw [writeControl_of_off _ on isOff, writeControl_of_off _ (wasOn.trans on) isOff]
            rfl
  | _ => rfl

-----------------------------------------------------------------------------------------
-- Time
-----------------------------------------------------------------------------------------

/-- A line is drawn without regard to an announcement. -/
theorem drawLine_announcing (video : Video)
    : (video.announcing ready).drawLine = video.drawLine.announcing ready := by
  unfold drawLine announcing
  simp only [lcdOn]
  split
  · split
    · rfl
    · rfl
  · rfl

namespace Sweep

/-- The sweep with a completed picture announced, if one is to be. -/
def announcing (sweep : Sweep) (ready : Bool) : Sweep :=
  { sweep with video := sweep.video.announcing ready }

theorem enter_announcing (sweep : Sweep) (mode : Mode)
    : (sweep.announcing ready).enter mode = (sweep.enter mode).announcing ready :=
  rfl

theorem moveTo_announcing (sweep : Sweep) (line : UInt8)
    : (sweep.announcing ready).moveTo line = (sweep.moveTo line).announcing ready :=
  rfl

/-- A picture that is completed now is announced in any case. -/
theorem completeFrame_announcing (sweep : Sweep)
    : (sweep.announcing ready).completeFrame = sweep.completeFrame.announcing ready :=
  rfl

/-- A mode is left alike with an announcement pending, by cases of the mode. -/
theorem leaveMode_announcing (sweep : Sweep)
    : (sweep.announcing ready).leaveMode = sweep.leaveMode.announcing ready := by
  cases mode : sweep.video.mode with
  | oamScan =>
      rw [sweep.leaveMode_oamScan mode, leaveMode_oamScan (sweep.announcing ready) mode,
        ← enter_announcing]
      rfl
  | transfer =>
      rw [sweep.leaveMode_transfer mode, leaveMode_transfer (sweep.announcing ready) mode,
        ← enter_announcing]
      simp only [announcing, drawLine_announcing]
  | hblank =>
      by_cases last : sweep.video.line + 1 = 144
      · rw [sweep.leaveMode_hblank_last mode last,
          leaveMode_hblank_last (sweep.announcing ready) mode last, ← enter_announcing,
          ← completeFrame_announcing, ← moveTo_announcing]
        rfl
      · rw [sweep.leaveMode_hblank_next mode last,
          leaveMode_hblank_next (sweep.announcing ready) mode last, ← enter_announcing,
          ← moveTo_announcing]
        rfl
  | vblank =>
      by_cases last : sweep.video.line = 153
      · rw [sweep.leaveMode_vblank_last mode last,
          leaveMode_vblank_last (sweep.announcing ready) mode last, ← enter_announcing,
          ← moveTo_announcing]
        rfl
      · rw [sweep.leaveMode_vblank_next mode last,
          leaveMode_vblank_next (sweep.announcing ready) mode last, ← moveTo_announcing]
        rfl

/-- A run settles alike, by induction on the modes that it passes. -/
theorem settle_announcing (sweep : Sweep)
    : (sweep.announcing ready).settle = sweep.settle.announcing ready := by
  fun_induction settle sweep with
  | case1 sweep settled => exact settle_of_clock_lt settled
  | case2 sweep unsettled ih =>
      have due : (sweep.announcing ready).video.mode.duration
          ≤ (sweep.announcing ready).video.clock :=
        Nat.le_of_not_lt unsettled
      have spent : (sweep.announcing ready).spend = sweep.spend.announcing ready := rfl
      rw [settle_of_due due, spent, leaveMode_announcing, ih]

end Sweep

/-- The unit goes on alike, whether its display is on or off. -/
theorem advance_announcing (video : Video) (clocks : Nat) (requests : UInt8)
    : (video.announcing ready).advance clocks requests
      = (video.advance clocks requests).announcing ready := by
  have same : (video.announcing ready).lcdOn = video.lcdOn := rfl
  cases on : video.lcdOn with
  | false =>
      rw [advance_of_off _ on, advance_of_off _ (same.trans on)]
      rfl
  | true =>
      rw [advance_of_on _ on, advance_of_on _ (same.trans on), ← Sweep.settle_announcing]
      rfl

-----------------------------------------------------------------------------------------
-- Pictures that stay announced
-----------------------------------------------------------------------------------------

/-- If any picture has been completed beyond some number of them, one is announced. -/
def Announces (video : Video) (earlier : Nat) : Prop :=
  video.frames ≤ earlier ∨ video.frameReady = true

variable {video : Video} {earlier : Nat}

/-- The end of a mode takes no announcement back: only an acknowledgement does. -/
theorem Announces.leave {after : Video} (announces : video.Announces earlier)
    (leaving : video.Leaving after)
    : after.Announces earlier := by
  cases leaving with
  | complete _ _ => exact .inr rfl
  | _ => exact announces

/-- So it stays while time passes, whether the display is on or off. -/
theorem Announces.advance (announces : video.Announces earlier) (clocks : Nat) (requests : UInt8)
    : (video.advance clocks requests).video.Announces earlier := by
  cases on : video.lcdOn with
  | false =>
      rw [advance_of_off _ on]
      exact announces
  | true =>
      refine advance_preserves on clocks requests (·.video.Announces earlier) announces ?_
      intro state _ before
      have spent : state.spend.video.Announces earlier := before
      exact spent.leave state.spend.leaving

/-- It stays under every operation that writes make. -/
theorem Announces.perform (announces : video.Announces earlier) {address : UInt16} {value : UInt8}
    {action : Action} (made : action.MadeByWrite address value)
    : (video.perform action).Announces earlier := by
  cases action with
  | write register written =>
      simp only [Video.perform, writeAt]
      cases Register.at? register with
      | none => exact announces
      | some which =>
          cases which with
          | control =>
              have controlled := video.controlled written
              change (video.writeControl written).Announces earlier
              generalize video.writeControl written = after at controlled ⊢
              cases controlled <;> exact announces
          | _ => exact announces
  | storeVram _ _ | storeOam _ _ | replaceObjects _ => exact announces
  | boot | acknowledge | advance _ _ => exact made.elim

end Handheld.Video
