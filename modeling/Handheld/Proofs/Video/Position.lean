import Handheld.Proofs.Video.Pace

/-! The position of the video unit within its frame. Every operation, also one that switches the
display off or on, leaves the unit somewhere in a frame; as long as the display stays on, the
position moves on by one with every clock and starts over with every frame.
-/

namespace Handheld.Video

/-- The unit stands within a frame, with vertical blanking below the screen, and stays in its
mode for at least one more clock.
-/
structure Placed (video : Video) : Prop where
  line : video.line.toNat < 154
  blanking : video.mode = .vblank ↔ 144 ≤ video.line.toNat
  clock : video.clock < video.mode.duration

/-- Clocks since the start of the frame. -/
def position (video : Video) : Nat :=
  video.line.toNat * lineClocks + video.mode.start + video.clock

variable {video : Video}

theorem Placed.settled (placed : video.Placed) (on : video.lcdOn)
    : video.Settled video.counted where
  on := on
  inFrame := placed.line
  blanking := placed.blanking
  counted := rfl
  clock := placed.clock

theorem Settled.placed {clocks : Nat} (settled : video.Settled clocks)
    : video.Placed where
  line := settled.inFrame
  blanking := settled.blanking
  clock := settled.clock

theorem Placed.position_lt (placed : video.Placed)
    : video.position < frameClocks := by
  have ends := start_add_duration_le video.mode
  have line := placed.line
  have clock := placed.clock
  unfold position frameClocks
  unfold lineClocks at *
  omega

/-- While the unit counts some clocks its position moves on by as many. -/
theorem Settled.position_eq {before after : Video} {counted clocks : Nat}
    (start : before.Settled counted) (final : after.Settled (counted + clocks))
    : after.position = (before.position + clocks) % frameClocks := by
  have startLess := start.placed.position_lt
  have finalLess := final.placed.position_lt
  have startTotal := start.counted
  have finalTotal := final.counted
  unfold Video.counted sinceBlanking at startTotal finalTotal
  unfold position frameClocks lineClocks at *
  have startLine := start.inFrame
  have finalLine := final.inFrame
  omega

-----------------------------------------------------------------------------------------
-- Operations
-----------------------------------------------------------------------------------------

theorem placed_initial
    : initial.Placed where
  line := by decide
  blanking := by decide
  clock := by decide

/-- A unit at the start of a line above vertical blanking stands within the frame. -/
theorem placed_of_line_zero (line : video.line = 0) (mode : video.mode ≠ .vblank)
    (clock : video.clock = 0)
    : video.Placed where
  line := by simp [line]
  blanking := by simp [line, mode]
  clock := by
    rw [clock]
    exact video.mode.duration_pos

/-- With the display off, time leaves the unit at the start of a frame. -/
theorem Placed.advance (placed : video.Placed) (clocks : Nat) (requests : UInt8)
    : (video.advance clocks requests).video.Placed := by
  by_cases on : video.lcdOn
  · exact ((placed.settled on).advance clocks requests).placed
  · unfold Video.advance
    rw [if_neg on]
    exact placed_of_line_zero rfl Mode.noConfusion rfl

theorem Placed.writeControl (placed : video.Placed) (value : UInt8)
    : (video.writeControl value).Placed := by
  have controlled := video.controlled value
  generalize video.writeControl value = after at controlled ⊢
  cases controlled with
  | kept same => exact ⟨placed.line, placed.blanking, placed.clock⟩
  | switchedOff off => exact placed_of_line_zero rfl Mode.noConfusion rfl
  | switchedOn on => exact placed_of_line_zero rfl Mode.noConfusion rfl

/-- Every operation leaves the unit within a frame, by cases of the operation. -/
theorem Placed.perform (placed : video.Placed) (action : Action)
    : (video.perform action).Placed := by
  cases action with
  | boot => exact placed_of_line_zero rfl Mode.noConfusion rfl
  | write address value =>
      simp only [Video.perform, writeAt]
      cases Register.at? address with
      | none => exact placed
      | some register =>
          cases register with
          | control => exact placed.writeControl value
          | _ => exact ⟨placed.line, placed.blanking, placed.clock⟩
  | advance clocks requests => exact placed.advance clocks requests
  | storeVram _ _ | storeOam _ _ | replaceObjects _ | acknowledge =>
      exact ⟨placed.line, placed.blanking, placed.clock⟩

end Handheld.Video
