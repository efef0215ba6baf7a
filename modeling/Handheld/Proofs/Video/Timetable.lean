import Handheld.Proofs.Video.Consistency
import Mathlib.Order.Interval.Finset.Nat

/-! Where the video unit stands after any number of clocks. Its position within the frame says in
which line and mode it is and since when; with the display on the position moves on by one with
every clock and starts over after the last line. A picture is complete whenever the unit reaches
vertical blanking, so pictures are counted by counting positions.
-/

namespace Handheld.Video

-----------------------------------------------------------------------------------------
-- The position and what it determines
-----------------------------------------------------------------------------------------

/-- The position at which vertical blanking begins. -/
def blankingPosition : Nat :=
  144 * lineClocks

/-- The mode of the unit at a position. -/
def modeAt (position : Nat) : Mode :=
  if blankingPosition ≤ position then .vblank
  else if position % lineClocks < Mode.transfer.start then .oamScan
  else if position % lineClocks < Mode.hblank.start then .transfer
  else .hblank

/-- The unit is in the line and mode of a position, and has been there for the clocks since the
mode's start.
-/
structure StandsAt (video : Video) (position : Nat) : Prop where
  line : video.line.toNat = position / lineClocks
  mode : video.mode = modeAt position
  clock : (modeAt position).start + video.clock = position % lineClocks

variable {video : Video}

theorem Consistent.placed (consistent : video.Consistent)
    : video.Placed where
  line := Nat.lt_succ_of_le consistent.line
  blanking := consistent.blanking
  clock := consistent.clock

/-- On the screen a mode lasts from its start until the next one's. -/
theorem modeAt_of_onScreen {position clock : Nat} {mode : Mode}
    (visible : position < blankingPosition) (onScreen : mode ≠ .vblank)
    (rest : position % lineClocks = mode.start + clock) (within : clock < mode.duration)
    : modeAt position = mode := by
  unfold modeAt
  rw [if_neg (Nat.not_le_of_lt visible), rest]
  cases mode with
  | oamScan =>
      have early : Mode.oamScan.start + clock < Mode.transfer.start := by
        simp only [Mode.start, Mode.duration] at within ⊢
        omega
      rw [if_pos early]
  | transfer =>
      have late : ¬Mode.transfer.start + clock < Mode.transfer.start := by omega
      have early : Mode.transfer.start + clock < Mode.hblank.start := by
        simp only [Mode.start, Mode.duration] at within ⊢
        omega
      rw [if_neg late, if_pos early]
  | hblank =>
      have late : ¬Mode.hblank.start + clock < Mode.hblank.start := by omega
      have later : ¬Mode.hblank.start + clock < Mode.transfer.start := by
        simp only [Mode.start]
        omega
      rw [if_neg later, if_neg late]
  | vblank => exact absurd rfl onScreen

/-- A unit within a frame stands at its own position: the mode ends before the line does, so the
line is the quotient and the rest belongs to the mode.
-/
theorem Placed.standsAt (placed : video.Placed)
    : video.StandsAt video.position := by
  obtain ⟨-, blanking, clock⟩ := placed
  have ends := start_add_duration_le video.mode
  have parted : video.position
      = video.line.toNat * lineClocks + (video.mode.start + video.clock) :=
    Nat.add_assoc ..
  have inLine : video.mode.start + video.clock < lineClocks := by omega
  have line : video.position / lineClocks = video.line.toNat := by
    rw [parted]
    unfold lineClocks at *
    omega
  have rest : video.position % lineClocks = video.mode.start + video.clock := by
    rw [parted]
    unfold lineClocks at *
    omega
  have below : blankingPosition ≤ video.position ↔ video.mode = .vblank := by
    rw [blanking, ← line, Nat.le_div_iff_mul_le (by decide)]
    rfl
  have mode : modeAt video.position = video.mode := by
    by_cases hidden : video.mode = .vblank
    · unfold modeAt
      rw [if_pos (below.mpr hidden), hidden]
    · have visible : video.position < blankingPosition := by
        rw [← Nat.not_le, below]
        exact hidden
      exact modeAt_of_onScreen visible hidden rest clock
  exact ⟨line.symm, mode.symm, by rw [mode, rest]⟩

-----------------------------------------------------------------------------------------
-- Pictures
-----------------------------------------------------------------------------------------

/-- How many of the next clocks after a position bring the unit to vertical blanking. -/
def blankingsWithin (position clocks : Nat) : Nat :=
  ((Finset.Ioc position (position + clocks)).filter (· % frameClocks = blankingPosition)).card

/-- One clock more brings at most one blanking more. -/
theorem blankingsWithin_succ (position clocks : Nat)
    : blankingsWithin position (clocks + 1)
      = blankingsWithin position clocks
        + if (position + clocks + 1) % frameClocks = blankingPosition then 1 else 0 := by
  have grown : Finset.Ioc position (position + (clocks + 1))
      = insert (position + clocks + 1) (Finset.Ioc position (position + clocks)) := by
    ext time
    simp only [Finset.mem_Ioc, Finset.mem_insert]
    omega
  unfold blankingsWithin
  rw [grown, Finset.filter_insert]
  split
  · rw [Finset.card_insert_of_notMem (by simp)]
  · rfl

/-- Blankings are a frame apart, by induction on the clocks. -/
theorem blankingsWithin_eq (position clocks : Nat)
    : blankingsWithin position clocks
      = ((position + 10 * lineClocks) % frameClocks + clocks) / frameClocks := by
  induction clocks with
  | zero =>
      have within : (position + 10 * lineClocks) % frameClocks < frameClocks :=
        Nat.mod_lt _ (by decide)
      rw [Nat.add_zero, Nat.div_eq_of_lt within]
      simp [blankingsWithin]
  | succ clocks ih =>
      have due : (position + clocks + 1) % frameClocks = blankingPosition
          ↔ frameClocks ∣ (position + 10 * lineClocks) % frameClocks + clocks + 1 := by
        unfold blankingPosition frameClocks lineClocks
        omega
      rw [blankingsWithin_succ, ih, ← Nat.add_assoc, Nat.succ_div]
      simp only [due]

/-- Ten lines of vertical blanking lie before the start of a frame. -/
theorem Placed.sinceBlanking_eq (placed : video.Placed)
    : video.sinceBlanking = (video.position + 10 * lineClocks) % frameClocks := by
  have ends := start_add_duration_le video.mode
  have line := placed.line
  have clock := placed.clock
  unfold sinceBlanking position frameClocks
  unfold lineClocks at *
  omega

/-- With the display on, a run reports a picture when its count of pictures grows. -/
theorem frameDone_iff (on : video.lcdOn) (clocks : Nat) (requests : UInt8)
    : (video.advance clocks requests).frameDone
      ↔ video.frames < (video.advance clocks requests).video.frames := by
  have counted := advance_preserves on clocks requests
    (fun sweep =>
      video.frames ≤ sweep.video.frames
      ∧ (sweep.frameDone ↔ video.frames < sweep.video.frames))
    (by simp [begin])
    (by
      intro sweep due kept
      obtain ⟨grown, reported⟩ := kept
      have spent : sweep.spend.video.frames = sweep.video.frames := rfl
      rcases sweep.spend.completed_leaveMode with ⟨done, frames⟩ | ⟨done, -, frames⟩
      · rw [frames, spent]
        simp only [done, true_iff]
        omega
      · rw [frames, spent, done]
        exact ⟨grown, reported⟩)
  exact counted.2

-----------------------------------------------------------------------------------------
-- The passage of time
-----------------------------------------------------------------------------------------

/-- With the display off, time passes a consistent unit by. -/
theorem Consistent.advance_of_off (consistent : video.Consistent) (off : video.lcdOn = false)
    (clocks : Nat) (requests : UInt8)
    : video.advance clocks requests = { video, requests, frameDone := false } := by
  obtain ⟨mode, line, clock, windowLine⟩ := consistent.off off
  rw [video.advance_of_off off]
  congr 1
  cases video
  congr 1 <;> symm <;> assumption

/-- Time moves the unit on by one position a clock, and around the frame, while the display is on;
the position says where that is. Every time it reaches vertical blanking on the way it counts a
picture, and it reports whether there was one. With the display off it does nothing at all.
-/
theorem advance_along_frame (actions : List Action) (clocks : Nat) (requests : UInt8)
    : let video := initial.performAll actions
      let run := video.advance clocks requests
      (video.lcdOn
        → run.video.position = (video.position + clocks) % frameClocks
          ∧ run.video.StandsAt run.video.position
          ∧ run.video.frames = video.frames + blankingsWithin video.position clocks
          ∧ (run.frameDone ↔ 0 < blankingsWithin video.position clocks))
      ∧ (video.lcdOn = false → run = { video, requests, frameDone := false }) := by
  intro video run
  have consistent : video.Consistent := consistent_performAll actions
  refine ⟨fun on => ?_, fun off => consistent.advance_of_off off clocks requests⟩
  have start := consistent.placed.settled on
  have final : run.video.Settled (video.counted + clocks) := start.advance clocks requests
  have frames : run.video.frames = video.frames + blankingsWithin video.position clocks := by
    rw [final.frames_eq, blankingsWithin_eq, ← consistent.placed.sinceBlanking_eq]
    unfold counted
    rw [Nat.add_assoc, Nat.mul_comm, Nat.mul_add_div (by decide)]
  have reported : run.frameDone ↔ video.frames < run.video.frames :=
    frameDone_iff on clocks requests
  refine ⟨start.position_eq final, final.placed.standsAt, frames, ?_⟩
  rw [reported, frames]
  omega

end Handheld.Video
