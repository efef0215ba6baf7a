import Handheld.Proofs.Bus.Access

/-! The pace of the video unit. While the display is on, the pictures completed and the
position within the frame together count clocks: every clock moves the unit on by one, and
a picture is completed once in every 70224.
-/

namespace Handheld

/-- Clocks of its line that lie before a mode. -/
def Mode.start : Mode → Nat
  | .oamScan | .vblank => 0
  | .transfer => 80
  | .hblank => 252

namespace Video

/-- Clocks in a line. -/
def lineClocks : Nat :=
  456

/-- Clocks in a frame. -/
def frameClocks : Nat :=
  154 * lineClocks

/-- A mode ends within its line. -/
theorem start_add_duration_le (mode : Mode)
    : mode.start + mode.duration ≤ lineClocks := by
  cases mode <;> decide

/-- Clocks since vertical blanking last began. -/
def sinceBlanking (video : Video) : Nat :=
  (video.line.toNat + 10) % 154 * lineClocks + video.mode.start + video.clock

/-- Clocks counted by the completed pictures and the position within the frame. -/
def counted (video : Video) : Nat :=
  video.frames * frameClocks + video.sinceBlanking

/-- The display is on, its position lies within the frame with vertical blanking below the
screen, and the unit has counted some clocks.
-/
structure Counts (video : Video) (clocks : Nat) : Prop where
  on : video.lcdOn
  inFrame : video.line.toNat < 154
  blanking : video.mode = .vblank ↔ 144 ≤ video.line.toNat
  counted : clocks = video.counted

/-- The unit has counted some clocks and stays in its mode for at least one more. -/
structure Settled (video : Video) (clocks : Nat) : Prop extends Counts video clocks where
  clock : video.clock < video.mode.duration

/-- A settled unit is less than a frame past the start of vertical blanking. -/
theorem Settled.sinceBlanking_lt {video : Video} {clocks : Nat} (settled : video.Settled clocks)
    : video.sinceBlanking < frameClocks := by
  have ends := start_add_duration_le video.mode
  have clock := settled.clock
  have line : (video.line.toNat + 10) % 154 < 154 := Nat.mod_lt _ (by decide)
  unfold sinceBlanking frameClocks
  unfold lineClocks at *
  omega

/-- So its completed pictures are the whole frames that it has counted. -/
theorem Settled.frames_eq {video : Video} {clocks : Nat} (settled : video.Settled clocks)
    : video.frames = clocks / frameClocks := by
  have less := settled.sinceBlanking_lt
  have total := settled.counted
  unfold Video.counted at total
  unfold frameClocks lineClocks at *
  omega

/-- A unit that shows its first picture after start-up has counted the ten lines that would
have come before.
-/
theorem settled_afterBoot
    : initial.afterBoot.Settled (10 * lineClocks) where
  on := rfl
  inFrame := by decide
  blanking := by decide
  counted := by decide
  clock := by decide

-----------------------------------------------------------------------------------------
-- The passage of time
-----------------------------------------------------------------------------------------

/-- Leaving a mode makes up for the clocks spent in it, by cases of the mode: the position moves
on by as many, and past the last line on the screen a picture makes up for a whole frame.
-/
theorem Leaving.counts {before after : Video} {clocks : Nat} (leaving : before.Leaving after)
    (counts : before.Counts clocks)
    : after.Counts (clocks + before.mode.duration) := by
  obtain ⟨on, inFrame, blanking, total⟩ := counts
  have displayed := leaving.lcdOn.trans on
  unfold Video.counted sinceBlanking at total
  cases leaving with
  | scan mode =>
      simp only [mode, Mode.start, Mode.duration] at total blanking ⊢
      refine ⟨displayed, inFrame, by simpa [scanObjects] using blanking, ?_⟩
      simp only [Video.counted, sinceBlanking, scanObjects, Mode.start]
      omega
  | draw mode =>
      simp only [mode, Mode.start, Mode.duration] at total blanking ⊢
      refine ⟨displayed, inFrame, by simpa using blanking, ?_⟩
      simp only [Video.counted, sinceBlanking, Mode.start]
      omega
  | complete mode last =>
      have visible : before.line.toNat < 144 := by simpa [mode] using blanking
      have number := toNat_line_succ before.line (by omega)
      have below : (before.line + 1).toNat = 144 := by rw [last]; rfl
      simp only [mode, Mode.start, Mode.duration] at total ⊢
      refine ⟨displayed, by simp [below], by simp [below], ?_⟩
      simp only [Video.counted, sinceBlanking, below, Mode.start, Nat.add_mul]
      unfold frameClocks lineClocks at *
      omega
  | nextLine mode next =>
      have visible : before.line.toNat < 144 := by simpa [mode] using blanking
      have number := toNat_line_succ before.line (by omega)
      have below : (before.line + 1).toNat ≠ 144 := fun h => next (UInt8.toNat_inj.mp h)
      simp only [mode, Mode.start, Mode.duration] at total ⊢
      refine ⟨displayed, by simp only [number]; omega, ?_, ?_⟩
      · simp only [number, reduceCtorEq, false_iff]
        omega
      · simp only [Video.counted, sinceBlanking, number, Mode.start]
        unfold lineClocks at *
        omega
  | restart mode last =>
      simp only [mode, last, Mode.start, Mode.duration] at total ⊢
      refine ⟨displayed, by simp, by simp, ?_⟩
      have first : (0 : UInt8).toNat = 0 := rfl
      have bottom : (153 : UInt8).toNat = 153 := rfl
      simp only [Video.counted, sinceBlanking, Mode.start, first, bottom] at total ⊢
      unfold lineClocks at *
      omega
  | nextBlank mode next =>
      have hidden : 144 ≤ before.line.toNat := blanking.mp mode
      have above : before.line.toNat ≠ 153 := fun h => next (UInt8.toNat_inj.mp h)
      have number := toNat_line_succ before.line (by omega)
      simp only [mode, Mode.start, Mode.duration] at total ⊢
      refine ⟨displayed, by simp only [number]; omega, ?_, ?_⟩
      · simp only [number, true_iff]
        omega
      · simp only [Video.counted, sinceBlanking, number, Mode.start]
        unfold lineClocks at *
        omega

/-- So a mode whose time is over is left with the clocks counted before. -/
theorem Counts.leave {sweep : Sweep} {clocks : Nat} (counts : sweep.video.Counts clocks)
    (due : sweep.video.mode.duration ≤ sweep.video.clock)
    : sweep.spend.leaveMode.video.Counts clocks := by
  obtain ⟨on, inFrame, blanking, total⟩ := counts
  unfold Video.counted sinceBlanking at total
  have spent : sweep.spend.video.Counts (clocks - sweep.video.mode.duration) := by
    refine ⟨on, inFrame, blanking, ?_⟩
    simp only [Video.counted, sinceBlanking, Sweep.video_spend]
    omega
  have left := sweep.spend.leaving.counts spent
  simp only [Sweep.video_spend] at left
  rwa [Nat.sub_add_cancel (by omega)] at left

/-- A run with the display on counts its clocks. -/
theorem Counts.advance {video : Video} {counted : Nat} (counts : video.Counts counted)
    (clocks : Nat) (requests : UInt8)
    : (video.advance clocks requests).video.Settled (counted + clocks) := by
  have begun : (video.begin clocks requests).video.Counts (counted + clocks) := by
    refine ⟨counts.on, counts.inFrame, counts.blanking, ?_⟩
    have total := counts.counted
    unfold Video.counted sinceBlanking at total ⊢
    simp only [begin]
    omega
  refine ⟨?_, ?_⟩
  · exact advance_preserves counts.on clocks requests (fun sweep => sweep.video.Counts _) begun
      fun sweep due counts => counts.leave due
  · rw [video.advance_of_on counts.on]
    exact Sweep.clock_settle _

-----------------------------------------------------------------------------------------
-- Writes
-----------------------------------------------------------------------------------------

/-- Operations that writes make leave a settled unit where it is, unless the display is
switched off.
-/
theorem Settled.perform {video : Video} {clocks : Nat} (settled : video.Settled clocks)
    {address : UInt16} {value : UInt8} {action : Action}
    (made : action.MadeByWrite address value) (kept : address = 0xFF40 → switchesOn value)
    : (video.perform action).Settled clocks := by
  obtain ⟨⟨on, inFrame, blanking, total⟩, clock⟩ := settled
  cases action with
  | write register written =>
      obtain ⟨rfl, rfl⟩ := made
      simp only [Video.perform, writeAt]
      cases answers : Register.at? register with
      | none => exact ⟨⟨on, inFrame, blanking, total⟩, clock⟩
      | some which =>
          cases which with
          | control =>
              have same : switchesOn written = video.lcdOn :=
                (kept (Register.at?_eq_control_iff.mp answers)).trans on.symm
              change (video.writeControl written).Settled clocks
              rw [video.writeControl_of_same same]
              exact ⟨⟨same.trans on, inFrame, blanking, total⟩, clock⟩
          | _ => exact ⟨⟨on, inFrame, blanking, total⟩, clock⟩
  | storeVram cell value => exact ⟨⟨on, inFrame, blanking, total⟩, clock⟩
  | storeOam cell value => exact ⟨⟨on, inFrame, blanking, total⟩, clock⟩
  | replaceObjects objects => exact ⟨⟨on, inFrame, blanking, total⟩, clock⟩
  | boot | acknowledge | advance _ _ => exact made.elim

end Video

end Handheld
