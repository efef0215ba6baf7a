import Handheld.Proofs.Board.Probe
import Handheld.Proofs.Video.Pace

/-! The pace of a board. Every step runs the video unit for the clocks that it takes, so as long
as no write switches the display off, the unit counts the clocks of all steps. A run until some
clocks have elapsed ends at most 40 clocks late.
-/

namespace Handheld.Board

/-- A write among some events switches the display off. -/
def SwitchesOff (events : List Event) : Prop :=
  ∃ value, .write 0xFF40 value ∈ events ∧ ¬Video.switchesOn value

/-- The display was switched off, or else the video unit has counted some clocks. -/
def OnPace (counted : Nat) (bus : Bus) (events : List Event) : Prop :=
  SwitchesOff events ∨ bus.video.Settled counted

variable {counted : Nat}

/-- A display that was switched off is not switched on again by what follows. -/
theorem SwitchesOff.mono {events more : List Event} (switched : SwitchesOff events)
    (grown : events ⊆ more)
    : SwitchesOff more := by
  obtain ⟨value, written, off⟩ := switched
  exact ⟨value, grown written, off⟩

/-- Without events no write switches the display off. -/
theorem not_switchesOff_nil
    : ¬SwitchesOff [] := by
  rintro ⟨value, written, -⟩
  cases written

/-- A write among two runs of events lies in one of them. -/
theorem switchesOff_append {events more : List Event}
    : SwitchesOff (events ++ more) ↔ SwitchesOff events ∨ SwitchesOff more := by
  constructor
  · rintro ⟨value, written, off⟩
    rcases List.mem_append.mp written with first | second
    · exact .inl ⟨value, first, off⟩
    · exact .inr ⟨value, second, off⟩
  · rintro (switched | switched)
    · exact switched.mono (List.subset_append_left _ _)
    · exact switched.mono (List.subset_append_right _ _)

/-- Pace is kept while the video unit stays as it is and events only grow. -/
theorem OnPace.mono {before after : Bus} {events more : List Event}
    (pace : OnPace counted before events) (same : after.video = before.video)
    (grown : events ⊆ more)
    : OnPace counted after more :=
  pace.imp (·.mono grown) fun settled => same ▸ settled

/-- Instructions and dispatches keep the pace: of all that they do, only a write can reach the
video unit.
-/
theorem onPace_keptByDispatch (counted : Nat)
    : Probed.KeptByDispatch (OnPace counted) where
  instruction _ pace := pace.mono rfl (List.subset_append_left _ _)
  noting := by
    rintro _ _ events ⟨noted, rfl⟩ pace
    exact pace.mono rfl (List.Subset.refl _)
  write {bus events} address value pace := by
    by_cases off : address = 0xFF40 ∧ ¬Video.switchesOn value
    · obtain ⟨rfl, off⟩ := off
      exact .inl ⟨value, by simp, off⟩
    · refine pace.imp (·.mono (List.subset_append_left _ _)) fun settled => ?_
      obtain ⟨actions, ended, made⟩ := bus.video_write address value
      have kept : address = 0xFF40 → Video.switchesOn value := by simpa using off
      rw [ended]
      exact Video.performAll_preserves (·.Settled counted)
        (fun action member _ settled => settled.perform (made action member) kept) settled
  resetDivider pace := pace.mono rfl (List.Subset.refl _)
  runTimer _ pace := pace.mono rfl (List.Subset.refl _)
  acknowledge _ pace := pace.mono rfl (List.subset_append_left _ _)

/-- The end of a step leaves the video unit alone. -/
@[simp]
theorem video_leaveBoot (board : Board)
    : board.leaveBoot.bus.video = board.bus.video := by
  unfold leaveBoot
  split <;> rfl

/-- A step counts the clocks that it takes: its instruction and its dispatch keep the pace, and
the video unit then runs for them.
-/
theorem OnPace.step {probed after : Probed} {clocks : Nat}
    (pace : OnPace counted probed.board.bus probed.events)
    (stepped : Board.step probed = .ok clocks after)
    : OnPace (counted + clocks) after.board.bus after.events := by
  obtain ⟨spent, serving, middle, served, executed, admitted, -, events, final⟩ :=
    Probed.step_ok stepped
  have parts := (onPace_keptByDispatch counted).keepsDispatch
  have executing := (parts.execute.ofInvariant_ok executed pace).2
  have admitting := (parts.admitInterrupt.ofInvariant_ok admitted executing).2
  rw [OnPace, final, events, video_leaveBoot]
  exact admitting.imp id fun settled => settled.advance clocks served.board.bus.requests

/-- A run counts the clocks that it takes, by induction on the steps it may take. -/
theorem OnPace.runUntil {goal steps elapsed total : Nat} {probed after : Probed}
    (pace : OnPace (counted + elapsed) probed.board.bus probed.events)
    (ran : Board.runUntil goal steps elapsed probed = .ok total after)
    : OnPace (counted + total) after.board.bus after.events := by
  induction steps generalizing elapsed probed with
  | zero =>
      cases ran
      exact pace
  | succ steps ih =>
      unfold Board.runUntil at ran
      split at ran
      · obtain ⟨clocks, middle, stepped, rest⟩ := Act.ok_of_bind ran
        refine ih ?_ rest
        rw [← Nat.add_assoc]
        exact pace.step stepped
      · cases ran
        exact pace

/-- A step takes between 4 and 44 clocks, in whole machine cycles. -/
theorem clocks_of_step {board after : Board} {clocks : Nat}
    (stepped : step board = .ok clocks after)
    : 4 ≤ clocks ∧ clocks ≤ 44 ∧ 4 ∣ clocks := by
  obtain ⟨_, -, rfl, bounds⟩ :=
    Probed.ok_of_besideBoard Probed.besideBoard_keepsStep.step stepped
  exact bounds

/-- A run that may take enough steps reaches its goal and ends at most 40 clocks late, by
induction on the steps.
-/
theorem total_of_runUntil {goal steps elapsed total : Nat} {board after : Board}
    (ran : runUntil goal steps elapsed board = .ok total after) (whole : 4 ∣ goal)
    (begun : 4 ∣ elapsed) (within : elapsed ≤ goal + 40) (enough : goal ≤ elapsed + 4 * steps)
    : goal ≤ total ∧ total ≤ goal + 40 ∧ 4 ∣ total := by
  induction steps generalizing elapsed board with
  | zero =>
      cases ran
      exact ⟨by omega, within, begun⟩
  | succ steps ih =>
      unfold runUntil at ran
      split at ran
      · obtain ⟨clocks, middle, stepped, rest⟩ := Act.ok_of_bind ran
        obtain ⟨least, most, cycles⟩ := clocks_of_step stepped
        exact ih rest (Nat.dvd_add begun cycles) (by omega) (by omega)
      · cases ran
        exact ⟨by omega, within, begun⟩

end Handheld.Board
