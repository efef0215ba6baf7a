import Handheld.Proofs.Video.Action

/-! The objects latched for a line. They are found at the end of the scan of object memory and
painted one transfer later. Nothing but the height of objects can change for the line in the
meantime, so each of them still lies within sixteen rows of it, and has a row on it unless the
objects have become short since.
-/

namespace Handheld

-----------------------------------------------------------------------------------------
-- The scan
-----------------------------------------------------------------------------------------

/-- An inserted object stands among the others. -/
theorem Sprite.insert_perm (sprite : Sprite) (others : List Sprite)
    : (sprite.insert others).Perm (sprite :: others) := by
  induction others with
  | nil => exact .refl _
  | cons next rest ih =>
      rw [Sprite.insert]
      split
      · exact .refl _
      · exact (ih.cons next).trans (List.Perm.swap sprite next rest)

namespace Video

/-- Objects inserted one after another stand among those found before, by induction on them. -/
theorem foldl_insert_perm (sprites found : List Sprite)
    : (sprites.foldl (fun found s => s.insert found) found).Perm (sprites ++ found) := by
  induction sprites generalizing found with
  | nil => exact .refl _
  | cons sprite rest ih =>
      have inserted := (sprite.insert_perm found).append_left rest
      exact (ih (sprite.insert found)).trans (inserted.trans List.perm_middle)

/-- The scan latches the visible objects. -/
theorem sprites_scanObjects_perm (video : Video)
    : video.scanObjects.sprites.Perm video.visibleSprites := by
  have perm := foldl_insert_perm video.visibleSprites []
  rwa [List.append_nil] at perm

/-- Every latched object has a row on the line of the scan. -/
theorem touchesLine_of_mem_scanObjects {video : Video} {sprite : Sprite}
    (latched : sprite ∈ video.scanObjects.sprites)
    : video.touchesLine sprite := by
  have visible := video.sprites_scanObjects_perm.mem_iff.mp latched
  exact (List.mem_filter.mp (List.mem_of_mem_take visible)).2

/-- No more are latched than are drawn on a line. -/
theorem length_scanObjects_le (video : Video)
    : video.scanObjects.sprites.length ≤ spritesPerLine := by
  rw [video.sprites_scanObjects_perm.length_eq]
  exact List.length_take_le _ _

-----------------------------------------------------------------------------------------
-- What holds between the scan and the drawing
-----------------------------------------------------------------------------------------

/-- The objects are few, the line lies on the screen outside of vertical blanking, and while
a line is transferred its objects begin less than sixteen rows above it.
-/
structure Latched (video : Video) : Prop where
  few : video.sprites.length ≤ spritesPerLine
  onScreen : video.lcdOn → video.mode ≠ .vblank → video.line.toNat < screenHeight
  near : video.lcdOn → video.mode = .transfer → ∀ sprite ∈ video.sprites,
    sprite.y ≤ video.line.toNat ∧ video.line.toNat < sprite.y + 16

/-- While a line is transferred each of its objects has a row on it. -/
def Touching (video : Video) : Prop :=
  video.lcdOn → video.mode = .transfer → ∀ sprite ∈ video.sprites, video.touchesLine sprite

/-- An object is eight or sixteen rows high. -/
theorem spriteHeight_eq (video : Video)
    : video.spriteHeight = 8 ∨ video.spriteHeight = 16 := by
  unfold spriteHeight
  split
  · exact .inr rfl
  · exact .inl rfl

/-- An object with a row on the line begins at or above it and ends below. -/
theorem touchesLine_iff {video : Video} {sprite : Sprite}
    : video.touchesLine sprite
      ↔ sprite.y ≤ video.line.toNat ∧ video.line.toNat < sprite.y + video.spriteHeight := by
  simp [touchesLine]

/-- Objects with a row on the line are near it. -/
theorem near_of_touchesLine {video : Video} {sprite : Sprite} (touches : video.touchesLine sprite)
    : sprite.y ≤ video.line.toNat ∧ video.line.toNat < sprite.y + 16 := by
  obtain ⟨above, below⟩ := touchesLine_iff.mp touches
  rcases video.spriteHeight_eq with short | tall
  · omega
  · omega

variable {before after : Video}

/-- Only the scan leads to a transfer, so then each object has a row on the line. -/
theorem Leaving.touching (leaving : before.Leaving after)
    : after.Touching := by
  intro _ transfers
  cases leaving with
  | scan mode => exact fun _ latched => touchesLine_of_mem_scanObjects latched
  | nextBlank mode _ => cases mode.symm.trans transfers
  | draw | complete | nextLine | restart => cases transfers

/-- Leaving a mode latches no more objects than are drawn on a line. -/
theorem Leaving.few (leaving : before.Leaving after)
    (few : before.sprites.length ≤ spritesPerLine)
    : after.sprites.length ≤ spritesPerLine := by
  cases leaving with
  | scan mode => exact before.length_scanObjects_le
  | draw | complete | nextLine | restart | nextBlank => exact few

/-- Leaving a mode, the line stays on the screen outside of vertical blanking. -/
theorem Leaving.onScreen (leaving : before.Leaving after)
    (onScreen : before.mode ≠ .vblank → before.line.toNat < screenHeight)
    (outside : after.mode ≠ .vblank)
    : after.line.toNat < screenHeight := by
  cases leaving with
  | scan mode | draw mode => exact onScreen (by simp [mode])
  | complete => exact absurd rfl outside
  | nextLine mode next =>
      have height : screenHeight = 144 := rfl
      have visible := onScreen (by simp [mode])
      have number := toNat_line_succ before.line (by omega)
      have different : (before.line + 1).toNat ≠ 144 := fun h => next (UInt8.toNat_inj.mp h)
      change (before.line + 1).toNat < screenHeight
      omega
  | restart =>
      change (0 : UInt8).toNat < screenHeight
      decide
  | nextBlank mode => exact absurd mode outside

/-- Leaving a mode keeps what holds for the latched objects. -/
theorem Latched.leave (latched : before.Latched) (on : before.lcdOn)
    (leaving : before.Leaving after)
    : after.Latched where
  few := leaving.few latched.few
  onScreen _ := leaving.onScreen (latched.onScreen on)
  near displayed transfers sprite latched :=
    near_of_touchesLine (leaving.touching displayed transfers sprite latched)

-----------------------------------------------------------------------------------------
-- The passage of time
-----------------------------------------------------------------------------------------

/-- What holds for the latched objects holds in all states that a run passes. -/
theorem Latched.passes {start sweep : Sweep} (latched : start.video.Latched)
    (on : start.video.lcdOn) (passed : start.Passes sweep)
    : sweep.video.lcdOn ∧ sweep.video.Latched := by
  refine passed.preserves (fun state => state.video.lcdOn ∧ state.video.Latched) ⟨on, latched⟩ ?_
  rintro state - ⟨on, few, onScreen, near⟩
  have spent : state.spend.video.Latched := ⟨few, onScreen, near⟩
  exact ⟨state.spend.leaving.lcdOn.trans on, spent.leave on state.spend.leaving⟩

/-- So does that they have rows on the line. -/
theorem Touching.passes {start sweep : Sweep} (touching : start.video.Touching)
    (passed : start.Passes sweep)
    : sweep.video.Touching :=
  passed.preserves (·.video.Touching) touching fun state _ _ => state.spend.leaving.touching

/-- A line is drawn from a state while the unit runs for some clocks: the run comes to the end of
a transfer.
-/
def Draws (video : Video) (clocks : Nat) (requests : UInt8) (drawn : Video) : Prop :=
  video.lcdOn
  ∧ ∃ sweep,
      (video.begin clocks requests).Passes sweep
      ∧ sweep.video.mode = .transfer
      ∧ sweep.video.mode.duration ≤ sweep.video.clock
      ∧ drawn = sweep.spend.video

/-- While a line is transferred, running for the time of a transfer draws it. -/
theorem draws_of_transfer {video : Video} (on : video.lcdOn) (mode : video.mode = .transfer)
    (requests : UInt8)
    : video.Draws 172 requests video := by
  have spent : video.clock = video.clock + 172 - video.mode.duration := by
    rw [mode]
    exact (Nat.add_sub_cancel video.clock 172).symm
  refine ⟨on, video.begin 172 requests, .start, mode, ?_, ?_⟩
  · simp [begin, mode, Mode.duration]
  · change video = { video with clock := video.clock + 172 - video.mode.duration }
    rw [← spent]

variable {video drawn : Video} {clocks : Nat} {requests : UInt8}

/-- A line is drawn on the screen, with objects that were latched for it. -/
theorem Latched.draws (latched : video.Latched) (draws : video.Draws clocks requests drawn)
    : drawn.sprites.length ≤ spritesPerLine
      ∧ drawn.line.toNat < screenHeight
      ∧ ∀ sprite ∈ drawn.sprites,
          sprite.y ≤ drawn.line.toNat ∧ drawn.line.toNat < sprite.y + 16 := by
  obtain ⟨on, sweep, passed, transfers, -, rfl⟩ := draws
  have begun : (video.begin clocks requests).video.Latched :=
    ⟨latched.few, latched.onScreen, latched.near⟩
  obtain ⟨displayed, few, onScreen, near⟩ := begun.passes on passed
  exact ⟨few, onScreen displayed (by simp [transfers]), near displayed transfers⟩

/-- It is drawn with objects that have rows on it, if those of the state have. -/
theorem Touching.draws (touching : video.Touching) (latched : video.Latched)
    (draws : video.Draws clocks requests drawn)
    : ∀ sprite ∈ drawn.sprites, drawn.touchesLine sprite := by
  obtain ⟨on, sweep, passed, transfers, -, rfl⟩ := draws
  have begun : (video.begin clocks requests).video.Latched :=
    ⟨latched.few, latched.onScreen, latched.near⟩
  have starting : (video.begin clocks requests).video.Touching := touching
  have met : sweep.video.Touching := starting.passes passed
  exact met (begun.passes on passed).1 transfers

-----------------------------------------------------------------------------------------
-- Operations
-----------------------------------------------------------------------------------------

/-- A write that makes objects short while a line with tall ones is transferred. -/
def Shortens (video : Video) : Action → Prop
  | .write address value =>
      address = 0xFF40
      ∧ video.mode = .transfer
      ∧ video.control &&& 0x04 ≠ 0
      ∧ value &&& 0x04 = 0
  | _ => False

/-- At the start of a frame nothing is transferred. -/
theorem latched_of_line_zero (few : video.sprites.length ≤ spritesPerLine)
    (line : video.line = 0) (mode : video.mode ≠ .transfer)
    : video.Latched where
  few := few
  onScreen _ _ := by rw [line]; decide
  near _ transfers := absurd transfers mode

/-- A write to the control register keeps what holds for the latched objects. -/
theorem Latched.controlled (latched : before.Latched) {value : UInt8}
    (controlled : before.Controlled value after)
    : after.Latched := by
  obtain ⟨few, onScreen, near⟩ := latched
  cases controlled with
  | kept same => exact ⟨few, fun on => onScreen (same ▸ on), fun on => near (same ▸ on)⟩
  | switchedOff | switchedOn => exact latched_of_line_zero few rfl nofun

/-- So does a write to any register, since the others leave the line and its objects alone. -/
theorem Latched.write (latched : video.Latched) (register : Register) (value : UInt8)
    : (video.write register value).Latched := by
  cases register
  case control => exact latched.controlled (video.controlled value)
  all_goals exact ⟨latched.few, latched.onScreen, latched.near⟩

/-- So does every operation, by cases of the operation. -/
theorem Latched.perform (latched : video.Latched) (action : Action)
    : (video.perform action).Latched := by
  have ⟨few, onScreen, near⟩ := latched
  cases action with
  | boot => exact latched_of_line_zero few rfl nofun
  | write address value =>
      simp only [Video.perform, writeAt]
      cases Register.at? address with
      | none => exact ⟨few, onScreen, near⟩
      | some register => exact latched.write register value
  | advance clocks requests =>
      simp only [Video.perform]
      cases on : video.lcdOn with
      | true =>
          have begun : (video.begin clocks requests).video.Latched := ⟨few, onScreen, near⟩
          rw [video.advance_of_on on]
          exact (begun.passes on (Sweep.passes_settle _)).2
      | false =>
          rw [video.advance_of_off on]
          exact latched_of_line_zero few rfl nofun
  | storeVram | storeOam | replaceObjects | acknowledge => exact ⟨few, onScreen, near⟩

/-- Objects keep their rows on the line when they stay as high or become higher. -/
theorem touchesLine_of_spriteHeight_le {other : Video} {sprite : Sprite}
    (touches : video.touchesLine sprite) (line : other.line = video.line)
    (higher : video.spriteHeight ≤ other.spriteHeight)
    : other.touchesLine sprite := by
  rw [touchesLine_iff] at touches ⊢
  rw [line]
  omega

/-- Another control value makes objects no shorter unless it clears their height. -/
theorem spriteHeight_le_of_control {value : UInt8}
    (kept : video.control &&& 0x04 ≠ 0 → value &&& 0x04 ≠ 0)
    : video.spriteHeight ≤ ({ video with control := value } : Video).spriteHeight := by
  unfold spriteHeight
  simp only [bne_iff_ne, ne_eq]
  split
  · exact Nat.le_of_eq (if_pos (kept ‹_›)).symm
  · split <;> decide

/-- A write to the control register leaves the objects their rows, unless it shortens them. -/
theorem Touching.controlled (touching : before.Touching) {value : UInt8}
    (controlled : before.Controlled value after)
    (kept : before.mode = .transfer → before.control &&& 0x04 ≠ 0 → value &&& 0x04 ≠ 0)
    : after.Touching := by
  intro on transfers sprite latched
  cases controlled with
  | kept same =>
      have touches := touching (same ▸ on) transfers sprite latched
      have higher := spriteHeight_le_of_control (kept transfers)
      exact touchesLine_of_spriteHeight_le touches rfl higher
  | switchedOff | switchedOn => cases transfers

/-- So does a write to any register. -/
theorem Touching.write (touching : video.Touching) (register : Register) {value : UInt8}
    (kept : register = .control → video.mode = .transfer
      → video.control &&& 0x04 ≠ 0 → value &&& 0x04 ≠ 0)
    : (video.write register value).Touching := by
  cases register
  case control => exact touching.controlled (video.controlled value) (kept rfl)
  all_goals exact touching

/-- So does every operation that does not shorten objects, by cases of the operation. -/
theorem Touching.perform (touching : video.Touching) {action : Action}
    (kept : ¬video.Shortens action)
    : (video.perform action).Touching := by
  cases action with
  | boot => exact fun _ transfers => by cases transfers
  | write address value =>
      simp only [Video.perform, writeAt]
      cases answers : Register.at? address with
      | none => exact touching
      | some register =>
          refine touching.write register ?_
          rintro rfl transfers tall short
          exact kept ⟨Register.at?_eq_control_iff.mp answers, transfers, tall, short⟩
  | advance clocks requests =>
      simp only [Video.perform]
      cases on : video.lcdOn with
      | true =>
          have starting : (video.begin clocks requests).video.Touching := touching
          rw [video.advance_of_on on]
          exact starting.passes (Sweep.passes_settle _)
      | false =>
          rw [video.advance_of_off on]
          exact fun _ transfers => by cases transfers
  | storeVram | storeOam | replaceObjects | acknowledge => exact touching

end Video

end Handheld
