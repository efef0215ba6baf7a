import Handheld.Proofs.Video.Sweep
import Handheld.Video.Register

/-! What can happen to the video unit, in any order: start-up, writes to its registers and
memories, a transfer to object memory, the passage of time.
-/

namespace Handheld.Video

/-- The control register answers at one address. -/
theorem Register.at?_eq_control_iff {address : UInt16}
    : at? address = some .control ↔ address = 0xFF40 := by
  constructor
  · intro answers
    have number : address.toNat = 0xFF40 := by grind [at?]
    exact UInt16.toNat_inj.mp number
  · rintro rfl
    rfl

/-- What a value written to the control register makes of the unit. -/
inductive Controlled (before : Video) (value : UInt8) : Video → Prop where
  | kept (same : switchesOn value = before.lcdOn)
    : Controlled before value { before with control := value }
  | switchedOff (off : switchesOn value = false)
    : Controlled before value
        { before with control := value, mode := .hblank, clock := 0, windowLine := 0, line := 0 }
  | switchedOn (on : switchesOn value)
    : Controlled before value
        { before with
          control := value
          mode := .oamScan
          clock := 0
          line := 0
          coincidence := 0 == before.lineCompare }

/-- A write to the control register does one of these, by cases of the display before it and
after it.
-/
theorem controlled (video : Video) (value : UInt8)
    : video.Controlled value (video.writeControl value) := by
  cases wasOn : video.lcdOn <;> cases isOn : switchesOn value
  case false.true =>
    rw [video.writeControl_of_on wasOn isOn]
    exact .switchedOn isOn
  case true.false =>
    rw [video.writeControl_of_off wasOn isOn]
    exact .switchedOff isOn
  all_goals
    have same : switchesOn value = video.lcdOn := isOn.trans wasOn.symm
    rw [video.writeControl_of_same same]
    exact .kept same

/-- An operation on the video unit. -/
inductive Action where
  | boot
  | write (address : UInt16) (value : UInt8)
  | storeVram (cell : Fin 0x2000) (value : UInt8)
  | storeOam (cell : Fin 0xA0) (value : UInt8)
  | replaceObjects (objects : Memory 0xA0)
  | acknowledge
  | advance (clocks : Nat) (requests : UInt8)

/-- The unit after an operation. -/
def perform (video : Video) : Action → Video
  | .boot => video.afterBoot
  | .write address value => video.writeAt address value
  | .storeVram cell value => { video with vram := video.vram.set cell value }
  | .storeOam cell value => { video with oam := video.oam.set cell value }
  | .replaceObjects objects => video.replaceObjects objects
  | .acknowledge => video.acknowledgeFrame
  | .advance clocks requests => (video.advance clocks requests).video

/-- Whether an operation completes a picture. -/
def completes (video : Video) : Action → Bool
  | .advance clocks requests => (video.advance clocks requests).frameDone
  | _ => false

/-- The unit after some operations, one after another. -/
def performAll (video : Video) (actions : List Action) : Video :=
  actions.foldl perform video

@[simp]
theorem performAll_nil (video : Video)
    : video.performAll [] = video :=
  rfl

@[simp]
theorem performAll_cons (video : Video) (action : Action) (rest : List Action)
    : video.performAll (action :: rest) = (video.perform action).performAll rest :=
  rfl

/-- Operations after some others go on from where those ended. -/
theorem performAll_append (video : Video) (first second : List Action)
    : video.performAll (first ++ second) = (video.performAll first).performAll second :=
  List.foldl_append

/-- What each of some operations preserves holds after all of them, by induction on them. -/
theorem performAll_preserves (property : Video → Prop) {actions : List Action}
    (step : ∀ action ∈ actions, ∀ state, property state → property (state.perform action))
    {video : Video} (holds : property video)
    : property (video.performAll actions) := by
  induction actions generalizing video with
  | nil => exact holds
  | cons action rest ih =>
      exact ih (fun other member => step other (List.mem_cons_of_mem _ member))
        (step action List.mem_cons_self video holds)

end Handheld.Video
