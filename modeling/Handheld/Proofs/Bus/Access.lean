import Handheld.Bus.Access
import Handheld.Proofs.Coupling
import Handheld.Proofs.Video.Action

/-! What an access through the bus can change. A read only notes unmodelled registers; a write
reaches the interrupt requests at one address, and the video unit by a few operations.
-/

namespace Handheld

-----------------------------------------------------------------------------------------
-- Registers among the addresses
-----------------------------------------------------------------------------------------

namespace Location

/-- Requests and the registers of timer and video unit stand only in the register page. -/
theorem ofAddress_cases (address : UInt16)
    : ofAddress address = ofRegister address
      ∨ ofAddress address ≠ .requests
        ∧ (∀ register, ofAddress address ≠ .timer register)
        ∧ ∀ register, ofAddress address ≠ .video register := by
  by_cases page : address.toNat < 0xFF80
  · grind [ofAddress]
  · grind [ofAddress]

/-- The interrupt requests stand at one address. -/
theorem ofAddress_eq_requests_iff {address : UInt16}
    : ofAddress address = .requests ↔ address = 0xFF0F := by
  constructor
  · intro located
    rcases ofAddress_cases address with page | ⟨absent, -⟩
    · rw [page] at located
      grind [ofRegister]
    · exact absurd located absent
  · rintro rfl
    rfl

/-- A register of the video unit stands where the unit answers. -/
theorem at?_of_ofAddress_eq_video {address : UInt16} {register : Video.Register}
    (located : ofAddress address = .video register)
    : Video.Register.at? address = some register := by
  rcases ofAddress_cases address with page | ⟨-, -, absent⟩
  · rw [page] at located
    grind [ofRegister]
  · exact absurd located (absent register)

end Location

namespace Bus

-----------------------------------------------------------------------------------------
-- Reads
-----------------------------------------------------------------------------------------

/-- A bus that has noted some accesses since it was in another state. -/
def Noting (before after : Bus) : Prop :=
  ∃ noted, after = { before with noted }

/-- A bus has noted at most an access. -/
theorem noting_note (bus : Bus) (address : UInt16)
    : bus.Noting (bus.note address) := by
  unfold note
  split
  · exact ⟨bus.noted, rfl⟩
  · exact ⟨_, rfl⟩

/-- Noting goes on from where it was. -/
theorem Noting.trans {first second third : Bus} (left : first.Noting second)
    (right : second.Noting third)
    : first.Noting third := by
  obtain ⟨_, rfl⟩ := left
  obtain ⟨noted, rfl⟩ := right
  exact ⟨noted, rfl⟩

/-- A read notes at most its access. -/
theorem noting_read (bus : Bus) (address : UInt16)
    : bus.Noting ((read address).endsIn bus) := by
  unfold Act.endsIn read
  cases bus.peek address with
  | error fault => exact ⟨bus.noted, rfl⟩
  | ok value =>
      dsimp only
      split
      · exact bus.noting_note address
      · exact ⟨bus.noted, rfl⟩

end Bus

namespace Coupling

variable {coupling : Coupling Bus Bus}

/-- What every read keeps, reads at successive addresses keep, by induction on their number. -/
theorem Keeps.readRun
    (reads : ∀ address, coupling.Keeps Eq (Bus.read address) (Bus.read address)) (count : Nat)
    (address : UInt16)
    : coupling.Keeps Eq (Bus.readRun count address) (Bus.readRun count address) := by
  induction count generalizing address with
  | zero => exact .pure rfl
  | succ count ih =>
      exact (reads address).andThen fun _ => (ih (address + 1)).andThen fun _ => .pure rfl

/-- So does reading the page of a transfer. -/
theorem Keeps.readPage
    (reads : ∀ address, coupling.Keeps Eq (Bus.read address) (Bus.read address)) (page : UInt8)
    : coupling.Keeps Eq (Bus.readPage page) (Bus.readPage page) :=
  (Keeps.readRun reads 0xA0 _).andThen fun _ => .pure rfl

/-- Buses with the same cartridge have it written alike, if they may have any other one put back. -/
theorem Keeps.writeCartridge
    (same : ∀ left right, coupling.related left right → right.cartridge = left.cartridge)
    (inserted
      : ∀ left right cartridge,
        coupling.related left right
        → coupling.related (left.eject.insert cartridge) (right.eject.insert cartridge))
    (address : UInt16) (value : UInt8)
    : coupling.Keeps Eq (Bus.writeCartridge address value) (Bus.writeCartridge address value) := by
  intro left right related
  unfold Bus.writeCartridge
  rw [same left right related]
  cases left.cartridge with
  | none => exact .ok rfl related
  | some cartridge =>
      dsimp only
      cases Cartridge.write address value cartridge with
      | ok _ after => exact .ok rfl (inserted left right after related)
      | error fault after => exact .error (inserted left right after related)

end Coupling

namespace Bus

/-- Reading the page of a transfer notes at most its accesses. -/
theorem noting_readPage (bus : Bus) (page : UInt8)
    : bus.Noting ((readPage page).endsIn bus) := by
  have reads (address : UInt16)
      : (Coupling.ofInvariant bus.Noting).Keeps Eq (read address) (read address) :=
    .ofInvariant fun middle noting => noting.trans (middle.noting_read address)
  exact (Coupling.Keeps.readPage reads page).invariant ⟨bus.noted, rfl⟩

-----------------------------------------------------------------------------------------
-- Writes
-----------------------------------------------------------------------------------------

/-- A write to the cartridge changes nothing else. -/
theorem endsIn_writeCartridge (bus : Bus) (address : UInt16) (value : UInt8)
    : ∃ cartridge, (writeCartridge address value).endsIn bus = { bus with cartridge } := by
  unfold Act.endsIn writeCartridge
  cases inserted : bus.cartridge with
  | none => exact ⟨bus.cartridge, rfl⟩
  | some cartridge =>
      dsimp only
      cases Cartridge.write address value cartridge with
      | ok _ after => exact ⟨some after, rfl⟩
      | error fault after => exact ⟨some after, rfl⟩

/-- A write to an unmodelled register notes at most its access. -/
theorem noting_writeUnmodelled (bus : Bus) (address : UInt16)
    : bus.Noting ((writeUnmodelled address).endsIn bus) := by
  unfold Act.endsIn writeUnmodelled
  cases bus.policy with
  | strict => exact ⟨bus.noted, rfl⟩
  | bestEffort => exact bus.noting_note address

/-- A transfer to object memory sets the page register, notes accesses and may replace the
objects.
-/
theorem endsIn_transferObjects (bus : Bus) (page : UInt8)
    : ∃ noted video,
        (transferObjects page).endsIn bus = { bus with noted, video }
        ∧ (video = bus.video.write .transferPage page
          ∨ ∃ objects, video = (bus.video.write .transferPage page).replaceObjects objects) := by
  let paged : Bus := { bus with video := bus.video.write .transferPage page }
  have reading := paged.noting_readPage page
  have chain : (transferObjects page).endsIn bus
      = Act.endsIn (readPage page >>= fun objects => modifyVideo (·.replaceObjects objects))
          paged := rfl
  rw [chain, Act.endsIn_bind]
  unfold Act.endsIn at reading
  cases ended : readPage page paged with
  | ok objects after =>
      rw [ended] at reading
      obtain ⟨noted, rfl⟩ := reading
      exact ⟨noted, _, rfl, .inr ⟨objects, rfl⟩⟩
  | error fault after =>
      rw [ended] at reading
      obtain ⟨noted, rfl⟩ := reading
      exact ⟨noted, _, rfl, .inl rfl⟩

/-- A write to the interrupt requests replaces them. -/
theorem requests_write_requests (bus : Bus) (value : UInt8)
    : ((write 0xFF0F value).endsIn bus).requests = value &&& 0x1F :=
  rfl

/-- Where neither the requests nor the timer stand, a write leaves both alone, by cases of what the
address stands for.
-/
theorem write_elsewhere (bus : Bus) {address : UInt16}
    (notRequests : Location.ofAddress address ≠ .requests)
    (notTimer : ∀ register, Location.ofAddress address ≠ .timer register) (value : UInt8)
    : ((write address value).endsIn bus).requests = bus.requests
      ∧ ((write address value).endsIn bus).timer = bus.timer := by
  unfold write
  cases located : Location.ofAddress address with
  | requests => exact absurd located notRequests
  | timer register => exact absurd located (notTimer register)
  | rom | cartridgeRam =>
      obtain ⟨cartridge, ended⟩ := bus.endsIn_writeCartridge address value
      simp only [writeLocation, ended, and_self]
  | video register =>
      cases register with
      | transferPage =>
          obtain ⟨noted, video, ended, -⟩ := bus.endsIn_transferObjects value
          simp only [writeLocation, ended, and_self]
      | _ => exact ⟨rfl, rfl⟩
  | bootSwitch =>
      simp only [writeLocation]
      split <;> exact ⟨rfl, rfl⟩
  | peripheral | unmapped =>
      obtain ⟨noted, ended⟩ := bus.noting_writeUnmodelled address
      simp only [writeLocation, ended, and_self]
  | _ => exact ⟨rfl, rfl⟩

/-- Writes to other addresses leave the interrupt requests alone, those to the timer included. -/
theorem requests_write_of_ne (bus : Bus) {address : UInt16} (other : address ≠ 0xFF0F)
    (value : UInt8)
    : ((write address value).endsIn bus).requests = bus.requests := by
  have notRequests (located : Location.ofAddress address = .requests) : False :=
    other (Location.ofAddress_eq_requests_iff.mp located)
  cases located : Location.ofAddress address with
  | timer register =>
      rw [write, located]
      rfl
  | _ => exact (bus.write_elsewhere notRequests (by simp [located]) value).1

end Bus

/-- Whether a write to an address through the bus can have an operation as its effect on the
video unit.
-/
def Video.Action.MadeByWrite (address : UInt16) (value : UInt8) : Video.Action → Prop
  | .write register written => register = address ∧ written = value
  | .storeVram _ _ | .storeOam _ _ | .replaceObjects _ => True
  | .boot | .acknowledge | .advance _ _ => False

namespace Bus

/-- A write acts on the video unit by operations that writes can make, by cases of what the
address stands for.
-/
theorem video_write (bus : Bus) (address : UInt16) (value : UInt8)
    : ∃ actions : List Video.Action,
        ((write address value).endsIn bus).video = bus.video.performAll actions
        ∧ ∀ action ∈ actions, action.MadeByWrite address value := by
  have single {action : Video.Action} (made : action.MadeByWrite address value)
      : ∀ other ∈ [action], other.MadeByWrite address value := by
    simpa using made
  unfold write
  cases located : Location.ofAddress address with
  | rom | cartridgeRam =>
      obtain ⟨cartridge, ended⟩ := bus.endsIn_writeCartridge address value
      refine ⟨[], ?_, List.forall_mem_nil _⟩
      change ((writeCartridge address value).endsIn bus).video = bus.video
      rw [ended]
  | vram cell => exact ⟨[.storeVram cell value], rfl, single trivial⟩
  | oam cell => exact ⟨[.storeOam cell value], rfl, single trivial⟩
  | video register =>
      have answers := Location.at?_of_ofAddress_eq_video located
      have written : bus.video.perform (.write address value)
          = bus.video.write register value := by
        simp only [Video.perform, Video.writeAt, answers]
      cases register with
      | transferPage =>
          obtain ⟨noted, video, ended, rfl | ⟨objects, rfl⟩⟩ := bus.endsIn_transferObjects value
          · exact ⟨[.write address value], (congrArg Bus.video ended).trans written.symm,
              single ⟨rfl, rfl⟩⟩
          · refine ⟨[.write address value, .replaceObjects objects], ?_, ?_⟩
            · rw [Video.performAll_cons, written]
              exact congrArg Bus.video ended
            · simp [Video.Action.MadeByWrite]
      | _ => exact ⟨[.write address value], written.symm, single ⟨rfl, rfl⟩⟩
  | bootSwitch =>
      refine ⟨[], ?_, List.forall_mem_nil _⟩
      simp only [writeLocation]
      split <;> rfl
  | peripheral | unmapped =>
      obtain ⟨noted, ended⟩ := bus.noting_writeUnmodelled address
      refine ⟨[], ?_, List.forall_mem_nil _⟩
      change ((writeUnmodelled address).endsIn bus).video = bus.video
      rw [ended]
  | _ => exact ⟨[], rfl, List.forall_mem_nil _⟩

end Bus

end Handheld
