import Handheld.Proofs.Bus.Access

/-! Storage behind the bus. A byte written to memory is read back wherever the same cell appears,
and nothing else shows it. What is no memory may pass a write on to a device, which stores nothing.
-/

namespace Handheld

-----------------------------------------------------------------------------------------
-- The addresses at which something is stored
-----------------------------------------------------------------------------------------

/-- The addresses of video memory, of work RAM and its echo, of object memory, of high RAM and of
the interrupt enables.
-/
def IsStorage (address : UInt16) : Prop :=
  (0x8000 ≤ address ∧ address ≤ 0x9FFF)
  ∨ (0xC000 ≤ address ∧ address ≤ 0xDFFF)
  ∨ (0xE000 ≤ address ∧ address ≤ 0xFDFF)
  ∨ (0xFE00 ≤ address ∧ address ≤ 0xFE9F)
  ∨ (0xFF80 ≤ address ∧ address ≤ 0xFFFE)
  ∨ address = 0xFFFF

instance (address : UInt16) : Decidable (IsStorage address) :=
  inferInstanceAs (Decidable (_ ∨ _))

/-- Where a cell stands, or for the echo, the work RAM that it shows. -/
def home (address : UInt16) : UInt16 :=
  if 0xE000 ≤ address ∧ address ≤ 0xFDFF then address - 0x2000 else address

namespace Location

/-- The first address of a cell. -/
def home? : Location → Option Nat
  | .vram cell => some (0x8000 + cell.val)
  | .wram cell => some (0xC000 + cell.val)
  | .oam cell => some (0xFE00 + cell.val)
  | .hram cell => some (0xFF80 + cell.val)
  | .enables => some 0xFFFF
  | _ => none

/-- The register page stores nothing of its own. -/
theorem home?_ofRegister (address : UInt16)
    : (ofRegister address).home? = none := by
  unfold ofRegister
  repeat' split
  all_goals rfl

/-- The memory map by the numbers of the addresses. -/
inductive Stands (address : UInt16) : Location → Prop where
  | rom (below : address.toNat < 0x8000) : Stands address .rom
  | vram (cell : Fin 0x2000) (number : address.toNat = 0x8000 + cell.val)
    : Stands address (.vram cell)
  | cartridgeRam (above : 0xA000 ≤ address.toNat) (below : address.toNat < 0xC000)
    : Stands address .cartridgeRam
  | wram (cell : Fin 0x2000) (number : address.toNat = 0xC000 + cell.val)
    : Stands address (.wram cell)
  | echo (cell : Fin 0x2000) (number : address.toNat = 0xE000 + cell.val)
    (below : address.toNat < 0xFE00)
    : Stands address (.wram cell)
  | oam (cell : Fin 0xA0) (number : address.toNat = 0xFE00 + cell.val)
    : Stands address (.oam cell)
  | gap (above : 0xFEA0 ≤ address.toNat) (below : address.toNat < 0xFF00)
    : Stands address .gap
  | register (above : 0xFF00 ≤ address.toNat) (below : address.toNat < 0xFF80)
    : Stands address (ofRegister address)
  | hram (cell : Fin 0x7F) (number : address.toNat = 0xFF80 + cell.val)
    : Stands address (.hram cell)
  | enables (last : address.toNat = 0xFFFF) : Stands address .enables

theorem stands (address : UInt16)
    : Stands address (ofAddress address) := by
  have small := address.toNat_lt
  unfold ofAddress
  dsimp only
  by_cases rom : address.toNat < 0x8000
  · rw [if_pos rom]
    exact .rom rom
  rw [if_neg rom]
  by_cases vram : address.toNat < 0xA000
  · rw [dif_pos vram]
    exact .vram _ (by dsimp only; omega)
  rw [dif_neg vram]
  by_cases cartridge : address.toNat < 0xC000
  · rw [if_pos cartridge]
    exact .cartridgeRam (Nat.le_of_not_lt vram) cartridge
  rw [if_neg cartridge]
  by_cases wram : address.toNat < 0xE000
  · rw [dif_pos wram]
    exact .wram _ (by dsimp only; omega)
  rw [dif_neg wram]
  by_cases echo : address.toNat < 0xFE00
  · rw [dif_pos echo]
    exact .echo _ (by dsimp only; omega) echo
  rw [dif_neg echo]
  by_cases oam : address.toNat < 0xFEA0
  · rw [dif_pos oam]
    exact .oam _ (by dsimp only; omega)
  rw [dif_neg oam]
  by_cases gap : address.toNat < 0xFF00
  · rw [if_pos gap]
    exact .gap (Nat.le_of_not_lt oam) gap
  rw [if_neg gap]
  by_cases register : address.toNat < 0xFF80
  · rw [if_pos register]
    exact .register (Nat.le_of_not_lt gap) register
  rw [if_neg register]
  by_cases hram : address.toNat < 0xFFFF
  · rw [dif_pos hram]
    exact .hram _ (by dsimp only; omega)
  rw [dif_neg hram]
  exact .enables (by omega)

/-- The addresses at which something is stored, by their numbers. -/
theorem isStorage_iff (address : UInt16)
    : IsStorage address
      ↔ (0x8000 ≤ address.toNat ∧ address.toNat < 0xA000)
        ∨ (0xC000 ≤ address.toNat ∧ address.toNat < 0xFEA0)
        ∨ 0xFF80 ≤ address.toNat := by
  have small := address.toNat_lt
  simp only [IsStorage, UInt16.le_iff_toNat_le, ← UInt16.toNat_inj, UInt16.reduceToNat]
  omega

/-- The echo stands 0x2000 above its home, everything else stands at home. -/
theorem toNat_home (address : UInt16)
    : (0xE000 ≤ address.toNat ∧ address.toNat < 0xFE00
        → (home address).toNat + 0x2000 = address.toNat)
      ∧ (address.toNat < 0xE000 ∨ 0xFE00 ≤ address.toNat → home address = address) := by
  have echo : (0xE000 ≤ address ∧ address ≤ 0xFDFF)
      ↔ 0xE000 ≤ address.toNat ∧ address.toNat < 0xFE00 := by
    simp only [UInt16.le_iff_toNat_le, UInt16.reduceToNat]
    omega
  constructor
  · intro within
    have above : (0x2000 : UInt16) ≤ address := by
      simp only [UInt16.le_iff_toNat_le, UInt16.reduceToNat]
      omega
    have distance : (0x2000 : UInt16).toNat = 0x2000 := rfl
    rw [home, if_pos (echo.mpr within), UInt16.toNat_sub_of_le _ _ above, distance]
    omega
  · intro outside
    rw [home, if_neg]
    rw [echo]
    omega

/-- Where nothing is stored there is no cell. -/
theorem home?_eq_none {address : UInt16} (unstored : ¬IsStorage address)
    : (ofAddress address).home? = none := by
  rw [isStorage_iff] at unstored
  have stands := stands address
  generalize ofAddress address = location at stands
  cases stands with
  | rom | cartridgeRam | gap => rfl
  | register => exact home?_ofRegister address
  | vram cell | wram cell | echo cell | oam cell | hram cell =>
      have bound := cell.isLt
      omega
  | enables => omega

/-- Where something is stored the cell has the home of the address. -/
theorem home?_eq_some {address : UInt16} (stored : IsStorage address)
    : (ofAddress address).home? = some (home address).toNat := by
  rw [isStorage_iff] at stored
  obtain ⟨echo, direct⟩ := toNat_home address
  have stands := stands address
  generalize ofAddress address = location at stands
  cases stands with
  | rom | cartridgeRam | gap | register => omega
  | vram cell number | wram cell number | oam cell number | hram cell number =>
      have bound := cell.isLt
      rw [direct (by omega), number]
      rfl
  | echo cell number below =>
      have shown := echo ⟨by omega, below⟩
      exact congrArg some (by omega)
  | enables last =>
      rw [direct (by omega), last]
      rfl

/-- Something is stored at cells only. -/
theorem absurd_of_stored {address : UInt16} {location : Location} (stored : IsStorage address)
    (located : ofAddress address = location) (empty : location.home? = none)
    : False := by
  have place := home?_eq_some stored
  rw [located, empty] at place
  cases place

/-- The echo stands for the work RAM that it shows. -/
theorem ofAddress_home (address : UInt16)
    : ofAddress (home address) = ofAddress address := by
  obtain ⟨echo, direct⟩ := toNat_home address
  by_cases within : 0xE000 ≤ address.toNat ∧ address.toNat < 0xFE00
  · have shown := echo within
    have low := stands (home address)
    have high := stands address
    generalize ofAddress (home address) = direct at low
    generalize ofAddress address = echoed at high
    cases low with
    | wram cell number =>
        cases high with
        | echo other above below =>
            have same : cell = other := Fin.ext (by omega)
            rw [same]
        | _ => omega
    | _ => omega
  · rw [direct (by omega)]

/-- Two addresses stand for the same cell exactly when both are at home in the same place. -/
theorem ofAddress_eq_iff {address : UInt16} (stored : IsStorage address) (other : UInt16)
    : ofAddress other = ofAddress address ↔ IsStorage other ∧ home other = home address := by
  constructor
  · intro same
    have place := home?_eq_some stored
    by_cases within : IsStorage other
    · rw [← same, home?_eq_some within, Option.some_inj, UInt16.toNat_inj] at place
      exact ⟨within, place⟩
    · rw [← same, home?_eq_none within] at place
      cases place
  · rintro ⟨-, same⟩
    rw [← ofAddress_home other, same, ofAddress_home]

/-- Only the page register starts a transfer. -/
theorem ofAddress_eq_transferPage {address : UInt16}
    (located : ofAddress address = .video .transferPage)
    : address = 0xFF46 := by
  have answers := at?_of_ofAddress_eq_video located
  have number : address.toNat = 0xFF46 := by grind [Video.Register.at?]
  exact UInt16.toNat_inj.mp number

end Location

/-- No register of the video unit stands for its memories. -/
theorem Video.memories_write (video : Video) (register : Video.Register) (value : UInt8)
    : (video.write register value).vram = video.vram
      ∧ (video.write register value).oam = video.oam := by
  cases register with
  | control =>
      have controlled := video.controlled value
      change (video.writeControl value).vram = video.vram
        ∧ (video.writeControl value).oam = video.oam
      generalize video.writeControl value = after at controlled ⊢
      cases controlled <;> exact ⟨rfl, rfl⟩
  | _ => exact ⟨rfl, rfl⟩

namespace Bus

-----------------------------------------------------------------------------------------
-- Writes that are stored
-----------------------------------------------------------------------------------------

/-- A read gives what a look at the address shows. -/
theorem answer_read (bus : Bus) (address : UInt16)
    : (read address).answer bus = bus.peek address := by
  unfold Act.answer read
  cases bus.peek address <;> rfl

/-- When a byte is put into a cell of a memory, every address that stands for the cell shows it and
all others show what they did. An address stands for a cell of the memory, or it does not reach it.
-/
theorem peek_of_set {size : Nat} {bus after : Bus} (place : Fin size → Location)
    (separate : ∀ {one two}, place one = place two → one = two) (memory : Memory size)
    (cell : Fin size) (value : UInt8)
    (shows
      : ∀ other,
        (∃ another,
          Location.ofAddress other = place another
          ∧ after.peek other = .ok ((memory.set cell value).get another)
          ∧ bus.peek other = .ok (memory.get another))
        ∨ Location.ofAddress other ≠ place cell ∧ after.peek other = bus.peek other)
    (other : UInt16)
    : after.peek other
      = if Location.ofAddress other = place cell then .ok value else bus.peek other := by
  rcases shows other with ⟨another, located, now, before⟩ | ⟨elsewhere, same⟩
  · by_cases hit : cell = another
    · subst hit
      rw [if_pos located, now, Memory.get_set_self]
    · have elsewhere : Location.ofAddress other ≠ place cell := by
        rw [located]
        exact fun same => hit (separate same).symm
      rw [if_neg elsewhere, now, before, Memory.get_set_of_ne _ _ hit]
  · rw [if_neg elsewhere, same]

/-- A write to a cell succeeds, and then the cell shows the value while everything else shows what
it did, by cases of the memory in which the cell lies.
-/
theorem write_stored (bus : Bus) {address : UInt16} (stored : IsStorage address) (value : UInt8)
    : ∃ after,
        write address value bus = .ok () after
        ∧ ∀ other,
          after.peek other
            = if Location.ofAddress other = Location.ofAddress address then .ok value
              else bus.peek other := by
  unfold write
  cases located : Location.ofAddress address with
  | vram cell =>
      refine ⟨_, rfl, peek_of_set .vram Location.vram.inj bus.video.vram cell value fun other => ?_⟩
      unfold peek
      cases Location.ofAddress other with
      | vram another => exact .inl ⟨another, rfl, rfl, rfl⟩
      | _ => exact .inr ⟨nofun, rfl⟩
  | wram cell =>
      refine ⟨_, rfl, peek_of_set .wram Location.wram.inj bus.wram cell value fun other => ?_⟩
      unfold peek
      cases Location.ofAddress other with
      | wram another => exact .inl ⟨another, rfl, rfl, rfl⟩
      | _ => exact .inr ⟨nofun, rfl⟩
  | oam cell =>
      refine ⟨_, rfl, peek_of_set .oam Location.oam.inj bus.video.oam cell value fun other => ?_⟩
      unfold peek
      cases Location.ofAddress other with
      | oam another => exact .inl ⟨another, rfl, rfl, rfl⟩
      | _ => exact .inr ⟨nofun, rfl⟩
  | hram cell =>
      refine ⟨_, rfl, peek_of_set .hram Location.hram.inj bus.hram cell value fun other => ?_⟩
      unfold peek
      cases Location.ofAddress other with
      | hram another => exact .inl ⟨another, rfl, rfl, rfl⟩
      | _ => exact .inr ⟨nofun, rfl⟩
  | enables =>
      refine ⟨_, rfl, fun other => ?_⟩
      unfold peek
      cases Location.ofAddress other <;> rfl
  | _ => exact (Location.absurd_of_stored stored located rfl).elim

-----------------------------------------------------------------------------------------
-- Writes that store nothing
-----------------------------------------------------------------------------------------

/-- What a bus stores for whoever writes to it. -/
structure Storage where
  vram : Memory 0x2000
  wram : Memory 0x2000
  oam : Memory 0xA0
  hram : Memory 0x7F
  enables : UInt8

def storage (bus : Bus) : Storage :=
  { vram := bus.video.vram
    wram := bus.wram
    oam := bus.video.oam
    hram := bus.hram
    enables := bus.enables }

/-- What a read gives of a stored byte depends on what is stored alone. -/
theorem peek_eq_of_storage {bus after : Bus} (same : after.storage = bus.storage)
    {address : UInt16} (stored : IsStorage address)
    : after.peek address = bus.peek address := by
  have vram : after.video.vram = bus.video.vram := congrArg Storage.vram same
  have wram : after.wram = bus.wram := congrArg Storage.wram same
  have oam : after.video.oam = bus.video.oam := congrArg Storage.oam same
  have hram : after.hram = bus.hram := congrArg Storage.hram same
  have enables : after.enables = bus.enables := congrArg Storage.enables same
  unfold peek
  cases located : Location.ofAddress address with
  | vram cell => simp only [vram]
  | wram cell => simp only [wram]
  | oam cell => simp only [oam]
  | hram cell => simp only [hram]
  | enables => simp only [enables]
  | _ => exact (Location.absurd_of_stored stored located rfl).elim

/-- A bus with other devices that keeps the memories of its video unit stores the same. -/
theorem storage_video (bus : Bus) {video : Video} (vram : video.vram = bus.video.vram)
    (oam : video.oam = bus.video.oam)
    : { bus with video }.storage = bus.storage := by
  simp only [storage, vram, oam]

/-- Whether or not it succeeds, a write to anything else stores nothing, unless it starts a transfer
to object memory.
-/
theorem storage_write (bus : Bus) {address : UInt16} (unstored : ¬IsStorage address)
    (noTransfer : address ≠ 0xFF46) (value : UInt8)
    : ((write address value).endsIn bus).storage = bus.storage := by
  have place := Location.home?_eq_none unstored
  unfold write
  cases located : Location.ofAddress address with
  | rom | cartridgeRam =>
      obtain ⟨cartridge, ended⟩ := bus.endsIn_writeCartridge address value
      rw [writeLocation, ended]
      rfl
  | gap | joypad | timer register | requests => rfl
  | video register =>
      cases register with
      | transferPage => exact absurd (Location.ofAddress_eq_transferPage located) noTransfer
      | _ =>
          obtain ⟨vram, oam⟩ := bus.video.memories_write _ value
          exact bus.storage_video vram oam
  | bootSwitch =>
      simp only [writeLocation]
      split <;> rfl
  | peripheral | unmapped =>
      obtain ⟨noted, ended⟩ := bus.noting_writeUnmodelled address
      rw [writeLocation, ended]
      rfl
  | _ =>
      rw [located] at place
      cases place

-----------------------------------------------------------------------------------------
-- Buses that store something else
-----------------------------------------------------------------------------------------

/-- The bus with the contents of its storage exchanged. -/
def withStorage (bus : Bus) (storage : Storage) : Bus :=
  { bus with
    video := { bus.video with vram := storage.vram, oam := storage.oam }
    wram := storage.wram
    hram := storage.hram
    enables := storage.enables }

/-- Where nothing is stored a look shows no difference. -/
theorem peek_withStorage (bus : Bus) (storage : Storage) {address : UInt16}
    (unstored : ¬IsStorage address)
    : (bus.withStorage storage).peek address = bus.peek address := by
  have place := Location.home?_eq_none unstored
  unfold peek
  cases located : Location.ofAddress address with
  | vram cell | wram cell | oam cell | hram cell | enables =>
      rw [located] at place
      cases place
  | video register => cases register <;> rfl
  | _ => rfl

/-- A write to a cell changes nothing beside what is stored. -/
theorem write_stored_eq {bus after : Bus} {address : UInt16} (stored : IsStorage address)
    {value : UInt8} (written : write address value bus = .ok () after)
    : after = bus.withStorage after.storage := by
  unfold write at written
  cases located : Location.ofAddress address with
  | vram cell | wram cell | oam cell | hram cell | enables =>
      rw [located] at written
      cases written
      rfl
  | _ => exact (Location.absurd_of_stored stored located rfl).elim

end Bus

end Handheld
