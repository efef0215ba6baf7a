import Handheld.Proofs.Bus.Accesses
import Handheld.Proofs.Bus.Storage

/-! Transfers to object memory. A transfer reads its whole page before it replaces anything, so
object memory either receives the page as it was shown before or stays as it is. Only one page can
be refused, for a register in it that is not modelled.
-/

namespace Handheld

/-- Memories that hold the same byte in every cell are the same. -/
theorem Memory.ext_get {size : Nat} {left right : Memory size}
    (same : ∀ cell, left.get cell = right.get cell)
    : left = right := by
  have sizes : left.bytes.data.size = right.bytes.data.size :=
    left.size_bytes.trans right.size_bytes.symm
  refine ext_bytes (ByteArray.ext (Array.ext sizes fun index inside _ => ?_))
  have cell : index < size := by
    rw [← left.size_bytes]
    exact inside
  exact same ⟨index, cell⟩

namespace Bus

-----------------------------------------------------------------------------------------
-- What can be read
-----------------------------------------------------------------------------------------

/-- Below the register page everything is modelled. -/
theorem isUnmodelled_of_below {address : UInt16} (below : address.toNat < 0xFF00)
    : isUnmodelled address = false := by
  have stands := Location.stands address
  unfold isUnmodelled
  generalize Location.ofAddress address = location at stands
  cases stands with
  | register => omega
  | _ => rfl

theorem exists_peek_of_modelled (bus : Bus) {address : UInt16}
    (modelled : isUnmodelled address = false)
    : ∃ value, bus.peek address = .ok value := by
  unfold isUnmodelled at modelled
  unfold peek
  cases located : Location.ofAddress address with
  | peripheral | unmapped =>
      rw [located] at modelled
      cases modelled
  | _ => exact ⟨_, rfl⟩

/-- Unless the bus is strict a look finds a byte everywhere. -/
theorem exists_peek_of_bestEffort {bus : Bus} (lenient : bus.policy = .bestEffort)
    (address : UInt16)
    : ∃ value, bus.peek address = .ok value := by
  by_cases modelled : isUnmodelled address = false
  · exact bus.exists_peek_of_modelled modelled
  · unfold isUnmodelled at modelled
    unfold peek peekUnmodelled
    rw [lenient]
    cases located : Location.ofAddress address with
    | peripheral | unmapped => exact ⟨0xFF, rfl⟩
    | _ => simp [located] at modelled

-----------------------------------------------------------------------------------------
-- Reading a page
-----------------------------------------------------------------------------------------

/-- Where bytes are found at successive addresses, reading them gives what is shown there and notes
at most these accesses, by induction on their number.
-/
theorem readRun_ok {bus : Bus} {count : Nat} {address : UInt16}
    (found : ∀ index, index < count → ∃ value, bus.peek (address + .ofNat index) = .ok value)
    : ∃ after,
        readRun count address bus
          = .ok ((List.range count).map fun index => bus.shown (address + .ofNat index)) after
        ∧ bus.Noting after := by
  induction count generalizing address bus with
  | zero => exact ⟨bus, rfl, bus.noted, rfl⟩
  | succ count ih =>
      have start : address + .ofNat 0 = address := UInt16.add_zero address
      have next (index : Nat) : address + 1 + .ofNat index = address + .ofNat (index + 1) := by
        rw [UInt16.add_assoc, UInt16.add_comm 1, UInt16.ofNat_add]
        rfl
      rcases bus.read_cases address with ⟨middle, -, given, -, noting⟩ | ⟨fault, missing, -⟩
      · have others (index : Nat) (inside : index < count)
            : ∃ value, middle.peek (address + 1 + .ofNat index) = .ok value := by
          rw [noting.peek_eq, next]
          exact found (index + 1) (Nat.succ_lt_succ inside)
        obtain ⟨after, rest, more⟩ := ih others
        refine ⟨after, ?_, noting.trans more⟩
        unfold readRun
        rw [Act.bind_of_ok given, Act.bind_of_ok rest, List.range_succ_eq_map]
        simp only [List.map_cons, List.map_map, start, noting.shown_eq, next]
        rfl
      · obtain ⟨value, first⟩ := found 0 (Nat.succ_pos count)
        rw [start, missing] at first
        cases first

/-- The address of a byte that a transfer copies. -/
def pageAddress (page : UInt8) (cell : Fin 0xA0) : UInt16 :=
  .ofNat (page.toNat * 256 + cell.val)

theorem toNat_pageAddress (page : UInt8) (cell : Fin 0xA0)
    : (pageAddress page cell).toNat = page.toNat * 256 + cell.val := by
  have small := page.toNat_lt
  have fits : page.toNat * 256 + cell.val < 65536 := by omega
  exact UInt16.toNat_ofNat_of_lt' fits

/-- It lies at the cell's distance from the start of the page. -/
theorem shiftLeft_add_eq_pageAddress (page : UInt8) (cell : Fin 0xA0)
    : page.toUInt16 <<< 8 + .ofNat cell.val = pageAddress page cell := by
  have small := page.toNat_lt
  rw [← UInt16.toNat_inj, toNat_pageAddress, UInt16.toNat_add, UInt16.toNat_shiftLeft,
    UInt8.toNat_toUInt16, UInt16.toNat_ofNat', Nat.shiftLeft_eq]
  change (page.toNat * 256 % 65536 + cell.val % 65536) % 65536 = _
  omega

/-- A page of which every byte is found is read as it is shown. -/
theorem readPage_ok {bus : Bus} {page : UInt8}
    (found : ∀ cell, ∃ value, bus.peek (pageAddress page cell) = .ok value)
    : ∃ after,
        readPage page bus = .ok (.ofFn fun cell => bus.shown (pageAddress page cell)) after
        ∧ bus.Noting after := by
  have each (index : Nat) (inside : index < 0xA0)
      : ∃ value, bus.peek (page.toUInt16 <<< 8 + .ofNat index) = .ok value := by
    rw [shiftLeft_add_eq_pageAddress page ⟨index, inside⟩]
    exact found ⟨index, inside⟩
  obtain ⟨after, ran, noting⟩ := readRun_ok each
  refine ⟨after, ?_, noting⟩
  unfold readPage
  rw [Act.bind_of_ok ran]
  refine congrArg (EStateM.Result.ok · after) (congrArg Memory.ofFn (funext fun cell => ?_))
  simp [← shiftLeft_add_eq_pageAddress]

-----------------------------------------------------------------------------------------
-- The page register
-----------------------------------------------------------------------------------------

/-- The bus with a page named in the register of the video unit. -/
def withTransferPage (bus : Bus) (page : UInt8) : Bus :=
  { bus with video := { bus.video with transferPage := page } }

/-- Only the register itself shows a difference. -/
theorem peek_withTransferPage (bus : Bus) (page : UInt8) {address : UInt16}
    (other : address ≠ 0xFF46)
    : (bus.withTransferPage page).peek address = bus.peek address := by
  unfold peek
  cases located : Location.ofAddress address with
  | video register =>
      cases register with
      | transferPage => exact absurd (Location.ofAddress_eq_transferPage located) other
      | _ => rfl
  | _ => rfl

/-- A transfer whose page is found puts the page into object memory. -/
theorem write_page_ok {bus : Bus} {page : UInt8}
    (found : ∀ cell, ∃ value, (bus.withTransferPage page).peek (pageAddress page cell) = .ok value)
    : ∃ noted,
        write 0xFF46 page bus
          = .ok ()
            { bus with
              noted
              video :=
                { bus.video with
                  transferPage := page
                  oam :=
                    .ofFn fun cell =>
                      (bus.withTransferPage page).shown (pageAddress page cell) } } := by
  obtain ⟨after, ran, noted, same⟩ := readPage_ok found
  have started : write 0xFF46 page bus
      = (readPage page >>= fun objects => modifyVideo (·.replaceObjects objects))
          (bus.withTransferPage page) := rfl
  refine ⟨noted, ?_⟩
  rw [started, Act.bind_of_ok ran, same]
  rfl

/-- A strict bus refuses the register page at its second byte, before anything was noted. -/
theorem write_page_error {bus : Bus} (strict : bus.policy = .strict)
    : write 0xFF46 0xFF bus
      = .error (.unmodelledRegister 0xFF01) (bus.withTransferPage 0xFF) := by
  let paged := bus.withTransferPage 0xFF
  have strictly : paged.policy = .strict := strict
  have missing : paged.peek 0xFF01 = .error (.unmodelledRegister 0xFF01) := by
    change paged.peekUnmodelled 0xFF01 = _
    rw [peekUnmodelled, strictly]
    rfl
  have refused : read 0xFF01 paged = .error (.unmodelledRegister 0xFF01) paged := by
    rw [read, missing]
  have joypad : read 0xFF00 paged = .ok paged.joypad.read paged := rfl
  have rest : readRun 0x9F 0xFF01 paged = .error (.unmodelledRegister 0xFF01) paged :=
    Act.bind_of_error refused _
  have run : readRun 0xA0 0xFF00 paged = .error (.unmodelledRegister 0xFF01) paged :=
    (Act.bind_of_ok joypad _).trans (Act.bind_of_error rest _)
  have page : readPage 0xFF paged = .error (.unmodelledRegister 0xFF01) paged :=
    Act.bind_of_error run _
  exact Act.bind_of_error page _

-----------------------------------------------------------------------------------------
-- Whole transfers
-----------------------------------------------------------------------------------------

/-- The bytes of a page are those that reads would have given before, but for the register that
names the page.
-/
theorem peek_pageAddress (bus : Bus) (page : UInt8) (cell : Fin 0xA0)
    : (bus.withTransferPage page).peek (pageAddress page cell)
      = if page = 0xFF ∧ cell.val = 0x46 then .ok page
        else (read (pageAddress page cell)).answer bus := by
  have number := toNat_pageAddress page cell
  split
  · next own =>
      obtain ⟨rfl, last⟩ := own
      have register : pageAddress 0xFF cell = 0xFF46 := by
        rw [← UInt16.toNat_inj, number, last]
        rfl
      rw [register]
      rfl
  · next foreign =>
      have other : pageAddress page cell ≠ 0xFF46 := by
        intro same
        rw [same] at number
        change 0xFF46 = _ at number
        refine foreign ⟨?_, by omega⟩
        rw [← UInt8.toNat_inj]
        change page.toNat = 0xFF
        omega
      rw [answer_read, bus.peek_withTransferPage page other]

/-- Unless the bus is strict and the page is that of the registers, every byte of it is found. -/
theorem exists_peek_pageAddress {bus : Bus} {page : UInt8}
    (allowed : ¬(bus.policy = .strict ∧ page = 0xFF)) (cell : Fin 0xA0)
    : ∃ value, (bus.withTransferPage page).peek (pageAddress page cell) = .ok value := by
  cases policy : bus.policy with
  | bestEffort =>
      have lenient : (bus.withTransferPage page).policy = .bestEffort := policy
      exact exists_peek_of_bestEffort lenient _
  | strict =>
      have other : page.toNat ≠ 0xFF := fun same => allowed ⟨policy, UInt8.toNat_inj.mp same⟩
      have small := page.toNat_lt
      refine exists_peek_of_modelled _ (isUnmodelled_of_below ?_)
      rw [toNat_pageAddress]
      omega

/-- Object memory is its own page. -/
theorem ofAddress_pageAddress_objects (cell : Fin 0xA0)
    : Location.ofAddress (pageAddress 0xFE cell) = .oam cell := by
  have number : (pageAddress 0xFE cell).toNat = 0xFE00 + cell.val := toNat_pageAddress 0xFE cell
  have stands := Location.stands (pageAddress 0xFE cell)
  generalize Location.ofAddress (pageAddress 0xFE cell) = location at stands
  cases stands with
  | oam other same => exact congrArg Location.oam (Fin.ext (by omega))
  | _ => omega

/-- A transfer does everything or nothing. It fails exactly on a strict bus for the page of the
registers, and then the page is named and nothing else has changed. Otherwise object memory
receives the bytes that reads of the page would have given just before, where the register that
names the page counts as written, and beside object memory, that register and notes of accesses
nothing changes. Object memory copied to itself stays as it is.
-/
theorem transfer_all_or_nothing (bus : Bus) (page : UInt8)
    : (∀ fault after,
        write 0xFF46 page bus = .error fault after
        ↔ bus.policy = .strict
          ∧ page = 0xFF
          ∧ fault = .unmodelledRegister 0xFF01
          ∧ after = { bus with video := { bus.video with transferPage := page } })
      ∧ (¬(bus.policy = .strict ∧ page = 0xFF)
        → ∃ noted objects,
          write 0xFF46 page bus
            = .ok ()
              { bus with
                noted
                video := { bus.video with transferPage := page, oam := objects } }
          ∧ (∀ cell : Fin 0xA0,
            (if page = 0xFF ∧ cell.val = 0x46 then .ok page
              else (read (.ofNat (page.toNat * 256 + cell.val))).answer bus)
            = .ok (objects.get cell))
          ∧ (page = 0xFE → objects = bus.video.oam)) := by
  by_cases refused : bus.policy = .strict ∧ page = 0xFF
  · obtain ⟨strict, rfl⟩ := refused
    refine ⟨?_, (absurd ⟨strict, rfl⟩ ·)⟩
    intro fault after
    rw [write_page_error strict]
    constructor
    · rintro ⟨⟩
      exact ⟨strict, rfl, rfl, rfl⟩
    · rintro ⟨-, -, rfl, rfl⟩
      rfl
  · have found := exists_peek_pageAddress refused
    obtain ⟨noted, written⟩ := write_page_ok found
    have copied (cell : Fin 0xA0)
        : (bus.withTransferPage page).peek (pageAddress page cell)
          = .ok ((bus.withTransferPage page).shown (pageAddress page cell)) := by
      obtain ⟨value, shows⟩ := found cell
      rw [shows, shown_of_peek shows]
    refine ⟨?_, fun _ => ⟨noted, _, written, ?_, ?_⟩⟩
    · intro fault after
      rw [written]
      constructor
      · intro failed
        cases failed
      · rintro ⟨strict, registers, -⟩
        exact absurd ⟨strict, registers⟩ refused
    · intro cell
      rw [Memory.get_ofFn, ← copied, peek_pageAddress]
      rfl
    · rintro rfl
      refine Memory.ext_get fun cell => ?_
      have own : (bus.withTransferPage 0xFE).peek (pageAddress 0xFE cell)
          = .ok (bus.video.oam.get cell) := by
        rw [peek, ofAddress_pageAddress_objects]
        rfl
      rw [Memory.get_ofFn, shown_of_peek own]

/-- A lenient bus copies its registers, among them the one that names their page, while a strict bus
refuses to.
-/
theorem transfer_all_or_nothing_registers
    : (∃ after,
        write 0xFF46 0xFF (.initial .bestEffort) = .ok () after
        ∧ after.peek 0xFE01 = .ok 0xFF
        ∧ after.peek 0xFE41 = .ok 0x84
        ∧ after.peek 0xFE46 = .ok 0xFF
        ∧ after.wram = .zeroed 0x2000)
      ∧ write 0xFF46 0xFF (.initial .strict)
        = .error (.unmodelledRegister 0xFF01)
          { Bus.initial .strict with video := { Video.initial with transferPage := 0xFF } } := by
  obtain ⟨-, copies⟩ := transfer_all_or_nothing (.initial .bestEffort) 0xFF
  obtain ⟨noted, objects, written, bytes, -⟩ := copies (by decide)
  obtain ⟨refuses, -⟩ := transfer_all_or_nothing (.initial .strict) 0xFF
  have serial := bytes ⟨0x01, by decide⟩
  have status := bytes ⟨0x41, by decide⟩
  have own := bytes ⟨0x46, by decide⟩
  exact ⟨⟨_, written, serial.symm, status.symm, own.symm, rfl⟩,
    (refuses _ _).mpr ⟨rfl, rfl, rfl, rfl⟩⟩

end Bus

end Handheld
