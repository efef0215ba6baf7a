/-! Fixed-size byte storage. A cell reads back what was last written to it, and writing
one cell leaves every other cell alone.
-/

namespace Handheld

/-- The byte at an index, or the given value past the end. -/
def byteOr (bytes : ByteArray) (index : Nat) (default : UInt8) : UInt8 :=
  if h : index < bytes.size then bytes.get index h else default

def filledBytes (size : Nat) (value : UInt8) : ByteArray :=
  ⟨Array.replicate size value⟩

/-- A run of equal bytes has the size asked for. -/
@[simp]
theorem size_filledBytes (size : Nat) (value : UInt8)
    : (filledBytes size value).size = size := by
  simp [filledBytes, ByteArray.size]

/-- Storage of exactly `size` bytes. -/
structure Memory (size : Nat) where
  bytes : ByteArray
  size_bytes : bytes.size = size

namespace Memory

variable {size : Nat}

/-- Storage that holds zero everywhere. -/
def zeroed (size : Nat) : Memory size :=
  ⟨filledBytes size 0, size_filledBytes size 0⟩

instance : Inhabited (Memory size) :=
  ⟨zeroed size⟩

def get (memory : Memory size) (cell : Fin size) : UInt8 :=
  memory.bytes.get cell.val (by rw [memory.size_bytes]; exact cell.isLt)

def set (memory : Memory size) (cell : Fin size) (value : UInt8) : Memory size :=
  ⟨memory.bytes.set cell.val value (by rw [memory.size_bytes]; exact cell.isLt), by
    simpa only [ByteArray.set, ByteArray.size, Array.size_set] using memory.size_bytes⟩

/-- The byte at a numeric offset, or the given value outside the storage. -/
def getOr (memory : Memory size) (offset : Nat) (default : UInt8) : UInt8 :=
  if h : offset < size then memory.get ⟨offset, h⟩ else default

/-- Storage whose cells are computed from their positions. -/
def ofFn (value : Fin size → UInt8) : Memory size :=
  ⟨⟨Array.ofFn value⟩, by simp [ByteArray.size]⟩

/-- Two stores are equal when all their bytes are, since the size proof carries nothing. -/
@[ext]
theorem ext_bytes {left right : Memory size} (h : left.bytes = right.bytes)
    : left = right := by
  cases left
  cases right
  cases h
  rfl

/-- A written cell reads back the value written. -/
@[simp]
theorem get_set_self (memory : Memory size) (cell : Fin size) (value : UInt8)
    : (memory.set cell value).get cell = value := by
  have bound : cell.val < memory.bytes.size := by rw [memory.size_bytes]; exact cell.isLt
  exact Array.getElem_set_self bound

/-- A write leaves every other cell as it was. -/
theorem get_set_of_ne (memory : Memory size) {cell other : Fin size} (value : UInt8)
    (h : cell ≠ other)
    : (memory.set cell value).get other = memory.get other := by
  have hv : cell.val ≠ other.val := fun he => h (Fin.ext he)
  have hc : cell.val < memory.bytes.size := by rw [memory.size_bytes]; exact cell.isLt
  exact Array.getElem_set_ne hc _ hv

/-- A fresh store holds zero in every cell. -/
@[simp]
theorem get_zeroed (cell : Fin size)
    : (zeroed size).get cell = 0 :=
  Array.getElem_replicate _

/-- A computed store holds the computed value in every cell. -/
@[simp]
theorem get_ofFn (value : Fin size → UInt8) (cell : Fin size)
    : (ofFn value).get cell = value cell :=
  Array.getElem_ofFn _

end Memory

end Handheld
