import Milepost.Bytes

/-!
# Scratch buffers

A buffer is lent to a call, which fills its front. It starts out zero, and a larger one that takes
its place starts out zero again: growing keeps nothing.

* `size_materialize`: taking the front gives as many bytes as were asked for, cut to the capacity.
-/

namespace Milepost

/-- Bytes lent to a call. -/
structure Buffer where
  bytes : ByteArray
deriving DecidableEq

namespace Buffer

/-- How many bytes a buffer may have. -/
def maxAllocation : Nat := 0x7fffffffffffffff

/-- The largest word that holds a size. -/
def maxSize : Nat := 0xffffffffffffffff

/-- How many bytes the buffer has. -/
def capacity (b : Buffer) : Nat := b.bytes.size

/-- The buffer without any bytes. -/
def empty : Buffer := ⟨.empty⟩

/-- A buffer of `n` zero bytes, if a buffer may have as many. -/
def allocate? (n : Nat) : Option Buffer :=
  if n ≤ maxAllocation then some ⟨Bytes.zeros n⟩ else none

/-- The capacity that follows `n`: twice as many bytes, as far as a word holds their number, and
at least one. -/
def doubled (n : Nat) : Nat := max 1 (min (2 * n) maxSize)

/-- A zero buffer of twice the capacity. -/
def grow (b : Buffer) : Option Buffer := allocate? (doubled b.capacity)

/-- A zero buffer of twice the capacity or of `n` bytes, whichever is more. -/
def growTo (b : Buffer) (n : Nat) : Option Buffer := allocate? (max (doubled b.capacity) n)

/-- A copy of the first `n` bytes, or of all when there are fewer. -/
def materialize (b : Buffer) (n : Nat) : ByteArray := Bytes.front b.bytes n

/-- The buffer with `data` at position `start`, if it fits. -/
def overwrite? (b : Buffer) (start : Nat) (data : ByteArray) : Option Buffer :=
  if start + data.size ≤ b.capacity then some ⟨Bytes.writeAt b.bytes start data⟩ else none

/-- The buffer with as much of `data` at its front as fits. -/
def fill (b : Buffer) (data : ByteArray) : Buffer :=
  ⟨Bytes.writeAt b.bytes 0 (Bytes.front data b.capacity)⟩

/-- How many bytes are shown when a buffer is described. -/
def shownBytes : Nat := 32

/-- The buffer in one line: its first bytes and how many more there are. -/
def describe (b : Buffer) : String :=
  let shown := (b.materialize shownBytes).toList.map fun x => toString x.toNat
  let omitted := b.capacity - shownBytes
  "TransientBuffer \x7b bytes: [" ++ ", ".intercalate shown ++ "]"
    ++ (if omitted = 0 then "" else "(" ++ toString omitted ++ " bytes omitted)") ++ " \x7d"

theorem capacity_of_allocate? {n : Nat} {b : Buffer} (h : allocate? n = some b) :
    b.capacity = n ∧ n ≤ maxAllocation := by
  unfold allocate? at h
  split at h
  · next hn =>
    obtain rfl := Option.some.inj h
    exact ⟨Bytes.size_zeros n, hn⟩
  · cases h

theorem bytes_of_allocate? {n : Nat} {b : Buffer} (h : allocate? n = some b) :
    b.bytes = Bytes.zeros n := by
  unfold allocate? at h
  split at h
  · exact congrArg bytes (Option.some.inj h).symm
  · cases h

theorem doubled_of_le {n : Nat} (h : n ≤ maxAllocation) : doubled n = max 1 (2 * n) := by
  simp only [doubled, maxSize, maxAllocation] at *
  omega

theorem lt_doubled {n : Nat} (h : n ≤ maxAllocation) : n < doubled n := by
  rw [doubled_of_le h]
  omega

@[simp]
theorem size_materialize (b : Buffer) (n : Nat) : (b.materialize n).size = min n b.capacity :=
  Bytes.size_front b.bytes n

end Buffer

end Milepost
