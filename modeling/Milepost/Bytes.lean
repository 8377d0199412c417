/-!
# Byte strings

Contents of buffers, objects and attributes are `ByteArray`s. This module adds what the store and
the buffers need beside append and extract: equality, a run of zero bytes, writing at an offset
with the gap filled by zeros, and cutting at NUL bytes.

* `size_zeros`: `zeros n` has `n` bytes.
* `size_writeAt`: a write reaches to its end, and never shortens what was there.
-/

namespace Milepost

/-- Byte strings are equal when their bytes are. -/
instance (priority := 2000) decidableEqByteArray : DecidableEq ByteArray := fun a b =>
  decidable_of_iff (a.data = b.data) ⟨ByteArray.ext, congrArg ByteArray.data⟩

end Milepost

namespace Milepost.Bytes

/-- `n` zero bytes, built by doubling so that a long run costs few copies. -/
def zerosAux : Nat → Nat → ByteArray
  | 0, _ => .empty
  | fuel + 1, n =>
    if n = 0 then .empty
    else
      let half := zerosAux fuel (n / 2)
      if n % 2 = 0 then half ++ half else (half ++ half).push 0

/-- `n` zero bytes. -/
def zeros (n : Nat) : ByteArray := zerosAux (n.log2 + 1) n

theorem size_zerosAux (fuel n : Nat) (h : n < Nat.pow 2 fuel) : (zerosAux fuel n).size = n := by
  induction fuel generalizing n with
  | zero =>
    have : n = 0 := Nat.lt_one_iff.1 h
    simp [zerosAux, this]
  | succ fuel ih =>
    unfold zerosAux
    split
    · simp_all
    · have hh : n / 2 < Nat.pow 2 fuel := by
        have double : Nat.pow 2 (fuel + 1) = Nat.pow 2 fuel * 2 := rfl
        omega
      have := ih _ hh
      split <;> simp [ByteArray.size_append, ByteArray.size_push, this] <;> omega

@[simp]
theorem size_zeros (n : Nat) : (zeros n).size = n :=
  size_zerosAux _ _ Nat.lt_log2_self

/-- The first `n` bytes, or all of them when there are fewer. -/
def front (b : ByteArray) (n : Nat) : ByteArray := b.extract 0 (min n b.size)

@[simp]
theorem size_front (b : ByteArray) (n : Nat) : (front b n).size = min n b.size := by
  simp [front, ByteArray.size_extract]

/-- `b` with `data` in the positions from `offset` on. Positions between the end of `b` and
`offset` become zero. -/
def writeAt (b : ByteArray) (offset : Nat) (data : ByteArray) : ByteArray :=
  b.extract 0 offset ++ zeros (offset - b.size) ++ data ++ b.extract (offset + data.size) b.size

theorem size_writeAt (b : ByteArray) (offset : Nat) (data : ByteArray) :
    (writeAt b offset data).size = max b.size (offset + data.size) := by
  simp only [writeAt, ByteArray.size_append, ByteArray.size_extract, size_zeros]
  omega

/-- The bytes cut at every NUL, in order; one piece more than there are NULs. -/
def splitAtNul (b : List UInt8) : List (List UInt8) :=
  b.splitOnP (· == 0)

/-- The bytes without the NULs at their end. -/
def dropTrailingNuls (b : List UInt8) : List UInt8 :=
  (b.reverse.dropWhile (· == 0)).reverse

end Milepost.Bytes
