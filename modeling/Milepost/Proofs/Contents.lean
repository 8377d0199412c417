import Milepost.Buffer
import Milepost.Store

/-!
# Contents, byte by byte

What buffers and objects hold is told here by the byte at each position. A write at an offset
leaves its own bytes where it was made, those that were there before elsewhere, and zeros in
between; a read gives the bytes from its offset on.

* `Bytes.ext_byteAt`: byte strings are equal when they are at every position.
* `Bytes.byteAt_writeAt`: the bytes after a write.
* `Buffer.materialize_fill`: what was filled into a buffer is read back from its front.
* `Object.toList_slice`: the part of an object that a read copies.
-/

namespace Milepost

namespace Bytes

variable {a b data : ByteArray} {i n offset start stop : Nat}

/-- The byte at a position, zero past the end. -/
def byteAt (b : ByteArray) (i : Nat) : UInt8 := b.data[i]?.getD 0

theorem byteAt_of_size_le (h : b.size ≤ i) : byteAt b i = 0 := by
  rw [byteAt, Array.getElem?_eq_none h]
  rfl

theorem byteAt_eq_get (h : i < b.size) : byteAt b i = b.get i h := by
  rw [byteAt, Array.getElem?_eq_getElem h]
  rfl

/-- Byte strings of one size with the same byte at every position are equal. -/
theorem ext_byteAt (hs : a.size = b.size) (h : ∀ i, byteAt a i = byteAt b i) : a = b := by
  refine ByteArray.ext (Array.ext hs fun i hi hi' => ?_)
  have hbyte := h i
  rwa [byteAt_eq_get hi, byteAt_eq_get hi'] at hbyte

theorem byteAt_append :
    byteAt (a ++ b) i = if i < a.size then byteAt a i else byteAt b (i - a.size) := by
  rw [byteAt, ByteArray.data_append, Array.getElem?_append, apply_ite (Option.getD · 0)]
  rfl

theorem byteAt_extract :
    byteAt (b.extract start stop) i =
      if i < min stop b.size - start then byteAt b (start + i) else 0 := by
  rw [byteAt, ByteArray.data_extract, Array.getElem?_extract, apply_ite (Option.getD · 0)]
  rfl

theorem byteAt_push_zero : byteAt (b.push 0) i = byteAt b i := by
  rw [byteAt, ByteArray.data_push, Array.getElem?_push]
  split
  · rename_i h
    rw [byteAt_of_size_le (Nat.le_of_eq h.symm)]
    rfl
  · rfl

theorem byteAt_zerosAux {fuel : Nat} : byteAt (zerosAux fuel n) i = 0 := by
  induction fuel generalizing n i with
  | zero => rfl
  | succ fuel ih =>
    have hdouble : byteAt (zerosAux fuel (n / 2) ++ zerosAux fuel (n / 2)) i = 0 := by
      rw [byteAt_append, ih, ih, ite_self]
    unfold zerosAux
    split
    · rfl
    · simp only
      split
      · exact hdouble
      · rw [byteAt_push_zero]
        exact hdouble

theorem byteAt_zeros : byteAt (zeros n) i = 0 := byteAt_zerosAux

theorem toList_zeros (n : Nat) : (zeros n).data.toList = List.replicate n 0 := by
  refine List.eq_replicate_iff.mpr ⟨size_zeros n, fun x hx => ?_⟩
  obtain ⟨i, hi, rfl⟩ := List.getElem_of_mem hx
  have hzero : byteAt (zeros n) i = 0 := byteAt_zeros
  rwa [byteAt, Array.getElem?_eq_getElem hi] at hzero

/-- **The bytes after a write.** -/
theorem byteAt_writeAt :
    byteAt (writeAt b offset data) i =
      if offset ≤ i ∧ i < offset + data.size then byteAt data (i - offset) else byteAt b i := by
  have hfront : (b.extract 0 offset ++ zeros (offset - b.size)).size = offset := by
    rw [ByteArray.size_append, ByteArray.size_extract, size_zeros]
    omega
  have hmiddle : (b.extract 0 offset ++ zeros (offset - b.size) ++ data).size =
      offset + data.size := by rw [ByteArray.size_append, hfront]
  rw [writeAt, byteAt_append, hmiddle]
  by_cases hi : i < offset
  · -- Before the offset there is what was there, and zeros past its end.
    rw [if_pos (by omega), byteAt_append, hfront, if_pos hi, if_neg (by omega), byteAt_append,
      byteAt_zeros, byteAt_extract, ByteArray.size_extract, Nat.zero_add]
    split
    · rfl
    · rw [byteAt_of_size_le (by omega)]
  · by_cases hi' : i < offset + data.size
    · rw [if_pos hi', byteAt_append, hfront, if_neg hi, if_pos (by omega)]
    · rw [if_neg hi', if_neg (by omega), byteAt_extract]
      split
      · rw [show offset + data.size + (i - (offset + data.size)) = i by omega]
      · rw [byteAt_of_size_le (by omega)]

/-! ### Writes at the front -/

theorem front_append : front (a ++ b) a.size = a := by
  rw [front, ByteArray.size_append, Nat.min_eq_left (Nat.le_add_right ..),
    ByteArray.extract_append_eq_left rfl]

theorem front_of_size_le (h : a.size ≤ n) : front a n = a := by
  rw [front, Nat.min_eq_right h, ByteArray.extract_zero_size]

theorem writeAt_zero : writeAt b 0 data = data ++ b.extract data.size b.size := by
  rw [writeAt, ByteArray.extract_same, Nat.zero_sub, Nat.zero_add]
  simp [zeros, zerosAux]

end Bytes

/-- What was filled into a buffer is read back from its front, if it fits. -/
theorem Buffer.materialize_fill {b : Buffer} {data : ByteArray} (h : data.size ≤ b.capacity) :
    (b.fill data).materialize data.size = data := by
  rw [materialize, fill, Bytes.front_of_size_le h, Bytes.writeAt_zero, Bytes.front_append]

/-- Taking the front gives the leading bytes. -/
theorem Buffer.toList_materialize (b : Buffer) (n : Nat) :
    (b.materialize n).data.toList = b.bytes.data.toList.take n := by
  rw [materialize, Bytes.front, ByteArray.data_extract, Array.toList_extract,
    List.extract_eq_take_drop, List.drop_zero, List.take_eq_take_iff]
  change min (min n b.bytes.size - 0) b.bytes.size = min n b.bytes.size
  omega

namespace Object

/-- The bytes of an object from an offset on, at most so many. -/
def part (o : Object) (offset length : Nat) : List UInt8 :=
  (o.data.data.toList.drop offset).take length

variable {o : Object} {offset length n : Nat}

/-- **A read copies the part of the object that it asked for.** -/
theorem toList_slice : (o.slice offset length).data.toList = o.part offset length := by
  have hsize : o.data.data.toList.length = o.data.size := rfl
  rw [part, slice, ByteArray.data_extract, Array.toList_extract, List.extract_eq_take_drop,
    Nat.add_sub_cancel_left]
  rcases Nat.le_total offset o.data.size with h | h
  · rw [Nat.min_eq_left h, List.take_eq_take_iff, List.length_drop]
    omega
  · rw [Nat.min_eq_right h, List.drop_eq_nil_of_le (Nat.le_of_eq hsize),
      List.drop_eq_nil_of_le (hsize ▸ h), List.take_nil, List.take_nil]

theorem size_slice : (o.slice offset length).size = (o.part offset length).length :=
  congrArg List.length toList_slice

theorem length_part : (o.part offset length).length = min length (o.data.size - offset) := by
  rw [part, List.length_take, List.length_drop]
  rfl

/-- What is read of an object is no larger than the object. -/
theorem size_slice_lt (o : Object) (h : o.data.size < n) : (o.slice offset length).size < n := by
  rw [size_slice, length_part]
  omega

end Object

end Milepost
