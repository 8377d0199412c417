import Milepost.Status.ErrorText

/-!
# Status codes

A backend answers every call with a 32-bit status: a negative one is a refusal and holds the
negated error number, any other is a success and may hold a size.

* `toSize_ofSize`: a size that fits in a status is read back.
* `isError_ofSize`: and is no refusal.
-/

namespace Milepost

/-- The answer of a backend call. -/
abbrev Status := Int32

namespace Status

/-- There is no such pool or object. -/
def noEntry : Status := -2
/-- A buffer could not be filled. -/
def ioError : Status := -5
/-- The name is in use. -/
def inUse : Status := -17
/-- The call does not fit the state of its argument. -/
def invalid : Status := -22
/-- The object would grow past its limit. -/
def tooBig : Status := -27
/-- The buffer given is too small. -/
def outOfRange : Status := -34
/-- The object has no such attribute. -/
def noData : Status := -61
/-- The backend is shut down. -/
def notConnected : Status := -107

/-- Whether the status is a refusal. -/
def isError (s : Status) : Bool := s < 0

@[simp]
theorem isError_zero : isError 0 = false := rfl

/-- The status that reports a size; a size past the width is cut to it. -/
def ofSize (n : Nat) : Status := Int32.ofNat n

/-- The size that a success reports. -/
def toSize (s : Status) : Nat := s.toInt.toNat

theorem toSize_ofSize {n : Nat} (h : n < 0x80000000) : toSize (ofSize n) = n := by
  simp [toSize, ofSize, Int32.toInt_ofNat_of_lt h]

theorem toSize_of_isError {s : Status} (h : s.isError = true) : s.toSize = 0 := by
  have hneg : s.toInt < 0 := Int32.lt_iff_toInt_lt.mp (of_decide_eq_true h)
  exact Int.toNat_of_nonpos (Int.le_of_lt hneg)

theorem isError_ofSize {n : Nat} (h : n < 0x80000000) : (ofSize n).isError = false := by
  rw [isError, decide_eq_false_iff_not, Int32.lt_iff_toInt_lt, ofSize, Int32.toInt_ofNat_of_lt h]
  exact Int.not_lt.mpr (Int.natCast_nonneg n)

theorem not_isError_ofSize {n : Nat} (h : n < 0x80000000) : ¬ (ofSize n).isError = true :=
  Bool.eq_false_iff.mp (isError_ofSize h)

/-- The number of a status and, for a refusal, the text of its error. -/
def text (s : Status) : String :=
  if s.isError then
    let n := (-s.toInt).toNat
    toString s.toInt ++ ": " ++ errorText n ++ " (os error " ++ toString n ++ ")"
  else toString s.toInt

end Status

end Milepost
