/-!
# Reading natural numbers

`readBelow bound` reads decimal digits, after at most one plus sign, as a number below `bound`.
Of two faults the one that stands first in the text is reported.
-/

namespace Milepost.Text.Natural

/-- Why a text is no natural number below the bound. -/
inductive Fault
  | empty
  | badDigit
  | tooLarge
deriving DecidableEq, Repr

/-- The wording of a fault. -/
def Fault.message : Fault → String
  | .empty => "cannot parse integer from empty string"
  | .badDigit => "invalid digit found in string"
  | .tooLarge => "number too large to fit in target type"

/-- The value of the digits that follow those read into `acc`. -/
def readDigits (bound : Nat) : (acc : Nat) → List Char → Except Fault Nat
  | acc, [] => .ok acc
  | acc, c :: rest =>
    if c.isDigit then
      let next := acc * 10 + (c.toNat - '0'.toNat)
      if next < bound then readDigits bound next rest else .error .tooLarge
    else .error .badDigit

/-- The natural number below `bound` that the text stands for. -/
def readBelow (bound : Nat) (s : String) : Except Fault Nat :=
  match s.toList with
  | [] => .error .empty
  | ['+'] => .error .badDigit
  | '+' :: rest => readDigits bound 0 rest
  | cs => readDigits bound 0 cs

end Milepost.Text.Natural
