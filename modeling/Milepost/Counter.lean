/-!
# Counters

A counter adds whole numbers in a 64-bit word and is read through a double: past `2 ^ 53` the
reading is the nearest double, a half goes to the even one, and a reading of `2 ^ 64` is cut to
the largest word.

* `value_of_small`: below `2 ^ 53` a counter reads as what was added.
* `Reading.text`: the shortest decimal that reads back as the double.
-/

namespace Milepost

/-- A counter: the sum of what was added to it. -/
structure Counter where
  total : Nat := 0
deriving DecidableEq, Repr

/-- How many bits of a number a double keeps. -/
def Counter.precision : Nat := 53

/-- How many numbers a word holds. -/
def Counter.wordSize : Nat := 0x10000000000000000

/-- Below this number every natural number is a double. -/
def Counter.exactLimit : Nat := 0x20000000000000

/-- The distance of the doubles around `n`. -/
def Counter.spacing (n : Nat) : Nat := Nat.pow 2 (n.log2 + 1 - precision)

/-- The double nearest to `n`; of two the one whose last kept bit is zero. -/
def Counter.nearestDouble (n : Nat) : Nat :=
  let u := spacing n
  let q := n / u
  let r := n % u
  if 2 * r < u ∨ (2 * r = u ∧ q % 2 = 0) then q * u else (q + 1) * u

namespace Counter

/-- The counter after `n` more. -/
def add (c : Counter) (n : Nat) : Counter := ⟨c.total + n⟩

/-- The counter after one more. -/
def increment (c : Counter) : Counter := c.add 1

/-- The double that the counter shows. -/
def reading (c : Counter) : Nat := nearestDouble (c.total % wordSize)

/-- The counter as a 64-bit word. -/
def value (c : Counter) : Nat := min c.reading (wordSize - 1)

theorem spacing_of_small {n : Nat} (h : n < exactLimit) : spacing n = 1 := by
  have hlog : n.log2 + 1 ≤ 53 := by
    by_cases hn : n = 0
    · subst hn; decide
    · exact (Nat.log2_lt hn).2 h
  have : n.log2 + 1 - precision = 0 := by simp only [precision]; omega
  simp [spacing, this]

theorem nearestDouble_of_small {n : Nat} (h : n < exactLimit) : nearestDouble n = n := by
  simp [nearestDouble, spacing_of_small h, Nat.mod_one]

theorem value_of_small {c : Counter} (h : c.total < exactLimit) : c.value = c.total := by
  have h64 : c.total % wordSize = c.total :=
    Nat.mod_eq_of_lt (Nat.lt_trans h (by decide))
  rw [value, reading, h64, nearestDouble_of_small h]
  exact Nat.min_eq_left (Nat.le_trans (Nat.le_of_lt h) (by decide))

end Counter

/-! ## The text of a reading -/

namespace Reading

/-- Whether the decimal `d` reads back as the double `v`. -/
def readsBackAs (v d : Nat) : Bool := Counter.nearestDouble d == v

/-- The multiples of `unit` next to `v`, the nearer one first. -/
def neighbours (unit v : Nat) : List Nat :=
  let below := v / unit * unit
  if v - below ≤ below + unit - v then [below, below + unit] else [below + unit, below]

/-- The decimal with the fewest digits, of at most `digits` places that are zero, that reads back
as the double `v`. -/
def shortestFrom : (places : Nat) → (v : Nat) → Nat
  | 0, v => v
  | places + 1, v =>
    match (neighbours (Nat.pow 10 (places + 1)) v).find? (readsBackAs v) with
    | some d => d
    | none => shortestFrom places v

/-- The decimal text of a double that is a natural number. -/
def text (v : Nat) : String := toString (shortestFrom 20 v)

end Reading

end Milepost
