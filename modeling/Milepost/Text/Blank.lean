/-!
# Blank characters

White space as the Unicode property of that name lists it, and cutting it off both ends of a text.

* `trim`: the text without the blanks at both ends.
* `splitAtComma`: the texts between the commas.
-/

namespace Milepost.Text

/-- First and last code points of the runs of white space. -/
def blankRuns : List (Nat × Nat) :=
  [(0x9, 0xD), (0x20, 0x20), (0x85, 0x85), (0xA0, 0xA0), (0x1680, 0x1680), (0x2000, 0x200A),
   (0x2028, 0x2029), (0x202F, 0x202F), (0x205F, 0x205F), (0x3000, 0x3000)]

/-- Whether the character is white space. -/
def isBlank (c : Char) : Bool := blankRuns.any fun r => r.1 ≤ c.toNat && c.toNat ≤ r.2

/-- The characters without the blanks at both ends. -/
def trimChars (cs : List Char) : List Char :=
  ((cs.dropWhile isBlank).reverse.dropWhile isBlank).reverse

/-- The text without the blanks at both ends. -/
def trim (s : String) : String := String.ofList (trimChars s.toList)

/-- The texts between the commas of `s`, in order, empty ones included. -/
def splitAtComma (s : String) : List String :=
  (s.toList.splitOnP (· == ',')).map String.ofList

end Milepost.Text
