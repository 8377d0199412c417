import Milepost.Text.Invisible

/-!
# Quoted text

Names and values stand in messages between double quotes. A quote and a backslash inside are
written after a backslash, four controls by a letter, and every other invisible character by its
number, `\u{200b}`. A quoted path writes an apostrophe after a backslash too.

* `quoted`, `quotedPath`: a text and a path between quotes.
-/

namespace Milepost.Text

/-- A character by its number in lower-case hexadecimal, between braces. -/
def numbered (c : Char) : List Char :=
  ['\\', 'u', '{'] ++ Nat.toDigits 16 c.toNat ++ ['}']

/-- One character as it stands in a quoted text. -/
def escapeChar (c : Char) : List Char :=
  if c = '\x00' then ['\\', '0']
  else if c = '\t' then ['\\', 't']
  else if c = '\r' then ['\\', 'r']
  else if c = '\n' then ['\\', 'n']
  else if c = '"' ∨ c = '\\' then ['\\', c]
  else if isInvisible c then numbered c
  else [c]

/-- The text between double quotes, escaped. -/
def quoted (s : String) : String :=
  String.ofList ('"' :: s.toList.flatMap escapeChar ++ ['"'])

/-- A path between double quotes: as `quoted`, and an apostrophe is escaped. -/
def quotedPath (s : String) : String :=
  let escape := fun c => if c = '\x27' then ['\\', c] else escapeChar c
  String.ofList ('"' :: s.toList.flatMap escape ++ ['"'])

/-- The texts between square brackets, quoted and separated by commas. -/
def quotedList (xs : List String) : String :=
  "[" ++ ", ".intercalate (xs.map quoted) ++ "]"

end Milepost.Text
