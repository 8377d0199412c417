import Milepost.Text.Quoted

/-!
# Names

Names of pools, objects and attributes are passed on ended by a NUL, so they hold none themselves.

* `hasNul`: whether a text can be no name.
* `optional`: how a name that may be missing is written.
-/

namespace Milepost.Text

/-- Whether the text holds a NUL. -/
def hasNul (s : String) : Bool := s.toList.any (· == '\x00')

/-- A text that may be missing, quoted. -/
def optional : Option String → String
  | none => "None"
  | some s => "Some(" ++ quoted s ++ ")"

end Milepost.Text
