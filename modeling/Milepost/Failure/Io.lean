import Milepost.Failure

/-!
# Failures and I/O errors

A failure can travel inside an I/O error, for callers that know only those, and comes out of it
unchanged. Any other I/O error becomes the cause of a new failure.

* `ofIo_toIo`: what goes in comes out.
-/

namespace Milepost

/-- An I/O error. -/
inductive IoError
  /-- A fault of input or output. -/
  | fault (fault : IoFault)
  /-- A failure, carried under a kind. -/
  | carrying (kind : IoKind) (failure : Failure)
deriving DecidableEq, Repr

namespace IoError

/-- The kind of the error. -/
def kind : IoError → IoKind
  | fault f => f.kind
  | carrying kind _ => kind

/-- The wording of the error. -/
def text : IoError → String
  | fault f => f.text
  | carrying _ failure => failure.summary

end IoError

namespace Failure

/-- The failure as an I/O error. -/
def toIo (e : Failure) : IoError :=
  .carrying (if e.kind = .invalidInput then .invalidInput else .other) e

/-- The failure that an I/O error is: the one it carries, or else one caused by the fault. -/
def ofIo : IoError → Failure
  | .carrying _ failure => failure
  | .fault f => of (if f.kind = .invalidInput then .invalidInput else .other) (.io f)

theorem ofIo_toIo (e : Failure) : ofIo e.toIo = e := rfl

end Failure

end Milepost
