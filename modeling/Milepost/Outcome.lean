import Milepost.Bytes
import Milepost.Failure

/-!
# Outcomes of milestones

A milestone is reached, for a read with the bytes read, or it is failed. A future answers one
outcome.
-/

namespace Milepost

/-- How a milestone turned out. -/
inductive Outcome
  /-- The milestone was passed; a read delivers bytes. -/
  | reached (payload : Option ByteArray)
  | failed (e : Failure)
deriving DecidableEq

namespace Outcome

/-- The outcome of a read that gave bytes or failed. -/
def ofRead : Except Failure ByteArray → Outcome
  | .ok bytes => .reached (some bytes)
  | .error e => .failed e

/-- The outcome for one whose answer got lost. -/
def lost : Outcome := .failed (.of .other .replyLost)

end Outcome

end Milepost
