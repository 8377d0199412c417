import Milepost.Buffer.GrowRetry
import Milepost.Buffer.Shelf
import Milepost.Store

/-!
# Backends

A backend stores objects. An operation is issued to it with a completion, a token that the caller
made before and releases afterwards; whether it took the operation is answered at once, and the
two milestones resolve the completion later, while the backend works on by itself. All other calls
are answered at once, except a flush, which is answered when all that was issued before is safe.

* `ObjectBackend`: the calls of a backend.
* `Pace`: how far a backend gets with its own work.
-/

namespace Milepost

/-- The number of a completion. -/
abbrev CompletionId := Nat

/-- An operation as a backend gets it: the bytes of a read go to a shared buffer. -/
inductive Command
  | edit (e : Edit)
  | read (buffer : BufferId) (offset : Nat)
deriving DecidableEq

/-- What is known about an object. -/
structure StatReply where
  status : Status
  /-- The size and the time of the last change, if the call told them. -/
  found : Option (Nat × Int) := none
deriving DecidableEq, Repr

/-- What a flush is answered. -/
inductive FlushAnswer
  | done (status : Status)
  /-- The answer follows when the completion is safe. -/
  | pending (completion : CompletionId)
deriving DecidableEq, Repr

/-- How far a backend gets with its own work. -/
inductive Pace
  /-- It works on as long as there is work. -/
  | running
  /-- It applies one operation and then does not fire its milestones. -/
  | held
  /-- It fires the first milestone of one operation and then not the second. -/
  | stalled
deriving DecidableEq, Repr

/-- A store of objects whose operations pass two milestones. -/
class ObjectBackend (β : Type) where
  /-- Refuses all operations from now on. -/
  shutdown : β → β
  /-- Makes a completion. -/
  createCompletion : β → Except Failure CompletionId × β
  /-- Issues an operation on an object. One hold on the buffer of a read goes to the backend. -/
  issue : PoolId → String → CompletionId → Command → β × Shelf → Status × (β × Shelf)
  /-- The status that resolved a milestone; none while it is awaited. -/
  resolution? : β → CompletionId → Milestone → Option Status
  /-- The result of the operation. -/
  returnValue : β → CompletionId → Status
  /-- Releases a completion. -/
  release : CompletionId → β → β
  /-- Asks for everything issued so far to be made safe. -/
  beginFlush : PoolId → β → FlushAnswer × β
  /-- The answer to a flush; none while it is awaited. -/
  endFlush? : CompletionId → β → Option (Status × β)
  createPool : String → β → Status × β
  deletePool : String → β → Status × β
  /-- The number of the pool of a name, or a refusal. -/
  lookupPool : String → β → PoolId × β
  /-- Delivers the names of all pools, each ended by a NUL, and a NUL after the last. -/
  listPools : BufferCall β
  /-- Delivers the name of a pool. -/
  poolName : PoolId → BufferCall β
  /-- Delivers the value of an attribute. -/
  getAttribute : ObjectKey → String → BufferCall β
  setAttribute : ObjectKey → String → ByteArray → β → Status × β
  removeAttribute : ObjectKey → String → β → Status × β
  stat : ObjectKey → β → StatReply × β
  /-- Works on alone, as far as the pace allows. -/
  work : Pace → β × Shelf → β × Shelf

end Milepost
