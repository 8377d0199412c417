import Milepost.Buffer
import Milepost.Failure

/-!
# Shared buffers

The result of a read is written by one task and copied by others. All of them hold the same
buffer. A task that fails while it changes the buffer spoils it for everyone: from then on every
access is refused.

* `update_of_poisoned`: a spoiled buffer is never changed.
-/

namespace Milepost

/-- A buffer held in several places. -/
structure SharedBuffer where
  content : Buffer
  /-- Whether a task failed while it changed the content. -/
  poisoned : Bool := false
  /-- In how many places the buffer is held. -/
  holders : Nat := 1
deriving DecidableEq

/-- How a task that changes a shared buffer ends. -/
inductive Ending (α : Type)
  | returned (a : α)
  | raised
deriving DecidableEq

namespace SharedBuffer

/-- The refusal of access to a spoiled buffer. -/
def refusal : Failure := .of .inconsistentState .poisoned

/-- What `f` reads off the content. -/
def access {α : Type} (s : SharedBuffer) (f : Buffer → α) : Except Failure α :=
  if s.poisoned then .error refusal else .ok (f s.content)

/-- Lets a task change the content. -/
def update {α : Type} (s : SharedBuffer) (f : Buffer → Buffer × Ending α) :
    Except Failure (Ending α) × SharedBuffer :=
  if s.poisoned then (.error refusal, s)
  else
    let (content, ending) := f s.content
    match ending with
    | .returned a => (.ok (.returned a), { s with content })
    | .raised => (.ok .raised, { s with content, poisoned := true })

/-- Lets a task that cannot fail change the content. -/
def modify {α : Type} (s : SharedBuffer) (f : Buffer → Buffer × α) :
    Except Failure α × SharedBuffer :=
  if s.poisoned then (.error refusal, s)
  else
    let (content, a) := f s.content
    (.ok a, { s with content })

/-- How many bytes the buffer has. -/
def capacity (s : SharedBuffer) : Except Failure Nat := s.access Buffer.capacity

/-- A copy of the first `n` bytes, or of all when there are fewer. -/
def materialize (s : SharedBuffer) (n : Nat) : Except Failure ByteArray :=
  s.access (Buffer.materialize · n)

/-- The buffer, held in one more place. -/
def hold (s : SharedBuffer) : SharedBuffer := { s with holders := s.holders + 1 }

/-- The buffer, held in one place less. -/
def letGo (s : SharedBuffer) : SharedBuffer := { s with holders := s.holders - 1 }

theorem access_of_poisoned {α : Type} {s : SharedBuffer} (h : s.poisoned = true)
    (f : Buffer → α) : s.access f = .error refusal := by
  simp [access, h]

theorem capacity_of_not_poisoned {s : SharedBuffer} (h : s.poisoned = false) :
    s.capacity = .ok s.content.capacity := by
  rw [capacity, access, h]
  rfl

theorem update_of_poisoned {α : Type} {s : SharedBuffer} (h : s.poisoned = true)
    (f : Buffer → Buffer × Ending α) : s.update f = (.error refusal, s) := by
  simp [update, h]

end SharedBuffer

end Milepost
