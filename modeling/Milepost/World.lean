import Milepost.Backend
import Milepost.Journal
import Milepost.Meters

/-!
# The world of a client

What the parts of a client share: the backend, the shared buffers, the meters and the journal.
Meters are kept in accounts, so that several owners may count together or apart.

* `getMeters_onMeters_self`: what is counted on an account is found there.
* `getMeters_onMeters_of_ne`: and on no other.
-/

namespace Milepost

/-- The number of an account of meters. -/
abbrev AccountId := Nat

/-- What the parts of a client share. -/
structure World (β : Type) where
  backend : β
  shelf : Shelf := {}
  accounts : Array Meters := #[{}]
  journal : Journal := #[]

namespace World

variable {β : Type}

/-- The meters of an account. -/
def getMeters (w : World β) (a : AccountId) : Meters := w.accounts[a]?.getD {}

/-- Opens an account. -/
def openAccount (w : World β) : AccountId × World β :=
  (w.accounts.size, { w with accounts := w.accounts.push {} })

/-- Changes the meters of an account. -/
def onMeters (w : World β) (a : AccountId) (f : Meters → Meters) : World β :=
  { w with accounts := w.accounts.modify a f }

/-- Counts on the operations' meters of an account. -/
def count (w : World β) (a : AccountId) (f : OperationMeters → OperationMeters) : World β :=
  w.onMeters a (·.onOperations f)

/-- Writes into the journal. -/
def write (w : World β) (r : Record) : World β := { w with journal := w.journal.push r }

/-- Has the backend change itself and answer. -/
def onBackend {α : Type} (w : World β) (f : β → α × β) : α × World β :=
  let (a, backend) := f w.backend
  (a, { w with backend })

/-- Has the backend change itself and the buffers and answer. -/
def onBuffers {α : Type} (w : World β) (f : β × Shelf → α × (β × Shelf)) : α × World β :=
  let (a, backend, shelf) := f (w.backend, w.shelf)
  (a, { w with backend, shelf })

/-- Has the backend work on alone. -/
def work [ObjectBackend β] (w : World β) (pace : Pace) : World β :=
  let (backend, shelf) := ObjectBackend.work pace (w.backend, w.shelf)
  { w with backend, shelf }

theorem getMeters_onMeters_self {w : World β} {a : AccountId} (h : a < w.accounts.size)
    (f : Meters → Meters) : (w.onMeters a f).getMeters a = f (w.getMeters a) := by
  simp only [onMeters, getMeters, Array.getElem?_modify, if_pos, Array.getElem?_eq_getElem h]
  rfl

theorem getMeters_onMeters_of_ne {w : World β} {a a' : AccountId} (h : a ≠ a')
    (f : Meters → Meters) : (w.onMeters a f).getMeters a' = w.getMeters a' := by
  simp [onMeters, getMeters, Array.getElem?_modify, h]

end World

end Milepost
