import Milepost.Callbacks
import Milepost.Handle

/-!
# Operations under way

A flight is one operation from its submission to the answer of its two futures. Three tasks take
part in it: the issuer makes a handle and issues the operation; if the backend takes it, two
waiters follow, each of which waits for one milestone, calls back, counts down the handle and
answers its future. Every task goes through phases, one step at a time, so that the steps of
different tasks and of the backend may come in any order.

* `IssuerPhase.rank`, `WaiterPhase.rank`: how many steps a task has to make at most.
* `isSettled_iff`: a flight is over when all its tasks are.
-/

namespace Milepost

/-- Where an issuer is. -/
inductive IssuerPhase
  /-- Nothing is done. -/
  | ready
  /-- There is a handle. -/
  | created
  /-- The backend took the operation. -/
  | accepted
  /-- The operation was refused; the handle is to be released. -/
  | refused (e : Failure)
  /-- There is no handle or it is released; the owner is to be told. -/
  | rejected (e : Failure)
  /-- The owner was called back; the futures are to be answered. -/
  | notified (e : Failure)
  /-- The first future is answered. -/
  | answered (e : Failure)
  /-- The buffer of a read could not be made; the handle is to be dropped. -/
  | crashed
  /-- The task failed; the futures are to be given up. -/
  | lost
  | finished
deriving DecidableEq

/-- How many steps an issuer has to make at most. -/
def IssuerPhase.rank : IssuerPhase → Nat
  | ready => 6
  | created => 5
  | accepted => 1
  | refused _ => 4
  | rejected _ => 3
  | notified _ => 2
  | answered _ => 1
  | crashed => 2
  | lost => 1
  | finished => 0

/-- Where a waiter is. -/
inductive WaiterPhase
  /-- It has not been started. -/
  | idle
  /-- It waits for its milestone. -/
  | waiting
  /-- The milestone was passed; so many bytes are to be copied. -/
  | copying (n : Nat)
  /-- The outcome is known. -/
  | ready (o : Outcome)
  /-- A failure is reported to the handle. -/
  | recorded (o : Outcome)
  /-- The owner was called back. -/
  | notified (o : Outcome)
  /-- The handle is counted down. -/
  | counted (o : Outcome)
  /-- The callback failed; the future is to be given up. -/
  | raised
  /-- The future is given up; the handle is to be counted down. -/
  | abandoned
  | finished
deriving DecidableEq

/-- How many steps a waiter has to make at most. -/
def WaiterPhase.rank : WaiterPhase → Nat
  | idle => 0
  | waiting => 6
  | copying _ => 5
  | ready _ => 4
  | recorded _ => 3
  | notified _ => 2
  | counted _ => 1
  | raised => 2
  | abandoned => 1
  | finished => 0

/-- What a flight is about. -/
structure Task where
  pool : PoolId
  request : Request
  callbacks : Callbacks
  account : AccountId
  /-- The context of the issuer, which names object and operation. -/
  context : Context
  /-- What the names of the tasks begin with. -/
  thread : String
deriving DecidableEq

namespace Task

/-- The name of the issuer. -/
def issuerThread (t : Task) : String := t.thread ++ "_issue"

/-- The name of the waiter for a milestone. -/
def waiterThread (t : Task) (m : Milestone) : String := t.thread ++ "_" ++ m.label

/-- The context of the waiter for a milestone. -/
def waiterContext (t : Task) (m : Milestone) : Context :=
  t.context ++ [("oid", t.request.oid), ("op", t.request.kind.label), ("milestone", m.label)]

end Task

/-- An operation under way. -/
structure Flight where
  task : Task
  handle : Option Handle := none
  issuer : IssuerPhase := .ready
  waiters : PerMilestone WaiterPhase := .const .idle
  /-- What the futures were answered. -/
  futures : PerMilestone (Option Outcome) := .const none
  /-- The calls of callbacks, oldest first. -/
  invocations : List Invocation := []
deriving DecidableEq

namespace Flight

/-- Answers the future of a milestone. -/
def answer (f : Flight) (m : Milestone) (o : Outcome) : Flight :=
  { f with futures := f.futures.set m (some o) }

/-- Sets the phase of a waiter. -/
def onWaiter (f : Flight) (m : Milestone) (p : WaiterPhase) : Flight :=
  { f with waiters := f.waiters.set m p }

/-- Writes down that a callback was called. -/
def invoked (f : Flight) (i : Option Invocation) : Flight :=
  { f with invocations := f.invocations ++ i.toList }

/-- Whether a called callback fails. -/
def raises (i : Option Invocation) : Bool := i.any (·.callback.raises)

/-- Whether no task has a step to make any more. -/
def isSettled (f : Flight) : Bool :=
  f.issuer.rank == 0 && f.waiters.complete.rank == 0 && f.waiters.safe.rank == 0

/-- Whether the issue failed: the issuer ended and no waiter was started. -/
def isRefused (f : Flight) : Bool :=
  f.issuer == .finished && f.waiters.complete == .idle

/-- What both milestones turned out to be, if both are known. -/
def both? (f : Flight) : Option (Outcome × Outcome) :=
  f.futures.complete.bind fun c => f.futures.safe.map fun s => (c, s)

theorem isSettled_iff (f : Flight) :
    f.isSettled ↔ f.issuer.rank = 0 ∧ ∀ m, (f.waiters.get m).rank = 0 := by
  simp only [isSettled, Bool.and_eq_true, beq_iff_eq]
  constructor
  · rintro ⟨⟨hi, hc⟩, hs⟩
    exact ⟨hi, fun m => by cases m <;> assumption⟩
  · rintro ⟨hi, hw⟩
    exact ⟨⟨hi, hw .complete⟩, hw .safe⟩

end Flight

end Milepost
