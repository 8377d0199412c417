import Milepost.Counter
import Milepost.Milestone
import Milepost.Operation

/-!
# Meters

What is counted: operations and their milestones, the handles that stand for them, and the
buffers lent to calls. Counters only grow; the number of outstanding handles goes up and down.

* `BufferMeters.lent`: what one call after another adds to the bytes allocated.
-/

namespace Milepost

/-- The values of the counters of all kinds together. -/
def PerOperation.totalValue (p : PerOperation Counter) : Nat :=
  p.write.value + p.writeFull.value + p.append.value + p.read.value + p.remove.value

/-- The meters of operations. -/
structure OperationMeters where
  /-- Operations that the backend took. -/
  issued : PerOperation Counter := .const {}
  /-- Operations that did not get to the backend. -/
  refused : PerOperation Counter := .const {}
  /-- Milestones waited for to the end. -/
  milestones : PerMilestone Counter := .const {}
  /-- Those of them that a refusal resolved. -/
  milestoneFailures : PerMilestone Counter := .const {}
  /-- Handles released. -/
  released : Counter := {}
  /-- Attempts to release a handle again. -/
  doubleReleases : Counter := {}
  /-- Handles made and not released yet. -/
  outstanding : Int := 0
deriving DecidableEq, Repr

namespace OperationMeters

/-- Counts an operation that the backend took. -/
def operationIssued (m : OperationMeters) (k : OperationKind) : OperationMeters :=
  { m with issued := m.issued.modify k .increment }

/-- Counts an operation that did not get to the backend. -/
def operationRefused (m : OperationMeters) (k : OperationKind) : OperationMeters :=
  { m with refused := m.refused.modify k .increment }

/-- Counts a milestone, and whether a refusal resolved it. -/
def milestonePassed (m : OperationMeters) (ms : Milestone) (failed : Bool) : OperationMeters :=
  { m with
    milestones := m.milestones.modify ms .increment
    milestoneFailures :=
      if failed then m.milestoneFailures.modify ms .increment else m.milestoneFailures }

/-- Counts a handle that was made. -/
def handleCreated (m : OperationMeters) : OperationMeters :=
  { m with outstanding := m.outstanding + 1 }

/-- Counts a handle that was released. -/
def handleReleased (m : OperationMeters) : OperationMeters :=
  { m with released := m.released.increment, outstanding := m.outstanding - 1 }

/-- Counts an attempt to release a handle again. -/
def handleReleasedAgain (m : OperationMeters) : OperationMeters :=
  { m with doubleReleases := m.doubleReleases.increment }

/-- How many operations the backend took. -/
def issuedSum (m : OperationMeters) : Nat :=
  m.issued.totalValue

/-- How many operations did not get to the backend. -/
def refusedSum (m : OperationMeters) : Nat :=
  m.refused.totalValue

end OperationMeters

/-- The meters of buffers lent to calls. -/
structure BufferMeters where
  /-- Bytes allocated. -/
  allocated : Counter := {}
  /-- Calls repeated with a larger buffer. -/
  retries : Counter := {}
  /-- Calls given up. -/
  exhausted : Counter := {}
deriving DecidableEq, Repr

namespace BufferMeters

/-- Counts the bytes of a buffer. -/
def lent (m : BufferMeters) (size : Nat) : BufferMeters :=
  { m with allocated := m.allocated.add size }

/-- Counts a repeated call. -/
def retried (m : BufferMeters) : BufferMeters := { m with retries := m.retries.increment }

/-- Counts a call given up. -/
def gaveUp (m : BufferMeters) : BufferMeters := { m with exhausted := m.exhausted.increment }

end BufferMeters

/-- The meters that belong together. -/
structure Meters where
  operations : OperationMeters := {}
  buffers : BufferMeters := {}
deriving DecidableEq, Repr

namespace Meters

/-- The meters with those of operations changed. -/
def onOperations (m : Meters) (f : OperationMeters → OperationMeters) : Meters :=
  { m with operations := f m.operations }

/-- The meters with those of buffers changed. -/
def onBuffers (m : Meters) (f : BufferMeters → BufferMeters) : Meters :=
  { m with buffers := f m.buffers }

end Meters

end Milepost
