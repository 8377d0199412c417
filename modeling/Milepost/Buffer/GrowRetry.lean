import Milepost.Buffer
import Milepost.Failure
import Milepost.Meters

/-!
# Calls that need a large enough buffer

Some calls do not say beforehand how many bytes they will deliver. They are lent a zero buffer and
answer with a status: a size that fits, a larger size that they need, the refusal that the buffer
is too small, or another refusal. `GrowRetry.run` repeats such a call with larger buffers until it
is content, refused, or repeated too often.

* `run_eq_attempt`: a run is the attempt with the initial size.
* `attempt_of_overflow`: a buffer past the limit ends the run before the call is made again.
* The attempts end because every capacity is larger than the one before.
-/

namespace Milepost

/-- What a call answers: a status, and the bytes that it put at the front of its buffer. -/
structure BufferReply where
  status : Status
  written : ByteArray := .empty
deriving DecidableEq

/-- A call that is lent a buffer and may change a state. -/
abbrev BufferCall (σ : Type) := Buffer → σ → BufferReply × σ

/-- How often and with which buffers a call is made. -/
structure GrowRetry where
  /-- The capacity of the first buffer. -/
  initialSize : Nat := 64
  /-- How many calls are made at most. -/
  maxAttempts : Option Nat := none
deriving DecidableEq, Repr

namespace GrowRetry

/-- How a run ends. -/
inductive Outcome
  /-- The call was content and delivered these bytes. -/
  | filled (bytes : ByteArray)
  /-- The call was refused, or repeated too often. -/
  | failed (e : Failure)
  /-- The next buffer would be larger than a buffer may be. -/
  | overflow
deriving DecidableEq

/-- A finished run. -/
structure Run (σ : Type) where
  outcome : Outcome
  /-- The capacities of the buffers lent, in order. -/
  capacities : List Nat
  meters : BufferMeters
  state : σ

/-- How many calls of a run were repetitions. -/
def Run.retries {σ : Type} (r : Run σ) : Nat := r.capacities.length - 1

/-- What follows an answer. -/
inductive Verdict
  | filled (bytes : ByteArray)
  | failed (e : Failure)
  /-- The call needs a buffer of the capacity. -/
  | larger (capacity : Nat)
deriving DecidableEq

/-- What follows the answer to a call that was lent `b`. -/
def verdict (b : Buffer) (r : BufferReply) : Verdict :=
  if r.status = Status.outOfRange then .larger (Buffer.doubled b.capacity)
  else if r.status.isError then .failed (.ofStatus .other r.status)
  else if b.capacity < r.status.toSize then
    .larger (max (Buffer.doubled b.capacity) r.status.toSize)
  else .filled ((b.fill r.written).materialize r.status.toSize)

theorem verdict_eq_larger_iff {b : Buffer} {r : BufferReply} {c : Nat} :
    verdict b r = .larger c ↔
      (r.status = Status.outOfRange ∨ b.capacity < r.status.toSize) ∧
        c = max (Buffer.doubled b.capacity) r.status.toSize := by
  unfold verdict
  split
  · next hrange =>
    have hsize : Status.outOfRange.toSize = 0 := rfl
    simp [hrange, hsize, eq_comm]
  · next hrange =>
    split
    · next herror => simp [hrange, Status.toSize_of_isError herror]
    · split
      · next hlt => simp [hlt, eq_comm]
      · next hle => simp [hrange, hle]

theorem verdict_eq_failed_iff {b : Buffer} {r : BufferReply} {e : Failure} :
    verdict b r = .failed e ↔
      (r.status.isError = true ∧ r.status ≠ Status.outOfRange) ∧
        e = .ofStatus .other r.status := by
  unfold verdict
  split
  · next hrange => simp [hrange]
  · next hrange =>
    split
    · next herror => simp [hrange, herror, eq_comm]
    · next herror => split <;> simp [herror]

theorem verdict_eq_filled_iff {b : Buffer} {r : BufferReply} {bytes : ByteArray} :
    verdict b r = .filled bytes ↔
      (r.status.isError = false ∧ r.status.toSize ≤ b.capacity) ∧
        bytes = (b.fill r.written).materialize r.status.toSize := by
  unfold verdict
  split
  · next hrange =>
    have herror : r.status.isError = true := by rw [hrange]; rfl
    simp [herror]
  · split
    · next herror => simp [herror]
    · next herror =>
      split
      · next hlt => simp [Nat.not_le.mpr hlt]
      · next hle => simp [herror, Nat.not_lt.mp hle, eq_comm]

theorem lt_of_verdict_larger {b : Buffer} {r : BufferReply} {c : Nat}
    (hb : b.capacity ≤ Buffer.maxAllocation) (h : verdict b r = .larger c) : b.capacity < c := by
  obtain ⟨-, rfl⟩ := verdict_eq_larger_iff.mp h
  exact Nat.lt_of_lt_of_le (Buffer.lt_doubled hb) (Nat.le_max_left ..)

/-- Whether no further call is allowed after the calls with buffers of these capacities. -/
def exhaustedAfter (p : GrowRetry) (capacities : List Nat) : Bool :=
  p.maxAttempts.any (· ≤ capacities.length)

/-- The failure of a call that was made too often. -/
def gaveUp (capacities : List Nat) : Failure :=
  .of .bufferExhausted (.gaveUp capacities.length capacities.getLast?)

/-- The meters after a buffer of the capacity was lent to a call, which is a repetition unless it
is the first. -/
def countLent (capacities : List Nat) (capacity : Nat) (m : BufferMeters) : BufferMeters :=
  let m := m.lent capacity
  if capacities.isEmpty then m else m.retried

/-- The run from the attempt with a buffer of the capacity on. `capacities` are those of the
attempts before. -/
def attempt {σ : Type} (p : GrowRetry) (call : BufferCall σ) (capacities : List Nat)
    (capacity : Nat) (m : BufferMeters) (s : σ) : Run σ :=
  match _hb : Buffer.allocate? capacity with
  | none => ⟨.overflow, capacities, m, s⟩
  | some b =>
    if p.exhaustedAfter capacities then
      ⟨.failed (gaveUp capacities), capacities, m.gaveUp, s⟩
    else
      let m := countLent capacities capacity m
      let answer := call b s
      let tried := capacities ++ [capacity]
      match _hv : verdict b answer.1 with
      | .filled bytes => ⟨.filled bytes, tried, m, answer.2⟩
      | .failed e => ⟨.failed e, tried, m, answer.2⟩
      | .larger c => attempt p call tried c m answer.2
termination_by Buffer.maxAllocation + 1 - capacity
decreasing_by
  obtain ⟨hc, hle⟩ := Buffer.capacity_of_allocate? _hb
  have := lt_of_verdict_larger (hc ▸ hle) _hv
  omega

/-- Makes the call, as often as needed and allowed. -/
def run {σ : Type} (p : GrowRetry) (call : BufferCall σ) (m : BufferMeters) (s : σ) : Run σ :=
  p.attempt call [] p.initialSize m s

/-- Makes the call likewise, for one who has no use for the capacities: how it ended, the meters and
the state. -/
def deliver {σ : Type} (p : GrowRetry) (call : BufferCall σ) (m : BufferMeters) (s : σ) :
    Outcome × BufferMeters × σ :=
  let r := p.run call m s
  (r.outcome, r.meters, r.state)

theorem run_eq_attempt {σ : Type} (p : GrowRetry) (call : BufferCall σ) (m : BufferMeters)
    (s : σ) : p.run call m s = p.attempt call [] p.initialSize m s := rfl

theorem attempt_of_overflow {σ : Type} (p : GrowRetry) (call : BufferCall σ)
    (capacities : List Nat) {capacity : Nat} (m : BufferMeters) (s : σ)
    (h : Buffer.maxAllocation < capacity) :
    p.attempt call capacities capacity m s = ⟨.overflow, capacities, m, s⟩ := by
  have hn : Buffer.allocate? capacity = none := if_neg (by omega)
  unfold attempt
  split
  · rfl
  · next b hb => rw [hn] at hb; cases hb

end GrowRetry

end Milepost
