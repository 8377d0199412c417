import Milepost.Proofs.Changes
import Milepost.Proofs.Session

/-!
# Calls that are answered at once

A caller of the backend in memory may lend a call a buffer, or places for the size of an object
and for the time of its last change, and finds there what the call left. `DirectCall.run` puts the
calls that a status answers at once into one form: what is answered, what is left in the places
lent, and the backend afterwards.

* `DirectCall.backend_run`: only a call that changes the store changes the backend.
-/

namespace Milepost

/-- A buffer without new bytes is as it was. -/
theorem Buffer.fill_empty (b : Buffer) : b.fill .empty = b := by
  have hfront : Bytes.front .empty b.capacity = .empty := Bytes.front_of_size_le (Nat.zero_le _)
  rw [fill, hfront, Bytes.writeAt_zero, ByteArray.empty_append]
  exact congrArg Buffer.mk (ByteArray.extract_zero_size ..)

/-- What a caller lends to a call. -/
structure Lent where
  buffer : Buffer
  size : Nat
  modified : Int
deriving DecidableEq

/-- A call that is answered at once by a status. -/
inductive DirectCall
  | change (k : StoreCall)
  | listPools
  | poolName (pool : PoolId)
  | getAttribute (key : ObjectKey) (name : String)
  | stat (key : ObjectKey)

namespace DirectCall

/-- A call that puts bytes at the front of the buffer lent to it. -/
def deliver (call : BufferCall InMemory) (l : Lent) (b : InMemory) : Status × Lent × InMemory :=
  let (reply, b) := call l.buffer b
  (reply.status, { l with buffer := l.buffer.fill reply.written }, b)

/-- The answer to a call, what was lent as the call leaves it, and the backend after it. -/
def run : DirectCall → Lent → InMemory → Status × Lent × InMemory
  | change k, l, b =>
    let (status, b) := k.run b
    (status, l, b)
  | listPools, l, b => deliver ObjectBackend.listPools l b
  | poolName pool, l, b => deliver (ObjectBackend.poolName pool) l b
  | getAttribute key name, l, b => deliver (ObjectBackend.getAttribute key name) l b
  | stat key, l, b =>
    let (reply, b) := ObjectBackend.stat key b
    let (size, modified) := reply.found.getD (l.size, l.modified)
    (reply.status, { l with size, modified }, b)

/-- The pool that a call names by its number. -/
def pool? : DirectCall → Option PoolId
  | change k => k.pool?
  | listPools => none
  | poolName pool => some pool
  | getAttribute key _ | stat key => some key.1

/-! ### What each call does -/

variable {l : Lent} {b : InMemory} {key : ObjectKey} {name : String} {pool : PoolId}

theorem run_change (k : StoreCall) :
    (change k).run l b =
      ((k.onStore b.now b.store).1, l, { b with store := (k.onStore b.now b.store).2 }) := by
  cases k <;> rfl

/-- A call that delivers nothing leaves the buffer. -/
theorem deliver_of_call {call : BufferCall InMemory} {status : Status}
    (h : call l.buffer b = ({ status }, b)) : deliver call l b = (status, l, b) := by
  simp only [deliver, h, Buffer.fill_empty]

theorem run_listPools_of_lt
    (h : l.buffer.capacity < (InMemory.encodeNames b.store.poolNames).size) :
    listPools.run l b = (.ofSize (InMemory.encodeNames b.store.poolNames).size, l, b) := by
  rw [run]
  refine deliver_of_call ?_
  change InMemory.listPools l.buffer b = _
  rw [InMemory.listPools, if_neg (Nat.not_le.mpr h)]

theorem status_listPools :
    (listPools.run l b).1 = .ofSize (InMemory.encodeNames b.store.poolNames).size := rfl

theorem run_poolName_of_none (h : b.store.poolName? pool = none) :
    (poolName pool).run l b = (.noEntry, l, b) := by
  rw [run]
  refine deliver_of_call ?_
  change InMemory.poolName pool l.buffer b = _
  rw [InMemory.poolName, h]

/-- A pool's name is delivered with a NUL, if both fit, and nothing otherwise. -/
theorem run_poolName_of_some (h : b.store.poolName? pool = some name) :
    (l.buffer.capacity ≤ name.toUTF8.size ∧ (poolName pool).run l b = (.outOfRange, l, b)) ∨
      ((poolName pool).run l b).1 = .ofSize name.toUTF8.size := by
  have hcall : ObjectBackend.poolName pool l.buffer b = InMemory.poolName pool l.buffer b := rfl
  rw [InMemory.poolName, h] at hcall
  by_cases hle : l.buffer.capacity ≤ name.toUTF8.size
  · simp only [if_pos hle] at hcall
    exact .inl ⟨hle, deliver_of_call hcall⟩
  · simp only [if_neg hle] at hcall
    right
    rw [run, deliver, hcall]

theorem run_getAttribute_of_error {status : Status}
    (h : b.store.getAttribute key name = .error status) :
    (getAttribute key name).run l b = (status, l, b) := by
  rw [run]
  refine deliver_of_call ?_
  change InMemory.getAttribute key name l.buffer b = _
  rw [InMemory.getAttribute, h]

/-- The value of an attribute is delivered if it fits, and nothing otherwise. -/
theorem run_getAttribute_of_ok {value : ByteArray}
    (h : b.store.getAttribute key name = .ok value) :
    (l.buffer.capacity < value.size ∧
        (getAttribute key name).run l b = (.outOfRange, l, b)) ∨
      ((getAttribute key name).run l b).1 = .ofSize value.size := by
  have hcall : ObjectBackend.getAttribute key name l.buffer b =
      InMemory.getAttribute key name l.buffer b := rfl
  rw [InMemory.getAttribute, h] at hcall
  by_cases hlt : l.buffer.capacity < value.size
  · simp only [if_pos hlt] at hcall
    exact .inl ⟨hlt, deliver_of_call hcall⟩
  · simp only [if_neg hlt] at hcall
    right
    rw [run, deliver, hcall]

theorem run_stat_of_none (h : b.store.objects[key]? = none) :
    (stat key).run l b = (.noEntry, l, b) := by
  have hcall : ObjectBackend.stat key b = InMemory.stat key b := rfl
  rw [InMemory.stat, h] at hcall
  rw [run, hcall]
  rfl

theorem run_stat_of_some {o : Object} (h : b.store.objects[key]? = some o) :
    (stat key).run l b = (0, { l with size := o.data.size, modified := o.modified }, b) := by
  have hcall : ObjectBackend.stat key b = InMemory.stat key b := rfl
  rw [InMemory.stat, h] at hcall
  rw [run, hcall]
  rfl

/-- **Only a call that changes the store changes the backend.** -/
theorem backend_run {c : DirectCall} (h : ∀ k, c ≠ change k) : (c.run l b).2.2 = b := by
  cases c with
  | change k => exact absurd rfl (h k)
  | listPools => rfl
  | poolName pool =>
    cases hn : b.store.poolName? pool with
    | none => rw [run_poolName_of_none hn]
    | some name =>
      change (InMemory.poolName pool l.buffer b).2 = b
      rw [InMemory.poolName, hn]
      dsimp only
      split <;> rfl
  | getAttribute key name =>
    change (InMemory.getAttribute key name l.buffer b).2 = b
    unfold InMemory.getAttribute
    split
    · rfl
    · split <;> rfl
  | stat key =>
    cases ho : b.store.objects[key]? with
    | none => rw [run_stat_of_none ho]
    | some o => rw [run_stat_of_some ho]

end DirectCall

end Milepost
