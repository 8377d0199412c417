import Milepost.InMemory.Worker

/-!
# The calls of the backend in memory

The calls that are answered at once read or change the store alone; none of them minds whether the
backend is shut down. A flush is an operation like others: it waits in the queue with a completion
of its own and is answered when that is safe.

* `queue_beginFlush_of_done`: a flush that is refused queues nothing.
-/

namespace Milepost.InMemory

/-! ### Deliveries -/

/-- The names of pools as they are delivered: each ended by a NUL, and a NUL after the last. -/
def encodeNames : List String → ByteArray
  | [] => ByteArray.empty.push 0
  | name :: rest => name.toUTF8.push 0 ++ encodeNames rest

/-- Delivers all names if they fit; reports their size in any case. -/
def listPools : BufferCall InMemory := fun buffer b =>
  let list := encodeNames b.store.poolNames
  ({ status := .ofSize list.size
     written := if list.size ≤ buffer.capacity then list else .empty }, b)

/-- Delivers the name of a pool and a NUL, if both fit; reports the size of the name. -/
def poolName (pool : PoolId) : BufferCall InMemory := fun buffer b =>
  match b.store.poolName? pool with
  | none => ({ status := .noEntry }, b)
  | some name =>
    let bytes := name.toUTF8
    if buffer.capacity ≤ bytes.size then ({ status := .outOfRange }, b)
    else ({ status := .ofSize bytes.size, written := bytes.push 0 }, b)

/-- Delivers the value of an attribute, if it fits, and reports its size. -/
def getAttribute (key : ObjectKey) (name : String) : BufferCall InMemory := fun buffer b =>
  match b.store.getAttribute key name with
  | .error status => ({ status }, b)
  | .ok value =>
    if buffer.capacity < value.size then ({ status := .outOfRange }, b)
    else ({ status := .ofSize value.size, written := value }, b)

/-! ### Changes -/

/-- The answer of a change of the store, and the backend with the changed store. -/
def onStore (f : Store → Status × Store) (b : InMemory) : Status × InMemory :=
  let (status, store) := f b.store
  (status, { b with store })

/-- The number of the pool of the name. -/
def lookupPool (name : String) (b : InMemory) : PoolId × InMemory :=
  (b.store.pools[name]?.getD Status.noEntry.toInt, b)

/-- The size of an object and when it was changed. -/
def stat (key : ObjectKey) (b : InMemory) : StatReply × InMemory :=
  match b.store.objects[key]? with
  | none => ({ status := .noEntry }, b)
  | some o => ({ status := 0, found := some (o.data.size, o.modified) }, b)

/-! ### Operations -/

/-- Issues an operation. If it is refused, the hold on the buffer of a read ends at once. -/
def issue (pool : PoolId) (oid : String) (c : CompletionId) (command : Command)
    (s : InMemory × Shelf) : Status × (InMemory × Shelf) :=
  let job : Job := { pool, oid, action := .command command, completion := c }
  let (status, b) := s.1.submit job
  let shelf := match command with
    | .read buffer _ => if s.1.accepts job then s.2 else s.2.letGo buffer
    | .edit _ => s.2
  (status, b, shelf)

/-- Queues a flush with a completion that is not counted. -/
def beginFlush (pool : PoolId) (b : InMemory) : FlushAnswer × InMemory :=
  let (c, b) := b.newCompletion
  let (status, b) := b.submit { pool, oid := "", action := .flush, completion := c }
  (if status.isError then .done status else .pending c, b)

/-- Ends a flush that is safe: its completion is marked released without being counted. -/
def endFlush? (c : CompletionId) (b : InMemory) : Option (Status × InMemory) :=
  ((b.completion c).resolution? .safe).map fun status =>
    (status, b.onCompletion c ({ · with released := true }))

instance : ObjectBackend InMemory where
  shutdown b := { b with isShutdown := true }
  createCompletion b :=
    let (c, b) := b.createCompletion
    (.ok c, b)
  issue := issue
  resolution? b c m := (b.completion c).resolution? m
  returnValue b c := (b.completion c).returnValue
  release := release
  beginFlush := beginFlush
  endFlush? := endFlush?
  createPool name := onStore (Store.createPool name)
  deletePool name := onStore (Store.deletePool name)
  lookupPool := lookupPool
  listPools := listPools
  poolName := poolName
  getAttribute := getAttribute
  setAttribute key name value b := b.onStore (Store.setAttribute b.now key name value)
  removeAttribute key name b := b.onStore (Store.removeAttribute b.now key name)
  stat := stat
  work := work

/-- What is stored under a key. -/
def objectData? (b : InMemory) (key : ObjectKey) : Option ByteArray :=
  b.store.objects[key]?.map (·.data)

theorem queue_beginFlush_of_done {pool : PoolId} {b : InMemory} {status : Status}
    (h : (b.beginFlush pool).1 = .done status) : (b.beginFlush pool).2.queue = b.queue := by
  simp only [beginFlush] at *
  split at h
  · next herr => rw [submit_of_isError herr, newCompletion]
  · cases h

end Milepost.InMemory
