import Milepost.InMemory

/-!
# The worker of the backend in memory

The worker makes three steps for each job: it applies the job to the store, fires the first
milestone, and fires the second. `work` makes steps as far as a pace allows.

* `pendingSteps_step`: each step leaves one step less.
* `step?_eq_none_iff`: the worker stops only when it is idle and nothing is queued.
-/

namespace Milepost.InMemory

/-- The steps of a worker. -/
inductive WorkerStep
  | apply
  | fireFirst
  | fireSecond
deriving DecidableEq, Repr

/-- The step that is due. -/
def nextStep? (b : InMemory) : Option WorkerStep :=
  match b.worker with
  | .idle => if b.queue.isEmpty then none else some .apply
  | .applied .. => some .fireFirst
  | .halfway .. => some .fireSecond

/-- What a read does: it copies a part of the object to the front of the buffer. -/
def readInto (store : Store) (key : ObjectKey) (offset : Nat) (buffer : BufferId)
    (shelf : Shelf) : Status × Shelf :=
  match store.find key with
  | .error status => (status, shelf)
  | .ok o =>
    let (copied, shelf) := shelf.update buffer fun s => s.modify fun c =>
      let bytes := o.slice offset c.capacity
      (c.fill bytes, Status.ofSize bytes.size)
    match copied with
    | .ok status => (status, shelf)
    | .error _ => (.ioError, shelf)

/-- Applies a job. The hold on the buffer of a read ends with it. -/
def applyJob (now : Int) (job : Job) (store : Store) (shelf : Shelf) :
    Status × Store × Shelf :=
  match job.action with
  | .flush => (if store.hasPool job.pool then 0 else .noEntry, store, shelf)
  | .command (.edit e) =>
    let (status, store) := store.edit now job.key e
    (status, store, shelf)
  | .command (.read buffer offset) =>
    let (status, shelf) := readInto store job.key offset buffer shelf
    (status, store, shelf.letGo buffer)

/-- What the worker writes down about a job. -/
def appliedRecord (job : Job) (status : Status) : Record :=
  Context.record [] .debug "Applied an operation"
    [("pool", toString job.pool), ("oid", job.oid), ("return_value", toString status.toInt)]

/-- Applies the oldest job. -/
def applyNext (job : Job) (rest : List Job) (b : InMemory) (shelf : Shelf) :
    InMemory × Shelf :=
  let (status, store, shelf) := applyJob b.now job b.store shelf
  ({ b with
    store
    queue := rest
    worker := .applied job status
    journal := if b.config.journaled then b.journal.push (appliedRecord job status)
      else b.journal }, shelf)

/-- Fires a milestone of a job. -/
def fire (job : Job) (m : Milestone) (returnValue : Status) (b : InMemory) : InMemory :=
  b.onCompletion job.completion (·.fire m returnValue (b.milestoneStatus job.oid m))

/-- Makes the step that is due. -/
def step? (b : InMemory) (shelf : Shelf) : Option (InMemory × Shelf) :=
  match b.worker with
  | .idle =>
    match b.queue with
    | [] => none
    | job :: rest => some (b.applyNext job rest shelf)
  | .applied job status =>
    some ({ b.fire job b.config.order.first status with worker := .halfway job status }, shelf)
  | .halfway job status =>
    some ({ b.fire job b.config.order.second status with worker := .idle }, shelf)

/-- Whether the worker gets to make a step. -/
def allows : Pace → WorkerStep → Bool
  | .running, _ => true
  | .held, .apply => true
  | .held, _ => false
  | .stalled, .fireSecond => false
  | .stalled, _ => true

/-- How many steps there are to be made for what the worker is at. -/
def Worker.pendingSteps : Worker → Nat
  | .idle => 0
  | .applied .. => 2
  | .halfway .. => 1

/-- How many steps there are to be made. -/
def pendingSteps (b : InMemory) : Nat := 3 * b.queue.length + Worker.pendingSteps b.worker

/-- Makes at most so many steps, as far as the pace allows. -/
def workFor : Nat → Pace → InMemory × Shelf → InMemory × Shelf
  | 0, _, s => s
  | n + 1, pace, s =>
    if s.1.nextStep?.any (allows pace) then
      match s.1.step? s.2 with
      | some t => workFor n pace t
      | none => s
    else s

/-- Works as far as the pace allows. -/
def work (pace : Pace) (s : InMemory × Shelf) : InMemory × Shelf :=
  workFor s.1.pendingSteps pace s

theorem step?_eq_none_iff (b : InMemory) (shelf : Shelf) :
    b.step? shelf = none ↔ b.worker = .idle ∧ b.queue = [] := by
  unfold step?
  cases hw : b.worker with
  | idle => cases hq : b.queue <;> simp
  | applied job status => simp
  | halfway job status => simp

/-- Each step leaves one step less. -/
theorem pendingSteps_step {b c : InMemory} {shelf shelf' : Shelf}
    (h : b.step? shelf = some (c, shelf')) : c.pendingSteps + 1 = b.pendingSteps := by
  unfold step? at h
  cases hw : b.worker with
  | idle =>
    cases hq : b.queue with
    | nil => simp [hw, hq] at h
    | cons job rest =>
      simp only [hw, hq, Option.some.injEq, applyNext, Prod.mk.injEq] at h
      obtain ⟨rfl, -⟩ := h
      simp [pendingSteps, Worker.pendingSteps, hw, hq]
      omega
  | applied job status =>
    simp only [hw, Option.some.injEq, Prod.mk.injEq] at h
    obtain ⟨rfl, -⟩ := h
    simp [pendingSteps, Worker.pendingSteps, hw, fire, onCompletion]
  | halfway job status =>
    simp only [hw, Option.some.injEq, Prod.mk.injEq] at h
    obtain ⟨rfl, -⟩ := h
    simp [pendingSteps, Worker.pendingSteps, hw, fire, onCompletion]

end Milepost.InMemory
