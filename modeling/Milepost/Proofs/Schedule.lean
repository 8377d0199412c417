import Milepost.InMemory.Calls
import Milepost.System

/-!
# Runs of a system over the backend in memory

A run is what happens to a system when tasks, the backend's worker and other callers make their
steps in some order. Every step is one `Event`; `next?` says what it changes, and a `Run` is any
sequence of them from a fresh system. Beside the state a run keeps a `History`: which operations
were handed to the backend with which answer, and which jobs the worker applied to which store.
The history changes nothing and nothing reads it; it is there to say when something happened.

* `Run.invariant`: what holds at the start and outlives every event holds in every state.
-/

namespace Milepost

/-- A call of another user that changes the store and is answered at once. -/
inductive StoreCall
  | createPool (name : String)
  | deletePool (name : String)
  | setAttribute (key : ObjectKey) (name : String) (value : ByteArray)
  | removeAttribute (key : ObjectKey) (name : String)
deriving DecidableEq

/-- The answer to a call, and the backend after it. -/
def StoreCall.run (c : StoreCall) (b : InMemory) : Status × InMemory :=
  match c with
  | createPool name => ObjectBackend.createPool name b
  | deletePool name => ObjectBackend.deletePool name b
  | setAttribute key name value => ObjectBackend.setAttribute key name value b
  | removeAttribute key name => ObjectBackend.removeAttribute key name b

/-- What may happen next. -/
inductive Event
  /-- An operation is submitted through an object. -/
  | submit (o : AsyncObject) (r : Request)
  /-- An issuer or a waiter makes a step. -/
  | task (a : Actor)
  /-- The worker of the backend makes a step. -/
  | work
  /-- Another user changes the store. -/
  | call (c : StoreCall)
  /-- Another user shuts the backend down. -/
  | shutdown
  /-- The clock shows another time. -/
  | clock (now : Int)

/-- Whether the event is a step of something that is under way. -/
def Event.isOwn : Event → Bool
  | task _ | work => true
  | _ => false

/-- The command that an operation becomes, for a read with the number of its buffer; none if
there can be no buffer of that size. -/
def Operation.command? (buffer : BufferId) : Operation → Option Command
  | write data offset => some (.edit (.write data offset))
  | writeFull data => some (.edit (.writeFull data))
  | append data => some (.edit (.append data))
  | remove => some (.edit .remove)
  | read length offset =>
    if length ≤ Buffer.maxAllocation then some (.read buffer offset) else none

/-- The job that the task hands to a backend with a completion and, for a read, a buffer. -/
def Task.job? (t : Task) (c : CompletionId) (buffer : BufferId) : Option Job :=
  (t.request.operation.command? buffer).map fun command =>
    { pool := t.pool, oid := t.request.oid, action := .command command, completion := c }

/-- The completion that the flight holds. -/
def Flight.native? (f : Flight) : Option CompletionId := f.handle.bind (·.native)

/-- The buffer that the flight holds for the result of a read. -/
def Flight.buffer? (f : Flight) : Option BufferId := f.handle.bind (·.buffer)

/-- What the issuer of the flight is about to hand to the backend. -/
def Flight.job? (f : Flight) (w : World InMemory) : Option Job :=
  match f.issuer with
  | .created => f.native?.bind fun c => f.task.job? c w.shelf.cells.size
  | _ => none

/-- An operation handed to the backend, and what it answered. -/
structure Issue where
  flight : FlightId
  job : Job
  answer : Status
  /-- Whether the job was put into the queue. An answer that was laid down may be no refusal, and
  the job is not queued even so. -/
  queued : Bool
deriving DecidableEq

/-- What becomes of a job that is handed to the backend on behalf of a flight. -/
def InMemory.issueOf (b : InMemory) (i : FlightId) (job : Job) : Issue where
  flight := i
  job := job
  answer := (b.submit job).1
  queued := b.accepts job

/-- A job that the worker applied, the store it found, and the result. -/
structure Application where
  job : Job
  found : Store
  result : Status

/-- What the worker of a backend applies when it makes its next step. -/
def InMemory.application? (b : InMemory) (shelf : Shelf) : Option Application :=
  match b.worker, b.queue with
  | .idle, job :: _ =>
    some { job, found := b.store, result := (applyJob b.now job b.store shelf).1 }
  | _, _ => none

/-- What the backend was asked for and what it did, oldest first. -/
structure History where
  issues : List Issue := []
  applications : List Application := []

namespace History

/-- The jobs that the backend took, oldest first. -/
def taken (h : History) : List Job := (h.issues.filter (·.queued)).map (·.job)

theorem taken_append (h : History) (issues : List Issue) (applications : List Application) :
    taken ⟨h.issues ++ issues, applications⟩ =
      h.taken ++ (issues.filter (·.queued)).map (·.job) := by
  simp [taken]

end History

namespace System

/-- A system over a fresh backend, with so many accounts. -/
def fresh (config : InMemoryConfig) (accounts : Nat) : System InMemory :=
  { world := { backend := .ofConfig config, accounts := Array.replicate accounts {} } }

variable (s : System InMemory)

/-- The system with its backend changed. -/
def onBackend (f : InMemory → InMemory) : System InMemory :=
  { s with world := { s.world with backend := f s.world.backend } }

/-- The system after the worker's next step, if there is one to make. -/
def workStep? : Option (System InMemory) :=
  (s.world.backend.step? s.world.shelf).map fun (backend, shelf) =>
    { s with world := { s.world with backend, shelf } }

/-- The system after an event, if it can happen. -/
def next? : Event → Option (System InMemory)
  | .submit o r => some (s.submit o r).2
  | .task a => s.step? a
  | .work => s.workStep?
  | .call c => some (s.onBackend fun b => (c.run b).2)
  | .shutdown => some (s.onBackend ObjectBackend.shutdown)
  | .clock now => some (s.onBackend ({ · with now }))

/-- What is handed to the backend when an issuer makes its step, and the answer. -/
def issue? : Event → Option Issue
  | .task (.issuer i) =>
    s.flights[i]?.bind fun f =>
      (f.job? s.world).map (s.world.backend.issueOf i)
  | _ => none

/-- What the worker applies when it makes its step. -/
def application? : Event → Option Application
  | .work => s.world.backend.application? s.world.shelf
  | _ => none

end System

/-- The history after an event. -/
def History.after (h : History) (s : System InMemory) (e : Event) : History where
  issues := h.issues ++ (s.issue? e).toList
  applications := h.applications ++ (s.application? e).toList

/-- What can have happened to a system, and the state it is in then. -/
inductive Run (config : InMemoryConfig) (accounts : Nat) : History → System InMemory → Prop
  | start : Run config accounts {} (.fresh config accounts)
  | step {h : History} {s t : System InMemory} (e : Event) :
    Run config accounts h s → s.next? e = some t → Run config accounts (h.after s e) t

/-- What a list of events makes of a system and its history, if they can happen in this order. -/
def System.replay (h : History) (s : System InMemory) :
    List Event → Option (History × System InMemory)
  | [] => some (h, s)
  | e :: es => (s.next? e).bind fun t => t.replay (h.after s e) es

namespace Run

variable {config : InMemoryConfig} {accounts : Nat} {h : History} {s : System InMemory}

/-- What holds at the start and outlives every event holds in every state. -/
theorem invariant {P : History → System InMemory → Prop} (hr : Run config accounts h s)
    (h0 : P {} (.fresh config accounts))
    (hstep : ∀ {h s t} (e : Event), P h s → s.next? e = some t → P (h.after s e) t) :
    P h s := by
  induction hr with
  | start => exact h0
  | step e _ hs ih => exact hstep e ih hs

/-- Events that can happen lead from one state of a run to another. -/
theorem replay {h' : History} {s' : System InMemory} (hr : Run config accounts h s)
    {events : List Event} (he : s.replay h events = some (h', s')) : Run config accounts h' s' := by
  induction events generalizing h s with
  | nil => cases he; exact hr
  | cons e es ih =>
    obtain ⟨t, ht, he⟩ := Option.bind_eq_some_iff.mp he
    exact ih (hr.step e ht) he

theorem replay_get {events : List Event} (hr : Run config accounts h s)
    (he : (s.replay h events).isSome = true) :
    Run config accounts ((s.replay h events).get he).1 ((s.replay h events).get he).2 :=
  hr.replay (Option.some_get he).symm

end Run

/-! ## One run

An object is written and then read, each operation going all the way before the next begins. -/

namespace Sample

def config : InMemoryConfig := { pools := ["data"] }

def object : AsyncObject where
  pool := 1
  oid := "object"
  callbacks :=
    { onComplete := some { label := "complete" }, onSafe := some { label := "safe" },
      onFailure := some { label := "failure" }, arguments := ["tag"] }
  account := 0
  context := []
  thread := "task"

/-- All steps of a flight, whose waiters make so many, and of its job. -/
def through (i : FlightId) (steps : Nat) : List Event :=
  .replicate 3 (.task (.issuer i)) ++ .replicate 3 .work ++
    .replicate steps (.task (.waiter i .complete)) ++ .replicate steps (.task (.waiter i .safe))

def events : List Event :=
  .submit object { oid := "object", operation := .writeFull ⟨#[1, 2, 3]⟩ } :: through 0 5 ++
    .submit object { oid := "object", operation := .read 2 1 } :: through 1 6

theorem isSome_replay : ((System.fresh config 1).replay {} events).isSome = true := by
  decide +kernel

/-- The history and the state after these events. -/
@[irreducible]
def reached : History × System InMemory :=
  ((System.fresh config 1).replay {} events).get isSome_replay

theorem run : Run config 1 reached.1 reached.2 := by
  unfold reached
  exact Run.start.replay_get isSome_replay

end Sample

end Milepost
