import Milepost.Backend
import Milepost.Journal

/-!
# A backend in memory

The backend keeps a store and one worker. Operations that it takes are queued, and the worker
applies them in order and fires the two milestones of each before it takes the next. Refusals of
operations and statuses of milestones can be laid down for the objects of a name.

* `submit_of_isError`: a refused operation leaves the backend as it was.
* `queue_submit`: an operation that is taken goes to the end of the queue.
* `live_add_released_release`: releasing moves one completion from the live to the released ones,
  or counts as an attempt to release it again.
-/

namespace Milepost

/-- What becomes of one operation. -/
structure Completion where
  /-- Whether an operation was taken with it. -/
  issued : Bool := false
  released : Bool := false
  /-- The status of each milestone that has been fired. -/
  fired : PerMilestone (Option Status) := .const none
  /-- The result of the operation, known from the first milestone on. -/
  returnValue : Status := 0
deriving DecidableEq, Repr

namespace Completion

/-- The answer to one who waits for a milestone. A released completion is not waited for. -/
def resolution? (c : Completion) (m : Milestone) : Option Status :=
  if c.released then some .invalid else c.fired.get m

/-- The completion after a milestone was fired with a status. -/
def fire (c : Completion) (m : Milestone) (returnValue status : Status) : Completion :=
  { c with fired := c.fired.set m (some status), returnValue }

end Completion

/-- What the worker does for a job. -/
inductive Action
  | command (c : Command)
  /-- Nothing but pass the milestones. -/
  | flush
deriving DecidableEq

/-- An operation in the queue. -/
structure Job where
  pool : PoolId
  oid : String
  action : Action
  completion : CompletionId
deriving DecidableEq

/-- The object that the job is about. -/
def Job.key (j : Job) : ObjectKey := (j.pool, j.oid)

/-- What the worker is at. -/
inductive Worker
  | idle
  /-- The job is applied with this result and no milestone fired. -/
  | applied (job : Job) (returnValue : Status)
  /-- The first milestone of the job is fired. -/
  | halfway (job : Job) (returnValue : Status)
deriving DecidableEq

/-- What is laid down about a backend when it is made. -/
structure InMemoryConfig where
  order : MilestoneOrder := .completeFirst
  /-- How many milliseconds lie between the two milestones. -/
  delay : Nat := 0
  /-- The answers to operations on objects of these names. -/
  issueFaults : Std.ExtTreeMap String Status := ∅
  /-- The statuses of milestones of operations on objects of these names. -/
  milestoneFaults : PerMilestone (Std.ExtTreeMap String Status) := .const ∅
  /-- The names of the pools there are from the start. -/
  pools : List String := []
  /-- Whether the worker writes into the journal. -/
  journaled : Bool := false

/-- The backend. -/
structure InMemory where
  config : InMemoryConfig := {}
  store : Store := {}
  completions : Array Completion := #[]
  /-- Operations taken and not applied, oldest first. -/
  queue : List Job := []
  worker : Worker := .idle
  isShutdown : Bool := false
  /-- Completions made and not released. -/
  live : Int := 0
  released : Nat := 0
  /-- Attempts to release a completion again. -/
  doubleReleases : Nat := 0
  /-- The time that changed objects are stamped with, in seconds since the epoch. -/
  now : Int := 1
  journal : Journal := #[]

namespace InMemory

/-- A backend as laid down. -/
def ofConfig (config : InMemoryConfig) : InMemory := { config, store := .ofPools config.pools }

/-- The completion of the number. -/
def completion (b : InMemory) (c : CompletionId) : Completion := b.completions[c]?.getD {}

/-- Changes the completion of the number. -/
def onCompletion (b : InMemory) (c : CompletionId) (f : Completion → Completion) : InMemory :=
  { b with completions := b.completions.modify c f }

/-! ### Completions -/

/-- Makes a completion that counts neither as live nor as released. -/
def newCompletion (b : InMemory) : CompletionId × InMemory :=
  (b.completions.size, { b with completions := b.completions.push {} })

/-- Makes a completion for a caller. -/
def createCompletion (b : InMemory) : CompletionId × InMemory :=
  let (c, b) := b.newCompletion
  (c, { b with live := b.live + 1 })

/-- Releases a completion, or counts the attempt to release it again. -/
def release (c : CompletionId) (b : InMemory) : InMemory :=
  if (b.completion c).released then { b with doubleReleases := b.doubleReleases + 1 }
  else
    { b.onCompletion c ({ · with released := true }) with
      live := b.live - 1, released := b.released + 1 }

/-! ### Taking operations -/

/-- Takes a job into the queue, or refuses it. -/
def submit (job : Job) (b : InMemory) : Status × InMemory :=
  if b.isShutdown then (.notConnected, b)
  else
    match b.config.issueFaults[job.oid]? with
    | some status => (status, b)
    | none =>
      if !b.store.hasPool job.pool then (.noEntry, b)
      else if (b.completion job.completion).issued || (b.completion job.completion).released then
        (.invalid, b)
      else
        (0, { b.onCompletion job.completion ({ · with issued := true }) with
          queue := b.queue ++ [job] })

/-- Whether the job would be put into the queue. -/
def accepts (b : InMemory) (job : Job) : Bool :=
  !b.isShutdown && b.config.issueFaults[job.oid]?.isNone && b.store.hasPool job.pool
    && !(b.completion job.completion).issued && !(b.completion job.completion).released

/-- The status of a milestone of an operation on an object of the name. -/
def milestoneStatus (b : InMemory) (oid : String) (m : Milestone) : Status :=
  (b.config.milestoneFaults.get m)[oid]?.getD 0

theorem submit_of_isError {job : Job} {b : InMemory}
    (h : (b.submit job).1.isError = true) : (b.submit job).2 = b := by
  unfold submit at *
  by_cases hs : b.isShutdown
  · simp [hs]
  · cases hf : b.config.issueFaults[job.oid]? with
    | some status => simp [hs]
    | none =>
      by_cases hp : b.store.hasPool job.pool
      · by_cases hc : ((b.completion job.completion).issued
            || (b.completion job.completion).released) = true
        · simp [hs, hp, hc]
        · simp [hs, hf, hp, hc] at h
      · simp [hs, hp]

theorem submit_of_accepts {job : Job} {b : InMemory} (h : b.accepts job = true) :
    b.submit job = (0, { b.onCompletion job.completion ({ · with issued := true }) with
      queue := b.queue ++ [job] }) := by
  simp only [accepts, Bool.and_eq_true, Bool.not_eq_true', Option.isNone_iff_eq_none] at h
  obtain ⟨⟨⟨⟨hs, hf⟩, hp⟩, hi⟩, hr⟩ := h
  simp [submit, hs, hf, hp, hi, hr]

theorem queue_submit {job : Job} {b : InMemory} (h : b.accepts job = true) :
    (b.submit job).2.queue = b.queue ++ [job] := by
  rw [submit_of_accepts h]

theorem live_add_released_release (c : CompletionId) (b : InMemory) :
    (b.release c).live + (b.release c).released = b.live + b.released := by
  unfold release
  split
  · rfl
  · simp only
    omega

end InMemory

end Milepost
