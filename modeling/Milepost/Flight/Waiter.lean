import Milepost.Flight

/-!
# The waiters of a flight

A waiter waits for one milestone and copies the bytes of a read, calls the owner back with the
outcome, counts the handle down, and only then answers the future. A callback that fails ends the
task: the future is given up, and the handle is counted down all the same.

* `rank_waiterStep`: every step brings the waiter nearer to its end.
-/

namespace Milepost.Flight

variable {β : Type} [ObjectBackend β]

/-- What follows a milestone that was passed. -/
def afterMilestone (r : Request) (result : Except Failure Status) : WaiterPhase :=
  match result with
  | .error e => .ready (.failed (e.noted (.milestone r.oid)))
  | .ok returnValue =>
    if r.kind = .read then
      if returnValue.toSize = 0 then .ready (.failed (.of .emptyResult (.nothingRead r.oid)))
      else .copying returnValue.toSize
    else .ready (.reached none)

/-- The copy of the first `n` bytes of the buffer of a read. -/
def copyResult (h : Handle) (n : Nat) (shelf : Shelf) : Outcome :=
  match h.buffer with
  | none => .failed (.of .inconsistentState .bufferReleased)
  | some i => .ofRead ((shelf.get i).materialize n)

/-- What a waiter writes down about an outcome. -/
def outcomeRecord (context : Context) : Outcome → Record
  | .reached _ => context.record .debug "Milestone reached"
  | .failed e => context.record .warning ("Milestone failed: " ++ e.summary)

/-- The handle after an outcome was reported to it. -/
def reported (o : Outcome) (h : Handle) : Handle :=
  match o with
  | .reached _ => h
  | .failed e => h.fail e

/-- Waits for the milestone; none while it is awaited. -/
def await? (m : Milestone) (h : Handle) (f : Flight) (w : World β) : Option (Flight × World β) :=
  (h.waitFor? m w).map fun (result, h, w) =>
    ({ f with handle := some h }.onWaiter m (afterMilestone f.task.request result), w)

/-- Calls the owner back with the outcome. -/
def notify (m : Milestone) (o : Outcome) (f : Flight) : Flight :=
  let call := f.task.callbacks.invocation? m (f.task.waiterThread m) o
  (f.invoked call).onWaiter m (if raises call then .raised else .notified o)

/-- Counts the handle down. -/
def countDown (h : Handle) (f : Flight) (w : World β) : Flight × World β :=
  let (h, w) := h.countDown w
  ({ f with handle := some h }, w)

/-- The next step of the waiter for a milestone that has the handle; none while it waits. -/
def waiterStepWith? (m : Milestone) (h : Handle) (f : Flight) (w : World β) :
    Option (Flight × World β) :=
  match f.waiters.get m with
  | .idle => none
  | .waiting => f.await? m h w
  | .copying n => some (f.onWaiter m (.ready (copyResult h n w.shelf)), w)
  | .ready o =>
    some ({ f with handle := some (reported o h) }.onWaiter m (.recorded o),
      w.write (outcomeRecord (f.task.waiterContext m) o))
  | .recorded o => some (f.notify m o, w)
  | .notified o =>
    let (f, w) := f.countDown h w
    some (f.onWaiter m (.counted o), w)
  | .counted o => some ((f.answer m o).onWaiter m .finished, w)
  | .raised => some ((f.answer m .lost).onWaiter m .abandoned, w)
  | .abandoned =>
    let (f, w) := f.countDown h w
    some (f.onWaiter m .finished, w)
  | .finished => none

/-- The next step of the waiter for a milestone; none while it waits. -/
def waiterStep? (m : Milestone) (f : Flight) (w : World β) : Option (Flight × World β) :=
  f.handle.bind fun h => f.waiterStepWith? m h w

/-- Lets a waiter make at most so many steps. -/
def runWaiterFor (m : Milestone) : Nat → Flight × World β → Flight × World β
  | 0, s => s
  | n + 1, s =>
    match s.1.waiterStep? m s.2 with
    | some t => runWaiterFor m n t
    | none => s

/-- Lets a waiter run as far as it gets. -/
def runWaiter (m : Milestone) (s : Flight × World β) : Flight × World β :=
  runWaiterFor m (s.1.waiters.get m).rank s

theorem rank_afterMilestone (r : Request) (result : Except Failure Status) :
    (afterMilestone r result).rank < WaiterPhase.waiting.rank := by
  unfold afterMilestone
  split
  · simp [WaiterPhase.rank]
  · split
    · split <;> simp [WaiterPhase.rank]
    · simp [WaiterPhase.rank]

/-- Every step brings the waiter nearer to its end. -/
theorem rank_waiterStep {m : Milestone} {f g : Flight} {w w' : World β}
    (h : f.waiterStep? m w = some (g, w')) :
    (g.waiters.get m).rank < (f.waiters.get m).rank := by
  obtain ⟨k, -, h⟩ := Option.bind_eq_some_iff.1 h
  unfold waiterStepWith? at h
  cases hp : f.waiters.get m with
  | idle => simp [hp] at h
  | waiting =>
    simp only [hp, await?, Option.map_eq_some_iff] at h
    obtain ⟨⟨result, k', v⟩, -, h⟩ := h
    cases h
    simpa [onWaiter] using rank_afterMilestone f.task.request result
  | copying n =>
    simp only [hp, Option.some.injEq] at h
    cases h; simp [onWaiter, WaiterPhase.rank]
  | ready o =>
    simp only [hp, Option.some.injEq] at h
    cases h; simp [onWaiter, WaiterPhase.rank]
  | recorded o =>
    simp only [hp, Option.some.injEq, notify] at h
    cases h
    cases raises (f.task.callbacks.invocation? m (f.task.waiterThread m) o) <;>
      simp [onWaiter, WaiterPhase.rank]
  | notified o =>
    simp only [hp, Option.some.injEq] at h
    cases h; simp [onWaiter, WaiterPhase.rank]
  | counted o =>
    simp only [hp, Option.some.injEq] at h
    cases h; simp [onWaiter, WaiterPhase.rank]
  | raised =>
    simp only [hp, Option.some.injEq] at h
    cases h; simp [onWaiter, WaiterPhase.rank]
  | abandoned =>
    simp only [hp, Option.some.injEq] at h
    cases h; simp [onWaiter, WaiterPhase.rank]
  | finished => simp [hp] at h

end Milepost.Flight
