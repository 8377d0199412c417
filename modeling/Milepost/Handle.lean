import Milepost.Operation
import Milepost.World

/-!
# Completion handles

A handle owns one completion of the backend and releases it once: when both who wait for its
milestones are done, when the operation was refused, or when it is dropped. It keeps the buffer of
a read until then, and the first failure that was reported to it.

* `release_of_released`: releasing again is refused and changes nothing but a count.
* `issue_of_issued`: no second operation is issued through a handle.
-/

namespace Milepost

/-- How an operation fares when it is issued. -/
inductive Issued (α : Type)
  /-- The backend took it. -/
  | accepted (a : α)
  | failed (e : Failure)
  /-- The buffer of a read would be larger than a buffer may be. -/
  | overflow

namespace Request

variable {β : Type} [ObjectBackend β]

/-- What the request is doing when it is refused. -/
def note (r : Request) : Note :=
  match r.kind with
  | .write | .writeFull => .writeObject r.oid
  | .append => .appendObject r.oid
  | .read => .readObject r.oid
  | .remove => .removeObject r.oid

/-- Issues a command with a completion. -/
def send (pool : PoolId) (r : Request) (c : CompletionId) (command : Command) (w : World β) :
    Except Failure Status × World β :=
  let (status, w) := w.onBuffers (ObjectBackend.issue pool r.oid c command)
  (withNote r.note (check .issueFailed status), w)

/-- Issues an edit. -/
def sendEdit (pool : PoolId) (r : Request) (c : CompletionId) (e : Edit) (w : World β) :
    Issued (Option BufferId) × World β :=
  match r.send pool c (.edit e) w with
  | (.ok _, w) => (.accepted none, w)
  | (.error e, w) => (.failed e, w)

/-- Issues a read into a new buffer, which is held by the caller and the backend. If the read is
refused nobody holds it. -/
def sendRead (pool : PoolId) (r : Request) (c : CompletionId) (length offset : Nat)
    (w : World β) : Issued (Option BufferId) × World β :=
  match Buffer.allocate? length with
  | none => (.overflow, w)
  | some b =>
    let (i, shelf) := w.shelf.put b
    match r.send pool c (.read i offset) { w with shelf := shelf.hold i } with
    | (.ok _, w) => (.accepted (some i), w)
    | (.error e, w) => (.failed e, { w with shelf := w.shelf.letGo i })

/-- Issues the request with a completion. The buffer of a read is handed out. -/
def issue (pool : PoolId) (r : Request) (c : CompletionId) (w : World β) :
    Issued (Option BufferId) × World β :=
  match r.operation with
  | .write data offset => r.sendEdit pool c (.write data offset) w
  | .writeFull data => r.sendEdit pool c (.writeFull data) w
  | .append data => r.sendEdit pool c (.append data) w
  | .remove => r.sendEdit pool c .remove w
  | .read length offset => r.sendRead pool c length offset w

end Request

/-- What a handle has come to. -/
inductive HandleState
  /-- Nothing was issued. -/
  | pending
  /-- An operation was issued. -/
  | outstanding
  /-- A failure was reported. -/
  | failed
  | released
deriving DecidableEq, Repr

/-- The name of the state. -/
def HandleState.name : HandleState → String
  | pending => "Pending"
  | outstanding => "Outstanding"
  | failed => "Failed"
  | released => "Released"

/-- The word for whether a milestone was waited for to the end. -/
def observedWord (observed : Bool) : String := if observed then "Observed" else "Pending"

/-- A handle of one completion. -/
structure Handle where
  /-- The completion, until it is released. -/
  native : Option CompletionId
  /-- The buffer of a read. -/
  buffer : Option BufferId := none
  /-- The failure reported first. -/
  failure : Option Failure := none
  /-- The milestones waited for to the end. -/
  observed : PerMilestone Bool := .const false
  issued : Bool := false
  released : Bool := false
  /-- How many waiters are not done. -/
  latch : Nat := 0
  account : AccountId
  context : Context
deriving DecidableEq

namespace Handle

variable {β : Type} [ObjectBackend β]

/-- The refusal of what needs the completion. -/
def gone : Failure := .of .inconsistentState .alreadyReleased

/-- What the handle has come to. -/
def state (h : Handle) : HandleState :=
  if h.released then .released
  else if h.failure.isSome then .failed
  else if h.issued then .outstanding
  else .pending

/-- The handle in one line. -/
def describe (h : Handle) : String :=
  "CompletionHandle \x7b state: " ++ h.state.name
    ++ ", complete: " ++ observedWord h.observed.complete
    ++ ", safe: " ++ observedWord h.observed.safe
    ++ ", latch: " ++ toString h.latch ++ " \x7d"

/-- Makes a handle with a new completion. -/
def create (account : AccountId) (context : Context) (w : World β) :
    Except Failure Handle × World β :=
  match w.onBackend ObjectBackend.createCompletion with
  | (.error e, w) => (.error e, w)
  | (.ok c, w) => (.ok { native := some c, account, context }, w.count account .handleCreated)

/-- Issues a request through the handle; two waiters are to follow if the backend takes it. Only
the first attempt gets as far as the backend. -/
def issue (pool : PoolId) (r : Request) (h : Handle) (w : World β) :
    Issued Unit × Handle × World β :=
  if h.issued then (.failed (.of .inconsistentState .alreadyIssued), h, w)
  else
    let h := { h with issued := true }
    match h.native with
    | none => (.failed gone, h, w)
    | some c =>
      match r.issue pool c w with
      | (.accepted buffer, w) => (.accepted (), { h with buffer, latch := 2 }, w)
      | (.failed e, w) => (.failed e, h, w)
      | (.overflow, w) => (.overflow, h, w)

/-- How a milestone ended: by its own status, or else by the result of the operation. -/
def outcome (m : Milestone) (status returnValue : Status) : Except Failure Status :=
  if status.isError then .error (.ofStatus m.failureKind status)
  else check m.failureKind returnValue

/-- Waits for a milestone; none while it is awaited. -/
def waitFor? (m : Milestone) (h : Handle) (w : World β) :
    Option (Except Failure Status × Handle × World β) :=
  match h.native with
  | none => some (.error gone, h, w)
  | some c =>
    (ObjectBackend.resolution? w.backend c m).map fun status =>
      let result := outcome m status (ObjectBackend.returnValue w.backend c)
      let failed := match result with
        | .ok _ => false
        | .error _ => true
      (result, { h with observed := h.observed.set m true },
        w.count h.account (·.milestonePassed m failed))

/-- Reports a failure; only the first is kept. -/
def fail (e : Failure) (h : Handle) : Handle :=
  match h.failure with
  | none => { h with failure := some e }
  | some _ => h

/-- Gives the completion and the buffer back. -/
def surrender (h : Handle) (w : World β) : World β :=
  let w := match h.native with
    | some c => { w with backend := ObjectBackend.release c w.backend }
    | none => w
  match h.buffer with
  | some i => { w with shelf := w.shelf.letGo i }
  | none => w

/-- Releases the completion and the buffer. -/
def release (h : Handle) (w : World β) : Except Failure Unit × Handle × World β :=
  if h.released then
    let record := h.context.record .error "Attempted to release a completion handle twice"
    (.error gone, h, (w.count h.account .handleReleasedAgain).write record)
  else
    let h' := { h with released := true, native := none, buffer := none }
    let record := h.context.record .debug "Completion handle released" [("state", h'.state.name)]
    (.ok (), h', ((h.surrender w).count h.account .handleReleased).write record)

/-- One waiter is done; after the last one the handle is released. -/
def countDown (h : Handle) (w : World β) : Handle × World β :=
  match h.latch with
  | 0 => (h, w)
  | n + 1 =>
    let h := { h with latch := n }
    if n = 0 then (h.release w).2 else (h, w)

/-- Drops the handle, which releases it unless that was done. -/
def drop (h : Handle) (w : World β) : Handle × World β :=
  if h.released then (h, w) else (h.release w).2

/-! ### What is released stays so -/

theorem issue_of_issued {pool : PoolId} {r : Request} {h : Handle} {w : World β}
    (hi : h.issued = true) :
    h.issue pool r w = (.failed (.of .inconsistentState .alreadyIssued), h, w) := by
  simp [issue, hi]

theorem release_of_released {h : Handle} {w : World β} (hr : h.released = true) :
    (h.release w).1 = .error gone ∧ (h.release w).2.1 = h := by
  simp [release, hr]

end Handle

end Milepost
