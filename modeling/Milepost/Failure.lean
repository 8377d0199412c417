import Milepost.Failure.IoFault
import Milepost.Milestone
import Milepost.Status
import Milepost.Text.Natural
import Milepost.Text.Quoted
import Milepost.Text.Utf8

/-!
# Failures

A call that fails says of which kind the failure is, what caused it, and through which calls it
came: the trail, oldest note first. All wording is in `Cause.message` and `Note.message`.

* `check_eq_ok_iff`: a status passes exactly when it is no refusal, and unchanged.
-/

namespace Milepost

/-- The kinds of failure. -/
inductive FailureKind
  /-- The backend refused to issue an operation; neither milestone will fire. -/
  | issueFailed
  /-- The complete milestone was resolved by a refusal. -/
  | completionFailed
  /-- The safe milestone was resolved by a refusal. -/
  | durabilityFailed
  /-- A read succeeded and found no byte. -/
  | emptyResult
  /-- A buffer was grown as often as allowed and is still too small. -/
  | bufferExhausted
  /-- An argument is not acceptable. -/
  | invalidInput
  /-- A call does not fit the state it met. -/
  | inconsistentState
  /-- Any other failure, such as a refused synchronous call. -/
  | other
deriving DecidableEq, Repr

/-- The name of the kind in messages. -/
def FailureKind.name : FailureKind → String
  | issueFailed => "IssueFailed"
  | completionFailed => "CompletionFailed"
  | durabilityFailed => "DurabilityFailed"
  | emptyResult => "EmptyResult"
  | bufferExhausted => "BufferExhausted"
  | invalidInput => "InvalidInput"
  | inconsistentState => "InconsistentState"
  | other => "Other"

/-- The kind of failure that a refused milestone is. -/
def Milestone.failureKind : Milestone → FailureKind
  | complete => .completionFailed
  | safe => .durabilityFailed

/-- What brought a failure about. -/
inductive Cause
  /-- The backend answered with this status. -/
  | status (code : Status)
  /-- Input or output failed. -/
  | io (fault : IoFault)
  /-- The caller's own words. -/
  | described (text : String)
  /-- A name holds a NUL. -/
  | nameHasNul (name : String)
  /-- The name of an object to be opened holds a NUL. -/
  | objectNameHasNul (oid : String)
  /-- An operation was issued through the completion handle before. -/
  | alreadyIssued
  /-- The completion handle was released before. -/
  | alreadyReleased
  /-- The result buffer of a read is gone. -/
  | bufferReleased
  /-- A read of the object found no byte. -/
  | nothingRead (oid : String)
  /-- So many attempts did not suffice; the last one had a buffer of this capacity. -/
  | gaveUp (attempts : Nat) (lastCapacity : Option Nat)
  /-- The configuration file does not exist. -/
  | configFileMissing (path : String)
  /-- The environment variable is not set. -/
  | configVariableMissing (name : String)
  /-- The order of milestones is not known. -/
  | unknownOrder (value : String)
  /-- A duration is no number. -/
  | badNumber (fault : Text.Natural.Fault)
  /-- A name is no text. -/
  | notUtf8 (fault : Text.Utf8.Fault)
  /-- A task failed while it held the buffer. -/
  | poisoned
  /-- The one who was to reply is gone. -/
  | replyLost
deriving DecidableEq, Repr

/-- The wording of a cause. -/
def Cause.message : Cause → String
  | .status code => code.text
  | .io fault => fault.text
  | .described text => text
  | .nameHasNul name => "Name contains a NUL character: " ++ Text.quoted name
  | .objectNameHasNul oid => "Object name contains a NUL character: " ++ Text.quoted oid
  | .alreadyIssued => "Completion handle has already been issued"
  | .alreadyReleased => "Completion handle has already been released"
  | .bufferReleased => "Read buffer has already been released"
  | .nothingRead oid => "Read no bytes from object " ++ Text.quoted oid
  | .gaveUp attempts lastCapacity =>
    let last := match lastCapacity with
      | none => "None"
      | some n => "Some(" ++ toString n ++ ")"
    "Gave up after " ++ toString attempts ++ " attempts (last capacity: " ++ last ++ ")"
  | .configFileMissing path => "Unable to load configuration file: " ++ Text.quotedPath path
  | .configVariableMissing name => "Unable to load configuration from env: " ++ name
  | .unknownOrder value => "Unknown order: " ++ Text.quoted value
  | .badNumber fault => fault.message
  | .notUtf8 fault => fault.message
  | .poisoned => "poisoned lock: another task failed inside"
  | .replyLost => "monitoring channel disconnected"

/-- What a call was about to do when a failure passed it. -/
inductive Note
  | connect (cluster : String)
  | openPool (name : String)
  | lookupPool (name : String)
  | createPool (name : String)
  | deletePool (name : String)
  | flush (pool : Int)
  | getAttribute (name oid : String)
  | setAttribute (name oid : String)
  | removeAttribute (name oid : String)
  | stat (oid : String)
  | writeObject (oid : String)
  | appendObject (oid : String)
  | readObject (oid : String)
  | removeObject (oid : String)
  | milestone (oid : String)
  /-- The caller's own words. -/
  | described (text : String)
deriving DecidableEq, Repr

/-- The wording of a note. -/
def Note.message : Note → String
  | .connect cluster =>
    "A fully qualified user name is required to connect to " ++ Text.quoted cluster
  | .openPool name => "Unable to open pool " ++ Text.quoted name
  | .lookupPool name => "pool=" ++ Text.quoted name
  | .createPool name => "Unable to create pool " ++ Text.quoted name
  | .deletePool name => "Unable to delete pool " ++ Text.quoted name
  | .flush pool => "pool=" ++ toString pool
  | .getAttribute name oid =>
    "Unable to get attribute " ++ Text.quoted name ++ " of object " ++ Text.quoted oid
  | .setAttribute name oid =>
    "Unable to set attribute " ++ Text.quoted name ++ " of object " ++ Text.quoted oid
  | .removeAttribute name oid =>
    "Unable to remove attribute " ++ Text.quoted name ++ " of object " ++ Text.quoted oid
  | .stat oid => "Unable to stat object " ++ Text.quoted oid
  | .writeObject oid => "Unable to write to object " ++ Text.quoted oid
  | .appendObject oid => "Unable to append to object " ++ Text.quoted oid
  | .readObject oid => "Unable to read from object " ++ Text.quoted oid
  | .removeObject oid => "Unable to remove object " ++ Text.quoted oid
  | .milestone oid => "oid=" ++ Text.quoted oid
  | .described text => text

/-- A failed call. -/
structure Failure where
  kind : FailureKind
  cause : Option Cause := none
  /-- The calls the failure passed, oldest first. -/
  trail : List Note := []
deriving DecidableEq, Repr

namespace Failure

/-- A failure of the kind for the cause. -/
def of (kind : FailureKind) (cause : Cause) : Failure := { kind, cause := some cause }

/-- The failure that a refused call is. -/
def ofStatus (kind : FailureKind) (status : Status) : Failure := of kind (.status status)

/-- The failure after it passed one more call. -/
def noted (e : Failure) (note : Note) : Failure := { e with trail := e.trail ++ [note] }

/-- The status behind the failure, if a backend's answer caused it. -/
def status? (e : Failure) : Option Status :=
  match e.cause with
  | some (.status code) => some code
  | _ => none

/-- The wording of the cause, if there is one. -/
def message? (e : Failure) : Option String := e.cause.map Cause.message

/-- The failure in one line: its kind and, if there is one, its cause. -/
def summary (e : Failure) : String :=
  match e.message? with
  | none => e.kind.name
  | some text => e.kind.name ++ " (cause; " ++ text ++ ")"

end Failure

/-- Lets a success pass and turns a refusal into a failure of the kind. -/
def check (kind : FailureKind) (status : Status) : Except Failure Status :=
  if status.isError then .error (.ofStatus kind status) else .ok status

/-- The result, with the note added to a failure. -/
def withNote {α : Type} (note : Note) (result : Except Failure α) : Except Failure α :=
  result.mapError (·.noted note)

@[simp]
theorem withNote_ok {α : Type} (note : Note) (a : α) : withNote note (.ok a) = .ok a := rfl

@[simp]
theorem withNote_error {α : Type} (note : Note) (e : Failure) :
    withNote note (.error e : Except Failure α) = .error (e.noted note) := rfl

theorem check_eq_ok_iff {kind : FailureKind} {status s : Status} :
    check kind status = .ok s ↔ status.isError = false ∧ s = status := by
  unfold check
  cases h : status.isError <;> simp [eq_comm]

end Milepost
