import Milepost.Backend

/-!
# A backend by script

The backend does nothing but answer as its script says and write down the calls it gets. Each kind
of call has a queue of answers, and each completion follows a script of its own; where nothing is
left, everything succeeds with zero. No one ever waits.
-/

namespace Milepost

/-- A call as it was made. -/
inductive ScriptedCall
  | shutdown
  | createCompletion
  | write (pool : PoolId) (oid : String) (data : ByteArray) (offset : Nat)
  | writeFull (pool : PoolId) (oid : String) (data : ByteArray)
  | append (pool : PoolId) (oid : String) (data : ByteArray)
  | remove (pool : PoolId) (oid : String)
  | read (pool : PoolId) (oid : String) (capacity offset : Nat)
  | release
  | flush (pool : PoolId)
  | createPool (name : String)
  | deletePool (name : String)
  | lookupPool (name : String)
  | listPools (capacity : Nat)
  | poolName (pool : PoolId) (capacity : Nat)
  | getAttribute (pool : PoolId) (oid name : String) (capacity : Nat)
  | setAttribute (pool : PoolId) (oid name : String) (value : ByteArray)
  | removeAttribute (pool : PoolId) (oid name : String)
  | stat (pool : PoolId) (oid : String)
deriving DecidableEq

/-- The kinds of call that are answered from a queue. -/
inductive ScriptedMethod
  | flush
  | createPool
  | deletePool
  | lookupPool
  | listPools
  | poolName
  | getAttribute
  | setAttribute
  | removeAttribute
  | stat
deriving DecidableEq, Repr

/-- One answer. -/
structure ScriptedReply where
  status : Int := 0
  data : ByteArray := .empty
  size : Nat := 0
  modified : Int := 0

/-- What becomes of one completion. -/
structure Script where
  /-- Why the completion cannot be made. -/
  createFailure : Option Failure := none
  issue : Status := 0
  resolutions : PerMilestone Status := .const 0
  returnValue : Status := 0
  /-- What a read delivers. -/
  data : ByteArray := .empty

/-- The backend. -/
structure Scripted where
  replies : ScriptedMethod → List ScriptedReply := fun _ => []
  scripts : List Script := []
  completions : Array Script := #[]
  /-- The calls made, oldest first. -/
  calls : Array ScriptedCall := #[]

namespace Scripted

/-- Writes down a call. -/
def note (s : Scripted) (c : ScriptedCall) : Scripted := { s with calls := s.calls.push c }

/-- The next answer to a kind of call. -/
def take (m : ScriptedMethod) (s : Scripted) : ScriptedReply × Scripted :=
  match s.replies m with
  | [] => ({}, s)
  | r :: rest => (r, { s with replies := fun k => if k = m then rest else s.replies k })

/-- Answers a call from its queue. -/
def answer (m : ScriptedMethod) (c : ScriptedCall) (s : Scripted) : ScriptedReply × Scripted :=
  (s.note c).take m

/-- Answers a call by a status. -/
def answerStatus (m : ScriptedMethod) (c : ScriptedCall) (s : Scripted) : Status × Scripted :=
  let (r, s) := s.answer m c
  (Int32.ofInt r.status, s)

/-- Answers a call that is lent a buffer. -/
def deliver (m : ScriptedMethod) (c : Nat → ScriptedCall) : BufferCall Scripted := fun b s =>
  let (r, s) := s.answer m (c b.capacity)
  ({ status := Int32.ofInt r.status, written := r.data }, s)

/-- The script of a completion. -/
def script (s : Scripted) (c : CompletionId) : Script := s.completions[c]?.getD {}

/-- Makes a completion by the next script. -/
def createCompletion (s : Scripted) : Except Failure CompletionId × Scripted :=
  let s := s.note .createCompletion
  let (script, scripts) : Script × List Script := match s.scripts with
    | [] => ({}, [])
    | x :: rest => (x, rest)
  match script.createFailure with
  | some e => (.error e, { s with scripts })
  | none => (.ok s.completions.size, { s with scripts, completions := s.completions.push script })

/-- Answers an operation. A read gets its bytes at once. -/
def issue (pool : PoolId) (oid : String) (c : CompletionId) (command : Command)
    (s : Scripted × Shelf) : Status × (Scripted × Shelf) :=
  let script := s.1.script c
  let (call, shelf) : ScriptedCall × Shelf := match command with
    | .edit (.write data offset) => (.write pool oid data offset, s.2)
    | .edit (.writeFull data) => (.writeFull pool oid data, s.2)
    | .edit (.append data) => (.append pool oid data, s.2)
    | .edit .remove => (.remove pool oid, s.2)
    | .read buffer offset =>
      let capacity := (s.2.get buffer).content.capacity
      let (_, shelf) := s.2.update buffer fun b => b.modify fun c => (c.fill script.data, ())
      (.read pool oid capacity offset, shelf.letGo buffer)
  (script.issue, s.1.note call, shelf)

/-- The number of a pool, which may be wider than a status. -/
def lookupPool (name : String) (s : Scripted) : PoolId × Scripted :=
  let (r, s) := s.answer .lookupPool (.lookupPool name)
  (r.status, s)

/-- Answers what is known about an object. -/
def stat (key : ObjectKey) (s : Scripted) : StatReply × Scripted :=
  let (r, s) := s.answer .stat (.stat key.1 key.2)
  ({ status := Int32.ofInt r.status, found := some (r.size, r.modified) }, s)

instance : ObjectBackend Scripted where
  shutdown s := s.note .shutdown
  createCompletion := createCompletion
  issue := issue
  resolution? s c m := some ((s.script c).resolutions.get m)
  returnValue s c := (s.script c).returnValue
  release _ s := s.note .release
  beginFlush pool s :=
    let (status, s) := s.answerStatus .flush (.flush pool)
    (.done status, s)
  endFlush? _ s := some (0, s)
  createPool name := answerStatus .createPool (.createPool name)
  deletePool name := answerStatus .deletePool (.deletePool name)
  lookupPool := lookupPool
  listPools := deliver .listPools .listPools
  poolName pool := deliver .poolName (.poolName pool)
  getAttribute key name := deliver .getAttribute (.getAttribute key.1 key.2 name)
  setAttribute key name value :=
    answerStatus .setAttribute (.setAttribute key.1 key.2 name value)
  removeAttribute key name := answerStatus .removeAttribute (.removeAttribute key.1 key.2 name)
  stat := stat
  work _ s := s

end Scripted

end Milepost
