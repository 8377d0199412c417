import Milepost.Connection
import Milepost.System

/-!
# Clusters and pools

A cluster is a backend that was connected to, and a pool one of its pools, known by a number.
Their calls check names, pass the call on, and turn a refused status into a failure with a note of
what was wanted. Calls that deliver an unknown number of bytes are repeated with larger buffers.

* `checkPool_eq_ok_iff`: a number that is not negative is a pool.
* `checkName_eq_ok_iff`: a name is acceptable exactly when it holds no NUL.
-/

namespace Milepost

/-- Why a call did not come about. -/
inductive Stop
  | failed (e : Failure)
  /-- A buffer would be larger than a buffer may be. -/
  | overflow
deriving DecidableEq

/-- The result of a call that may need larger and larger buffers. -/
abbrev Delivered (α : Type) := Except Stop α

/-- The result, with the note added to a failure. -/
def Delivered.noted {α : Type} (note : Note) (d : Delivered α) : Delivered α :=
  d.mapError fun
    | .failed e => .failed (e.noted note)
    | .overflow => .overflow

/-- A failure is one of a call that delivers bytes. -/
def Delivered.ofResult {α : Type} (r : Except Failure α) : Delivered α := r.mapError .failed

/-- A name is passed on only if it holds no NUL. -/
def checkName (name : String) : Except Failure Unit :=
  if Text.hasNul name then .error (.of .invalidInput (.nameHasNul name)) else .ok ()

/-- The status that a negative number stands for, as far as a status holds it. -/
def statusOfPool (id : PoolId) : Status :=
  if -0x80000000 ≤ id then Int32.ofInt id else .outOfRange

/-- The number of a pool is not negative; a negative one is a refusal. -/
def checkPool (id : PoolId) : Except Failure PoolId :=
  if id < 0 then .error (.ofStatus .other (statusOfPool id)) else .ok id

/-- The text of delivered bytes, without the NULs at their end. -/
def decodeName (bytes : List UInt8) : Except Failure String :=
  (Text.Utf8.decode (Bytes.dropTrailingNuls bytes)).mapError fun fault =>
    .of .other (.notUtf8 fault)

/-- The texts of names each of which is ended by a NUL, up to the first that is empty. -/
def decodeNames (bytes : List UInt8) : Except Failure (List String) :=
  ((Bytes.splitAtNul bytes).takeWhile (!·.isEmpty)).mapM decodeName

namespace World

variable {β : Type} [ObjectBackend β]

/-- Makes a call that is lent buffers, the first one of the size. -/
def lend (w : World β) (account : AccountId) (initialSize : Nat) (call : BufferCall β) :
    Delivered ByteArray × World β :=
  let (outcome, buffers, backend) :=
    ({ initialSize } : GrowRetry).deliver call (w.getMeters account).buffers w.backend
  let w := { w with backend }.onMeters account ({ · with buffers })
  match outcome with
  | .filled bytes => (.ok bytes, w)
  | .failed e => (.error (.failed e), w)
  | .overflow => (.error .overflow, w)

/-- Has the backend answer a call by a status. -/
def callStatus (w : World β) (note : Note) (call : β → Status × β) :
    Except Failure Unit × World β :=
  let (status, w) := w.onBackend call
  ((withNote note (check .other status)).map fun _ => (), w)

end World

/-- A cluster that was connected to. -/
structure Cluster where
  /-- The context of its records, which names it. -/
  context : Context
  account : AccountId := 0
deriving DecidableEq

/-- A pool of a cluster. -/
structure Pool where
  id : PoolId
  /-- The context of its records, which names cluster and pool. -/
  context : Context
  account : AccountId := 0
deriving DecidableEq

/-- The size of an object and when it was changed, in seconds since the epoch. -/
structure ObjectStatus where
  size : Nat
  modified : Nat
deriving DecidableEq, Repr

namespace Cluster

variable {β : Type} [ObjectBackend β]

/-- How many bytes the list of pools gets at first. -/
def poolListSize : Nat := 4096

/-! ### Connecting -/

/-- The cluster behind a backend. -/
def connectWith (config : ConnectionConfig) (backend : β) : Except Failure (Cluster × World β) :=
  config.validate.map fun _ =>
    let cluster : Cluster := { context := [("cluster", config.clusterLabel)] }
    let record := cluster.context.record .info "Connected to the cluster"
      [("user", Text.optional config.user)]
    (cluster, ({ backend } : World β).write record)

/-- The cluster that a connection asks for. -/
def connect (config : ConnectionConfig) (make : ConnectionConfig → Except Failure β) :
    Except Failure (Cluster × World β) :=
  config.validate.bind fun _ => (make config).bind (connectWith config)

/-- Closes the connection: the backend refuses all further operations. -/
def shutdown (c : Cluster) (w : World β) : World β :=
  { w with backend := ObjectBackend.shutdown w.backend }.write
    (c.context.record .info "Disconnected from the cluster")

/-! ### Pools -/

/-- Opens the pool of a name. -/
def openPool (c : Cluster) (name : String) (w : World β) : Except Failure Pool × World β :=
  match checkName name with
  | .error e => (.error e, w)
  | .ok _ =>
    let (id, w) := w.onBackend (ObjectBackend.lookupPool name)
    ((withNote (.openPool name) (checkPool id)).map fun id =>
      { id, context := c.context ++ [("pool", name)], account := c.account }, w)

/-- The names of all pools. -/
def listPools (c : Cluster) (w : World β) : Delivered (List String) × World β :=
  let (bytes, w) := w.lend c.account poolListSize ObjectBackend.listPools
  (bytes.bind fun bytes => Delivered.ofResult (decodeNames bytes.toList), w)

/-- The number of the pool of a name, if there is one. -/
def lookupPool (_ : Cluster) (name : String) (w : World β) :
    Except Failure (Option PoolId) × World β :=
  match checkName name with
  | .error e => (.error e, w)
  | .ok _ =>
    let (id, w) := w.onBackend (ObjectBackend.lookupPool name)
    if id = Status.noEntry.toInt then (.ok none, w)
    else ((withNote (.lookupPool name) (checkPool id)).map some, w)

/-- Makes a call about the pool of a name, and writes down that it was done. -/
def managePool (c : Cluster) (name : String) (note : Note) (message : String)
    (call : β → Status × β) (w : World β) : Except Failure Unit × World β :=
  match checkName name with
  | .error e => (.error e, w)
  | .ok _ =>
    match w.callStatus note call with
    | (.error e, w) => (.error e, w)
    | (.ok _, w) => (.ok (), w.write (c.context.record .info message [("pool", name)]))

/-- Makes a pool. -/
def createPool (c : Cluster) (name : String) (w : World β) : Except Failure Unit × World β :=
  c.managePool name (.createPool name) "Pool created" (ObjectBackend.createPool name) w

/-- Removes a pool and its objects. -/
def deletePool (c : Cluster) (name : String) (w : World β) : Except Failure Unit × World β :=
  c.managePool name (.deletePool name) "Pool deleted" (ObjectBackend.deletePool name) w

end Cluster

namespace Pool

variable {β : Type} [ObjectBackend β]

/-- How many bytes the name of a pool gets at first. -/
def nameSize : Nat := 64

/-- How many bytes the value of an attribute gets at first. -/
def attributeSize : Nat := 2048

/-- The name of the pool. -/
def name (p : Pool) (w : World β) : Delivered String × World β :=
  let (bytes, w) := w.lend p.account nameSize (ObjectBackend.poolName p.id)
  (bytes.bind fun bytes => Delivered.ofResult (decodeName bytes.toList), w)

/-- Checks the names of an object and of an attribute. -/
def checkNames (oid name : String) : Except Failure Unit :=
  (checkName oid).bind fun _ => checkName name

/-- The value of an attribute. -/
def getAttribute (p : Pool) (oid name : String) (w : World β) :
    Delivered ByteArray × World β :=
  match checkNames oid name with
  | .error e => (.error (.failed e), w)
  | .ok _ =>
    let (value, w) :=
      w.lend p.account attributeSize (ObjectBackend.getAttribute (p.id, oid) name)
    (value.noted (.getAttribute name oid), w)

/-- Gives an object an attribute. -/
def setAttribute (p : Pool) (oid name : String) (value : ByteArray) (w : World β) :
    Except Failure Unit × World β :=
  match checkNames oid name with
  | .error e => (.error e, w)
  | .ok _ =>
    w.callStatus (.setAttribute name oid) (ObjectBackend.setAttribute (p.id, oid) name value)

/-- Takes an attribute from an object. -/
def removeAttribute (p : Pool) (oid name : String) (w : World β) :
    Except Failure Unit × World β :=
  match checkNames oid name with
  | .error e => (.error e, w)
  | .ok _ =>
    w.callStatus (.removeAttribute name oid) (ObjectBackend.removeAttribute (p.id, oid) name)

/-- The status of an object. A time before the epoch counts as the epoch. -/
def objectStatus (p : Pool) (oid : String) (w : World β) :
    Except Failure ObjectStatus × World β :=
  match checkName oid with
  | .error e => (.error e, w)
  | .ok _ =>
    let (reply, w) := w.onBackend (ObjectBackend.stat (p.id, oid))
    let (size, modified) := reply.found.getD (0, 0)
    ((withNote (.stat oid) (check .other reply.status)).map fun _ =>
      { size, modified := modified.toNat }, w)

/-- Waits until everything issued so far is safe; none while it waits. -/
def flush (p : Pool) (pace : Pace) (s : System β) :
    Option (Except Failure Unit) × System β :=
  match s.flush p.id pace with
  | (none, s) => (none, s)
  | (some status, s) =>
    match withNote (.flush p.id) (check .other status) with
    | .error e => (some (.error e), s)
    | .ok _ =>
      let record := p.context.record .debug "Flushed pending operations"
      (some (.ok ()), { s with world := s.world.write record })

/-- The object of the name for asynchronous operations. -/
def asyncObject (p : Pool) (oid : String) (callbacks : Callbacks) : Except Failure AsyncObject :=
  AsyncObject.make p.id oid callbacks p.account p.context AsyncObject.defaultThread

end Pool

theorem checkName_eq_ok_iff (name : String) :
    checkName name = .ok () ↔ Text.hasNul name = false := by
  unfold checkName
  cases Text.hasNul name <;> simp

theorem checkPool_eq_ok_iff {id p : PoolId} : checkPool id = .ok p ↔ 0 ≤ id ∧ p = id := by
  unfold checkPool
  split
  · next h => simp [Int.not_le.2 h]
  · next h => simp [Int.not_lt.1 h, eq_comm]

end Milepost
