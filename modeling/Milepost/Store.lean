import Std.Data.ExtTreeMap
import Milepost.Bytes
import Milepost.Status

/-!
# The store

A store holds pools and, in each pool, objects. A pool has a name and a number; numbers are given
in order and never twice. An object is a string of bytes with attributes and the time of its last
change. This module says what one change does to a store and what can be read off it; every change
answers with a status, and one that is refused leaves the store as it was.

* `addPool`, `createPool`, `deletePool`: what is done with pools.
* `edit`, `setAttribute`, `removeAttribute`: what is done with objects.
* `find`, `getAttribute`: what can be read off a store.
-/

namespace Milepost

/-- The number of a pool. -/
abbrev PoolId := Int

/-- What is stored under one name. -/
structure Object where
  data : ByteArray := .empty
  attributes : Std.ExtTreeMap String ByteArray := ∅
  /-- When the object was last changed, in seconds since the epoch. -/
  modified : Int := 0

namespace Object

/-- How many bytes an object may have. -/
def maxSize : Nat := 128 * 1024 * 1024

/-- Where a write of `length` bytes at `offset` ends, if an object may reach so far. -/
def writeEnd? (offset length : Nat) : Option Nat :=
  if offset + length ≤ maxSize then some (offset + length) else none

/-- The object with the bytes at the offset. -/
def writeAt (o : Object) (now : Int) (offset : Nat) (data : ByteArray) : Object :=
  { o with data := Bytes.writeAt o.data offset data, modified := now }

/-- The object with the bytes as its whole content. -/
def replace (o : Object) (now : Int) (data : ByteArray) : Object :=
  { o with data, modified := now }

/-- The object with an attribute of the value. -/
def setAttribute (o : Object) (now : Int) (name : String) (value : ByteArray) : Object :=
  { o with attributes := o.attributes.insert name value, modified := now }

/-- The object without the attribute. -/
def removeAttribute (o : Object) (now : Int) (name : String) : Object :=
  { o with attributes := o.attributes.erase name, modified := now }

/-- At most `capacity` bytes from the offset on. -/
def slice (o : Object) (offset capacity : Nat) : ByteArray :=
  let start := min offset o.data.size
  o.data.extract start (start + min capacity (o.data.size - start))

end Object

/-- An object is known by its pool and its name. -/
abbrev ObjectKey := PoolId × String

/-- Keys are ordered by pool, then by name. -/
instance : Ord ObjectKey := lexOrd

/-- Pools and objects. -/
structure Store where
  pools : Std.ExtTreeMap String PoolId := ∅
  /-- The number given last. -/
  lastPool : PoolId := 0
  objects : Std.ExtTreeMap ObjectKey Object := ∅

/-- A change of one object. -/
inductive Edit
  | write (data : ByteArray) (offset : Nat)
  | writeFull (data : ByteArray)
  | append (data : ByteArray)
  | remove
deriving DecidableEq

namespace Store

/-! ### Pools -/

/-- Whether some pool has the number. -/
def hasPool (s : Store) (pool : PoolId) : Bool := s.pools.toList.any (·.2 == pool)

/-- The name of the pool of the number. -/
def poolName? (s : Store) (pool : PoolId) : Option String :=
  (s.pools.toList.find? (·.2 == pool)).map (·.1)

/-- The names of all pools, in order. -/
def poolNames (s : Store) : List String := s.pools.keys

/-- The store with a new pool of the name, unless there is one. -/
def addPool (s : Store) (name : String) : Store :=
  if s.pools.contains name then s
  else { s with lastPool := s.lastPool + 1, pools := s.pools.insert name (s.lastPool + 1) }

/-- A store with pools of the names, made in order. -/
def ofPools (names : List String) : Store := names.foldl addPool {}

/-- Makes a pool. -/
def createPool (name : String) (s : Store) : Status × Store :=
  if s.pools.contains name then (.inUse, s) else (0, s.addPool name)

/-- Removes a pool and its objects. -/
def deletePool (name : String) (s : Store) : Status × Store :=
  match s.pools[name]? with
  | none => (.noEntry, s)
  | some pool =>
    (0, { s with
      pools := s.pools.erase name
      objects := s.objects.filter fun key _ => key.1 != pool })

/-! ### Objects -/

/-- The object of the key, or an empty one. -/
def objectOrNew (s : Store) (key : ObjectKey) : Object := s.objects[key]?.getD {}

/-- The store with the object under the key. -/
def putObject (s : Store) (key : ObjectKey) (o : Object) : Store :=
  { s with objects := s.objects.insert key o }

/-- Puts bytes at an offset of an object, which is made if there is none. -/
def write (now : Int) (key : ObjectKey) (data : ByteArray) (offset : Nat) (s : Store) :
    Status × Store :=
  match Object.writeEnd? offset data.size with
  | none => (.tooBig, s)
  | some _ => (0, s.putObject key ((s.objectOrNew key).writeAt now offset data))

/-- Changes an object of an existing pool. -/
def editObject (now : Int) (key : ObjectKey) (e : Edit) (s : Store) : Status × Store :=
  match e with
  | .write data offset => s.write now key data offset
  | .writeFull data => (0, s.putObject key ((s.objectOrNew key).replace now data))
  | .append data => s.write now key data (s.objectOrNew key).data.size
  | .remove =>
    if s.objects.contains key then (0, { s with objects := s.objects.erase key })
    else (.noEntry, s)

/-- Changes an object. -/
def edit (now : Int) (key : ObjectKey) (e : Edit) (s : Store) : Status × Store :=
  if s.hasPool key.1 then s.editObject now key e else (.noEntry, s)

/-- The object of an existing pool. -/
def find (s : Store) (key : ObjectKey) : Except Status Object :=
  if s.hasPool key.1 then
    match s.objects[key]? with
    | none => .error .noEntry
    | some o => .ok o
  else .error .noEntry

/-! ### Attributes -/

/-- The value of an attribute. -/
def getAttribute (s : Store) (key : ObjectKey) (name : String) : Except Status ByteArray :=
  match s.objects[key]? with
  | none => .error .noEntry
  | some o =>
    match o.attributes[name]? with
    | none => .error .noData
    | some value => .ok value

/-- Gives an object an attribute; the object is made if there is none. -/
def setAttribute (now : Int) (key : ObjectKey) (name : String) (value : ByteArray) (s : Store) :
    Status × Store :=
  if s.hasPool key.1 then
    (0, s.putObject key ((s.objectOrNew key).setAttribute now name value))
  else (.noEntry, s)

/-- Takes an attribute from an object. -/
def removeAttribute (now : Int) (key : ObjectKey) (name : String) (s : Store) : Status × Store :=
  match s.objects[key]? with
  | none => (.noEntry, s)
  | some o =>
    if o.attributes.contains name then (0, s.putObject key (o.removeAttribute now name))
    else (.noData, s)

/-! ### Edits of objects in a pool or in none -/

theorem edit_of_hasPool {now : Int} {key : ObjectKey} {e : Edit} {s : Store}
    (h : s.hasPool key.1 = true) : s.edit now key e = s.editObject now key e := if_pos h

theorem edit_of_not_hasPool {now : Int} {key : ObjectKey} {e : Edit} {s : Store}
    (h : s.hasPool key.1 = false) : s.edit now key e = (.noEntry, s) := by
  simp [edit, h]

end Store

end Milepost
