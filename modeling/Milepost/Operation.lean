import Milepost.Bytes

/-!
# Operations and requests

An operation acts on one object. A request is an operation together with the name of its object;
it owns a copy of the bytes to be written.

* `Operation.payload?`: the bytes that an operation carries.
* `PerOperation.get_modify`: what is stored for one kind of operation is changed for it alone.
-/

namespace Milepost

/-- The kinds of operation. -/
inductive OperationKind
  | write
  | writeFull
  | append
  | read
  | remove
deriving DecidableEq, Repr

namespace OperationKind

/-- All kinds, in the order in which they are counted. -/
def all : List OperationKind := [write, writeFull, append, read, remove]

/-- The name in labels and log records. -/
def label : OperationKind → String
  | write => "write"
  | writeFull => "write_full"
  | append => "append"
  | read => "read"
  | remove => "remove"

/-- The name of the kind. -/
def name : OperationKind → String
  | write => "Write"
  | writeFull => "WriteFull"
  | append => "Append"
  | read => "Read"
  | remove => "Remove"

end OperationKind

/-- What is to be done with an object. -/
inductive Operation
  /-- Puts the bytes at the offset. -/
  | write (data : ByteArray) (offset : Nat)
  /-- Puts the bytes in place of the whole content. -/
  | writeFull (data : ByteArray)
  /-- Puts the bytes at the end. -/
  | append (data : ByteArray)
  /-- Reads at most `length` bytes from the offset on. -/
  | read (length offset : Nat)
  /-- Removes the object. -/
  | remove
deriving DecidableEq

namespace Operation

/-- The kind of the operation. -/
def kind : Operation → OperationKind
  | write .. => .write
  | writeFull .. => .writeFull
  | append .. => .append
  | read .. => .read
  | remove => .remove

/-- The bytes to be written, if the operation writes bytes. -/
def payload? : Operation → Option ByteArray
  | write data _ => some data
  | writeFull data => some data
  | append data => some data
  | read .. => none
  | remove => none

/-- Where in the object the operation acts. -/
def offset : Operation → Nat
  | write _ offset => offset
  | read _ offset => offset
  | _ => 0

/-- How many bytes the operation writes, or asks for. -/
def length : Operation → Nat
  | write data _ => data.size
  | writeFull data => data.size
  | append data => data.size
  | read length _ => length
  | remove => 0

end Operation

/-- An operation on the object of a name. -/
structure Request where
  oid : String
  operation : Operation
deriving DecidableEq

namespace Request

/-- The kind of the operation. -/
def kind (r : Request) : OperationKind := r.operation.kind

/-- How many bytes the request writes, or asks for. -/
def length (r : Request) : Nat := r.operation.length

end Request

/-- One value for each kind of operation. -/
structure PerOperation (α : Type) where
  write : α
  writeFull : α
  append : α
  read : α
  remove : α
deriving DecidableEq, Repr

namespace PerOperation

variable {α : Type}

/-- The same value for every kind. -/
def const (a : α) : PerOperation α := ⟨a, a, a, a, a⟩

/-- The value for a kind. -/
def get (p : PerOperation α) : OperationKind → α
  | .write => p.write
  | .writeFull => p.writeFull
  | .append => p.append
  | .read => p.read
  | .remove => p.remove

/-- `p` with `f` applied to the value for the kind. -/
def modify (p : PerOperation α) (k : OperationKind) (f : α → α) : PerOperation α :=
  match k with
  | .write => { p with write := f p.write }
  | .writeFull => { p with writeFull := f p.writeFull }
  | .append => { p with append := f p.append }
  | .read => { p with read := f p.read }
  | .remove => { p with remove := f p.remove }

@[simp]
theorem get_const (a : α) (k : OperationKind) : (const a).get k = a := by cases k <;> rfl

theorem get_modify (p : PerOperation α) (k l : OperationKind) (f : α → α) :
    (p.modify k f).get l = if k = l then f (p.get l) else p.get l := by
  cases k <;> cases l <;> rfl

end PerOperation

end Milepost
