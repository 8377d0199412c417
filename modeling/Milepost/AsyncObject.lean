import Milepost.Flight
import Milepost.Text.Name

/-!
# Objects for asynchronous operations

An asynchronous object is one object of a pool together with the callbacks of its owner. Every
request submitted through it becomes a task; a request may name another object.

* `make`: an object is made if its name holds no NUL.
* `task`: what is to be done for a request.
-/

namespace Milepost

/-- An object and what its operations need. -/
structure AsyncObject where
  pool : PoolId
  oid : String
  callbacks : Callbacks
  account : AccountId
  /-- The context of the object's records, which names it. -/
  context : Context
  /-- What the names of its tasks begin with. -/
  thread : String
deriving DecidableEq

namespace AsyncObject

/-- What the names of tasks begin with when nothing else is asked for. -/
def defaultThread : String := "radosbridge_aio"

/-- The object of the name, within the context of its maker. -/
def make (pool : PoolId) (oid : String) (callbacks : Callbacks) (account : AccountId)
    (context : Context) (thread : String) : Except Failure AsyncObject :=
  if Text.hasNul oid then .error (.of .invalidInput (.objectNameHasNul oid))
  else .ok { pool, oid, callbacks, account, context := context ++ [("oid", oid)], thread }

/-- What is to be done for a request. -/
def task (o : AsyncObject) (r : Request) : Task :=
  { pool := o.pool, request := r, callbacks := o.callbacks, account := o.account
    context := o.context ++ [("op", r.kind.label)], thread := o.thread }

end AsyncObject

end Milepost
