import Milepost.Outcome
import Milepost.Text.Quoted

/-!
# Callbacks

The owner of an object may have itself called back: when an operation is complete, when it is
safe, and when either did not come about. A callback gets the arguments registered with it, and
for a read the bytes read. It may fail, which ends the task that called it.

* `invocation?_isSome`: with all callbacks registered every outcome brings about a call.
-/

namespace Milepost

/-- A function registered to be called back. -/
structure Callback where
  /-- What the owner knows it by. -/
  label : String
  /-- Whether it fails after it was called. -/
  raises : Bool := false
deriving DecidableEq, Repr

/-- What a callback is registered for. -/
inductive Occasion
  | milestone (m : Milestone)
  | failure
deriving DecidableEq, Repr

/-- The name of the occasion. -/
def Occasion.label : Occasion → String
  | milestone m => m.label
  | failure => "error"

/-- What a callback is called with. -/
structure CallbackArguments where
  /-- The arguments registered. -/
  passed : List String
  /-- The bytes read. -/
  payload : Option ByteArray := none
deriving DecidableEq

namespace CallbackArguments

/-- How many arguments there are. -/
def size (a : CallbackArguments) : Nat := a.passed.length + if a.payload.isSome then 1 else 0

/-- Whether there are none. -/
def isEmpty (a : CallbackArguments) : Bool := a.size == 0

end CallbackArguments

/-- The callbacks of an owner, and the arguments they get. -/
structure Callbacks where
  onComplete : Option Callback := none
  onSafe : Option Callback := none
  onFailure : Option Callback := none
  arguments : List String := []
deriving DecidableEq, Repr

namespace Callbacks

/-- The callback for an occasion. -/
def get (c : Callbacks) : Occasion → Option Callback
  | .milestone .complete => c.onComplete
  | .milestone .safe => c.onSafe
  | .failure => c.onFailure

/-- Registers a callback for an occasion, in place of another. -/
def register (c : Callbacks) (o : Occasion) (f : Callback) : Callbacks :=
  match o with
  | .milestone .complete => { c with onComplete := some f }
  | .milestone .safe => { c with onSafe := some f }
  | .failure => { c with onFailure := some f }

/-- Adds arguments at the end. -/
def pass (c : Callbacks) (arguments : List String) : Callbacks :=
  { c with arguments := c.arguments ++ arguments }

/-- The arguments of one call. -/
def snapshot (c : Callbacks) (payload : Option ByteArray) : CallbackArguments :=
  { passed := c.arguments, payload }

/-- The word for a truth value. -/
def truthWord (b : Bool) : String := if b then "true" else "false"

/-- The callbacks in one line: which are registered, and the arguments. -/
def describe (c : Callbacks) : String :=
  "Callbacks \x7b on_complete: " ++ truthWord c.onComplete.isSome
    ++ ", on_safe: " ++ truthWord c.onSafe.isSome
    ++ ", on_error: " ++ truthWord c.onFailure.isSome
    ++ ", args: " ++ Text.quotedList c.arguments ++ " \x7d"

end Callbacks

/-- One call of a callback. -/
structure Invocation where
  occasion : Occasion
  callback : Callback
  /-- The name of the task that called. -/
  thread : String
  arguments : CallbackArguments
  failure : Option Failure := none
deriving DecidableEq

namespace Callbacks

/-- The call that an outcome brings about in a task of the name: of the callback for the milestone
with the payload, or of the callback for failures with the failure. -/
def invocation? (c : Callbacks) (m : Milestone) (thread : String) (o : Outcome) :
    Option Invocation :=
  match o with
  | .reached payload =>
    (c.get (.milestone m)).map fun f =>
      { occasion := .milestone m, callback := f, thread, arguments := c.snapshot payload }
  | .failed e =>
    (c.get .failure).map fun f =>
      { occasion := .failure, callback := f, thread, arguments := c.snapshot none,
        failure := some e }

theorem invocation?_isSome {c : Callbacks} (h : ∀ o, (c.get o).isSome) (m : Milestone)
    (thread : String) (o : Outcome) : (c.invocation? m thread o).isSome := by
  cases o <;> simp [invocation?, h]

end Callbacks

end Milepost
