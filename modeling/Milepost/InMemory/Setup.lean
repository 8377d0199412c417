import Milepost.Connection
import Milepost.InMemory.Calls
import Milepost.Text.Blank

/-!
# Setting up the backend in memory

The backend reads three settings of a connection: the order of the milestones, the delay between
them, and the pools that are there from the start. Settings are read in order of their keys and
the first faulty one is reported.

* `applySettings`: what the settings make of a configuration, or the first fault.
* `connect`: the backend that a connection asks for.
-/

namespace Milepost.InMemoryConfig

/-- The order of milestones that a text names. -/
def orderOf? : String → Option MilestoneOrder
  | "complete_first" => some .completeFirst
  | "safe_first" => some .safeFirst
  | _ => none

/-- The names in a list separated by commas: what lies between two commas is a name, without the
blanks around it, unless it is empty. -/
def poolNames (value : String) : List String :=
  ((Text.splitAtComma value).filter (· ≠ "")).map Text.trim

/-- Takes one setting into account; those of other keys are left to others. -/
def applySetting (c : InMemoryConfig) (key value : String) : Except Failure InMemoryConfig :=
  match key with
  | "memory_milestone_order" =>
    match orderOf? value with
    | some order => .ok { c with order }
    | none => .error (.of .invalidInput (.unknownOrder value))
  | "memory_durability_delay_ms" =>
    match Text.Natural.readBelow 0x10000000000000000 value with
    | .ok delay => .ok { c with delay }
    | .error fault => .error (.of .invalidInput (.badNumber fault))
  | "memory_pools" => .ok { c with pools := c.pools ++ poolNames value }
  | _ => .ok c

/-- Takes settings into account, one after the other. -/
def applySettings (c : InMemoryConfig) : List (String × String) → Except Failure InMemoryConfig
  | [] => .ok c
  | (key, value) :: rest => (c.applySetting key value).bind (·.applySettings rest)

/-- The backend that a connection asks for. -/
def connect (around : Surroundings) (c : ConnectionConfig) : Except Failure InMemory :=
  (around.check c).bind fun _ =>
    (applySettings {} c.settings.toList).map InMemory.ofConfig

end Milepost.InMemoryConfig
