/-!
# The journal

What goes on is written down as records. A record has a level, a message, and fields that say what
it is about. Most of the fields come from the context of whoever writes it: the cluster, the pool,
the object and the operation, each context adding its fields to the one around it.

* `Context.record`: of two fields of one name the outer one stays.
-/

namespace Milepost

/-- How much attention a record asks for. -/
inductive Level
  | info
  | debug
  | warning
  | error
deriving DecidableEq, Repr

/-- The short name of the level. -/
def Level.name : Level → String
  | info => "INFO"
  | debug => "DEBG"
  | warning => "WARN"
  | error => "ERRO"

/-- A name and what it stands for. -/
abbrev Field := String × String

/-- The fields that a writer adds to all its records, those of the outermost context first. -/
abbrev Context := List Field

/-- A line of the journal. -/
structure Record where
  level : Level
  message : String
  fields : List Field := []
deriving DecidableEq, Repr

/-- The fields without repetition: of two of one name the first stays. -/
def firstOfEachName (fields : List Field) : List Field :=
  fields.foldl (fun kept f => if kept.any (·.1 = f.1) then kept else kept ++ [f]) []

/-- A record of a writer in the context. -/
def Context.record (context : Context) (level : Level) (message : String)
    (fields : List Field := []) : Record :=
  { level, message, fields := firstOfEachName (context ++ fields) }

/-- What goes on, oldest record first. -/
abbrev Journal := Array Record

end Milepost
