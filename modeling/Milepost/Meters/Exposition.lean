import Milepost.Meters

/-!
# The text of meters

Meters are read by collectors as text: one family of samples for each meter, sorted by name, with
a line of help, a line of type, and one line for each sample with its labels.

* `Family.lines`: the lines of one family.
* `Meters.exposition`: the lines of all meters.
-/

namespace Milepost

/-- What a family of samples measures. -/
inductive MeterType
  | counter
  | gauge
deriving DecidableEq, Repr

/-- The name of the type. -/
def MeterType.name : MeterType → String
  | counter => "counter"
  | gauge => "gauge"

/-- A label and its value. -/
abbrev Label := String × String

/-- The labels with one more, which replaces another of its name, in order of their names. -/
def insertLabel (labels : List Label) (l : Label) : List Label :=
  let rest := labels.filter (·.1 ≠ l.1)
  rest.takeWhile (·.1 < l.1) ++ l :: rest.dropWhile (·.1 < l.1)

/-- The labels without repetition, a later one replacing an earlier one, in order of their
names. -/
def normalLabels (labels : List Label) : List Label := labels.foldl insertLabel []

/-- A character inside the quotes of a label's value. -/
def labelChar (c : Char) : List Char :=
  if c = '\n' then ['\\', 'n']
  else if c = '"' ∨ c = '\\' then ['\\', c]
  else [c]

/-- A label as it stands beside a sample. -/
def labelText (l : Label) : String :=
  l.1 ++ "=\"" ++ String.ofList (l.2.toList.flatMap labelChar) ++ "\""

/-- The labels between braces, or nothing when there are none. -/
def labelsText : List Label → String
  | [] => ""
  | labels => "\x7b" ++ ",".intercalate (labels.map labelText) ++ "\x7d"

/-- One number with its labels. -/
structure Sample where
  labels : List Label := []
  value : String

/-- The samples of one meter. -/
structure Family where
  name : String
  help : String
  type : MeterType
  samples : List Sample

/-- The lines of a family. Its own labels take precedence over those common to all. -/
def Family.lines (common : List Label) (f : Family) : List String :=
  ("# HELP " ++ f.name ++ " " ++ f.help) ::
  ("# TYPE " ++ f.name ++ " " ++ f.type.name) ::
  f.samples.map fun s =>
    f.name ++ labelsText (normalLabels (common ++ s.labels)) ++ " " ++ s.value

namespace Counter

/-- The text of what the counter shows. -/
def text (c : Counter) : String := Reading.text c.reading

/-- The family of one counter. -/
def family (name help : String) (c : Counter) : Family :=
  { name, help, type := .counter, samples := [{ value := c.text }] }

end Counter

/-- The family of the counters of all kinds of operation, in order of the kinds' labels. -/
def PerOperation.family (name help : String) (p : PerOperation Counter) : Family :=
  { name, help, type := .counter
    samples := [OperationKind.append, .read, .remove, .write, .writeFull].map fun k =>
      { labels := [("op", k.label)], value := (p.get k).text } }

/-- The family of the counters of both milestones. -/
def PerMilestone.family (name help : String) (p : PerMilestone Counter) : Family :=
  { name, help, type := .counter
    samples := Milestone.all.map fun m =>
      { labels := [("milestone", m.label)], value := (p.get m).text } }

/-- The families of the meters of operations, in order of their names. -/
def OperationMeters.families (m : OperationMeters) : List Family :=
  [ m.doubleReleases.family "radosbridge_aio_double_releases_total"
      "Number of attempts to release an already released handle",
    m.refused.family "radosbridge_aio_issue_failures_total"
      "Number of asynchronous operations the backend refused to issue",
    m.issued.family "radosbridge_aio_issued_operations_total"
      "Number of asynchronous operations issued to the backend",
    m.milestoneFailures.family "radosbridge_aio_milestone_failures_total"
      "Number of milestones resolved with a failure status",
    m.milestones.family "radosbridge_aio_milestones_total" "Number of observed milestones",
    { name := "radosbridge_aio_outstanding_handles"
      help := "Number of completion handles not released yet"
      type := .gauge
      samples := [{ value := toString m.outstanding }] },
    m.released.family "radosbridge_aio_released_handles_total"
      "Number of released completion handles" ]

/-- The families of the meters of buffers, in order of their names. -/
def BufferMeters.families (m : BufferMeters) : List Family :=
  [ m.allocated.family "radosbridge_buffer_allocated_bytes_total"
      "Number of bytes allocated for transient buffers",
    m.exhausted.family "radosbridge_buffer_exhausted_total"
      "Number of calls which gave up growing buffers",
    m.retries.family "radosbridge_buffer_grow_retries_total"
      "Number of retries caused by insufficient buffer capacity" ]

/-- The lines of all meters, each sample with the labels `common` besides its own. -/
def Meters.exposition (common : List Label) (m : Meters) : List String :=
  (m.operations.families ++ m.buffers.families).flatMap (Family.lines common)

end Milepost
