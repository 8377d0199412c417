import Mathlib.Algebra.Ring.Nat
import Milepost.Buffer.Drain

/-!
# What is drained from a source

A source yields chunks and faults, in any order, before its input ends. All chunks are collected,
one after the other, as long as no other faults than interruptions come between them. The first
other fault is the result instead, and whatever was collected is lost; a fault that carries a
failure is that failure, of whatever kind the fault itself is.

* `Buffer.drainFrom_eq`: what is drained, by the chunks and the faults before the end.
* `Buffer.drains_to_end`: the bytes of a buffer that is drained, or the failure.
-/

namespace Milepost

namespace SourceEvent

/-- Whether this is the end of input: a chunk without bytes. -/
def isEnd : SourceEvent → Bool
  | chunk data => data.size == 0
  | fault _ => false

/-- The bytes of a chunk. -/
def chunk? : SourceEvent → Option ByteArray
  | chunk data => some data
  | fault _ => none

/-- The error of a fault. -/
def fault? : SourceEvent → Option IoError
  | chunk _ => none
  | fault error => some error

/-- What a source yields before its input ends. -/
def beforeEnd (source : List SourceEvent) : List SourceEvent := source.takeWhile (!·.isEnd)

/-- The chunks of a source before its input ends. -/
def chunks (source : List SourceEvent) : List ByteArray := (beforeEnd source).filterMap chunk?

/-- The faults of a source before its input ends. -/
def faults (source : List SourceEvent) : List IoError := (beforeEnd source).filterMap fault?

variable {data : ByteArray} {error : IoError}

theorem beforeEnd_of_isEnd (source : List SourceEvent) {event : SourceEvent}
    (h : event.isEnd = true) : beforeEnd (event :: source) = [] := by
  simp [beforeEnd, h]

theorem beforeEnd_of_not_isEnd (source : List SourceEvent) {event : SourceEvent}
    (h : event.isEnd = false) : beforeEnd (event :: source) = event :: beforeEnd source := by
  simp [beforeEnd, h]

theorem isEnd_chunk : (chunk data).isEnd = true ↔ data.size = 0 := beq_iff_eq

end SourceEvent

namespace Buffer

open SourceEvent

/-- The fault that ends a draining: the first that is no interruption. -/
def stopping? (source : List SourceEvent) : Option IoError :=
  (faults source).find? (·.kind ≠ .interrupted)

/-- Chunks that are appended are appended in order. -/
theorem toList_foldl_append (chunks : List ByteArray) (collected : ByteArray) :
    (chunks.foldl (· ++ ·) collected).data.toList =
      collected.data.toList ++ chunks.flatMap (·.data.toList) := by
  induction chunks generalizing collected with
  | nil => simp
  | cons data rest ih =>
    rw [List.foldl_cons, ih, ByteArray.data_append, Array.toList_append, List.flatMap_cons,
      List.append_assoc]

/-- **All chunks before the end are collected,** unless a fault other than an interruption is
met. -/
theorem drainFrom_eq (collected : ByteArray) (source : List SourceEvent) :
    drainFrom collected source = match stopping? source with
      | none => .ok ((chunks source).foldl (· ++ ·) collected)
      | some error => .error error := by
  induction source generalizing collected with
  | nil => rfl
  | cons event rest ih =>
    cases event with
    | chunk data =>
      by_cases hend : data.size = 0
      · have hb := beforeEnd_of_isEnd rest (isEnd_chunk.mpr hend)
        rw [drainFrom, if_pos hend, stopping?, faults, chunks, hb]
        rfl
      · have hb := beforeEnd_of_not_isEnd rest
          (Bool.eq_false_iff.mpr (mt isEnd_chunk.mp hend))
        rw [drainFrom_chunk rest hend, ih, stopping?, stopping?, faults, faults, chunks, chunks, hb]
        rfl
    | fault error =>
      have hb := beforeEnd_of_not_isEnd rest (show (SourceEvent.fault error).isEnd = false from rfl)
      have hfaults : faults (.fault error :: rest) = error :: faults rest := by
        rw [faults, hb]
        rfl
      have hchunks : chunks (.fault error :: rest) = chunks rest := by
        rw [chunks, hb]
        rfl
      by_cases hi : error.kind = .interrupted
      · rw [drainFrom_interrupted rest hi, ih, hchunks, stopping?, stopping?, hfaults,
          List.find?_cons_of_neg (by simpa using hi)]
      · rw [drainFrom, if_neg hi, stopping?, hfaults, List.find?_cons_of_pos (by simpa using hi)]

/-- **What is drained from a source.** If no other faults than interruptions come before the end of
input, a buffer is drained: it has the bytes of all chunks before the end, in their order, and as
many as these have together. Otherwise the draining fails as the first other fault says: with the
failure that it carries, its kind, cause, status and trail unchanged, or else with a new failure
that it causes, of the kind of invalid input if the fault is of that kind. -/
theorem drains_to_end (source : List SourceEvent) :
    ((∀ error ∈ faults source, error.kind = .interrupted) →
      ∃ b, drain source = .ok b ∧ b.bytes.data.toList = (chunks source).flatMap (·.data.toList) ∧
        b.capacity = ((chunks source).map (·.size)).sum) ∧
    ∀ before error after, faults source = before ++ error :: after →
      (∀ earlier ∈ before, earlier.kind = .interrupted) → error.kind ≠ .interrupted →
      ∃ failure, drain source = .error failure ∧
        (∀ kind carried, error = .carrying kind carried → failure = carried) ∧
        ∀ fault, error = .fault fault →
          failure.kind = (if error.kind = .invalidInput then .invalidInput else .other) ∧
            failure.cause = some (.io fault) ∧ failure.trail = [] := by
  constructor
  · intro h
    have hstop : stopping? source = none :=
      List.find?_eq_none.mpr fun error he => by simpa using h error he
    have hbytes := toList_foldl_append (chunks source) .empty
    refine ⟨⟨(chunks source).foldl (· ++ ·) .empty⟩, ?_, hbytes, ?_⟩
    · rw [drain, drainFrom_eq, hstop]
    · have hsize := congrArg List.length hbytes
      rw [List.length_append, List.length_flatMap] at hsize
      exact hsize.trans (Nat.zero_add _)
  · intro before error after hsplit hbefore herror
    have hstop : stopping? source = some error := by
      rw [stopping?, hsplit, List.find?_append,
        List.find?_eq_none.mpr fun earlier he => by simpa using hbefore earlier he,
        Option.none_or, List.find?_cons_of_pos (by simpa using herror)]
    refine ⟨.ofIo error, by rw [drain, drainFrom_eq, hstop], ?_, ?_⟩
    · rintro kind carried rfl
      rfl
    · rintro fault rfl
      exact ⟨rfl, rfl, rfl⟩

end Buffer

/-! ## Two sources

The first one is interrupted twice, once by an error that carries a failure; its input ends before
the last chunk. The second one meets a failure that is carried by an error of another kind. -/

namespace Sample

/-- There is no such object. -/
def missing : Failure := (Failure.ofStatus .durabilityFailed .noEntry).noted (.readObject "object")

def interruptedSource : List SourceEvent :=
  [.fault (.fault (.os 4)), .chunk ⟨#[1, 2]⟩, .fault (.carrying .interrupted missing),
    .chunk ⟨#[3]⟩, .chunk .empty, .fault (.fault (.os 5)), .chunk ⟨#[4]⟩]

def failingSource : List SourceEvent :=
  [.chunk ⟨#[1]⟩, .fault (.fault (.simple .interrupted)), .chunk ⟨#[2]⟩,
    .fault (.carrying .invalidInput missing), .fault (.fault (.os 22)), .chunk .empty]

end Sample

theorem Buffer.drains_to_end_past_interruptions :
    ((∀ error ∈ SourceEvent.faults Sample.interruptedSource, error.kind = .interrupted) ∧
      ∃ b, drain Sample.interruptedSource = .ok b ∧ b.bytes.data.toList = [1, 2, 3] ∧
        b.capacity = 3) ∧
    (SourceEvent.faults Sample.failingSource =
        [.fault (.simple .interrupted)] ++ .carrying .invalidInput Sample.missing ::
          [.fault (.os 22)] ∧
      drain Sample.failingSource = .error Sample.missing) := by
  have hinterrupted : ∀ error ∈ SourceEvent.faults Sample.interruptedSource,
      error.kind = .interrupted := by
    decide
  have hfaults : SourceEvent.faults Sample.failingSource =
      [.fault (.simple .interrupted)] ++ .carrying .invalidInput Sample.missing ::
        [.fault (.os 22)] := by
    decide
  refine ⟨⟨hinterrupted, (drains_to_end Sample.interruptedSource).1 hinterrupted⟩, hfaults, ?_⟩
  obtain ⟨failure, hdrain, hcarried, -⟩ := (drains_to_end Sample.failingSource).2 _ _ _ hfaults
    (by decide) (by decide)
  rw [hdrain, hcarried _ _ rfl]

end Milepost
