import Milepost.Proofs.Schedule

/-!
# Handing an operation to the backend in memory

What one call of `Handle.issue` does over the backend in memory, as one equation for each way it
can end: the backend takes the job, it refuses the job, it ignores the job because an answer was
laid down that is no refusal, or there is no job because the buffer of a read would be too large.
A read brings a buffer of zeros, held by the handle and by the job; an ignored job lets it go, and
if the job is refused both do.

* `issue_of_accepts`, `issue_of_isError`, `issue_of_ignored`, `issue_of_overflow`: the four ways.
* `answer_submit`: what is checked before a job is taken, in order.
* `isError_submit`: where all answers laid down are refusals, what is not refused is queued.
-/

namespace Milepost

/-- All answers laid down for operations are refusals. -/
def InMemoryConfig.Refuses (c : InMemoryConfig) : Prop :=
  ∀ (oid : String) (status : Status), c.issueFaults[oid]? = some status → status.isError = true

theorem Sample.refuses : config.Refuses := by
  intro oid status h
  simp [config] at h

namespace InMemory

/-- The answer to a job, by what is checked one after the other. -/
theorem answer_submit (b : InMemory) (job : Job) :
    (b.submit job).1 =
      if b.isShutdown then .notConnected
      else match b.config.issueFaults[job.oid]? with
        | some status => status
        | none =>
          if !b.store.hasPool job.pool then .noEntry
          else if (b.completion job.completion).issued || (b.completion job.completion).released
          then .invalid else 0 := by
  unfold submit
  split
  · rfl
  cases b.config.issueFaults[job.oid]? with
  | some status => rfl
  | none =>
    simp only
    split
    · rfl
    · split <;> rfl

/-- An operation is answered like its job, which the backend gets. -/
theorem issue_eq_submit (pool : PoolId) (oid : String) (c : CompletionId) (command : Command)
    (s : InMemory × Shelf) :
    ((issue pool oid c command s).1, (issue pool oid c command s).2.1) =
      s.1.submit { pool, oid, action := .command command, completion := c } := rfl

/-- What is not queued is refused, or gets the answer that was laid down for its object. -/
theorem answer_of_not_accepts {b : InMemory} {job : Job} (h : b.accepts job = false) :
    (b.submit job).1.isError = true ∨ b.config.issueFaults[job.oid]? = some (b.submit job).1 := by
  unfold submit
  split
  · exact .inl rfl
  · rename_i hs
    cases hf : b.config.issueFaults[job.oid]? with
    | some status => exact .inr rfl
    | none =>
      simp only
      split
      · exact .inl rfl
      · rename_i hp
        split
        · exact .inl rfl
        · rename_i hi
          simp_all [accepts]

/-- **What is not refused is queued.** -/
theorem isError_submit {b : InMemory} (hc : b.config.Refuses) (job : Job) :
    (b.submit job).1.isError = !b.accepts job := by
  cases ha : b.accepts job with
  | true => rw [submit_of_accepts ha]; rfl
  | false =>
    rcases answer_of_not_accepts ha with he | hf
    · exact he
    · exact hc _ _ hf

/-- What is not queued leaves the backend as it was. -/
theorem submit_of_not_accepts {b : InMemory} {job : Job} (h : b.accepts job = false) :
    (b.submit job).2 = b := by
  unfold submit
  split
  · rfl
  · rename_i hs
    split
    · rfl
    · rename_i hf
      split
      · rfl
      · rename_i hp
        split
        · rfl
        · rename_i hi
          simp_all [accepts]

theorem accepts_of_isError {b : InMemory} {job : Job} (h : (b.submit job).1.isError = true) :
    b.accepts job = false := by
  cases ha : b.accepts job with
  | false => rfl
  | true =>
    rw [submit_of_accepts ha] at h
    cases h

theorem issueOf_of_accepts {b : InMemory} {i : FlightId} {job : Job} (h : b.accepts job = true) :
    b.issueOf i job = ⟨i, job, 0, true⟩ := by
  rw [issueOf, submit_of_accepts h, h]

theorem issueOf_of_not_accepts {b : InMemory} {i : FlightId} {job : Job}
    (h : b.accepts job = false) : b.issueOf i job = ⟨i, job, (b.submit job).1, false⟩ := by
  rw [issueOf, h]

end InMemory

namespace Operation

/-- The buffer that an operation brings, if it is put down under the number. -/
def ownBuffer? (i : BufferId) : Operation → Option BufferId
  | read .. => some i
  | _ => none

/-- The shelf with the buffer that an operation brings, held by the handle and by the job. -/
def shelved (s : Shelf) : Operation → Shelf
  | read length _ => (s.put ⟨Bytes.zeros length⟩).2.hold s.cells.size
  | _ => s

/-- The shelf after the job has let go of that buffer. -/
def ignored (s : Shelf) (op : Operation) : Shelf :=
  match op with
  | read .. => (op.shelved s).letGo s.cells.size
  | _ => s

/-- The shelf after the handle and the job have let go of that buffer. -/
def unshelved (s : Shelf) (op : Operation) : Shelf :=
  match op with
  | read .. => (op.ignored s).letGo s.cells.size
  | _ => s

end Operation

namespace Request

variable {r : Request} {pool : PoolId} {c : CompletionId} {command : Command}
  {w : World InMemory}

/-- The failure that a refused operation is. -/
def refusal (r : Request) (answer : Status) : Failure :=
  (Failure.ofStatus .issueFailed answer).noted r.note

theorem send_of_accepts (ha : w.backend.accepts ⟨pool, r.oid, .command command, c⟩ = true) :
    r.send pool c command w =
      (.ok 0,
        { w with backend := (w.backend.submit ⟨pool, r.oid, .command command, c⟩).2 }) := by
  cases command <;>
    simp [send, World.onBuffers, ObjectBackend.issue, InMemory.issue,
      InMemory.submit_of_accepts ha, ha, check]

theorem send_of_not_accepts {answer : Status}
    (hs : (w.backend.submit ⟨pool, r.oid, .command command, c⟩).1 = answer)
    (ha : w.backend.accepts ⟨pool, r.oid, .command command, c⟩ = false) :
    r.send pool c command w =
      (if answer.isError then .error (r.refusal answer) else .ok answer,
        { w with
          shelf := match command with
            | .read buffer _ => w.shelf.letGo buffer
            | .edit _ => w.shelf }) := by
  subst hs
  have hb := InMemory.submit_of_not_accepts ha
  cases he : (w.backend.submit ⟨pool, r.oid, .command command, c⟩).1.isError <;>
    cases command <;>
      simp [send, World.onBuffers, ObjectBackend.issue, InMemory.issue, hb, ha, check, he,
        refusal]

end Request

namespace Handle

variable {t : Task} {h : Handle} {w : World InMemory} {c : CompletionId} {job : Job}

/-- The backend takes the job. -/
theorem issue_of_accepts (hi : h.issued = false) (hn : h.native = some c)
    (hj : t.job? c w.shelf.cells.size = some job) (ha : w.backend.accepts job = true) :
    h.issue t.pool t.request w =
      (.accepted (),
        { h with
          issued := true
          buffer := t.request.operation.ownBuffer? w.shelf.cells.size
          latch := 2 },
        { w with
          backend := (w.backend.submit job).2
          shelf := t.request.operation.shelved w.shelf }) := by
  obtain ⟨pool, ⟨oid, op⟩, callbacks, account, context, thread⟩ := t
  obtain ⟨command, hcommand, rfl⟩ := Option.map_eq_some_iff.mp hj
  cases op with
  | read length offset =>
    obtain ⟨hl, rfl⟩ : length ≤ Buffer.maxAllocation ∧ Command.read _ offset = command := by
      simpa [Operation.command?] using hcommand
    have hsend := fun s : Shelf =>
      Request.send_of_accepts (r := ⟨oid, .read length offset⟩) (w := { w with shelf := s }) ha
    simp [Handle.issue, hi, hn, Request.issue, Request.sendRead, Buffer.allocate?, hl, Shelf.put,
      hsend, Operation.ownBuffer?, Operation.shelved]
  | write | writeFull | append | remove =>
    cases hcommand
    simp [Handle.issue, hi, hn, Request.issue, Request.sendEdit, Request.send_of_accepts ha,
      Operation.ownBuffer?, Operation.shelved]

/-- The backend refuses the job. -/
theorem issue_of_isError {answer : Status} (hi : h.issued = false) (hn : h.native = some c)
    (hj : t.job? c w.shelf.cells.size = some job) (hs : (w.backend.submit job).1 = answer)
    (he : answer.isError = true) :
    h.issue t.pool t.request w =
      (.failed (t.request.refusal answer), { h with issued := true },
        { w with shelf := t.request.operation.unshelved w.shelf }) := by
  have ha := InMemory.accepts_of_isError (hs ▸ he)
  obtain ⟨pool, ⟨oid, op⟩, callbacks, account, context, thread⟩ := t
  obtain ⟨command, hcommand, rfl⟩ := Option.map_eq_some_iff.mp hj
  cases op with
  | read length offset =>
    obtain ⟨hl, rfl⟩ : length ≤ Buffer.maxAllocation ∧ Command.read _ offset = command := by
      simpa [Operation.command?] using hcommand
    have hsend := fun s : Shelf =>
      Request.send_of_not_accepts (r := ⟨oid, .read length offset⟩) (w := { w with shelf := s })
        hs ha
    simp [Handle.issue, hi, hn, Request.issue, Request.sendRead, Buffer.allocate?, hl, Shelf.put,
      hsend, he, Operation.shelved, Operation.ignored, Operation.unshelved]
  | write | writeFull | append | remove =>
    cases hcommand
    simp [Handle.issue, hi, hn, Request.issue, Request.sendEdit,
      Request.send_of_not_accepts hs ha, he, Operation.unshelved]

/-- The backend ignores the job, and answers as if it took it. -/
theorem issue_of_ignored (hi : h.issued = false) (hn : h.native = some c)
    (hj : t.job? c w.shelf.cells.size = some job) (ha : w.backend.accepts job = false)
    (he : (w.backend.submit job).1.isError = false) :
    h.issue t.pool t.request w =
      (.accepted (),
        { h with
          issued := true
          buffer := t.request.operation.ownBuffer? w.shelf.cells.size
          latch := 2 },
        { w with shelf := t.request.operation.ignored w.shelf }) := by
  obtain ⟨pool, ⟨oid, op⟩, callbacks, account, context, thread⟩ := t
  obtain ⟨command, hcommand, rfl⟩ := Option.map_eq_some_iff.mp hj
  cases op with
  | read length offset =>
    obtain ⟨hl, rfl⟩ : length ≤ Buffer.maxAllocation ∧ Command.read _ offset = command := by
      simpa [Operation.command?] using hcommand
    have hsend := fun s : Shelf =>
      Request.send_of_not_accepts (r := ⟨oid, .read length offset⟩) (w := { w with shelf := s })
        rfl ha
    simp [Handle.issue, hi, hn, Request.issue, Request.sendRead, Buffer.allocate?, hl, Shelf.put,
      hsend, he, Operation.ownBuffer?, Operation.shelved, Operation.ignored]
  | write | writeFull | append | remove =>
    cases hcommand
    simp [Handle.issue, hi, hn, Request.issue, Request.sendEdit,
      Request.send_of_not_accepts rfl ha, he, Operation.ownBuffer?, Operation.ignored]

/-- There is no job. -/
theorem issue_of_overflow (hi : h.issued = false) (hn : h.native = some c)
    (hj : t.job? c w.shelf.cells.size = none) :
    h.issue t.pool t.request w = (.overflow, { h with issued := true }, w) := by
  obtain ⟨pool, ⟨oid, op⟩, callbacks, account, context, thread⟩ := t
  cases op with
  | read length offset =>
    have hl : ¬ length ≤ Buffer.maxAllocation := by
      simpa [Task.job?, Operation.command?] using hj
    simp [Handle.issue, hi, hn, Request.issue, Request.sendRead, Buffer.allocate?, hl]
  | write | writeFull | append | remove => simp [Task.job?, Operation.command?] at hj

end Handle

end Milepost
