import Milepost.Proofs.Flight.Story
import Milepost.Proofs.Shelving

/-!
# On what grounds the owner is told

What a flight tells its owner rests on what the backend did: a refusal on the answer to its one
issue, an outcome on the one application of its job and on the status laid down for the milestone.
`Request.verdict` says which outcome that makes; `Telling.grounds` puts the grounds of a flight
together from the history.

* `Run.exists_applied`: a milestone is resolved only for a job that was applied, with its result.
* `Run.story`: every flight of a run tells its owner nothing but on these grounds.
-/

namespace Milepost

/-! ## Which outcome a milestone has -/

/-- The status laid down for a milestone of operations on the object of the name. -/
def InMemoryConfig.milestoneStatus (c : InMemoryConfig) (oid : String) (m : Milestone) : Status :=
  (c.milestoneFaults.get m)[oid]?.getD 0

namespace Request

variable (r : Request) (m : Milestone) (status result : Status) (bytes : ByteArray)

/-- The outcome of a milestone that ended in a refusal. -/
def missed : Outcome := .failed ((Failure.ofStatus m.failureKind status).noted (.milestone r.oid))

/-- **The outcome of a milestone**: its own status comes first, then the result of the operation;
a read that found nothing is a failure too, and no other operation delivers bytes. -/
def verdict : Outcome :=
  if status.isError then r.missed m status
  else if result.isError then r.missed m result
  else if r.kind = .read then
    if result.toSize = 0 then .failed (.of .emptyResult (.nothingRead r.oid))
    else .reached (some bytes)
  else .reached none

variable {r m status result bytes}

theorem kind_of_verdict {payload : ByteArray}
    (h : r.verdict m status result bytes = .reached (some payload)) : r.kind = .read := by
  unfold verdict missed at h
  split at h
  · cases h
  · split at h
    · cases h
    · split at h
      · assumption
      · cases h

end Request

namespace Application

variable (a : Application)

/-- The bytes that a read delivers. -/
def bytes (r : Request) : ByteArray :=
  (a.found.readContent a.job.key r.length r.operation.offset).materialize a.result.toSize

/-- The outcome of a milestone of the operation whose job was applied like this. -/
def verdict (config : InMemoryConfig) (r : Request) (m : Milestone) : Outcome :=
  r.verdict m (config.milestoneStatus r.oid m) a.result (a.bytes r)

end Application

namespace Flight

/-- What a waiter makes of a milestone is the verdict, or a copy that leads to it. -/
theorem afterMilestone_outcome (r : Request) (m : Milestone) (status result : Status)
    (bytes : ByteArray) :
    afterMilestone r (Handle.outcome m status result) = .ready (r.verdict m status result bytes) ∨
      afterMilestone r (Handle.outcome m status result) = .copying result.toSize ∧
        r.verdict m status result bytes = .reached (some bytes) := by
  unfold afterMilestone Handle.outcome Request.verdict check
  cases hs : status.isError with
  | true => exact .inl rfl
  | false =>
    cases hr : result.isError with
    | true => exact .inl rfl
    | false =>
      simp only [Bool.false_eq_true, if_false]
      split
      · split
        · exact .inl rfl
        · exact .inr ⟨rfl, rfl⟩
      · exact .inl rfl

end Flight

/-! ## The grounds of a flight -/

/-- The job of the flight was taken, and applied like this. -/
structure History.Applied (h : History) (i : FlightId) (r : Request) (a : Application) : Prop where
  issued : h.issuesOf i = [⟨i, a.job, 0, true⟩]
  applied : a ∈ h.applications
  read : r.kind = .read → a.result = a.found.readResult a.job.key r.length r.operation.offset

/-- On what grounds a flight tells its owner something. -/
def Telling.grounds (h : History) (config : InMemoryConfig) (i : FlightId) (t : Task) :
    Grounds where
  refused e := ∃ job answer, h.issuesOf i = [⟨i, job, answer, false⟩] ∧ answer.isError = true ∧
    e = t.request.refusal answer
  overflown := h.issuesOf i = [] ∧ ∀ c n, t.job? c n = none
  outcome m o := ∃ a, h.Applied i t.request a ∧ o = a.verdict config t.request m
  copied m n := ∃ a, h.Applied i t.request a ∧ n = a.result.toSize ∧
    a.verdict config t.request m = .reached (some (a.bytes t.request))

section

variable {h h' : History} {config : InMemoryConfig} {i : FlightId} {t : Task} {f : Flight}
  {r : Request} {a : Application}

theorem History.Applied.later (hr : h.Applied i r a) (hi : h'.issuesOf i = h.issuesOf i)
    (ha : ∀ a ∈ h.applications, a ∈ h'.applications) : h'.Applied i r a :=
  ⟨hi.trans hr.issued, ha a hr.applied, hr.read⟩

/-- Grounds do not get lost. -/
theorem Flight.Story.later {p : IssuerPhase} (hs : f.Story (Telling.grounds h config i t) p)
    (hi : h'.issuesOf i = h.issuesOf i) (ha : ∀ a ∈ h.applications, a ∈ h'.applications) :
    f.Story (Telling.grounds h' config i t) p := by
  refine hs.mono ?_ ?_ ?_ ?_
  · rintro e ⟨job, answer, hissue, he⟩
    exact ⟨job, answer, hi.trans hissue, he⟩
  · rintro ⟨hissue, hnone⟩
    exact ⟨hi.trans hissue, hnone⟩
  · rintro m n ⟨a, hr, hn⟩
    exact ⟨a, hr.later hi ha, hn⟩
  · rintro m o ⟨a, hr, ho⟩
    exact ⟨a, hr.later hi ha, ho⟩

end

/-! ## Along a run -/

theorem Pipeline.mem_taken {h : History} {b : InMemory} (hp : Pipeline h b) {a : Application}
    (ha : a ∈ h.applications) : a.job ∈ h.taken := by
  rw [hp.taken]
  exact List.mem_append_left _ (List.mem_map_of_mem ha)

namespace Run

variable {config : InMemoryConfig} {accounts : Nat} {h : History} {s : System InMemory}
  {i : FlightId} {f g : Flight} {m : Milestone} {w : World InMemory}

/-- What was applied with the completion of an issue is the job of that issue. -/
theorem job_of_completion (hr : Run config accounts h s) {x : Issue} (hx : x ∈ h.issues)
    {a : Application} (ha : a ∈ h.applications) (hc : a.job.completion = x.job.completion) :
    x.queued = true ∧ a.job = x.job := by
  obtain ⟨y, hy, hjob⟩ := List.mem_map.mp (hr.pipeline.mem_taken ha)
  obtain ⟨hy, hqueued⟩ := List.mem_filter.mp hy
  obtain rfl := hr.issue_ext hy hx (by rw [hjob, hc])
  exact ⟨hqueued, hjob.symm⟩

/-- What the buffer of a read looks like once its job is applied. -/
theorem get_buffer (hr : Run config accounts h s) (hf : s.flights[i]? = some f) {n : BufferId}
    (hn : f.buffer? = some n) {a : Application} (ha : a ∈ h.applications)
    (hi : h.issuesOf i = [⟨i, a.job, 0, true⟩]) :
    a.result =
        a.found.readResult a.job.key f.task.request.length f.task.request.operation.offset ∧
      s.world.shelf.get n =
        { content :=
            a.found.readContent a.job.key f.task.request.length f.task.request.operation.offset
          holders := 1 } := by
  have hp := hr.pipeline
  obtain ⟨x, length, offset, hx, hflight, hop, haction, hkept⟩ := hr.shelving.kept hf hn
  have hown := History.mem_issuesOf.mpr ⟨(List.mem_filter.mp hx).1, hflight⟩
  rw [hi] at hown
  obtain rfl := List.mem_singleton.mp hown
  have hkept := hkept rfl
  have hlength : f.task.request.length = length := by rw [Request.length, hop]; rfl
  have hoffset : f.task.request.operation.offset = offset := by rw [hop]; rfl
  rw [hlength, hoffset]
  generalize s.world.shelf.get n = b at hkept
  cases hkept with
  | queued hq => exact absurd rfl (hp.completion_ne_of_mem_queue ha hq)
  | applied ha' hj' hresult =>
    obtain rfl := hp.application_ext ha ha' (by rw [hj'])
    exact ⟨hresult, rfl⟩

/-- **A milestone is resolved only for a job that was applied**, with its result. -/
theorem exists_applied (hr : Run config accounts h s) (hf : s.flights[i]? = some f)
    (ht : f.IsTaken) {c : CompletionId} (hn : f.native? = some c) {status : Status}
    (hres : (s.world.backend.completion c).resolution? m = some status) :
    ∃ a, h.Applied i f.task.request a ∧
      status = config.milestoneStatus f.task.request.oid m ∧
      (s.world.backend.completion c).returnValue = a.result := by
  have hp := hr.pipeline
  have hk := hr.sound.keeps hf
  have hrel := (hr.held hf c hn).2
  rw [Completion.resolution?, hrel] at hres
  obtain ⟨a, ha, hac, rfl, hvalue⟩ := hp.of_fired hres
  obtain ⟨c', n, job, answer, queued, hj, hi, -, hanswer, held⟩ :=
    (hr.courses.course hf).of_isTaken ht
  obtain ⟨hc', hbuffer⟩ := held (by rw [← hk.isSome_native?, hn]; rfl)
  cases hn.symm.trans hc'
  obtain ⟨hjc, -, hoid, -⟩ := Task.of_job? hj
  have hissue := (History.mem_issuesOf.mp (hi ▸ List.mem_cons_self)).1
  obtain ⟨hqueued, rfl⟩ := hr.job_of_completion hissue ha (hac.trans hjc.symm)
  cases hqueued
  cases hanswer rfl
  refine ⟨a, ⟨hi, ha, fun hread => ?_⟩, ?_, hvalue⟩
  · cases hop : f.task.request.operation with
    | read length offset =>
      rw [hop] at hbuffer
      have hget := (hr.get_buffer hf hbuffer ha hi).1
      rwa [hop] at hget
    | write | writeFull | append | remove => rw [Request.kind, hop] at hread; cases hread
  · rw [hoid, InMemory.milestoneStatus, hr.sound.config]
    rfl

/-- The bytes that a waiter copies are those that the read delivers. -/
theorem copyResult_eq (hr : Run config accounts h s) (hf : s.flights[i]? = some f)
    (ht : f.IsTaken) (hg : (f.waiters.get m).guards = 1) {k : Handle} (hh : f.handle = some k)
    {a : Application} (ha : h.Applied i f.task.request a) (hread : f.task.request.kind = .read) :
    Flight.copyResult k a.result.toSize s.world.shelf =
      .reached (some (a.bytes f.task.request)) := by
  have hk := hr.sound.keeps hf
  obtain ⟨c, n, job, answer, queued, -, -, -, -, held⟩ := (hr.courses.course hf).of_isTaken ht
  obtain ⟨k', c', hh', hnative, -⟩ := hk.exists_native_of_guards hg
  cases hh.symm.trans hh'
  have hsome : f.native?.isSome = true := by rw [Flight.native?_eq hh, hnative]; rfl
  obtain ⟨-, hbuffer⟩ := held (hk.isSome_native?.symm.trans hsome)
  have hown : k.buffer = some n := by
    rw [← Flight.buffer?_eq hh, hbuffer]
    cases hop : f.task.request.operation with
    | read => rfl
    | write | writeFull | append | remove => rw [Request.kind, hop] at hread; cases hread
  have hget := (hr.get_buffer hf ((Flight.buffer?_eq hh).trans hown) ha.applied ha.issued).2
  rw [Flight.copyResult, hown]
  simp only [hget, SharedBuffer.materialize, SharedBuffer.access, Bool.false_eq_true, if_false]
  rfl

/-- What a waiter comes to know rests on the application of its job. -/
theorem support_of_waiterMove (hr : Run config accounts h s)
    (hf : s.flights[i]? = some f) (hs : f.Story (Telling.grounds h config i f.task) f.issuer)
    (hm : f.WaiterMove m s.world g w) :
    (Telling.grounds h config i f.task).Support m (g.waiters.get m) := by
  have hk := hr.sound.keeps hf
  have hstarted := hm.started
  have htaken : f.IsTaken := .inr ⟨hm.issuer_finished hk, hk.ne_idle hstarted .complete⟩
  cases hm with
  | @observe hp k c status result hh hn hres hresult =>
    obtain ⟨a, happlied, rfl, hvalue⟩ :=
      hr.exists_applied hf htaken ((Flight.native?_eq hh).trans hn) hres
    rw [Flight.get_onWaiter, hresult, hvalue]
    rcases Flight.afterMilestone_outcome f.task.request m
      (config.milestoneStatus f.task.request.oid m) a.result (a.bytes f.task.request)
      with ho | ⟨hcopying, ho⟩
    · rw [ho]
      exact ⟨a, happlied, rfl⟩
    · rw [hcopying]
      exact ⟨a, happlied, rfl, ho⟩
  | @copy n hp k hh =>
    have ht := (hs.of_started hk hstarted).1 m
    rw [hp] at ht
    cases ht with
    | copying hg =>
      obtain ⟨a, happlied, rfl, hverdict⟩ := hg
      rw [Flight.get_onWaiter]
      refine ⟨a, happlied, ?_⟩
      rw [hverdict]
      exact hr.copyResult_eq hf htaken (by rw [hp]; rfl) hh happlied
        (Request.kind_of_verdict hverdict)
  | call =>
    rw [Flight.notify, Flight.get_onWaiter]
    split <;> trivial
  | countFirst hp | countLast hp =>
    rw [Flight.get_onWaiter]
    cases hw : f.waiters.get m <;> rw [hw] at hp <;> cases hp <;> trivial
  | record | answer | abandon =>
    rw [Flight.get_onWaiter]
    trivial

/-- What the issuer tells next rests on the answer to its issue. -/
theorem story_issuerMove (hr : Run config accounts h s) (hf : s.flights[i]? = some f)
    (hs : f.Story (Telling.grounds h config i f.task) f.issuer)
    (hm : f.IssuerMove s.world g w) :
    g.Story (Telling.grounds (h.sent i f s.world) config i f.task) g.issuer := by
  have hk := hr.sound.keeps hf
  have hcourse := hr.courses.course hf
  cases hjob : f.job? s.world with
  | none =>
    rw [h.sent_of_none hjob]
    refine hs.issuerMove hk hm (fun e hp => ?_) fun hp => ?_
    · obtain ⟨c, n, job, answer, -, hi, he, rfl⟩ := hcourse.of_refusal (by rw [hp]; rfl)
      exact ⟨job, answer, hi, he, rfl⟩
    · obtain ⟨hnone, hi⟩ := hcourse.of_crashed hp
      exact ⟨hi, hnone⟩
  | some job =>
    -- The grounds change with the issue, but before it nothing was told on any.
    have hp := Flight.created_of_job? hjob
    obtain ⟨hcalls, hfutures⟩ := hs.of_isSilent (by rw [hp]; rfl)
    have hsilent : f.Story (Telling.grounds (h.sent i f s.world) config i f.task) f.issuer :=
      .silent (by rw [hp]; rfl) hcalls hfutures
    refine hsilent.issuerMove hk hm (fun e hp' => ?_) fun hp' => ?_
    · cases hp.symm.trans hp'
    · cases hp.symm.trans hp'

/-- **Every flight of a run tells its owner nothing but on these grounds.** -/
theorem story (hr : Run config accounts h s)
    (hf : s.flights[i]? = some f) : f.Story (Telling.grounds h config i f.task) f.issuer := by
  refine hr.preserved (P := fun h s => ∀ {i : FlightId} {f : Flight}, s.flights[i]? = some f →
    f.Story (Telling.grounds h config i f.task) f.issuer) (fun hf => ?_) ?_ hf
  · simp [System.fresh] at hf
  intro h s t e hr hs hh
  cases hh with
  | submit o r =>
    intro j k hj
    rw [History.after_of_not_isOwn rfl]
    rcases System.flight_submit hj with ⟨-, rfl⟩ | hj
    · exact .silent rfl rfl rfl
    · exact hs hj
  | @issuer i f g w hf hk hm =>
    intro j k hj
    rw [History.after_issuer hf]
    rcases System.flight_setIfInBounds hj with ⟨rfl, rfl⟩ | ⟨hij, hj⟩
    · rw [hm.task_eq]
      exact hr.story_issuerMove hf (hs hf) hm
    · exact (hs hj).later (History.issuesOf_sent_of_ne hij.symm) fun _ ha => ha
  | @waiter i m f g w hf hk hm =>
    intro j k hj
    rw [History.after_waiter]
    rcases System.flight_setIfInBounds hj with ⟨rfl, rfl⟩ | ⟨-, hj⟩
    · rw [hm.frame.1]
      exact (hs hf).waiterMove hk hm (hr.support_of_waiterMove hf (hs hf) hm)
    · exact hs hj
  | work hstep =>
    intro j k hj
    refine (hs hj).later History.issuesOf_after_work fun a ha => ?_
    rw [History.after_work]
    exact List.mem_append_left _ ha
  | call | shutdown | clock =>
    intro j k hj
    rw [History.after_of_not_isOwn rfl]
    exact hs hj

end Run

end Milepost
