import Milepost.Proofs.Contents
import Milepost.Proofs.Reporting

/-!
# What a read delivers

A read copies the part of the object that it asked for when the worker applies it. Both waiters
take their payload from that copy, whatever becomes of the object and of the other waiter
meanwhile; without such a part the owner hears that the object is empty there, or missing.

* `Run.reads`: what the owner of a read is given is that part, in every state of a run.
-/

namespace Milepost

theorem Store.find_error {s : Store} {key : ObjectKey} {status : Status}
    (h : s.find key = .error status) : status = .noEntry := by
  unfold find at h
  split at h
  · split at h
    · exact (Except.error.inj h).symm
    · cases h
  · exact (Except.error.inj h).symm

/-! ## The verdict on a read -/

/-- The outcome blames a handle or a buffer for being gone. -/
def Outcome.IsGone (o : Outcome) : Prop :=
  ∃ e, o = .failed e ∧ (e.cause = some .alreadyReleased ∨ e.cause = some .bufferReleased)

/-- No verdict blames a handle or a buffer for being gone. -/
theorem Request.not_isGone_verdict {r : Request} {m : Milestone} {status result : Status}
    {bytes : ByteArray} : ¬ (r.verdict m status result bytes).IsGone := by
  rintro ⟨e, he, hcause⟩
  unfold verdict missed at he
  split at he
  · cases he
    rcases hcause with hcause | hcause <;> cases hcause
  · split at he
    · cases he
      rcases hcause with hcause | hcause <;> cases hcause
    · split at he
      · split at he
        · cases he
          rcases hcause with hcause | hcause <;> cases hcause
        · cases he
      · cases he

namespace Application

variable {a : Application} {r : Request} {config : InMemoryConfig} {m : Milestone}
  {length offset : Nat}

/-- A read that finds no object is told so, unless the milestone failed by itself. -/
theorem verdict_of_missing
    (hread : a.result = a.found.readResult a.job.key length offset)
    (hfind : ∀ o, a.found.find a.job.key ≠ .ok o) :
    a.verdict config r m =
      if (config.milestoneStatus r.oid m).isError then r.missed m (config.milestoneStatus r.oid m)
      else r.missed m .noEntry := by
  have hresult : a.result = .noEntry := by
    rw [hread, Store.readResult]
    cases hf : a.found.find a.job.key with
    | ok o => exact absurd hf (hfind o)
    | error status => exact Store.find_error hf
  rw [verdict, Request.verdict, hresult]
  rfl

/-- A read that finds an object delivers the part that it asked for, unless this is empty or the
milestone failed by itself. -/
theorem verdict_of_found {o : Object} (hop : r.operation = .read length offset)
    (hread : a.result = a.found.readResult a.job.key length offset)
    (hfind : a.found.find a.job.key = .ok o) (hfit : (o.slice offset length).size < 0x80000000) :
    a.verdict config r m =
      if (config.milestoneStatus r.oid m).isError then r.missed m (config.milestoneStatus r.oid m)
      else if (o.slice offset length).size = 0 then .failed (.of .emptyResult (.nothingRead r.oid))
      else .reached (some (o.slice offset length)) := by
  have hresult : a.result = .ofSize (o.slice offset length).size := by
    rw [hread, Store.readResult, hfind]
  have hkind : r.kind = .read := by rw [Request.kind, hop]; rfl
  have hbytes : a.bytes r = o.slice offset length := by
    rw [bytes, hresult, Status.toSize_ofSize hfit, Store.readContent, hfind, Request.length, hop]
    refine Buffer.materialize_fill ?_
    rw [Buffer.capacity, Bytes.size_zeros]
    rw [Object.size_slice, Object.length_part]
    exact Nat.min_le_left ..
  rw [verdict, hbytes, Request.verdict, hresult, Status.isError_ofSize hfit,
    Status.toSize_ofSize hfit, if_neg Bool.false_ne_true, if_pos hkind]

end Application

/-- What a milestone of a read may turn out as, after the read found an object or none. `failed`
says whether the milestone was laid down to fail. -/
structure Outcome.IsOfRead (o : Outcome) (found : Except Status Object) (length offset : Nat)
    (failed : Bool) : Prop where
  payload : ∀ payload, o = .reached payload → ∃ obj, found = .ok obj ∧
    payload.map (·.data.toList) = some (obj.part offset length)
  reached : failed = false → ∀ obj, found = .ok obj → obj.part offset length ≠ [] →
    ∃ payload, o = .reached payload
  empty : failed = false → ((∃ e, o = .failed e ∧ e.kind = .emptyResult) ↔
    ∃ obj, found = .ok obj ∧ obj.part offset length = [])
  missing : failed = false → ((∃ e, o = .failed e ∧ e.status? = some .noEntry) ↔
    ∀ obj, found ≠ .ok obj)

namespace Application

variable {a : Application} {r : Request} {config : InMemoryConfig} {m : Milestone}
  {length offset : Nat}

theorem kind_ne_of_missed {status : Status} {e : Failure}
    (h : r.missed m status = .failed e) : e.kind ≠ .emptyResult := by
  cases h
  cases m <;> exact nofun

/-- The verdict on a read that found no object. -/
theorem isOfRead_of_missing (hread : a.result = a.found.readResult a.job.key length offset)
    (hfind : ∀ obj, a.found.find a.job.key ≠ .ok obj) :
    (a.verdict config r m).IsOfRead (a.found.find a.job.key) length offset
      (config.milestoneStatus r.oid m).isError := by
  rw [verdict_of_missing hread hfind]
  constructor
  case payload =>
    intro payload hp
    split at hp <;> cases hp
  case reached =>
    intro _ obj hobj
    exact absurd hobj (hfind obj)
  case empty =>
    intro hfailed
    rw [hfailed]
    refine iff_of_false ?_ fun ⟨obj, hobj, _⟩ => hfind obj hobj
    rintro ⟨e, he, hkind⟩
    exact kind_ne_of_missed he hkind
  case missing =>
    intro hfailed
    rw [hfailed]
    exact iff_of_true ⟨_, rfl, rfl⟩ hfind

/-- The verdict on a read that found an object. -/
theorem isOfRead_of_found {obj : Object} (hop : r.operation = .read length offset)
    (hread : a.result = a.found.readResult a.job.key length offset)
    (hfind : a.found.find a.job.key = .ok obj)
    (hfit : (obj.part offset length).length < 0x80000000) :
    (a.verdict config r m).IsOfRead (a.found.find a.job.key) length offset
      (config.milestoneStatus r.oid m).isError := by
  have hempty : (obj.slice offset length).size = 0 ↔ obj.part offset length = [] := by
    rw [Object.size_slice, List.length_eq_zero_iff]
  rw [← Object.size_slice] at hfit
  rw [verdict_of_found hop hread hfind hfit, hfind]
  constructor
  case payload =>
    intro payload hp
    split at hp
    · cases hp
    · split at hp
      · cases hp
      · cases hp
        exact ⟨obj, rfl, congrArg some Object.toList_slice⟩
  case reached =>
    intro hfailed obj' hobj hne
    cases hobj
    rw [hfailed, if_neg Bool.false_ne_true, if_neg (hempty.not.mpr hne)]
    exact ⟨_, rfl⟩
  case empty =>
    intro hfailed
    rw [hfailed, if_neg Bool.false_ne_true]
    constructor
    · rintro ⟨e, he, -⟩
      by_cases hzero : (obj.slice offset length).size = 0
      · exact ⟨obj, rfl, hempty.mp hzero⟩
      · rw [if_neg hzero] at he
        cases he
    · rintro ⟨obj', hobj, hnil⟩
      cases hobj
      exact ⟨_, if_pos (hempty.mpr hnil), rfl⟩
  case missing =>
    intro hfailed
    rw [hfailed, if_neg Bool.false_ne_true]
    refine iff_of_false ?_ fun hnone => hnone obj rfl
    rintro ⟨e, he, hstatus⟩
    split at he
    · cases he
      cases hstatus
    · cases he

/-- **The verdict on a read is such an outcome.** -/
theorem isOfRead_verdict (hop : r.operation = .read length offset)
    (hread : a.result = a.found.readResult a.job.key length offset)
    (hfit : ∀ obj, a.found.find a.job.key = .ok obj →
      (obj.part offset length).length < 0x80000000) :
    (a.verdict config r m).IsOfRead (a.found.find a.job.key) length offset
      (config.milestoneStatus r.oid m).isError := by
  cases hfind : a.found.find a.job.key with
  | error status =>
    have hmissing : ∀ obj, a.found.find a.job.key ≠ .ok obj := by
      intro obj hobj
      cases hfind.symm.trans hobj
    exact hfind ▸ isOfRead_of_missing hread hmissing
  | ok obj => exact hfind ▸ isOfRead_of_found hop hread hfind (hfit obj hfind)

end Application

/-! ## Deliveries -/

/-- A call tells one outcome. -/
theorem Task.Notifies.outcome_ext {t : Task} {thread thread' : String} {m n : Milestone}
    {o o' : Outcome} {x : Invocation} (h : t.Notifies thread m o x)
    (h' : t.Notifies thread' n o' x) : o = o' := by
  have ho := h.outcome
  have ho' := h'.outcome
  cases o with
  | reached payload =>
    cases o' with
    | reached payload' => rw [← ho.2.2.1, ← ho'.2.2.1]
    | failed e => cases ho.2.2.2.symm.trans ho'.2.2.2
  | failed e =>
    cases o' with
    | reached payload => cases ho.2.2.2.symm.trans ho'.2.2.2
    | failed e' => rw [Option.some.inj (ho.2.2.2.symm.trans ho'.2.2.2)]

namespace Flight

/-- The outcome of a milestone was delivered to the owner: to a callback or by the future. -/
inductive Delivers (f : Flight) (m : Milestone) (o : Outcome) : Prop
  | called {x : Invocation} (hx : x ∈ f.calls m)
      (hn : f.task.Notifies (f.task.waiterThread m) m o x)
  | answered (hf : f.futures.get m = some o) (hl : o ≠ .lost)

variable {f : Flight} {G : Grounds} {m : Milestone} {o : Outcome} {x : Invocation}

namespace Told

variable {p : WaiterPhase}

theorem of_mem_calls (ht : f.Told G m p) (hx : x ∈ f.calls m) :
    ∃ o, G.outcome m o ∧ f.task.Notifies (f.task.waiterThread m) m o x := by
  cases ht with
  | waiting hn | copying _ hn | ready _ hn | recorded _ hn => rw [hn.1] at hx; cases hx
  | notified hg hc | counted hg hc | raised hg hc | answered hg hc | abandoned hg hc | lost hg hc =>
    rw [hc.calls, Option.mem_toList] at hx
    exact ⟨_, hg, notifies_of_invocation? hx⟩

theorem of_futures (ht : f.Told G m p) (hf : f.futures.get m = some o) (hl : o ≠ .lost) :
    G.outcome m o := by
  cases ht with
  | waiting hn | copying _ hn | ready _ hn | recorded _ hn => cases hn.2.symm.trans hf
  | notified _ hc | counted _ hc | raised _ hc => cases hc.answered.symm.trans hf
  | answered hg hc =>
    cases hc.answered.symm.trans hf
    exact hg
  | abandoned _ hc | lost _ hc =>
    cases hc.answered.symm.trans hf
    exact absurd rfl hl

/-- What a waiter delivers rests on the grounds. -/
theorem of_delivers (ht : f.Told G m p) (hd : f.Delivers m o) : G.outcome m o := by
  cases hd with
  | called hx hn =>
    obtain ⟨o', hg, hn'⟩ := ht.of_mem_calls hx
    rwa [hn.outcome_ext hn']
  | answered hf hl => exact ht.of_futures hf hl

end Told

end Flight

namespace Run

variable {config : InMemoryConfig} {accounts : Nat} {h : History} {s : System InMemory}
  {i : FlightId} {f : Flight} {m : Milestone} {o : Outcome} {x : Issue}

/-- What is issued on behalf of a flight is about the object of its task. -/
theorem key_of_issue (hr : Run config accounts h s) (hf : s.flights[i]? = some f)
    (hx : x ∈ h.issuesOf i) : x.job.key = (f.task.pool, f.task.request.oid) := by
  obtain ⟨c, n, hj⟩ := hr.job?_of_issue hf hx
  obtain ⟨-, hpool, hoid, -⟩ := Task.of_job? hj
  rw [Job.key, hpool, hoid]

/-- A milestone is fired after the job was applied, and with its result. -/
theorem applied_of_fired (hr : Run config accounts h s) (hx : x ∈ h.issues) {status : Status}
    (hfired : (s.world.backend.completion x.job.completion).fired.get m = some status) :
    ∃ a ∈ h.applications, a.job = x.job ∧
      (s.world.backend.completion x.job.completion).returnValue = a.result := by
  obtain ⟨a, ha, hc, -, hvalue⟩ := hr.pipeline.of_fired hfired
  exact ⟨a, ha, (hr.job_of_completion hx ha hc).2, hvalue⟩

/-- What is delivered about an operation that was not refused is the verdict on the one application
of its job. -/
theorem verdict_of_delivers (hr : Run config accounts h s) (hf : s.flights[i]? = some f)
    (hx : x ∈ h.issuesOf i) (he : x.answer.isError = false) (hd : f.Delivers m o) :
    ∃ a, h.Applied i f.task.request a ∧ a.job = x.job ∧
      o = a.verdict config f.task.request m := by
  have hone := hr.issuesOf_eq hf hx
  rcases hr.told_of_accepted hf hx he with ⟨hcalls, hfutures⟩ | ⟨ht, -⟩
  · cases hd with
    | called hk => rw [Flight.calls, hcalls] at hk; cases hk
    | answered hans => rw [hfutures, PerMilestone.get_const] at hans; cases hans
  · obtain ⟨a, ha, rfl⟩ := (ht m).of_delivers hd
    have hissue := List.singleton_inj.mp (hone.symm.trans ha.issued)
    exact ⟨a, ha, by rw [hissue], rfl⟩

/-- **What the owner of a read is given.** Every call about a read that was not refused delivers
an outcome, and none says that a handle or a buffer is gone. Nothing is delivered and no milestone
fired before the read was applied, once, and both milestones have the result of that. If the
number of bytes fits into a status, what is delivered of a milestone is an outcome of a read that
found the object as it was then, whatever became of the object later. -/
theorem reads (hr : Run config accounts h s) (hf : s.flights[i]? = some f) {length offset : Nat}
    (hop : f.task.request.operation = .read length offset) (hx : x ∈ h.issuesOf i)
    (he : x.answer.isError = false) :
    x.job.key = (f.task.pool, f.task.request.oid) ∧
    (∀ k ∈ f.invocations, ∃ m o, f.Delivers m o ∧
      f.task.Notifies (f.task.waiterThread m) m o k) ∧
    (∀ m o, f.Delivers m o → ¬ o.IsGone) ∧
    ((∃ m, (s.world.backend.completion x.job.completion).fired.get m ≠ none) ∨
        (∃ m o, f.Delivers m o) →
      ∃ a ∈ h.applications, a.job = x.job ∧
        (∀ m, (s.world.backend.completion x.job.completion).fired.get m ≠ none →
          (s.world.backend.completion x.job.completion).returnValue = a.result) ∧
        ((∀ obj, a.found.find x.job.key = .ok obj →
            (obj.part offset length).length < 0x80000000) →
          ∀ m o, f.Delivers m o → o.IsOfRead (a.found.find x.job.key) length offset
            (config.milestoneStatus f.task.request.oid m).isError)) := by
  have hissue := (History.mem_issuesOf.mp hx).1
  have hkind : f.task.request.kind = .read := by rw [Request.kind, hop]; rfl
  refine ⟨hr.key_of_issue hf hx, fun k hk => ?_, fun m o hd => ?_, fun hseen => ?_⟩
  · obtain ⟨m, hmem⟩ := hr.exists_mem_calls hf hx he hk
    rcases hr.told_of_accepted hf hx he with ⟨hcalls, -⟩ | ⟨ht, -⟩
    · rw [hcalls] at hk
      cases hk
    · obtain ⟨o, -, hn⟩ := (ht m).of_mem_calls hmem
      exact ⟨m, o, .called hmem hn, hn⟩
  · obtain ⟨a, -, -, rfl⟩ := hr.verdict_of_delivers hf hx he hd
    exact Request.not_isGone_verdict
  · obtain ⟨a, ha, hjob⟩ : ∃ a ∈ h.applications, a.job = x.job := by
      rcases hseen with ⟨m, hfired⟩ | ⟨m, o, hd⟩
      · obtain ⟨status, hfired⟩ := Option.ne_none_iff_exists'.mp hfired
        obtain ⟨a, ha, hjob, -⟩ := hr.applied_of_fired hissue hfired
        exact ⟨a, ha, hjob⟩
      · obtain ⟨a, ha, hjob, -⟩ := hr.verdict_of_delivers hf hx he hd
        exact ⟨a, ha.applied, hjob⟩
    refine ⟨a, ha, hjob, fun m hfired => ?_, fun hfit m o hd => ?_⟩
    · obtain ⟨status, hfired⟩ := Option.ne_none_iff_exists'.mp hfired
      obtain ⟨a', ha', hjob', hvalue⟩ := hr.applied_of_fired hissue hfired
      rw [hvalue, hr.pipeline.application_ext ha ha' (by rw [hjob, hjob'])]
    · obtain ⟨a', ha', hjob', rfl⟩ := hr.verdict_of_delivers hf hx he hd
      obtain rfl := hr.pipeline.application_ext ha ha'.applied (by rw [hjob, hjob'])
      have hread := ha'.read hkind
      rw [Request.length, hop] at hread
      rw [← hjob] at hfit ⊢
      exact Application.isOfRead_verdict hop hread hfit

theorem reads_after_write :
    Run Sample.config 1 Sample.reached.1 Sample.reached.2 ∧
      ∃ f, Sample.reached.2.flights[1]? = some f ∧
        f.task.request.operation = .read 2 1 ∧
        ∃ a ∈ Sample.reached.1.applications, a.job.key = (1, "object") ∧
          ∀ m, f.Delivers m (.reached (some ⟨#[2, 3]⟩)) ∧
            (.reached (some ⟨#[2, 3]⟩) : Outcome).IsOfRead (a.found.find (1, "object")) 2 1
              false := by
  obtain ⟨f, hf, htask, hfutures⟩ := Sample.exists_reader
  have hop : f.task.request.operation = .read 2 1 := by rw [htask]; rfl
  have hd : ∀ m, f.Delivers m (.reached (some ⟨#[2, 3]⟩)) := fun m =>
    .answered (by rw [hfutures, PerMilestone.get_const]) nofun
  have hfits : ∀ a ∈ Sample.reached.1.applications, ∀ obj, a.found.find (1, "object") = .ok obj →
      (obj.part 1 2).length < 0x80000000 := by
    intro a _ obj _
    rw [Object.part, List.length_take]
    exact Nat.lt_of_le_of_lt (Nat.min_le_left ..) (by decide)
  obtain ⟨-, -, -, hread⟩ := reads Sample.run hf hop Sample.mem_issuesOf_reader rfl
  obtain ⟨a, ha, hjob, -, hreads⟩ := hread (.inr ⟨.complete, _, hd .complete⟩)
  refine ⟨Sample.run, f, hf, hop, a, ha, by rw [hjob]; rfl, fun m => ⟨hd m, ?_⟩⟩
  have hclean : (Sample.config.milestoneStatus f.task.request.oid m).isError = false := by
    rw [htask]
    cases m <;> decide
  exact hclean ▸ hreads (hfits a ha) m _ (hd m)

end Run

end Milepost
