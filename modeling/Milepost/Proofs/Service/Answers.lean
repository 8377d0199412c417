import Milepost.Proofs.Service.Order

/-!
# What an answer promises

An operation that is not refused was put into the queue, unless an answer that is no refusal was
laid down for its object: such an operation is reported as issued and nothing becomes of it. The
worker comes to rest after so many steps as are left, and then all that was queued is done, so that
nobody waits for it any more.

* `Service.answers`: which answers there are.
* `Ledger.exists_rest`: the worker comes to rest.
* `Service.issued_is_done`: what was reported as issued is queued and gets done.
* `Service.issued_and_lost`: unless it got an answer that was laid down.
-/

namespace Milepost

variable {config : InMemoryConfig} {l : Ledger} {s t : InMemory × Shelf}

/-- Nobody waits for a milestone that is fired. -/
theorem Completion.isSome_resolution? {c : Completion} {m : Milestone} {status : Status}
    (h : c.fired.get m = some status) : (c.resolution? m).isSome = true := by
  rw [resolution?, h]
  split <;> rfl

/-- The backend that gets a job is laid down like the one that the use is made of. -/
theorem Use.config_of_handsOver? {u : Use} {job : Job} {b : InMemory}
    (hj : u.handsOver? s.1 = some (job, b)) : b.config = s.1.config := by
  cases u with
  | issue | beginFlush => cases hj; rfl
  | createCompletion | release | endFlush | call | shutdown | clock | buffers | work => cases hj

/-- **The worker comes to rest** when it has made the steps that are left. -/
theorem Ledger.exists_rest (l : Ledger) (s : InMemory × Shelf) :
    ∃ l' t, l.replay s (.replicate s.1.pendingSteps .work) = some (l', t) ∧
      t.1.worker = .idle ∧ t.1.queue = [] := by
  generalize hn : s.1.pendingSteps = n
  induction n generalizing l s with
  | zero =>
    refine ⟨l, s, rfl, (InMemory.step?_eq_none_iff s.1 s.2).mp ?_⟩
    cases hstep : s.1.step? s.2 with
    | none => rfl
    | some t =>
      have hpending := InMemory.pendingSteps_step hstep
      omega
  | succ n ih =>
    cases hstep : s.1.step? s.2 with
    | none =>
      obtain ⟨hw, hq⟩ := (InMemory.step?_eq_none_iff s.1 s.2).mp hstep
      simp [InMemory.pendingSteps, InMemory.Worker.pendingSteps, hw, hq] at hn
    | some t =>
      have hpending := InMemory.pendingSteps_step hstep
      obtain ⟨l', t', hreplay, hrest⟩ := ih (l.after s .work) t (by omega)
      refine ⟨l', t', ?_, hrest⟩
      rw [List.replicate_succ, replay, if_pos (show Use.isFair l .work = true from rfl), Use.next?,
        hstep]
      exact hreplay

namespace Service

/-- **Which answers there are.** What is handed over is queued, or refused, or gets the answer that
was laid down for its object. -/
theorem answers (hs : Service config l s) {x : Issue} (hx : x ∈ l.issues) :
    x.queued = true ∨ x.answer.isError = true ∨
      config.issueFaults[x.job.oid]? = some x.answer := by
  refine hs.invariant (P := fun l _ => ∀ x ∈ l.issues, x.queued = true ∨
    x.answer.isError = true ∨ config.issueFaults[x.job.oid]? = some x.answer) (fun _ => nofun) ?_
    x hx
  intro l s t u hs ih _ _ x hx
  rcases List.mem_append.mp hx with hx | hx
  · exact ih x hx
  · obtain ⟨⟨job, b⟩, hj, rfl⟩ := Option.map_eq_some_iff.mp (Option.mem_toList.mp hx)
    cases ha : b.accepts job with
    | true => exact .inl ha
    | false =>
      have hanswer := InMemory.answer_of_not_accepts ha
      rw [u.config_of_handsOver? hj, hs.orderly.config] at hanswer
      exact .inr hanswer

/-- What was taken is done when the worker is at rest, and nobody waits for it. -/
theorem done_at_rest (hs : Service config l s) (hw : s.1.worker = .idle) (hq : s.1.queue = [])
    {job : Job} (hj : job ∈ l.taken) (m : Milestone) :
    (s.1.completion job.completion).fired.get m = some (config.milestoneStatus job.oid m) ∧
      ((s.1.completion job.completion).resolution? m).isSome = true := by
  have hfired := hs.orderly.pipeline.fired_of_idle hw hq hj m
  rw [InMemory.milestoneStatus, hs.orderly.config] at hfired
  exact ⟨hfired, Completion.isSome_resolution? hfired⟩

/-- **What is reported as issued is queued and gets done.** An operation that got an answer other
than a refusal, and no answer that was laid down for its object, is in the queue or was; when the
worker is at rest both its milestones are fired and nobody waits for them; and the worker comes to
rest by its own steps, whatever was done before. -/
theorem issued_is_done (hs : Service config l s) {x : Issue} (hx : x ∈ l.issues)
    (ha : x.answer.isError = false)
    (hc : ∀ status, config.issueFaults[x.job.oid]? = some status → status.isError = true) :
    (x.queued = true ∧ x.job ∈ l.taken) ∧
    (s.1.worker = .idle → s.1.queue = [] → ∀ m,
      (s.1.completion x.job.completion).fired.get m =
          some (config.milestoneStatus x.job.oid m) ∧
        ((s.1.completion x.job.completion).resolution? m).isSome = true) ∧
    ∃ l' t, l.replay s (.replicate s.1.pendingSteps .work) = some (l', t) ∧
      (t.1.worker = .idle ∧ t.1.queue = []) ∧ ∀ m,
        (t.1.completion x.job.completion).fired.get m =
            some (config.milestoneStatus x.job.oid m) ∧
          ((t.1.completion x.job.completion).resolution? m).isSome = true := by
  have hqueued : x.queued = true := by
    rcases hs.answers hx with hq | he | hf
    · exact hq
    · exact absurd (he.symm.trans ha) nofun
    · exact absurd ((hc _ hf).symm.trans ha) nofun
  have hmem := History.mem_taken_of_queued hx hqueued
  refine ⟨⟨hqueued, hmem⟩, fun hw hq => hs.done_at_rest hw hq hmem, ?_⟩
  obtain ⟨l', t, hu, hw, hq⟩ := l.exists_rest s
  obtain ⟨ht, hl⟩ := hs.replay hu
  exact ⟨l', t, hu, ⟨hw, hq⟩, ht.done_at_rest hw hq (hl.taken.subset hmem)⟩

end Service

/-! ## Two services

In the service above the operations that were not refused are queued. In another an answer that is
no refusal is laid down: the operation is reported as issued, and the worker has nothing to do. -/

/-- The second write above is done once the worker is at rest. -/
theorem Service.issued_is_done_halfway :
    ∃ x ∈ Sample.service.1.issues, x.answer.isError = false ∧ x.job.completion = 1 ∧
      x.job ∈ Sample.service.1.taken ∧
      ∃ l' t, Sample.service.1.replay Sample.service.2
          (.replicate Sample.service.2.1.pendingSteps .work) = some (l', t) ∧
        ((t.1.completion 1).resolution? .complete).isSome = true := by
  have hmem : (⟨1, ⟨1, "second", .command (.edit (.append ⟨#[8]⟩)), 1⟩, 0, true⟩ : Issue) ∈
      Sample.service.1.issues := by
    decide +kernel
  obtain ⟨⟨-, htaken⟩, -, l', t, hu, -, hdone⟩ := issued_is_done Sample.isService hmem rfl <| by
    intro status hf
    simp [Sample.safeFirst] at hf
  exact ⟨_, hmem, rfl, rfl, htaken, l', t, hu, (hdone .complete).2⟩

namespace Sample

def careless : InMemoryConfig where
  pools := ["data"]
  issueFaults := (∅ : Std.ExtTreeMap String Status).insert "foo" 0

def lost : List Use :=
  [.createCompletion, .issue 1 "foo" 0 (.edit (.writeFull ⟨#[7]⟩))]

theorem isSome_replay_lost :
    (Ledger.replay {} (.ofConfig careless, {}) lost).isSome = true := by
  decide +kernel

/-- The ledger and the state after these uses. -/
@[irreducible]
def lostService : Ledger × InMemory × Shelf :=
  (Ledger.replay {} (.ofConfig careless, {}) lost).get isSome_replay_lost

theorem isService_lost : Service careless lostService.1 lostService.2 := by
  unfold lostService
  exact Service.replay_get isSome_replay_lost

end Sample

/-- **What is reported as issued may be lost.** The one operation got an answer that is no refusal,
but it is not queued: the worker is at rest, and both milestones are awaited forever. -/
theorem Service.issued_and_lost :
    ∃ (config : InMemoryConfig) (l : Ledger) (s : InMemory × Shelf), Service config l s ∧
      (s.1.worker = .idle ∧ s.1.queue = []) ∧
      ∃ x ∈ l.issues, x.answer.isError = false ∧ x.queued = false ∧ x.job ∉ l.taken ∧
        ∀ m, (s.1.completion x.job.completion).fired.get m = none ∧
          (s.1.completion x.job.completion).resolution? m = none := by
  refine ⟨Sample.careless, _, _, Sample.isService_lost, by decide +kernel,
    ⟨0, ⟨1, "foo", .command (.edit (.writeFull ⟨#[7]⟩)), 0⟩, 0, false⟩, by decide +kernel, rfl, rfl,
    by decide +kernel, ?_⟩
  intro m
  cases m <;> decide +kernel

end Milepost
