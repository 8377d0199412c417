import Milepost.Proofs.Service.Answers

/-!
# What a flush waits for

A flush waits for the safe milestone of a job of its own, which does nothing. Milestones may be
fired safe first, so that milestone may come before the complete one of the same job; but the
worker does not begin with a job before it is done with the last, and so all that was taken before
the flush is done when the flush is answered.

* `InMemory.OnlyTouches`: what a flush leaves as it is.
* `InMemory.beginFlush_answer`: when a flush is refused.
* `Service.done_before`: what was taken before a job with a milestone fired is done.
* `Service.flushed`: what holds when a flush is answered.
-/

namespace Milepost

namespace InMemory

variable {b b' : InMemory} {shelf shelf' : Shelf} {job : Job} {c : CompletionId} {pool : PoolId}
  {status : Status}

/-- The job that the next step of the worker is for. -/
def due? (b : InMemory) : Option Job :=
  match b.worker with
  | .idle => b.queue.head?
  | .applied job _ | .halfway job _ => some job

/-- The second backend has the store, the counters and the completions of the first, all but one.
-/
structure OnlyTouches (c : CompletionId) (b b' : InMemory) : Prop where
  store : b'.store = b.store
  live : b'.live = b.live
  released : b'.released = b.released
  doubleReleases : b'.doubleReleases = b.doubleReleases
  others : ∀ d, d ≠ c → b'.completion d = b.completion d

namespace OnlyTouches

/-- To ask for a flush touches its own completion only. -/
theorem beginFlush (b : InMemory) (pool : PoolId) :
    OnlyTouches b.newCompletion.1 b (b.beginFlush pool).2 := by
  change OnlyTouches b.newCompletion.1 b
    (b.newCompletion.2.submit (.flush pool b.newCompletion.1)).2
  cases ha : b.newCompletion.2.accepts (.flush pool b.newCompletion.1) with
  | true =>
    have hother : ∀ d, d ≠ b.newCompletion.1 →
        (b.newCompletion.2.submit (.flush pool b.newCompletion.1)).2.completion d =
          b.completion d := by
      intro d hd
      rw [completion_submit ha, ← completion_newCompletion (b := b)]
      exact completion_onCompletion_of_ne (Ne.symm hd)
    rw [submit_of_accepts ha] at hother ⊢
    exact ⟨rfl, rfl, rfl, rfl, hother⟩
  | false =>
    rw [submit_of_not_accepts ha]
    exact ⟨rfl, rfl, rfl, rfl, fun _ _ => completion_newCompletion⟩

theorem fire (job : Job) (m : Milestone) (status : Status) (worker : Worker) :
    OnlyTouches job.completion b { b.fire job m status with worker } :=
  ⟨rfl, rfl, rfl, rfl, fun _ hd => completion_fire_of_ne (Ne.symm hd)⟩

/-- The steps of the worker for a job that leaves the store touch its completion only. -/
theorem step_of_store (hd : b.due? = some job)
    (hj : (applyJob b.now job b.store shelf).2.1 = b.store)
    (hs : b.step? shelf = some (b', shelf')) : OnlyTouches job.completion b b' := by
  unfold due? at hd
  unfold step? at hs
  cases hw : b.worker with
  | idle =>
    cases hq : b.queue with
    | nil => simp [hw, hq] at hs
    | cons first rest =>
      simp only [hw, hq, List.head?_cons, Option.some.injEq] at hs hd
      cases hs
      subst hd
      exact ⟨hj, rfl, rfl, rfl, fun _ _ => rfl⟩
  | applied | halfway =>
    simp only [hw, Option.some.injEq] at hs hd
    cases hs
    cases hd
    exact fire ..

/-- The steps of the worker for a flush touch the completion of the flush only. -/
theorem step (hd : b.due? = some job) (hj : job.action = .flush)
    (hs : b.step? shelf = some (b', shelf')) : OnlyTouches job.completion b b' :=
  step_of_store hd (by rw [applyJob, hj]) hs

theorem endFlush (h : b.endFlush? c = some (status, b')) : OnlyTouches c b b' := by
  obtain ⟨_, -, h⟩ := Option.map_eq_some_iff.mp h
  cases h
  exact ⟨rfl, rfl, rfl, rfl, fun _ hd => completion_onCompletion_of_ne (Ne.symm hd)⟩

end OnlyTouches

/-- What a job of a flush is answered: its completion is new. -/
theorem answer_flush (b : InMemory) (pool : PoolId) :
    (b.newCompletion.2.submit (.flush pool b.newCompletion.1)).1 =
      if b.isShutdown then .notConnected
      else
        match b.config.issueFaults[""]? with
        | some status => status
        | none => if b.store.hasPool pool then 0 else .noEntry := by
  have hnew : b.newCompletion.2.completion b.newCompletion.1 = {} :=
    completion_newCompletion.trans (completion_of_le (Nat.le_refl _))
  rw [answer_submit, Job.flush, hnew]
  change (if b.isShutdown then _ else match b.config.issueFaults[""]? with
    | some status => status
    | none => if !b.store.hasPool pool then _ else 0) = _
  cases b.store.hasPool pool <;> rfl

/-- **When a flush is refused.** What may refuse it is the backend that is shut down, an answer laid
down for the empty name, or the pool that is not there. -/
theorem beginFlush_answer (b : InMemory) (pool : PoolId) :
    (b.beginFlush pool).1 =
      if b.isShutdown then .done .notConnected
      else
        match b.config.issueFaults[""]? with
        | some status => if status.isError then .done status else .pending b.completions.size
        | none => if b.store.hasPool pool then .pending b.completions.size else .done .noEntry := by
  change (if (b.newCompletion.2.submit (.flush pool b.newCompletion.1)).1.isError then
    FlushAnswer.done (b.newCompletion.2.submit (.flush pool b.newCompletion.1)).1
    else .pending b.newCompletion.1) = _
  rw [answer_flush]
  split
  · rfl
  · cases b.config.issueFaults[""]? with
    | some status => rfl
    | none => cases b.store.hasPool pool <;> rfl

/-- A flush that is answered at once is refused, and leaves nothing but its completion. -/
theorem beginFlush_of_done (h : (b.beginFlush pool).1 = .done status) :
    status.isError = true ∧ (b.beginFlush pool).2 = b.newCompletion.2 := by
  simp only [InMemory.beginFlush] at h
  split at h
  · rename_i herr
    cases h
    exact ⟨herr, submit_of_isError herr⟩
  · cases h

end InMemory

namespace Service

variable {config : InMemoryConfig} {l l' : Ledger} {s t : InMemory × Shelf} {c : CompletionId}
  {m : Milestone} {status : Status} {job : Job}

/-- The job that the worker's next step is for was taken. -/
theorem mem_taken_of_due? (hs : Service config l s) (hd : s.1.due? = some job) :
    job ∈ l.taken := by
  have hp := hs.orderly.pipeline
  have hcurrent : ∀ status, s.1.worker.current? = some (job, status) → job ∈ l.taken := by
    intro status hw
    obtain ⟨a, ha, rfl, -⟩ := hp.current job status hw
    exact hp.mem_taken ha
  unfold InMemory.due? at hd
  cases hw : s.1.worker with
  | idle =>
    rw [hw] at hd
    rw [hp.taken]
    exact List.mem_append_right _ (List.mem_of_mem_head? hd)
  | applied | halfway =>
    rw [hw] at hd
    cases hd
    exact hcurrent _ (by rw [hw]; rfl)

/-- **What was taken before a job with a milestone fired is done.** -/
theorem done_before (hs : Service config l s) {before after : List Job}
    (ht : l.taken = before ++ job :: after)
    (hf : (s.1.completion job.completion).fired.get m ≠ none) {earlier : Job}
    (he : earlier ∈ before) (n : Milestone) :
    (s.1.completion earlier.completion).fired.get n ≠ none := by
  obtain ⟨done, rest, hsplit, hdone⟩ := hs.orderly.exists_done
  rcases List.append_eq_append_iff.mp (ht.symm.trans hsplit) with
    ⟨more, hmore, -⟩ | ⟨more, hmore, hrest⟩
  · refine hdone.done earlier ?_ n
    rw [hmore]
    exact List.mem_append_left _ he
  · cases more with
    | nil =>
      rw [List.append_nil] at hmore
      exact hdone.done earlier (hmore ▸ he) n
    | cons first more =>
      -- The job would come after the one under way, for which nothing is fired.
      refine absurd (hdone.later job ?_ m) hf
      rw [hrest]
      exact List.mem_append_right _ List.mem_cons_self

/-- What was taken before a job with a milestone fired has its statuses, and its result. -/
theorem applied_before (hs : Service config l s) {before after : List Job}
    (ht : l.taken = before ++ job :: after)
    (hf : (s.1.completion job.completion).fired.get m ≠ none) {first last : List Job}
    {earlier : Job} (he : before = first ++ earlier :: last) :
    (∀ n, (s.1.completion earlier.completion).fired.get n =
      some (config.milestoneStatus earlier.oid n)) ∧
    l.Applies config first earlier (s.1.completion earlier.completion).returnValue := by
  have hsplit : l.taken = first ++ earlier :: (last ++ job :: after) := by
    rw [ht, he, List.append_assoc, List.cons_append]
  have hmem : earlier ∈ before := he ▸ List.mem_append_right first List.mem_cons_self
  have hfired : ∀ n, ∃ status, (s.1.completion earlier.completion).fired.get n = some status :=
    fun n => Option.ne_none_iff_exists'.mp (hs.done_before ht hf hmem n)
  constructor
  · intro n
    obtain ⟨status, hn⟩ := hfired n
    rw [hn, (hs.fired_of_taken hsplit hn).1]
  · obtain ⟨status, hn⟩ := hfired .safe
    exact (hs.fired_of_taken hsplit hn).2

/-- As long as somebody waits for a flush, its completion is not released. -/
theorem resolution?_of_flushing (hs : Service config l s) (hc : c ∈ l.flushing) :
    (s.1.completion c).resolution? m = (s.1.completion c).fired.get m := by
  rw [Completion.resolution?, (hs.owned.flushing c hc).2.2]
  rfl

/-- What a flush hands over is taken if the flush is not refused. -/
theorem taken_beginFlush (hs : Service config l s)
    (hc : ∀ status, config.issueFaults[""]? = some status → status.isError = true)
    {pool : PoolId} (hb : (s.1.beginFlush pool).1 = .pending c) :
    c = s.1.newCompletion.1 ∧
      (l.after s (.beginFlush pool)).taken = l.taken ++ [.flush pool c] := by
  simp only [InMemory.beginFlush] at hb
  split at hb
  · cases hb
  · rename_i herr
    cases hb
    have haccepts : s.1.newCompletion.2.accepts (.flush pool s.1.newCompletion.1) = true := by
      by_contra ha
      rcases InMemory.answer_of_not_accepts (Bool.eq_false_iff.mpr ha) with he | hf
      · exact herr he
      · refine herr (hc _ ?_)
        rw [← hs.orderly.config]
        exact hf
    refine ⟨rfl, ?_⟩
    rw [History.taken, Ledger.after, Use.handsOver?, Option.map_some,
      InMemory.issueOf_of_accepts haccepts]
    simp [History.taken]

/-- **What holds when a flush is answered.** A flush is refused where the backend is shut down,
where a refusal is laid down for the empty name, and where there is no such pool; then it is
answered at once and changes nothing. Otherwise it is queued after all that was taken so far.
Neither asking for it, nor the worker's steps for it, nor its end touch the store, the counters or
another completion. When it is answered, and it is once the worker is at rest, all that was taken
before has both milestones fired and was applied to the store. -/
theorem flushed (hs : Service config l s)
    (hc : ∀ status, config.issueFaults[""]? = some status → status.isError = true)
    (pool : PoolId) :
    (s.1.beginFlush pool).1 =
        (if s.1.isShutdown then .done .notConnected
        else
          match config.issueFaults[""]? with
          | some status => .done status
          | none =>
            if s.1.store.hasPool pool then .pending s.1.completions.size else .done .noEntry) ∧
    (∀ status, (s.1.beginFlush pool).1 = .done status →
      status.isError = true ∧ (s.1.beginFlush pool).2 = s.1.newCompletion.2 ∧
        (s.1.beginFlush pool).2.queue = s.1.queue) ∧
    ∀ c, (s.1.beginFlush pool).1 = .pending c →
      (l.after s (.beginFlush pool)).taken = l.taken ++ [.flush pool c] ∧
      s.1.OnlyTouches c (s.1.beginFlush pool).2 ∧
      ∀ uses l' t, (l.after s (.beginFlush pool)).replay ((s.1.beginFlush pool).2, s.2) uses =
          some (l', t) →
        (∀ job b shelf, t.1.due? = some job → job.completion = c →
          t.1.step? t.2 = some (b, shelf) → t.1.OnlyTouches c b) ∧
        (t.1.worker = .idle → t.1.queue = [] → (t.1.endFlush? c).isSome = true) ∧
        ∀ status b, c ∈ l'.flushing → t.1.endFlush? c = some (status, b) →
          status = config.milestoneStatus "" .safe ∧ t.1.OnlyTouches c b ∧
          t.1.store = config.storeAfter l'.entries ∧
          ∀ before job after, l.taken = before ++ job :: after →
            (∀ m, (t.1.completion job.completion).fired.get m =
              some (config.milestoneStatus job.oid m)) ∧
            l'.Applies config before job (t.1.completion job.completion).returnValue := by
  refine ⟨?_, fun status hb => ?_, fun c hb => ?_⟩
  · rw [InMemory.beginFlush_answer, hs.orderly.config]
    split
    · rfl
    · cases hf : config.issueFaults[""]? with
      | some status => exact if_pos (hc status hf)
      | none => rfl
  · obtain ⟨herr, hleft⟩ := InMemory.beginFlush_of_done hb
    exact ⟨herr, hleft, InMemory.queue_beginFlush_of_done hb⟩
  · obtain ⟨rfl, htaken⟩ := hs.taken_beginFlush hc hb
    refine ⟨htaken, .beginFlush s.1 pool, fun uses l' t hu => ?_⟩
    obtain ⟨ht, hl⟩ := (hs.use (.beginFlush pool) rfl rfl).replay hu
    obtain ⟨more, hmore⟩ := hl.taken
    rw [htaken, List.append_assoc, List.singleton_append] at hmore
    have hflush : Job.flush pool s.1.newCompletion.1 ∈ l'.taken :=
      hmore ▸ List.mem_append_right _ List.mem_cons_self
    refine ⟨fun job b shelf hd hj hstep => ?_, fun hw hq => ?_, fun status b hmem he => ?_⟩
    · obtain rfl := ht.orderly.pipeline.job_ext (ht.mem_taken_of_due? hd) hflush hj
      exact .step hd rfl hstep
    · have hdone := (ht.done_at_rest hw hq hflush .safe).2
      rw [InMemory.endFlush?, Option.isSome_map]
      exact hdone
    · have hend := InMemory.OnlyTouches.endFlush he
      obtain ⟨status', hfired, he⟩ := Option.map_eq_some_iff.mp he
      cases he
      rw [ht.resolution?_of_flushing hmem] at hfired
      have hsafe : (t.1.completion (Job.flush pool s.1.newCompletion.1).completion).fired.get .safe
          ≠ none := by
        rw [Job.flush, hfired]
        nofun
      exact ⟨(ht.fired_of_taken hmore.symm hfired).1, hend, ht.tells.store,
        fun before job after hbefore => ht.applied_before hmore.symm hsafe hbefore⟩

end Service

/-! ## One flush

The service above is asked for a flush while one write is halfway and a removal waits. After six
steps of the worker the flush is safe, but not complete. -/

namespace Sample

theorem isSome_replay_flush :
    ((service.1.after service.2 (.beginFlush 1)).replay
      ((service.2.1.beginFlush 1).2, service.2.2) (.replicate 6 .work)).isSome = true := by
  decide +kernel

/-- The ledger and the state when the flush is safe. -/
@[irreducible]
def flushService : Ledger × InMemory × Shelf :=
  ((service.1.after service.2 (.beginFlush 1)).replay
    ((service.2.1.beginFlush 1).2, service.2.2) (.replicate 6 .work)).get isSome_replay_flush

theorem replay_flush :
    (service.1.after service.2 (.beginFlush 1)).replay
      ((service.2.1.beginFlush 1).2, service.2.2) (.replicate 6 .work) =
      some (flushService.1, flushService.2) := by
  unfold flushService
  exact (Option.some_get isSome_replay_flush).symm

end Sample

/-- When the flush is answered the removal is done, which failed to become safe. -/
theorem Service.flushed_halfway :
    (∀ status, Sample.safeFirst.issueFaults[""]? = some status → status.isError = true) ∧
      (Sample.service.2.1.beginFlush 1).1 = .pending 3 ∧
      (Sample.flushService.2.1.endFlush? 3).map (·.1) = some 0 ∧
      (Sample.flushService.2.1.completion 3).fired = ⟨none, some 0⟩ ∧
      ∀ m, (Sample.flushService.2.1.completion 2).fired.get m =
        some (Sample.safeFirst.milestoneStatus "second" m) := by
  have hrefuses : ∀ status, Sample.safeFirst.issueFaults[""]? = some status →
      status.isError = true := by
    intro status hf
    simp [Sample.safeFirst] at hf
  have hpending : (Sample.service.2.1.beginFlush 1).1 = .pending 3 := by decide +kernel
  have hwaiting : 3 ∈ Sample.flushService.1.flushing := by decide +kernel
  have hend : (Sample.flushService.2.1.endFlush? 3).map (·.1) = some 0 := by decide +kernel
  have htaken : Sample.service.1.taken =
      [⟨1, "first", .command (.edit (.append ⟨#[7]⟩)), 0⟩,
        ⟨1, "second", .command (.edit (.append ⟨#[8]⟩)), 1⟩] ++
      ⟨1, "second", .command (.edit .remove), 2⟩ :: [] := by
    decide +kernel
  obtain ⟨⟨status, b⟩, he, -⟩ := Option.map_eq_some_iff.mp hend
  obtain ⟨-, -, hanswered⟩ := (flushed Sample.isService hrefuses 1).2.2 3 hpending
  obtain ⟨-, -, hdone⟩ := hanswered _ _ _ Sample.replay_flush
  exact ⟨hrefuses, hpending, hend, by decide +kernel,
    ((hdone status b hwaiting he).2.2.2 _ _ _ htaken).1⟩

end Milepost
