import Mathlib.Data.List.Nodup
import Milepost.Proofs.Custody

/-!
# What becomes of a job

A job that the backend took is queued, applied once and in order, and then both its milestones
are fired with the statuses laid down for its object and with the result of its application.
`Pipeline` says this of a history and a state; every operation of the backend preserves it.

* `Run.pipeline`: it holds in every state of a run.
* `Pipeline.of_fired`: whoever sees a milestone fired sees the result of the one application.
* `Pipeline.fired_of_idle`: when the worker has nothing to do, every job taken is done.
-/

namespace Milepost

/-- Whether the worker is at the job of the completion and has yet to fire the milestone. -/
def Worker.owes (order : MilestoneOrder) (c : CompletionId) (m : Milestone) : Worker → Bool
  | idle => false
  | applied job _ => job.completion == c
  | halfway job _ => job.completion == c && m == order.second

theorem Worker.owes_of_ne {order : MilestoneOrder} {c : CompletionId} {m : Milestone}
    {worker : Worker} (h : ∀ p, worker.current? = some p → p.1.completion ≠ c) :
    worker.owes order c m = false := by
  cases worker with
  | idle => rfl
  | applied job status => exact beq_eq_false_iff_ne.mpr (h _ rfl)
  | halfway job status =>
    rw [owes, beq_eq_false_iff_ne.mpr (h _ rfl)]
    rfl

/-- What the backend took is applied in order, and fired after that. -/
structure Pipeline (h : History) (b : InMemory) : Prop where
  taken : h.taken = h.applications.map (·.job) ++ b.queue
  distinct : (h.taken.map (·.completion)).Nodup
  issued : ∀ c, (b.completion c).issued = true ↔ c ∈ h.taken.map (·.completion)
  current : ∀ job status, b.worker.current? = some (job, status) →
    ∃ a ∈ h.applications, a.job = job ∧ a.result = status
  fired : ∀ a ∈ h.applications, ∀ m,
    b.worker.owes b.config.order a.job.completion m = false →
      (b.completion a.job.completion).fired.get m = some (b.milestoneStatus a.job.oid m) ∧
        (b.completion a.job.completion).returnValue = a.result
  unfired : ∀ c m, (b.completion c).fired.get m ≠ none →
    b.worker.owes b.config.order c m = false ∧ ∃ a ∈ h.applications, a.job.completion = c

namespace Pipeline

variable {h : History} {b b' : InMemory} {job : Job} {rest : List Job} {status : Status}

theorem start (config : InMemoryConfig) : Pipeline {} (.ofConfig config) where
  taken := rfl
  distinct := List.nodup_nil
  issued c := by simp [InMemory.completion, InMemory.ofConfig, History.taken]
  current _ _ hw := by cases hw
  fired a ha := by cases ha
  unfired c m hf := by simp [InMemory.completion, InMemory.ofConfig] at hf

/-- Two applications for one completion are one. -/
theorem application_ext (hp : Pipeline h b) {a a' : Application} (ha : a ∈ h.applications)
    (ha' : a' ∈ h.applications) (hc : a.job.completion = a'.job.completion) : a = a' := by
  have hd := hp.distinct
  rw [hp.taken, List.map_append, List.map_map] at hd
  exact List.inj_on_of_nodup_map hd.of_append_left ha ha' hc

/-- What is queued is not applied. -/
theorem completion_ne_of_mem_queue (hp : Pipeline h b) {a : Application}
    (ha : a ∈ h.applications) (hj : job ∈ b.queue) : a.job.completion ≠ job.completion := by
  have hd := hp.distinct
  rw [hp.taken, List.map_append] at hd
  exact (List.nodup_append.mp hd).2.2 _ (List.mem_map.mpr ⟨a.job, List.mem_map_of_mem ha, rfl⟩) _
    (List.mem_map_of_mem hj)

/-- What leaves the jobs alone preserves it. -/
theorem sameJobs (hp : Pipeline h b) (hs : b.SameJobs b') : Pipeline h b' where
  taken := by rw [hs.queue]; exact hp.taken
  distinct := hp.distinct
  issued c := by rw [hs.issued]; exact hp.issued c
  current := by rw [hs.worker]; exact hp.current
  fired := by
    simp only [hs.config, hs.worker, hs.fired, hs.returnValue, InMemory.milestoneStatus]
    exact hp.fired
  unfired := by
    simp only [hs.config, hs.worker, hs.fired]
    exact hp.unfired

/-- A job that the backend takes is queued with a completion that had none. -/
theorem submit (hp : Pipeline h b) (ha : b.accepts job = true)
    (hc : job.completion < b.completions.size) {i : FlightId} :
    Pipeline { h with issues := h.issues ++ [⟨i, job, 0, true⟩] } (b.submit job).2 := by
  have hnew : job.completion ∉ h.taken.map (·.completion) := by
    intro hm
    have hi := (hp.issued _).mpr hm
    simp [InMemory.accepts, hi] at ha
  have htaken : History.taken { h with issues := h.issues ++ [⟨i, job, 0, true⟩] } =
      h.taken ++ [job] := h.taken_append _ _
  have hcompletion := fun d => InMemory.completion_submit (d := d) ha
  have hprogress : ∀ d, ((b.submit job).2.completion d).fired = (b.completion d).fired ∧
      ((b.submit job).2.completion d).returnValue = (b.completion d).returnValue := by
    intro d
    rw [hcompletion]
    by_cases hd : job.completion = d
    · rw [← hd, InMemory.completion_onCompletion_self hc]
      exact ⟨rfl, rfl⟩
    · rw [InMemory.completion_onCompletion_of_ne hd]
      exact ⟨rfl, rfl⟩
  rw [InMemory.submit_of_accepts ha] at hprogress hcompletion ⊢
  constructor
  case taken => rw [htaken, hp.taken, List.append_assoc]
  case distinct =>
    rw [htaken, List.map_append, List.nodup_append]
    refine ⟨hp.distinct, List.nodup_singleton _, ?_⟩
    intro x hx y hy hxy
    rw [List.map_singleton, List.mem_singleton] at hy
    exact hnew (hy ▸ hxy ▸ hx)
  case issued =>
    intro d
    rw [hcompletion, htaken, List.map_append, List.mem_append, List.map_singleton,
      List.mem_singleton]
    by_cases hd : job.completion = d
    · rw [← hd, InMemory.completion_onCompletion_self hc]
      exact iff_of_true rfl (.inr rfl)
    · rw [InMemory.completion_onCompletion_of_ne hd, hp.issued]
      exact (or_iff_left (Ne.symm hd)).symm
  case current => exact hp.current
  case fired =>
    intro a ha' m hm
    rw [(hprogress _).1, (hprogress _).2]
    exact hp.fired a ha' m hm
  case unfired =>
    intro d m hm
    rw [(hprogress d).1] at hm
    exact hp.unfired d m hm

/-- The worker applies the oldest job. -/
theorem apply (hp : Pipeline h b) (hw : b.worker = .idle) (hq : b.queue = job :: rest)
    (shelf : Shelf) :
    Pipeline { h with applications := h.applications ++ (b.application? shelf).toList }
      (b.applyNext job rest shelf).1 := by
  have hmem : job ∈ b.queue := hq ▸ List.mem_cons_self
  rw [InMemory.application?, hw, hq]
  constructor
  case taken =>
    simp only [InMemory.applyNext, List.map_append, Option.toList_some, List.map_singleton,
      List.append_assoc, List.singleton_append]
    rw [← hq]
    exact hp.taken
  case distinct => exact hp.distinct
  case issued => exact hp.issued
  case current =>
    intro job' status hc
    cases hc
    exact ⟨_, List.mem_append_right _ List.mem_cons_self, rfl, rfl⟩
  case fired =>
    intro a ha m hm
    rcases List.mem_append.mp ha with ha | ha
    · exact hp.fired a ha m (by rw [hw]; rfl)
    · obtain rfl := List.mem_singleton.mp ha
      simp [InMemory.applyNext, Worker.owes] at hm
  case unfired =>
    -- What was fired before belongs to another job than the one that leaves the queue now.
    intro d m hm
    obtain ⟨-, a, ha, rfl⟩ := hp.unfired d m hm
    refine ⟨?_, a, List.mem_append_left _ ha, rfl⟩
    exact beq_eq_false_iff_ne.mpr (hp.completion_ne_of_mem_queue ha hmem).symm

/-- The worker fires a milestone of its job, and owes it no more. -/
theorem fire (hp : Pipeline h b) (hw : b.worker.current? = some (job, status)) {m : Milestone}
    {worker : Worker} (hcurrent : ∀ p, worker.current? = some p → p = (job, status))
    (howes : ∀ n, worker.owes b.config.order job.completion n
      = (b.worker.owes b.config.order job.completion n && n != m)) :
    Pipeline h { b.fire job m status with worker } := by
  obtain ⟨a₀, ha₀, rfl, rfl⟩ := hp.current _ _ hw
  have hmem : a₀.job ∈ h.taken := by
    rw [hp.taken]
    exact List.mem_append_left _ (List.mem_map_of_mem ha₀)
  have hc := InMemory.lt_size_of_issued ((hp.issued _).mpr (List.mem_map_of_mem hmem))
  have hself := InMemory.completion_fire_self (m := m) (r := a₀.result) hc
  have hother : ∀ {d n}, a₀.job.completion ≠ d → worker.owes b.config.order d n = false ∧
      b.worker.owes b.config.order d n = false := by
    intro d n hd
    constructor
    · refine Worker.owes_of_ne fun p hp => ?_
      rw [hcurrent p hp]
      exact hd
    · refine Worker.owes_of_ne fun p hp => ?_
      cases hw.symm.trans hp
      exact hd
  constructor
  case taken => exact hp.taken
  case distinct => exact hp.distinct
  case issued =>
    intro d
    change ((b.fire a₀.job m a₀.result).completion d).issued = true ↔ _
    by_cases hd : a₀.job.completion = d
    · rw [← hd, hself]
      exact hp.issued _
    · rw [InMemory.completion_fire_of_ne hd]
      exact hp.issued d
  case current =>
    intro job status hj
    cases hcurrent _ hj
    exact ⟨a₀, ha₀, rfl, rfl⟩
  case fired =>
    intro a ha n hn
    change ((b.fire a₀.job m a₀.result).completion a.job.completion).fired.get n = _ ∧
      ((b.fire a₀.job m a₀.result).completion a.job.completion).returnValue = _
    by_cases hd : a₀.job.completion = a.job.completion
    · -- The worker is at this job: the milestone is the one fired now, or was fired before.
      obtain rfl := hp.application_ext ha₀ ha hd
      rw [hself, Completion.fire, PerMilestone.get_set]
      refine ⟨?_, rfl⟩
      by_cases hmn : m = n
      · rw [if_pos hmn, hmn]
        rfl
      · have hn' := (howes n).symm.trans hn
        rw [Bool.and_eq_false_iff, bne_eq_false_iff_eq] at hn'
        rw [if_neg hmn]
        exact (hp.fired a₀ ha n (hn'.resolve_right (Ne.symm hmn))).1
    · rw [InMemory.completion_fire_of_ne hd]
      exact hp.fired a ha n (hother hd).2
  case unfired =>
    intro d n hn
    change ((b.fire a₀.job m a₀.result).completion d).fired.get n ≠ none at hn
    by_cases hd : a₀.job.completion = d
    · subst hd
      refine ⟨(howes n).trans ?_, a₀, ha₀, rfl⟩
      rw [Bool.and_eq_false_iff, bne_eq_false_iff_eq]
      by_cases hmn : m = n
      · exact .inr hmn.symm
      · rw [hself, Completion.fire, PerMilestone.get_set, if_neg hmn] at hn
        exact .inl (hp.unfired _ n hn).1
    · rw [InMemory.completion_fire_of_ne hd] at hn
      exact ⟨(hother hd).1, (hp.unfired d n hn).2⟩

/-- **Every step of the worker preserves it.** -/
theorem work (hp : Pipeline h b) {shelf shelf' : Shelf} (hs : b.step? shelf = some (b', shelf')) :
    Pipeline { h with applications := h.applications ++ (b.application? shelf).toList } b' := by
  unfold InMemory.step? at hs
  cases hw : b.worker with
  | idle =>
    cases hq : b.queue with
    | nil => simp [hw, hq] at hs
    | cons job rest =>
      simp only [hw, hq, Option.some.injEq] at hs
      rw [← (Prod.mk.inj hs).1]
      exact hp.apply hw hq shelf
  | applied job status =>
    simp only [hw, Option.some.injEq] at hs
    cases hs
    rw [InMemory.application?, hw, Option.toList_none, List.append_nil]
    refine hp.fire (by rw [hw]; rfl) (fun p hp => (Option.some.inj hp).symm) fun n => ?_
    rw [hw]
    cases b.config.order <;> cases n <;>
      simp [Worker.owes, MilestoneOrder.first, MilestoneOrder.second]
  | halfway job status =>
    simp only [hw, Option.some.injEq] at hs
    cases hs
    rw [InMemory.application?, hw, Option.toList_none, List.append_nil]
    refine hp.fire (by rw [hw]; rfl) (fun p hp => nomatch hp) fun n => ?_
    rw [hw]
    simp [Worker.owes]

/-! ## What can be told from it -/

/-- **Whoever sees a milestone fired sees the result of the one application.** -/
theorem of_fired (hp : Pipeline h b) {c : CompletionId} {m : Milestone}
    (hf : (b.completion c).fired.get m = some status) :
    ∃ a ∈ h.applications, a.job.completion = c ∧ status = b.milestoneStatus a.job.oid m ∧
      (b.completion c).returnValue = a.result := by
  obtain ⟨howes, a, ha, rfl⟩ := hp.unfired c m (by rw [hf]; nofun)
  obtain ⟨hfired, hvalue⟩ := hp.fired a ha m howes
  exact ⟨a, ha, rfl, Option.some.inj (hf.symm.trans hfired), hvalue⟩

/-- When the worker has nothing to do, every job taken is done. -/
theorem fired_of_idle (hp : Pipeline h b) (hw : b.worker = .idle) (hq : b.queue = [])
    (hj : job ∈ h.taken) (m : Milestone) :
    (b.completion job.completion).fired.get m = some (b.milestoneStatus job.oid m) := by
  rw [hp.taken, hq, List.append_nil] at hj
  obtain ⟨a, ha, rfl⟩ := List.mem_map.mp hj
  exact (hp.fired a ha m (by rw [hw]; rfl)).1

end Pipeline

/-! ## Along a run -/

namespace Pipeline

variable {h : History} {i : FlightId} {f g : Flight} {w w' : World InMemory}

/-- What neither takes nor applies a job preserves it. -/
theorem congr {h' : History} {b : InMemory} (hp : Pipeline h b) (ht : h'.taken = h.taken)
    (ha : h'.applications = h.applications) : Pipeline h' b where
  taken := by rw [ht, ha]; exact hp.taken
  distinct := by rw [ht]; exact hp.distinct
  issued := by rw [ht]; exact hp.issued
  current := by rw [ha]; exact hp.current
  fired := by rw [ha]; exact hp.fired
  unfired := by rw [ha]; exact hp.unfired

/-- Whatever a flight does preserves it. -/
theorem deed (hp : Pipeline h w.backend) (hm : f.Deed w g w')
    (held : ∀ c, f.native? = some c →
      c < w.backend.completions.size ∧ (w.backend.completion c).released = false) :
    Pipeline (h.sent i f w) w'.backend := by
  cases hm with
  | quiet hb _ hj => rw [h.sent_of_none hj, hb]; exact hp
  | make _ hb _ hj => rw [h.sent_of_none hj, hb]; exact hp.sameJobs (.createCompletion _)
  | @take c job hb _ hj ha hc hf =>
    obtain ⟨command, -, rfl⟩ := Option.map_eq_some_iff.mp hc
    have hpipe := hp.submit (i := i) ha (held c hf).1
    rw [hb, History.sent, hj]
    simpa [InMemory.issueOf, ha, InMemory.submit_of_accepts ha] using hpipe
  | ignore hb _ hj ha =>
    rw [hb]
    exact hp.congr (h.taken_sent_of_not_accepts hj ha) rfl
  | refuse hb _ hj he =>
    rw [hb]
    exact hp.congr (h.taken_sent_of_not_accepts hj (InMemory.accepts_of_isError he)) rfl
  | release hb _ hj hf =>
    obtain ⟨hlt, hr⟩ := held _ hf
    rw [h.sent_of_none hj, hb]
    exact hp.sameJobs (.release hlt hr)

end Pipeline

namespace Run

variable {config : InMemoryConfig} {accounts : Nat} {h : History} {s : System InMemory}

/-- **It holds in every state of a run.** -/
theorem pipeline (hr : Run config accounts h s) : Pipeline h s.world.backend := by
  refine hr.preserved (P := fun h s => Pipeline h s.world.backend) (.start config) ?_
  intro h s t e hr hp hh
  cases hh with
  | submit o r => rw [History.after_of_not_isOwn rfl]; exact hp
  | issuer hf hk hm => rw [History.after_issuer hf]; exact hp.deed (hm.deed hk) (hr.held hf)
  | @waiter i m f g w hf hk hm =>
    rw [History.after_waiter, ← h.sent_of_none (i := i) (hm.job?_eq_none hk)]
    exact hp.deed (hm.deed hk) (hr.held hf)
  | work hstep => rw [History.after_work]; exact hp.work hstep
  | call k => rw [History.after_of_not_isOwn rfl]; exact hp.sameJobs (.call k _)
  | shutdown | clock =>
    rw [History.after_of_not_isOwn rfl]
    exact hp.sameJobs ⟨⟨rfl, fun _ => rfl, fun _ => rfl⟩, rfl, rfl, fun _ => rfl⟩

end Run

end Milepost
