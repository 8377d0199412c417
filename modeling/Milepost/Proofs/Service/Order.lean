import Milepost.Proofs.Service.Ledger
import Milepost.Proofs.Telling

/-!
# In which order operations are done

The worker does one operation after the other. Of the operations taken so far the oldest are done,
then there may be one that is under way, and nothing was fired for those after it. What is fired
stays as it is, and with it the result of the operation, which is that of its access to the store
that the accesses before it left.

* `Ledger.Orderly`: how the ledger fits the jobs of the backend.
* `Ledger.Tells`: how its entries fit the store.
* `Service.fired_in_order`: which milestones are fired, and with what.
-/

namespace Milepost

/-! ## Firing -/

namespace InMemory

variable {b b' : InMemory} {shelf shelf' : Shelf} {job : Job} {c : CompletionId} {m n : Milestone}
  {status : Status}

/-- Firing a milestone fires that one alone. -/
theorem fired_fire (hc : job.completion < b.completions.size) :
    ((b.fire job m status).completion c).fired.get n ≠ none ↔
      (job.completion, m) = (c, n) ∨ (b.completion c).fired.get n ≠ none := by
  by_cases hd : job.completion = c
  · subst hd
    rw [completion_fire_self hc, Completion.fire, PerMilestone.get_set]
    by_cases hm : m = n
    · simp [hm]
    · simp [hm]
  · rw [completion_fire_of_ne hd]
    simp [hd]

/-- A step of the worker fires the milestone that is due. -/
theorem fired_of_step? (hs : b.step? shelf = some (b', shelf'))
    (hc : ∀ p, b.worker.current? = some p → p.1.completion < b.completions.size) :
    (b'.completion c).fired.get m ≠ none ↔
      b.firing? = some (c, m) ∨ (b.completion c).fired.get m ≠ none := by
  unfold step? at hs
  unfold firing?
  cases hw : b.worker with
  | idle =>
    cases hq : b.queue with
    | nil => simp [hw, hq] at hs
    | cons job rest =>
      simp only [hw, hq, Option.some.injEq] at hs
      cases hs
      exact (or_iff_right nofun).symm
  | applied job status =>
    simp only [hw, Option.some.injEq] at hs
    cases hs
    rw [Option.some.injEq]
    exact fired_fire (hc (job, status) (by rw [hw]; rfl))
  | halfway job status =>
    simp only [hw, Option.some.injEq] at hs
    cases hs
    rw [Option.some.injEq]
    exact fired_fire (hc (job, status) (by rw [hw]; rfl))

/-- The job that the worker is at after a step is the one that it applied with it, or the one that
it was at. -/
theorem current?_of_step? (hs : b.step? shelf = some (b', shelf')) {p : Job × Status}
    (hp : b'.worker.current? = some p) :
    (∃ a, b.application? shelf = some a ∧ p = (a.job, a.result)) ∨
      b.application? shelf = none ∧ b.worker.current? = some p := by
  unfold step? at hs
  unfold application?
  cases hw : b.worker with
  | idle =>
    cases hq : b.queue with
    | nil => simp [hw, hq] at hs
    | cons job rest =>
      simp only [hw, hq, Option.some.injEq] at hs
      cases hs
      cases hp
      exact .inl ⟨_, rfl, rfl⟩
  | applied job status =>
    simp only [hw, Option.some.injEq] at hs
    cases hs
    exact .inr ⟨rfl, hp⟩
  | halfway job status =>
    simp only [hw, Option.some.injEq] at hs
    cases hs
    cases hp

/-- The milestone that is fired next belongs to the job that the worker is at, and is owed. -/
theorem owes_of_firing? (h : b.firing? = some (c, m)) :
    b.worker.owes b.config.order c m = true := by
  unfold firing? at h
  cases hw : b.worker with
  | idle =>
    rw [hw] at h
    cases h
  | applied job status =>
    rw [hw] at h
    cases h
    simp [Worker.owes]
  | halfway job status =>
    rw [hw] at h
    cases h
    simp [Worker.owes]

end InMemory

/-- The worker owes the second milestone of its job as long as it is at the job. -/
theorem Worker.owes_second {worker : Worker} {job : Job} {status : Status}
    (h : worker.current? = some (job, status)) (order : MilestoneOrder) :
    worker.owes order job.completion order.second = true := by
  cases worker with
  | idle => cases h
  | applied =>
    cases h
    simp [owes]
  | halfway =>
    cases h
    simp [owes]

/-- Nothing was fired for a job in the queue. -/
theorem Pipeline.fired_of_mem_queue {h : History} {b : InMemory} (hp : Pipeline h b) {job : Job}
    (hj : job ∈ b.queue) (m : Milestone) : (b.completion job.completion).fired.get m = none := by
  by_contra hf
  obtain ⟨-, a, ha, hc⟩ := hp.unfired job.completion m hf
  exact hp.completion_ne_of_mem_queue ha hj hc

/-- Two jobs taken with one completion are one. -/
theorem Pipeline.job_ext {h : History} {b : InMemory} (hp : Pipeline h b) {job job' : Job}
    (hj : job ∈ h.taken) (hj' : job' ∈ h.taken) (hc : job.completion = job'.completion) :
    job = job' :=
  List.inj_on_of_nodup_map hp.distinct hj hj' hc

/-! ## The jobs and the milestones -/

/-- What was taken, applied and fired is what the backend makes of it. -/
structure Ledger.Orderly (config : InMemoryConfig) (l : Ledger) (b : InMemory) : Prop where
  config : b.config = config
  pipeline : Pipeline l.toHistory b
  /-- The worker is at the job that it applied last. -/
  last : ∀ p, b.worker.current? = some p →
    ∃ a, l.applications.getLast? = some a ∧ p = (a.job, a.result)
  fired : ∀ c m, (c, m) ∈ l.firings ↔ (b.completion c).fired.get m ≠ none
  once : l.firings.Nodup

namespace Ledger.Orderly

variable {config : InMemoryConfig} {l l' : Ledger} {b b' : InMemory} {s t : InMemory × Shelf}
  {u : Use}

theorem start (config : InMemoryConfig) : Orderly config {} (.ofConfig config) where
  config := rfl
  pipeline := .start config
  last _ hp := nomatch hp
  fired c m := by simp [InMemory.completion, InMemory.ofConfig]
  once := List.nodup_nil

/-- A step of the worker preserves it. -/
theorem work (ho : Orderly config l s.1) (hn : s.1.step? s.2 = some t) :
    Orderly config (l.after s .work) t.1 := by
  have hissued : ∀ p, s.1.worker.current? = some p → p.1.completion < s.1.completions.size := by
    intro p hp
    obtain ⟨a, ha, hj, -⟩ := ho.pipeline.current p.1 p.2 hp
    rw [← hj]
    exact InMemory.lt_size_of_issued
      ((ho.pipeline.issued _).mpr (List.mem_map_of_mem (ho.pipeline.mem_taken ha)))
  have hfired := fun c m => InMemory.fired_of_step? (c := c) (m := m) hn hissued
  constructor
  case config => exact (InMemory.config_step? hn).trans ho.config
  case pipeline =>
    exact (ho.pipeline.work hn).congr (by simp [History.taken, after, Use.handsOver?]) rfl
  case last =>
    intro p hp
    rcases InMemory.current?_of_step? hn hp with ⟨a, ha, hpa⟩ | ⟨hnone, hp⟩
    · refine ⟨a, ?_, hpa⟩
      rw [after, Use.application?, ha, Option.toList_some, List.getLast?_concat]
    · rw [after, Use.application?, hnone, Option.toList_none, List.append_nil]
      exact ho.last p hp
  case fired =>
    intro c m
    rw [hfired, after, Use.firing?, List.mem_append, Option.mem_toList, ho.fired, or_comm]
  case once =>
    rw [after, Use.firing?, List.nodup_append]
    refine ⟨ho.once, ?_, ?_⟩
    · cases s.1.firing? with
      | none => exact List.nodup_nil
      | some p => exact List.nodup_singleton p
    · -- What is fired now was owed, and what was fired before was not.
      rintro ⟨c, m⟩ hx y hy rfl
      have howes := InMemory.owes_of_firing? (Option.mem_toList.mp hy)
      have hnot := (ho.pipeline.unfired c m ((ho.fired c m).mp hx)).1
      exact Bool.noConfusion (howes.symm.trans hnot)

/-- What neither applies nor fires, and leaves the milestones, preserves all but the pipeline. -/
theorem users (ho : Orderly config l s.1) (hu : u ≠ .work) (hs : s.1.SameProgress t.1)
    (hc : t.1.config = s.1.config) (hp : Pipeline (l.after s u).toHistory t.1) :
    Orderly config (l.after s u) t.1 := by
  obtain ⟨happlied, hfiring⟩ := u.application?_eq_none (s := s) hu
  have happlications : (l.after s u).applications = l.applications := by
    rw [after, happlied, Option.toList_none, List.append_nil]
  have hfirings : (l.after s u).firings = l.firings := by
    rw [after, hfiring, Option.toList_none, List.append_nil]
  constructor
  case config => exact hc.trans ho.config
  case pipeline => exact hp
  case last =>
    rw [hs.worker, happlications]
    exact ho.last
  case fired =>
    intro c m
    rw [hfirings, hs.fired]
    exact ho.fired c m
  case once =>
    rw [hfirings]
    exact ho.once

/-- Whatever its users do preserves it. -/
theorem deals (ho : Orderly config l s.1) (hn : u.next? s = some t) (hu : u ≠ .work)
    (hd : u.Deals s t) (hlt : ∀ p ∈ u.handsOver? s.1, p.1.completion < p.2.completions.size) :
    Orderly config (l.after s u) t.1 := by
  have happlied := (u.application?_eq_none (s := s) hu).1
  have happlications : (l.after s u).applications = l.applications := by
    rw [after, happlied, Option.toList_none, List.append_nil]
  refine ho.users hu (u.sameProgress hn hu) ?_ ?_
  · cases hd with
    | leaves _ hs => exact hs.config
    | takes hj hb ha ht =>
      rw [ht, InMemory.submit_of_accepts ha]
      exact hb.config
  · cases hd with
    | leaves hj hs =>
      refine (ho.pipeline.sameJobs hs).congr ?_ happlications
      cases hh : u.handsOver? s.1 with
      | none => simp [History.taken, after, hh]
      | some p =>
        rw [hh] at hj
        have hrefused : p.2.accepts p.1 = false := hj
        simp [History.taken, after, hh, InMemory.issueOf, hrefused]
    | @takes job b hj hb ha ht =>
      have hp := (ho.pipeline.sameJobs hb).submit (i := l.issues.length) ha (hlt _ hj)
      rw [ht]
      refine hp.congr ?_ happlications
      simp [History.taken, after, hj, InMemory.issueOf, ha]

end Ledger.Orderly

namespace Service

variable {config : InMemoryConfig} {l : Ledger} {s t : InMemory × Shelf} {u : Use}

/-- What a user hands over has a completion that is there. -/
theorem completion_lt (hs : Service config l s) (hfair : u.isFair l = true) {job : Job}
    {b : InMemory} (hj : u.handsOver? s.1 = some (job, b)) :
    job.completion < b.completions.size := by
  cases u with
  | issue pool oid c command =>
    cases hj
    exact hs.owned.made c (List.contains_iff_mem.mp hfair)
  | beginFlush pool =>
    cases hj
    rw [InMemory.size_newCompletion]
    exact Nat.lt_succ_self _
  | createCompletion | release | endFlush | call | shutdown | clock | buffers | work => cases hj

/-- **Every ledger fits the jobs of its backend.** -/
theorem orderly (hs : Service config l s) : l.Orderly config s.1 := by
  refine hs.invariant (P := fun l s => l.Orderly config s.1) (fun _ => .start config) ?_
  intro l s t u hs ho hfair hn
  by_cases hu : u = .work
  · subst hu
    exact ho.work hn
  · exact ho.deals hn hu (u.deals hn hu) fun p hp => hs.completion_lt hfair hp

end Service

/-! ## The entries and the store -/

/-- The store after accesses, the first of them made on the store that there is at the start. -/
def InMemoryConfig.storeAfter (config : InMemoryConfig) (entries : List Entry) : Store :=
  entries.foldl (fun store e => (e.access.run e.now store).2) (.ofPools config.pools)

theorem InMemoryConfig.storeAfter_concat {config : InMemoryConfig} {entries : List Entry}
    {e : Entry} :
    config.storeAfter (entries ++ [e]) = (e.access.run e.now (config.storeAfter entries)).2 := by
  rw [storeAfter, List.foldl_concat]
  rfl

/-- The entries lead to the store, each has the answer of its access, and those of the worker are
the applications. -/
structure Ledger.Tells (config : InMemoryConfig) (l : Ledger) (store : Store) : Prop where
  store : store = config.storeAfter l.entries
  answer : ∀ before e after, l.entries = before ++ e :: after →
    e.answer = (e.access.run e.now (config.storeAfter before)).1
  results : l.entries.filterMap (·.result?) =
    l.applications.map fun a => (a.job.completion, a.result)
  access : ∀ e ∈ l.entries, ∀ c, e.completion = some c →
    ∃ a ∈ l.applications, a.job.completion = c ∧ ∃ shelf, e.access = a.job.access shelf

/-- The turns of the worker are those with an application. -/
theorem Use.result?_turn? {u : Use} {s : InMemory × Shelf} :
    (u.turn? s).bind Turn.result? =
      (u.application? s).map fun a => (a.job.completion, a.result) := by
  cases u with
  | work =>
    rw [turn?, application?]
    cases s.1.application? s.2 <;> rfl
  | createCompletion | issue | release | beginFlush | endFlush | call | shutdown | clock
  | buffers => rfl

theorem Use.access_turn? {u : Use} {s : InMemory × Shelf} {x : Turn} {c : CompletionId}
    (hx : u.turn? s = some x) (hc : x.completion = some c) :
    ∃ a, u.application? s = some a ∧ a.job.completion = c ∧ x.access = a.job.access s.2 := by
  cases u with
  | work =>
    obtain ⟨a, ha, rfl⟩ := Option.map_eq_some_iff.mp hx
    cases hc
    exact ⟨a, ha, rfl, rfl⟩
  | call k =>
    cases hx
    cases hc
  | createCompletion | issue | release | beginFlush | endFlush | shutdown | clock | buffers =>
    cases hx

namespace Ledger.Tells

variable {config : InMemoryConfig} {l : Ledger} {s t : InMemory × Shelf} {u : Use} {store : Store}

/-- Every use preserves it. -/
theorem next? (ht : Tells config l s.1.store) (hn : u.next? s = some t) :
    Tells config (l.after s u) t.1.store := by
  have hresults := u.result?_turn? (s := s)
  constructor
  case store =>
    cases hx : u.turn? s with
    | none =>
      rw [u.store_eq hn hx, after, hx, Option.map_none, Option.toList_none, List.append_nil]
      exact ht.store
    | some x =>
      rw [after, hx, Option.map_some, Option.toList_some, InMemoryConfig.storeAfter_concat,
        ← ht.store]
      exact (Prod.mk.inj (u.run_eq hn hx)).2
  case answer =>
    cases hx : u.turn? s with
    | none =>
      rw [after, hx, Option.map_none, Option.toList_none, List.append_nil]
      exact ht.answer
    | some x =>
      rw [after, hx, Option.map_some, Option.toList_some]
      intro before e after he
      rcases List.eq_nil_or_concat after with rfl | ⟨after, y, rfl⟩
      · obtain ⟨hbefore, he⟩ := List.append_inj' he rfl
        obtain rfl := List.singleton_inj.mp he
        rw [← hbefore, ← ht.store]
        exact (Prod.mk.inj (u.run_eq hn hx)).1
      · rw [List.concat_eq_append, ← List.cons_append, ← List.append_assoc] at he
        exact ht.answer before e after (List.append_inj' he rfl).1
  case results =>
    rw [after, List.filterMap_append, List.map_append, ht.results]
    cases hx : u.turn? s with
    | none =>
      rw [hx, Option.bind_none] at hresults
      rw [Option.map_eq_none_iff.mp hresults.symm]
      rfl
    | some x =>
      rw [hx, Option.bind_some] at hresults
      cases ha : u.application? s with
      | none =>
        rw [ha, Option.map_none] at hresults
        simp [hresults]
      | some a =>
        rw [ha, Option.map_some] at hresults
        simp [hresults]
  case access =>
    intro e he c hc
    rcases List.mem_append.mp he with he | he
    · obtain ⟨a, ha, h⟩ := ht.access e he c hc
      exact ⟨a, List.mem_append_left _ ha, h⟩
    · obtain ⟨x, hx, rfl⟩ := Option.map_eq_some_iff.mp (Option.mem_toList.mp he)
      obtain ⟨a, ha, hac, hacc⟩ := u.access_turn? hx hc
      exact ⟨a, List.mem_append_right _ (Option.mem_toList.mpr ha), hac, s.2, hacc⟩

end Ledger.Tells

/-- **Every ledger fits the store of its backend.** -/
theorem Service.tells {config : InMemoryConfig} {l : Ledger} {s : InMemory × Shelf}
    (hs : Service config l s) : l.Tells config s.1.store := by
  refine hs.invariant (P := fun l s => l.Tells config s.1.store) (fun _ => ?_) ?_
  · exact ⟨rfl, fun _ _ _ h => by simp at h, rfl, nofun⟩
  · intro l s t u _ ht _ hn
    exact ht.next? hn

/-! ## What is done -/

/-- The jobs `done` have both milestones fired, of the first of the `rest` at most the first
milestone is fired, and nothing is fired of those after it. -/
structure InMemory.DoneUpTo (order : MilestoneOrder) (b : InMemory) (done rest : List Job) :
    Prop where
  done : ∀ job ∈ done, ∀ m, (b.completion job.completion).fired.get m ≠ none
  next : ∀ job ∈ rest.head?, (b.completion job.completion).fired.get order.second = none
  later : ∀ job ∈ rest.tail, ∀ m, (b.completion job.completion).fired.get m = none

/-- The job was applied with this result. The accesses before it are those of the jobs taken
`before`, and of other callers; the result is that of the job's access to the store they left. -/
def Ledger.Applies (config : InMemoryConfig) (l : Ledger) (before : List Job) (job : Job)
    (result : Status) : Prop :=
  ∃ earlier e later shelf, l.entries = earlier ++ e :: later ∧
    earlier.filterMap (·.completion) = before.map (·.completion) ∧
    e.completion = some job.completion ∧ e.access = job.access shelf ∧
    result = (e.access.run e.now (config.storeAfter earlier)).1

namespace Ledger.Orderly

variable {config : InMemoryConfig} {l : Ledger} {b : InMemory}

/-- The worker fired both milestones of a job that it is done with. -/
theorem fired_of_applied (ho : Orderly config l b) {a : Application} (ha : a ∈ l.applications)
    (hw : ∀ p, b.worker.current? = some p → p.1.completion ≠ a.job.completion) (m : Milestone) :
    (b.completion a.job.completion).fired.get m ≠ none := by
  rw [(ho.pipeline.fired a ha m (Worker.owes_of_ne hw)).1]
  exact nofun

/-- **The oldest operations are done**, then one may be under way, and nothing is fired for those
after it. -/
theorem exists_done (ho : Orderly config l b) :
    ∃ done rest, l.taken = done ++ rest ∧ b.DoneUpTo config.order done rest := by
  have hqueue : ∀ job ∈ b.queue, ∀ m, (b.completion job.completion).fired.get m = none :=
    fun _ hj => ho.pipeline.fired_of_mem_queue hj
  cases hw : b.worker.current? with
  | none =>
    refine ⟨_, _, ho.pipeline.taken, ?_, ?_, ?_⟩
    · intro job hj
      obtain ⟨a, ha, rfl⟩ := List.mem_map.mp hj
      exact ho.fired_of_applied ha fun p hp => nomatch hw.symm.trans hp
    · intro job hj
      exact hqueue _ (List.mem_of_mem_head? hj) _
    · intro job hj
      exact hqueue _ (List.mem_of_mem_tail hj)
  | some p =>
    obtain ⟨a, hlast, rfl⟩ := ho.last p hw
    obtain ⟨init, hinit⟩ := List.getLast?_eq_some_iff.mp hlast
    have htaken := ho.pipeline.taken
    rw [hinit, List.map_append, List.map_singleton, List.append_assoc, List.singleton_append]
      at htaken
    refine ⟨_, _, htaken, ?_, ?_, hqueue⟩
    · -- The worker is at the last of the jobs that it applied, which is none of the others.
      intro job hj
      obtain ⟨a', ha', rfl⟩ := List.mem_map.mp hj
      refine ho.fired_of_applied (hinit ▸ List.mem_append_left _ ha') fun p hp => ?_
      obtain rfl := Option.some.inj (hw.symm.trans hp)
      have hd := ho.pipeline.distinct
      rw [htaken, List.map_append, List.map_map] at hd
      exact ((List.nodup_append.mp hd).2.2 _ (List.mem_map_of_mem ha') _ List.mem_cons_self).symm
    · intro job hj
      obtain rfl := Option.some.inj hj
      by_contra hf
      have howes := (ho.pipeline.unfired _ _ hf).1
      rw [ho.config] at howes
      exact Bool.noConfusion ((Worker.owes_second hw config.order).symm.trans howes)

end Ledger.Orderly

namespace Service

variable {config : InMemoryConfig} {l l' : Ledger} {s t : InMemory × Shelf} {c : CompletionId}
  {m : Milestone} {status : Status}

/-- A job that was applied was applied to the state that the earlier ones left. -/
theorem applies (hs : Service config l s) {a : Application} (ha : a ∈ l.applications)
    {before after : List Job} (ht : l.taken = before ++ a.job :: after) :
    l.Applies config before a.job a.result := by
  have hp := hs.orderly.pipeline
  have htells := hs.tells
  obtain ⟨first, last, hfirst⟩ := List.append_of_mem ha
  -- The jobs of the first applications are those taken before this one.
  have hbefore : first.map (·.job) = before := by
    have htaken := hp.taken
    rw [ht, hfirst, List.map_append, List.map_cons, List.append_assoc, List.cons_append] at htaken
    have hd := hp.distinct.of_map
    rw [ht, List.nodup_append, List.nodup_cons] at hd
    refine ((List.append_cons_inj_of_notMem (fun h => ?_) hd.2.1.1).mp htaken).1.symm
    exact hd.2.2 _ h _ List.mem_cons_self rfl
  have hresults := htells.results
  rw [hfirst, List.map_append, List.map_cons, List.filterMap_eq_append_iff] at hresults
  obtain ⟨es, more, hes, hresults, hmore⟩ := hresults
  obtain ⟨es', e, later, rfl, hnone, he, -⟩ := List.filterMap_eq_cons_iff.mp hmore
  rw [← List.append_assoc] at hes
  obtain ⟨c, hc, hce⟩ := Option.map_eq_some_iff.mp he
  obtain ⟨rfl, hanswer⟩ := Prod.mk.inj hce
  have hmem : e ∈ l.entries := by
    rw [hes]
    exact List.mem_append_right _ List.mem_cons_self
  obtain ⟨a', ha', hac, shelf, haccess⟩ := htells.access e hmem _ hc
  obtain rfl := hp.application_ext ha' ha hac
  refine ⟨es ++ es', e, later, shelf, hes, ?_, hc, haccess, ?_⟩
  · have hfst : ∀ entries : List Entry,
        entries.filterMap (·.completion) = (entries.filterMap (·.result?)).map Prod.fst := by
      intro entries
      rw [List.map_filterMap]
      refine List.filterMap_congr fun e _ => ?_
      cases h : e.completion <;> simp [Turn.result?, h]
    rw [hfst, List.filterMap_append, hresults, List.filterMap_eq_nil_iff.mpr hnone,
      List.append_nil, ← hbefore, List.map_map, List.map_map]
    rfl
  · rw [← hanswer]
    exact htells.answer _ e later hes

/-- **What was fired stays.** -/
theorem stays (hs : Service config l s) (ht : Service config l' t) (hl : l.Extends l')
    (hf : (s.1.completion c).fired.get m = some status) :
    (t.1.completion c).fired.get m = some status ∧
      (t.1.completion c).returnValue = (s.1.completion c).returnValue := by
  obtain ⟨a, ha, hc, hstatus, hvalue⟩ := hs.orderly.pipeline.of_fired hf
  have hfired : (t.1.completion c).fired.get m ≠ none :=
    (ht.orderly.fired c m).mp (hl.firings.subset ((hs.orderly.fired c m).mpr (by rw [hf]; nofun)))
  obtain ⟨status', hf'⟩ := Option.ne_none_iff_exists'.mp hfired
  obtain ⟨a', ha', hc', hstatus', hvalue'⟩ := ht.orderly.pipeline.of_fired hf'
  obtain rfl := ht.orderly.pipeline.application_ext (hl.applications.subset ha) ha'
    (hc.trans hc'.symm)
  rw [hf', hstatus', hstatus, hvalue, hvalue', InMemory.milestoneStatus, InMemory.milestoneStatus,
    hs.orderly.config, ht.orderly.config]
  exact ⟨rfl, rfl⟩

/-- What is fired for a job has the status laid down for its object, and the completion returns the
result of its application. -/
theorem fired_of_taken (hs : Service config l s) {before after : List Job} {job : Job}
    (ht : l.taken = before ++ job :: after)
    (hf : (s.1.completion job.completion).fired.get m = some status) :
    status = config.milestoneStatus job.oid m ∧
      l.Applies config before job (s.1.completion job.completion).returnValue := by
  have hp := hs.orderly.pipeline
  obtain ⟨a, ha, hc, hstatus, hvalue⟩ := hp.of_fired hf
  obtain rfl := hp.job_ext (hp.mem_taken ha)
    (ht ▸ List.mem_append_right before List.mem_cons_self) hc
  rw [hvalue]
  rw [InMemory.milestoneStatus, hs.orderly.config] at hstatus
  exact ⟨hstatus, hs.applies ha ht⟩

/-- What is fired is fired for a job that was taken. -/
theorem exists_taken_of_fired (hs : Service config l s)
    (hf : (s.1.completion c).fired.get m ≠ none) :
    ∃ before job after, l.taken = before ++ job :: after ∧ job.completion = c := by
  have hp := hs.orderly.pipeline
  obtain ⟨-, a, ha, hc⟩ := hp.unfired c m hf
  obtain ⟨before, after, ht⟩ := List.append_of_mem (hp.mem_taken ha)
  exact ⟨before, a.job, after, ht, hc⟩

/-- **Operations are done in the order in which they were taken.** In every state of a service the
operations taken, no two of them with one completion, are those applied and then those queued. The
oldest of them have both milestones fired, of the next one at most the first milestone of the order
is fired, and nothing is fired of a later one. No milestone is fired twice. A milestone that is
fired has the status laid down for the object of its operation, and the completion returns the
result of that operation on the state left by all earlier ones; neither ever changes again. -/
theorem fired_in_order (hs : Service config l s) :
    (l.taken = l.applications.map (·.job) ++ s.1.queue ∧ (l.taken.map (·.completion)).Nodup) ∧
    (∃ done rest, l.taken = done ++ rest ∧ s.1.DoneUpTo config.order done rest) ∧
    (l.firings.Nodup ∧
      ∀ c m, (c, m) ∈ l.firings ↔ (s.1.completion c).fired.get m ≠ none) ∧
    ∀ c m status, (s.1.completion c).fired.get m = some status →
      (∃ before job after, l.taken = before ++ job :: after ∧ job.completion = c ∧
        status = config.milestoneStatus job.oid m ∧
        l.Applies config before job (s.1.completion c).returnValue) ∧
      ∀ uses l' t, l.replay s uses = some (l', t) →
        (t.1.completion c).fired.get m = some status ∧
          (t.1.completion c).returnValue = (s.1.completion c).returnValue := by
  have ho := hs.orderly
  refine ⟨⟨ho.pipeline.taken, ho.pipeline.distinct⟩, ho.exists_done, ⟨ho.once, ho.fired⟩, ?_⟩
  intro c m status hf
  refine ⟨?_, fun uses l' t hu => ?_⟩
  · obtain ⟨before, job, after, ht, rfl⟩ := hs.exists_taken_of_fired (by rw [hf]; nofun)
    exact ⟨before, job, after, ht, rfl, hs.fired_of_taken ht hf⟩
  · obtain ⟨ht, hl⟩ := hs.replay hu
    exact hs.stays ht hl hf

end Service

/-! ## One service

Two objects are written with milestones that come safe first; the worker is halfway through the
second write when a third operation is queued, and the first completion is released twice. -/

namespace Sample

def safeFirst : InMemoryConfig where
  order := .safeFirst
  pools := ["data"]
  milestoneFaults := ⟨∅, (∅ : Std.ExtTreeMap String Status).insert "second" .ioError⟩

def served : List Use :=
  [.createCompletion, .createCompletion, .createCompletion,
    .issue 1 "first" 0 (.edit (.append ⟨#[7]⟩)), .issue 1 "second" 1 (.edit (.append ⟨#[8]⟩)),
    .issue 1 "second" 1 (.edit .remove), .release 0, .work, .work, .work, .release 0, .work, .work,
    .issue 1 "second" 2 (.edit .remove)]

theorem isSome_replay_served :
    (Ledger.replay {} (.ofConfig safeFirst, {}) served).isSome = true := by
  decide +kernel

/-- The ledger and the state after these uses. -/
@[irreducible]
def service : Ledger × InMemory × Shelf :=
  (Ledger.replay {} (.ofConfig safeFirst, {}) served).get isSome_replay_served

theorem isService : Service safeFirst service.1 service.2 := by
  unfold service
  exact Service.replay_get isSome_replay_served

end Sample

/-- One operation is done, one is halfway with its failed first milestone, one waits. -/
theorem Service.fired_in_order_halfway :
    Service Sample.safeFirst Sample.service.1 Sample.service.2 ∧
      Sample.service.1.taken.map (·.completion) = [0, 1, 2] ∧
      Sample.service.1.firings = [(0, .safe), (0, .complete), (1, .safe)] ∧
      Sample.service.1.firings.Nodup ∧
      (Sample.service.2.1.completion 1).fired = ⟨none, some .ioError⟩ := by
  have htaken : Sample.service.1.taken.map (·.completion) = [0, 1, 2] := by decide +kernel
  have hfirings : Sample.service.1.firings = [(0, .safe), (0, .complete), (1, .safe)] := by
    decide +kernel
  exact ⟨Sample.isService, htaken, hfirings, (fired_in_order Sample.isService).2.2.1.1,
    by decide +kernel⟩

end Milepost
