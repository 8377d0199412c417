import Milepost.Proofs.Sharing

/-!
# With and without a read

A read into a buffer that a task has failed on does nothing to the store and is of no use to anybody
but its issuer. Whatever happens with the read in the queue happens without it as well, only that
the worker makes no steps for it: what is stored, what other operations return and what other
buffers hold is the same.

* `InMemory.AllBut`, `Shelf.AllBut`: what is the same.
* `InMemory.Passing`: where the read is, in the queue, with the worker, or done.
* `Sharing.Beside.next?`: what happens with the read happens without it, or is a step for the read.
* `Sharing.Beside.replay`: and so does all that happens one after the other.
-/

namespace Milepost

/-- A job with a buffer is a read. -/
theorem Job.action_of_buffer? {j : Job} {i : BufferId} (h : j.buffer? = some i) :
    ∃ offset, j.action = .command (.read i offset) := by
  unfold buffer? at h
  split at h
  · rename_i n offset ha
    cases h
    exact ⟨offset, ha⟩
  · cases h

/-! ## Shelves -/

/-- The second shelf has the buffers of the first, all but one that tasks have failed on. -/
structure Shelf.AllBut (i : BufferId) (s s₀ : Shelf) : Prop where
  size : s₀.cells.size = s.cells.size
  others : ∀ j, i ≠ j → s₀.get j = s.get j
  spoiled : (s.get i).poisoned = true ∧ (s₀.get i).poisoned = true

/-- The second shelf is the first one with one buffer changed. -/
structure Shelf.Changed (j : BufferId) (f : SharedBuffer → SharedBuffer) (s s' : Shelf) : Prop where
  size : s'.cells.size = s.cells.size
  others : ∀ {k}, j ≠ k → s'.get k = s.get k
  self : j < s.cells.size → s'.get j = f (s.get j)

namespace Shelf.AllBut

variable {s s₀ : Shelf} {i j : BufferId} {job : Job}

theorem lt_size (h : AllBut i s s₀) : i < s.cells.size := by
  by_contra hle
  have hp := h.spoiled.1
  rw [get_of_size_le (Nat.not_lt.mp hle)] at hp
  cases hp

theorem put (h : AllBut i s s₀) (b : Buffer) : AllBut i (s.put b).2 (s₀.put b).2 where
  size := by rw [size_put, size_put, h.size]
  others j hj := by
    by_cases hlast : s.cells.size = j
    · subst hlast
      have hself := get_put_self s b
      have hself₀ := get_put_self s₀ b
      rw [Shelf.put] at hself hself₀
      rw [h.size] at hself₀
      exact hself₀.trans hself.symm
    · rw [get_put_of_ne hlast, get_put_of_ne (h.size ▸ hlast), h.others j hj]
  spoiled := by
    rw [get_put_of_lt h.lt_size, get_put_of_lt (h.size ▸ h.lt_size)]
    exact h.spoiled

/-- The same is done to a buffer on both shelves, if it undoes no failure of a task. -/
theorem both {s' s₀' : Shelf} {f : SharedBuffer → SharedBuffer} (h : AllBut i s s₀)
    (hf : ∀ b, b.poisoned = true → (f b).poisoned = true)
    (hs : Changed j f s s') (hs₀ : Changed j f s₀ s₀') : AllBut i s' s₀' := by
  constructor
  case size => rw [hs.size, hs₀.size, h.size]
  case others =>
    intro k hk
    by_cases hj : j = k
    · subst hj
      rcases Nat.lt_or_ge j s.cells.size with hlt | hge
      · rw [hs.self hlt, hs₀.self (h.size ▸ hlt), h.others j hk]
      · rw [get_of_size_le (by rw [hs₀.size, h.size]; exact hge),
          get_of_size_le (by rw [hs.size]; exact hge)]
    · rw [hs.others hj, hs₀.others hj, h.others k hk]
  case spoiled =>
    by_cases hj : j = i
    · subst hj
      rw [hs.self h.lt_size, hs₀.self (h.size ▸ h.lt_size)]
      exact ⟨hf _ h.spoiled.1, hf _ h.spoiled.2⟩
    · rw [hs.others hj, hs₀.others hj]
      exact h.spoiled

/-- A call is made on both shelves. -/
theorem run {α : Type} (h : AllBut i s s₀) (c : HoldCall α) :
    AllBut i (c.run j s).2 (c.run j s₀).2 :=
  h.both (fun _ => HoldCall.poisoned_effect)
    ⟨HoldCall.size_run, HoldCall.get_run_of_ne, HoldCall.get_run_self⟩
    ⟨HoldCall.size_run, HoldCall.get_run_of_ne, HoldCall.get_run_self⟩

theorem letGo (h : AllBut i s s₀) : AllBut i (s.letGo j) (s₀.letGo j) :=
  h.run (HoldCall.drop (α := Unit))

/-- A hold on the buffer itself is given up on the second shelf alone. -/
theorem letGo_right (h : AllBut i s s₀) : AllBut i s (s₀.letGo i) where
  size := by rw [Shelf.letGo, size_modify, h.size]
  others j hj := by rw [get_letGo_of_ne hj, h.others j hj]
  spoiled := by
    rw [get_letGo (h.size ▸ h.lt_size), SharedBuffer.poisoned_dropped]
    exact h.spoiled

/-- A job is applied on both shelves, with the same result. -/
theorem apply (now : Int) (job : Job) (store : Store) (h : AllBut i s s₀) :
    AllBut i (InMemory.applyJob now job store s).2.2 (InMemory.applyJob now job store s₀).2.2 ∧
      (InMemory.applyJob now job store s₀).1 = (InMemory.applyJob now job store s).1 ∧
      (InMemory.applyJob now job store s₀).2.1 = (InMemory.applyJob now job store s).2.1 := by
  cases ha : job.action with
  | flush =>
    rw [InMemory.applyJob, InMemory.applyJob, ha]
    exact ⟨h, rfl, rfl⟩
  | command k =>
    cases k with
    | edit e =>
      rw [InMemory.applyJob, InMemory.applyJob, ha]
      exact ⟨h, rfl, rfl⟩
    | read j offset =>
      have hb := Job.buffer?_eq ha
      have hne : ∀ {σ : Shelf} {k}, j ≠ k →
          (InMemory.applyJob now job store σ).2.2.get k = σ.get k := fun hk =>
        InMemory.get_applyJob_of_ne (by rw [hb]; exact fun h => hk (Option.some.inj h))
      refine ⟨?_, ?_, by simp only [InMemory.applyJob, ha]⟩
      · refine h.both
          (f := fun b => ((job.filling? store).elim b fun x => b.after x.2).dropped) ?_
          ⟨InMemory.size_applyJob, hne, InMemory.get_applyJob_read now store ha⟩
          ⟨InMemory.size_applyJob, hne, InMemory.get_applyJob_read now store ha⟩
        intro b hp
        rw [SharedBuffer.poisoned_dropped]
        exact job.poisoned_filled store hp
      · rw [InMemory.applyJob_read_fst ha, InMemory.applyJob_read_fst ha]
        by_cases hij : i = j
        · subst hij
          rw [h.spoiled.1, h.spoiled.2]
          rfl
        · rw [h.others j hij]

/-- A read into the buffer itself is applied on the first shelf alone. -/
theorem apply_left (now : Int) (store : Store) (h : AllBut i s s₀) (hb : job.buffer? = some i) :
    AllBut i (InMemory.applyJob now job store s).2.2 s₀ ∧
      (InMemory.applyJob now job store s).2.1 = store := by
  obtain ⟨offset, ha⟩ := Job.action_of_buffer? hb
  refine ⟨⟨h.size.trans InMemory.size_applyJob.symm, fun j hj => ?_, ?_, h.spoiled.2⟩,
    by simp only [InMemory.applyJob, ha]⟩
  · rw [InMemory.get_applyJob_of_ne (by rw [hb]; exact fun h => hj (Option.some.inj h)),
      h.others j hj]
  · rw [InMemory.get_applyJob_read now store ha h.lt_size, SharedBuffer.poisoned_dropped]
    exact job.poisoned_filled store h.spoiled.1

end Shelf.AllBut

/-! ## Backends -/

namespace InMemory

/-- The second backend has the store, the counters and the completions of the first, all but what
was fired of one that an operation was taken with. Nothing is said about its jobs. -/
structure AllBut (c : CompletionId) (b b₀ : InMemory) : Prop where
  config : b₀.config = b.config
  store : b₀.store = b.store
  isShutdown : b₀.isShutdown = b.isShutdown
  live : b₀.live = b.live
  released : b₀.released = b.released
  doubleReleases : b₀.doubleReleases = b.doubleReleases
  now : b₀.now = b.now
  size : b₀.completions.size = b.completions.size
  others : ∀ d, c ≠ d → b₀.completion d = b.completion d
  issued : (b.completion c).issued = true ∧ (b₀.completion c).issued = true
  given : (b₀.completion c).released = (b.completion c).released

namespace AllBut

variable {b b₀ : InMemory} {c d : CompletionId} {job : Job} {f : Completion → Completion}

theorem flags (h : AllBut c b b₀) (d : CompletionId) :
    (b₀.completion d).issued = (b.completion d).issued ∧
      (b₀.completion d).released = (b.completion d).released := by
  by_cases hd : c = d
  · subst hd
    exact ⟨h.issued.2.trans h.issued.1.symm, h.given⟩
  · rw [h.others d hd]
    exact ⟨rfl, rfl⟩

/-- The same is done to a completion of both. -/
theorem onCompletion (h : AllBut c b b₀) (hi : ∀ k, k.issued = true → (f k).issued = true)
    (hr : ∀ k k', k'.released = k.released → (f k').released = (f k).released) :
    AllBut c (b.onCompletion d f) (b₀.onCompletion d f) := by
  have hlt : c < b.completions.size := lt_size_of_issued h.issued.1
  constructor
  case size => simp [InMemory.onCompletion, h.size]
  case others =>
    intro k hk
    by_cases hd : d = k
    · subst hd
      rcases Nat.lt_or_ge d b.completions.size with hd | hd
      · rw [completion_onCompletion_self hd, completion_onCompletion_self (h.size ▸ hd),
          h.others d hk]
      · rw [completion_of_le (by simpa [InMemory.onCompletion, h.size] using hd),
          completion_of_le (by simpa [InMemory.onCompletion] using hd)]
    · rw [completion_onCompletion_of_ne hd, completion_onCompletion_of_ne hd, h.others k hk]
  case issued =>
    by_cases hd : d = c
    · subst hd
      rw [completion_onCompletion_self hlt, completion_onCompletion_self (h.size ▸ hlt)]
      exact ⟨hi _ h.issued.1, hi _ h.issued.2⟩
    · rw [completion_onCompletion_of_ne hd, completion_onCompletion_of_ne hd]
      exact h.issued
  case given =>
    by_cases hd : d = c
    · subst hd
      rw [completion_onCompletion_self hlt, completion_onCompletion_self (h.size ▸ hlt)]
      exact hr _ _ h.given
    · rw [completion_onCompletion_of_ne hd, completion_onCompletion_of_ne hd]
      exact h.given
  case config => exact h.config
  case store => exact h.store
  case isShutdown => exact h.isShutdown
  case live => exact h.live
  case released => exact h.released
  case doubleReleases => exact h.doubleReleases
  case now => exact h.now

/-- What the worker does to the completion itself leaves the rest. -/
theorem fire_left (h : AllBut job.completion b b₀) (m : Milestone) (status : Status) :
    AllBut job.completion (b.fire job m status) b₀ := by
  have hlt := lt_size_of_issued h.issued.1
  have hself := completion_fire_self (m := m) (r := status) hlt
  exact
    { h with
      size := by simpa [InMemory.fire, InMemory.onCompletion] using h.size
      others := fun d hd => (h.others d hd).trans (completion_fire_of_ne hd).symm
      issued := ⟨by rw [hself]; exact h.issued.1, h.issued.2⟩
      given := by rw [hself]; exact h.given }

/-- A milestone of another job is fired. -/
theorem fire (h : AllBut c b b₀) (m : Milestone) (status : Status) :
    AllBut c (b.fire job m status) (b₀.fire job m status) := by
  have hstatus : b₀.milestoneStatus job.oid m = b.milestoneStatus job.oid m := by
    rw [milestoneStatus, milestoneStatus, h.config]
  rw [InMemory.fire, InMemory.fire, hstatus]
  exact h.onCompletion (fun _ hk => hk) fun _ _ hk => hk

theorem accepts (h : AllBut c b b₀) (job : Job) : b₀.accepts job = b.accepts job := by
  rw [InMemory.accepts, InMemory.accepts, h.isShutdown, h.config, h.store,
    (h.flags job.completion).1, (h.flags job.completion).2]

/-- An operation is answered alike. -/
theorem answer (h : AllBut c b b₀) (job : Job) : (b₀.submit job).1 = (b.submit job).1 := by
  rw [answer_submit, answer_submit, h.isShutdown, h.config, h.store,
    (h.flags job.completion).1, (h.flags job.completion).2]

/-- An operation is handed over. -/
theorem submit (h : AllBut c b b₀) (job : Job) : AllBut c (b.submit job).2 (b₀.submit job).2 := by
  cases ha : b.accepts job with
  | true =>
    rw [submit_of_accepts ha, submit_of_accepts ((h.accepts job).trans ha)]
    exact { h.onCompletion (d := job.completion) (f := ({ · with issued := true }))
      (fun _ _ => rfl) fun _ _ hk => hk with }
  | false =>
    rw [submit_of_not_accepts ha, submit_of_not_accepts ((h.accepts job).trans ha)]
    exact h

theorem createCompletion (h : AllBut c b b₀) :
    AllBut c b.createCompletion.2 b₀.createCompletion.2 :=
  { h with
    live := congrArg (· + 1) h.live
    size := by rw [size_createCompletion, size_createCompletion, h.size]
    others := fun d hd => by
      rw [completion_createCompletion, completion_createCompletion, h.others d hd]
    issued := by
      rw [completion_createCompletion, completion_createCompletion]
      exact h.issued
    given := by
      rw [completion_createCompletion, completion_createCompletion]
      exact h.given }

theorem newCompletion (h : AllBut c b b₀) : AllBut c b.newCompletion.2 b₀.newCompletion.2 :=
  { h.createCompletion with live := h.live }

theorem release (h : AllBut c b b₀) (d : CompletionId) : AllBut c (b.release d) (b₀.release d) := by
  have hgiven := (h.flags d).2
  cases hr : (b.completion d).released with
  | true =>
    rw [InMemory.release, InMemory.release, hgiven, hr]
    exact { h with doubleReleases := congrArg (· + 1) h.doubleReleases }
  | false =>
    rw [release_eq hr, release_eq (hgiven.trans hr)]
    exact { h.onCompletion (d := d) (f := ({ · with released := true })) (fun _ hk => hk)
      fun _ _ _ => rfl with
      live := congrArg (· - 1) h.live
      released := congrArg (· + 1) h.released }

/-- A job is applied to both, with the same result. -/
theorem applyNext {i : BufferId} {shelf shelf₀ : Shelf} (h : AllBut c b b₀)
    (hs : shelf.AllBut i shelf₀) (job : Job) (rest rest₀ : List Job) :
    AllBut c (b.applyNext job rest shelf).1 (b₀.applyNext job rest₀ shelf₀).1 ∧
      (b.applyNext job rest shelf).2.AllBut i (b₀.applyNext job rest₀ shelf₀).2 ∧
      (b₀.applyNext job rest₀ shelf₀).1.worker = (b.applyNext job rest shelf).1.worker := by
  have happly := hs.apply b.now job b.store
  have hsame : applyJob b₀.now job b₀.store shelf₀ = applyJob b.now job b.store shelf₀ := by
    rw [h.now, h.store]
  rw [← hsame] at happly
  exact ⟨{ h with store := happly.2.2 }, happly.1, congrArg (Worker.applied job) happly.2.1⟩

/-- A read into the spoiled buffer is applied to the first alone. -/
theorem applyNext_left {i : BufferId} {shelf shelf₀ : Shelf} (h : AllBut c b b₀)
    (hs : shelf.AllBut i shelf₀) (hb : job.buffer? = some i) (rest : List Job) :
    AllBut c (b.applyNext job rest shelf).1 b₀ ∧
      (b.applyNext job rest shelf).2.AllBut i shelf₀ := by
  obtain ⟨hshelf, hstore⟩ := hs.apply_left b.now b.store hb
  exact ⟨{ h with store := h.store.trans hstore.symm }, hshelf⟩

theorem call (h : AllBut c b b₀) (k : StoreCall) : AllBut c (k.run b).2 (k.run b₀).2 := by
  have hstore : (k.run b₀).2.store = (k.run b).2.store := by
    rw [(Prod.mk.inj (run_eq_onStore k b)).2, (Prod.mk.inj (run_eq_onStore k b₀)).2, h.store,
      h.now]
  cases k <;> exact { h with store := hstore }

theorem beginFlush (h : AllBut c b b₀) (pool : PoolId) :
    AllBut c (b.beginFlush pool).2 (b₀.beginFlush pool).2 ∧
      (b₀.beginFlush pool).1 = (b.beginFlush pool).1 := by
  have hnew : b₀.newCompletion.1 = b.newCompletion.1 := h.size
  have hsubmit := h.newCompletion.submit (.flush pool b.newCompletion.1)
  have hanswer := h.newCompletion.answer (.flush pool b.newCompletion.1)
  constructor
  · change AllBut c (b.newCompletion.2.submit (.flush pool b.newCompletion.1)).2
      (b₀.newCompletion.2.submit (.flush pool b₀.newCompletion.1)).2
    rw [hnew]
    exact hsubmit
  · change (if (b₀.newCompletion.2.submit (.flush pool b₀.newCompletion.1)).1.isError then
      FlushAnswer.done (b₀.newCompletion.2.submit (.flush pool b₀.newCompletion.1)).1
      else .pending b₀.newCompletion.1) = _
    rw [hnew, hanswer]
    rfl

/-- **What a user does to the one backend is done to the other**, but for the end of a flush that
waits for the completion itself. -/
theorem use (h : AllBut c b b₀) (shelf₀ : Shelf) {u : Use} {shelf : Shelf} {t : InMemory × Shelf}
    (ha : u.isApart = true) (hw : u ≠ .work) (hc : u ≠ .endFlush c)
    (hn : u.next? (b, shelf) = some t) :
    ∃ b₁, u.next? (b₀, shelf₀) = some (b₁, shelf₀) ∧ AllBut c t.1 b₁ := by
  cases u with
  | createCompletion =>
    cases hn
    exact ⟨_, rfl, h.createCompletion⟩
  | issue pool oid d command =>
    cases hn
    cases command with
    | edit e => exact ⟨_, rfl, h.submit _⟩
    | read => cases ha
  | release d =>
    cases hn
    exact ⟨_, rfl, h.release d⟩
  | beginFlush pool =>
    cases hn
    exact ⟨_, rfl, (h.beginFlush pool).1⟩
  | endFlush d =>
    obtain ⟨⟨status, b'⟩, hb, rfl⟩ := Option.map_eq_some_iff.mp hn
    obtain ⟨status, hres, hb⟩ := Option.map_eq_some_iff.mp hb
    cases hb
    rw [← h.others d fun hcd => hc (hcd ▸ rfl)] at hres
    refine ⟨b₀.onCompletion d ({ · with released := true }), ?_,
      h.onCompletion (fun _ hk => hk) fun _ _ _ => rfl⟩
    rw [Use.next?, endFlush?, hres]
    rfl
  | call k =>
    cases hn
    exact ⟨_, rfl, h.call k⟩
  | shutdown =>
    cases hn
    exact ⟨_, rfl, { h with isShutdown := rfl }⟩
  | clock now =>
    cases hn
    exact ⟨_, rfl, { h with now := rfl }⟩
  | buffers => cases ha
  | work => exact absurd rfl hw

end AllBut

end InMemory

/-! ## Jobs and ledgers -/

/-- The jobs that a use puts into the queue. -/
def Use.adds (b : InMemory) (u : Use) : List Job :=
  (u.handsOver? b).elim [] fun p => if p.2.accepts p.1 then [p.1] else []

theorem Use.queue_eq_adds {u : Use} {s t : InMemory × Shelf} (hw : u ≠ .work)
    (hn : u.next? s = some t) : t.1.queue = s.1.queue ++ u.adds s.1 := by
  rw [adds]
  cases u.deals hn hw with
  | leaves hj hs =>
    rw [hs.queue]
    cases hh : u.handsOver? s.1 with
    | none => exact (List.append_nil _).symm
    | some p =>
      rw [hh] at hj
      have hrefused : p.2.accepts p.1 = false := hj
      simp [hrefused]
  | takes hj hb ha ht =>
    rw [hj, ht, InMemory.queue_submit ha, hb.queue, Option.elim_some, if_pos ha]

namespace InMemory.AllBut

variable {b b₀ : InMemory} {c : CompletionId} {j : Job}

/-- The same operation is handed over, to backends that answer alike. -/
theorem handsOver? (h : AllBut c b b₀) (u : Use) :
    (u.handsOver? b = none ∧ u.handsOver? b₀ = none) ∨
      ∃ j b' b₀', u.handsOver? b = some (j, b') ∧ u.handsOver? b₀ = some (j, b₀') ∧
        AllBut c b' b₀' := by
  cases u with
  | issue pool oid d command => exact .inr ⟨_, _, _, rfl, rfl, h⟩
  | beginFlush pool =>
    refine .inr ⟨_, _, _, rfl, ?_, h.newCompletion⟩
    rw [Use.handsOver?]
    exact congrArg (fun d => some (Job.flush pool d, b₀.newCompletion.2)) h.size
  | createCompletion | release | endFlush | call | shutdown | clock | buffers | work =>
    exact .inl ⟨rfl, rfl⟩

theorem adds (h : AllBut c b b₀) (u : Use) : u.adds b₀ = u.adds b := by
  rw [Use.adds, Use.adds]
  rcases h.handsOver? u with ⟨hj, hj₀⟩ | ⟨j, b', b₀', hj, hj₀, h'⟩
  · rw [hj, hj₀]
  · rw [hj, hj₀, Option.elim_some, Option.elim_some, h'.accepts]

/-- No operation is taken with the completion itself. -/
theorem completion_ne_of_mem_adds (h : AllBut c b b₀) {u : Use} (hj : j ∈ u.adds b) :
    j.completion ≠ c := by
  rw [Use.adds] at hj
  rcases h.handsOver? u with ⟨hh, -⟩ | ⟨j', b', b₀', hh, -, h'⟩
  · rw [hh] at hj
    cases hj
  · rw [hh, Option.elim_some] at hj
    split at hj
    · rename_i ha
      obtain rfl := List.mem_singleton.mp hj
      rintro rfl
      rw [InMemory.accepts, h'.issued.1] at ha
      simp at ha
    · cases hj

end InMemory.AllBut

/-- Who has which completion, and what was answered, is the same. -/
structure Ledger.Agrees (l l₀ : Ledger) : Prop where
  made : l₀.made = l.made
  flushing : l₀.flushing = l.flushing
  issues : l₀.issues = l.issues

namespace Ledger.Agrees

variable {l l₀ : Ledger} {s s₀ : InMemory × Shelf} {c : CompletionId}

theorem isFair (h : l.Agrees l₀) (u : Use) : u.isFair l₀ = u.isFair l := by
  cases u with
  | issue _ _ c | release c => exact congrArg (List.contains · c) h.made
  | endFlush c => exact congrArg (List.contains · c) h.flushing
  | createCompletion | beginFlush | call | shutdown | clock | buffers | work => rfl

theorem after (h : l.Agrees l₀) (hb : s.1.AllBut c s₀.1) (u : Use) :
    (l.after s u).Agrees (l₀.after s₀ u) where
  made := by
    cases u with
    | createCompletion =>
      exact congrArg₂ (fun made n => made ++ [n]) h.made hb.size
    | issue | release | beginFlush | endFlush | call | shutdown | clock | buffers | work =>
      exact h.made
  flushing := by
    cases u with
    | beginFlush pool =>
      simp only [Ledger.after, flushingAfter, (hb.beginFlush pool).2, h.flushing]
    | endFlush c => exact congrArg (List.filter _) h.flushing
    | createCompletion | issue | release | call | shutdown | clock | buffers | work =>
      exact h.flushing
  issues := by
    rw [Ledger.after, Ledger.after, h.issues]
    rcases hb.handsOver? u with ⟨hj, hj₀⟩ | ⟨j, b', b₀', hj, hj₀, h'⟩
    · rw [hj, hj₀]
    · rw [hj, hj₀, Option.map_some, Option.map_some, InMemory.issueOf, InMemory.issueOf,
        h'.answer, h'.accepts]

end Ledger.Agrees

/-- A completion that is there is not made for a flush later. -/
theorem Ledger.not_mem_flushing_after {l : Ledger} {s : InMemory × Shelf} {u : Use}
    {c : CompletionId} (hlt : c < s.1.completions.size) (hc : c ∉ l.flushing) :
    c ∉ (l.after s u).flushing := by
  cases u with
  | beginFlush pool =>
    simp only [Ledger.after, flushingAfter, InMemory.beginFlush]
    split
    · rename_i d hd
      split at hd
      · cases hd
      · cases hd
        rw [List.mem_append, List.mem_singleton, not_or]
        exact ⟨hc, Nat.ne_of_lt hlt⟩
    · exact hc
  | endFlush d => exact fun h => hc (List.mem_of_mem_filter h)
  | createCompletion | issue | release | call | shutdown | clock | buffers | work => exact hc

/-! ## The job of the read -/

namespace InMemory

/-- Where the job is that only the first backend has: in the queue, with the worker, or done. -/
inductive Passing (job : Job) (b b₀ : InMemory) : Prop
  | waiting {before after : List Job} (hw : b₀.worker = b.worker)
      (hq : b.queue = before ++ job :: after) (hq₀ : b₀.queue = before ++ after) :
    Passing job b b₀
  | underway {status : Status} (hw : b.worker.current? = some (job, status))
      (hw₀ : b₀.worker = .idle) (hq : b₀.queue = b.queue) : Passing job b b₀
  | done (hw : b₀.worker = b.worker) (hq : b₀.queue = b.queue) : Passing job b b₀

/-- Users put the same jobs into both queues. -/
theorem Passing.append {job : Job} {b b₀ b' b₀' : InMemory} (h : Passing job b b₀)
    (more : List Job) (hw : b'.worker = b.worker) (hw₀ : b₀'.worker = b₀.worker)
    (hq : b'.queue = b.queue ++ more) (hq₀ : b₀'.queue = b₀.queue ++ more) :
    Passing job b' b₀' := by
  cases h with
  | @waiting before after hww hqb hqb₀ =>
    have hqueue : b'.queue = before ++ job :: (after ++ more) := by
      rw [hq, hqb, List.append_assoc, List.cons_append]
    exact .waiting (by rw [hw, hw₀, hww]) hqueue (by rw [hq₀, hqb₀, List.append_assoc])
  | underway hww hww₀ hqq => exact .underway (hw ▸ hww) (hw₀.trans hww₀) (by rw [hq, hq₀, hqq])
  | done hww hqq => exact .done (by rw [hw, hw₀, hww]) (by rw [hq, hq₀, hqq])

end InMemory

/-- Whether the worker makes a step. -/
def SharingEvent.isWork {α : Type} : SharingEvent α → Bool
  | use .work => true
  | _ => false

namespace Sharing

/-- The second sharing is the first one without the job of a read into the spoiled buffer. -/
structure Beside (job : Job) (i : BufferId) (s s₀ : Sharing) : Prop where
  backend : s.backend.AllBut job.completion s₀.backend
  shelf : s.shelf.AllBut i s₀.shelf
  holds : s₀.holds = s.holds
  ledger : s.ledger.Agrees s₀.ledger
  passing : s.backend.Passing job s₀.backend
  /-- No other job has the completion, and no flush. -/
  queued : ∀ j ∈ s₀.backend.queue, j.completion ≠ job.completion
  current : ∀ p, s₀.backend.worker.current? = some p → p.1.completion ≠ job.completion
  flushing : job.completion ∉ s.ledger.flushing

/-- The sharing after a step of the worker. -/
def worked (s : Sharing) (x : InMemory × Shelf) : Sharing where
  backend := x.1
  shelf := x.2
  holds := s.holds
  ledger := s.ledger.after (s.backend, s.shelf) .work
  pasts := s.pastsWith (Use.filling? (s.backend, s.shelf) .work)

theorem next?_work {α : Type} {s : Sharing} {x : InMemory × Shelf}
    (hx : s.backend.step? s.shelf = some x) :
    s.next? (.use .work : SharingEvent α) = some (s.worked x) :=
  next?_eq rfl rfl hx

namespace Beside

variable {α : Type} {s s₀ t : Sharing} {job : Job} {i : BufferId} {e : SharingEvent α}

theorem buffer?_eq (hb : Beside job i s s₀) (h : HoldId) : s₀.buffer? h = s.buffer? h := by
  rw [buffer?, buffer?, hb.holds]

/-- What users do puts the same jobs into both queues, none of them with the completion. -/
theorem users {t₀ : Sharing} (hb : Beside job i s s₀) (more : List Job)
    (hbackend : t.backend.AllBut job.completion t₀.backend) (hshelf : t.shelf.AllBut i t₀.shelf)
    (hholds : t₀.holds = t.holds) (hledger : t.ledger.Agrees t₀.ledger)
    (hw : t.backend.worker = s.backend.worker) (hw₀ : t₀.backend.worker = s₀.backend.worker)
    (hq : t.backend.queue = s.backend.queue ++ more)
    (hq₀ : t₀.backend.queue = s₀.backend.queue ++ more)
    (hmore : ∀ j ∈ more, j.completion ≠ job.completion)
    (hflushing : job.completion ∉ t.ledger.flushing) : Beside job i t t₀ where
  backend := hbackend
  shelf := hshelf
  holds := hholds
  ledger := hledger
  passing := hb.passing.append more hw hw₀ hq hq₀
  queued j hj := by
    rw [hq₀, List.mem_append] at hj
    exact hj.elim (hb.queued j) (hmore j)
  current := by rw [hw₀]; exact hb.current
  flushing := hflushing

/-- What users do beside the buffers. -/
theorem of_use {u : Use} {x x₀ : InMemory × Shelf} (hb : Beside job i s s₀)
    (hw : u ≠ .work) (hn : u.next? (s.backend, s.shelf) = some x)
    (hn₀ : u.next? (s₀.backend, s₀.shelf) = some x₀)
    (hbackend : x.1.AllBut job.completion x₀.1) (hshelf : x.2.AllBut i x₀.2)
    {holds holds₀ : List (Option BufferId)} {pasts pasts₀ : List BufferPast}
    (hholds : holds₀ = holds) :
    Beside job i
      { backend := x.1, shelf := x.2, holds, pasts
        ledger := s.ledger.after (s.backend, s.shelf) u }
      { backend := x₀.1, shelf := x₀.2, holds := holds₀, pasts := pasts₀
        ledger := s₀.ledger.after (s₀.backend, s₀.shelf) u } := by
  have hadds := hb.backend.adds u
  refine hb.users (u.adds s.backend) hbackend hshelf hholds (hb.ledger.after hb.backend u)
    (u.sameProgress hn hw).worker (u.sameProgress hn₀ hw).worker (u.queue_eq_adds hw hn)
    ((u.queue_eq_adds hw hn₀).trans (by rw [hadds]))
    (fun j hj => hb.backend.completion_ne_of_mem_adds hj) ?_
  exact Ledger.not_mem_flushing_after (InMemory.lt_size_of_issued hb.backend.issued.1) hb.flushing

/-- What users do to the buffers. -/
theorem of_buffers {σ σ₀ : Shelf} (hb : Beside job i s s₀) (hshelf : σ.AllBut i σ₀)
    {holds holds₀ : List (Option BufferId)} {pasts pasts₀ : List BufferPast}
    (hholds : holds₀ = holds) :
    Beside job i
      { backend := s.backend, shelf := σ, holds, pasts
        ledger := s.ledger.after (s.backend, s.shelf) (.buffers σ) }
      { backend := s₀.backend, shelf := σ₀, holds := holds₀, pasts := pasts₀
        ledger := s₀.ledger.after (s₀.backend, s₀.shelf) (.buffers σ₀) } :=
  hb.users [] hb.backend hshelf hholds
    ⟨hb.ledger.made, hb.ledger.flushing, congrArg (· ++ []) hb.ledger.issues⟩ rfl rfl
    (List.append_nil _).symm (List.append_nil _).symm nofun hb.flushing

/-- **What users do with the read in the queue they do without it.** -/
theorem next?_users {u : Use} (hb : Beside job i s s₀) (hu : e.use? s = some u) (hw : u ≠ .work)
    (hn : s.next? e = some t) : ∃ t₀, s₀.next? e = some t₀ ∧ Beside job i t t₀ := by
  have hbuffer := hb.buffer?_eq
  rw [next?, hu, Option.bind_some] at hn
  split at hn
  · rename_i hfair
    obtain ⟨x, hx, rfl⟩ := Option.map_eq_some_iff.mp hn
    cases e with
    | share b =>
      cases hu
      cases hx
      refine ⟨_, rfl, hb.of_buffers (hb.shelf.put b) ?_⟩
      rw [SharingEvent.holdsAfter, SharingEvent.holdsAfter, hb.holds, hb.shelf.size]
    | call h c =>
      obtain ⟨j, hj, rfl⟩ := Option.map_eq_some_iff.mp hu
      cases hx
      have hu₀ : (SharingEvent.call h c).use? s₀ = some (.buffers (c.run j s₀.shelf).2) := by
        rw [SharingEvent.use?, hbuffer, hj]
        rfl
      refine ⟨_, next?_eq hu₀ rfl rfl, hb.of_buffers (hb.shelf.run c) ?_⟩
      rw [SharingEvent.holdsAfter, SharingEvent.holdsAfter, hbuffer, hb.holds]
    | read h pool oid c offset =>
      obtain ⟨j, hj, rfl⟩ := Option.map_eq_some_iff.mp hu
      have hu₀ : (SharingEvent.read (α := α) h pool oid c offset).use? s₀ =
          some (.issue pool oid c (.read j offset)) := by
        rw [SharingEvent.use?, hbuffer, hj]
        rfl
      have hx₀ : (Use.issue pool oid c (.read j offset)).next? (s₀.backend, s₀.shelf) =
          some (InMemory.issue pool oid c (.read j offset) (s₀.backend, s₀.shelf)).2 := rfl
      refine ⟨_, next?_eq hu₀ ((hb.ledger.isFair _).trans hfair) hx₀,
        hb.of_use hw hx hx₀ ?_ ?_ (congrArg (List.set · h none) hb.holds)⟩
      · cases hx
        exact hb.backend.submit _
      · cases hx
        simp only [InMemory.issue, hb.backend.accepts]
        split
        · exact hb.shelf
        · exact hb.shelf.letGo
    | use u' =>
      obtain ⟨ha, hu'⟩ := Option.ite_none_right_eq_some.mp hu
      obtain rfl := Option.some.inj hu'
      have hc : u' ≠ .endFlush job.completion := by
        rintro rfl
        exact hb.flushing (List.contains_iff_mem.mp hfair)
      obtain ⟨b₁, hx₀, hbackend⟩ := hb.backend.use s₀.shelf ha hw hc hx
      have hshelf : x.2.AllBut i s₀.shelf := (u'.shelf_of_isApart ha hw hx).1 ▸ hb.shelf
      exact ⟨_, next?_eq (if_pos ha) ((hb.ledger.isFair _).trans hfair) hx₀,
        hb.of_use hw hx hx₀ hbackend hshelf hb.holds⟩
  · cases hn

/-- Only with the read does the worker make this step. -/
theorem left {x : InMemory × Shelf} (hb : Beside job i s s₀)
    (hbackend : x.1.AllBut job.completion s₀.backend) (hshelf : x.2.AllBut i s₀.shelf)
    (hpassing : x.1.Passing job s₀.backend) : Beside job i (s.worked x) s₀ :=
  { hb with
    backend := hbackend
    shelf := hshelf
    ledger :=
      ⟨hb.ledger.made, hb.ledger.flushing, hb.ledger.issues.trans (List.append_nil _).symm⟩
    passing := hpassing }

/-- With the read and without it the worker makes the same step. -/
theorem both {x x₀ : InMemory × Shelf} (hb : Beside job i s s₀)
    (hbackend : x.1.AllBut job.completion x₀.1) (hshelf : x.2.AllBut i x₀.2)
    (hpassing : x.1.Passing job x₀.1) (hq : ∀ j ∈ x₀.1.queue, j ∈ s₀.backend.queue)
    (hcurrent : ∀ p, x₀.1.worker.current? = some p → p.1.completion ≠ job.completion) :
    Beside job i (s.worked x) (s₀.worked x₀) where
  backend := hbackend
  shelf := hshelf
  holds := hb.holds
  ledger := hb.ledger.after hb.backend .work
  passing := hpassing
  queued j hj := hb.queued j (hq j hj)
  current := hcurrent
  flushing := hb.flushing

/-- The worker applies another job. -/
theorem apply {j : Job} {rest rest₀ : List Job} (hb : Beside job i s s₀)
    (hw₀ : s₀.backend.worker = .idle) (hq₀ : s₀.backend.queue = j :: rest₀)
    (hpassing : ∀ {b b₀ : InMemory}, b₀.worker = b.worker → b.queue = rest → b₀.queue = rest₀ →
      b.Passing job b₀) :
    ∃ x₀, s₀.backend.step? s₀.shelf = some x₀ ∧
      Beside job i (s.worked (s.backend.applyNext j rest s.shelf)) (s₀.worked x₀) := by
  obtain ⟨hbackend, hshelf, hworker⟩ :=
    hb.backend.applyNext hb.shelf j rest rest₀
  refine ⟨s₀.backend.applyNext j rest₀ s₀.shelf, ?_,
    hb.both hbackend hshelf (hpassing hworker rfl rfl) (fun k hk => ?_) fun p hp => ?_⟩
  · rw [InMemory.step?, hw₀, hq₀]
  · rw [hq₀]
    exact List.mem_cons_of_mem _ hk
  · cases hp
    exact hb.queued j (hq₀ ▸ List.mem_cons_self)

/-- The worker fires a milestone of another job. -/
theorem fire {x : InMemory × Shelf} (hb : Beside job i s s₀)
    (hw : s₀.backend.worker = s.backend.worker) (hidle : s.backend.worker ≠ .idle)
    (hpassing : ∀ {b b₀ : InMemory}, b₀.worker = b.worker → b.queue = s.backend.queue →
      b₀.queue = s₀.backend.queue → b.Passing job b₀)
    (hx : s.backend.step? s.shelf = some x) :
    ∃ x₀, s₀.backend.step? s₀.shelf = some x₀ ∧ Beside job i (s.worked x) (s₀.worked x₀) := by
  have hcurrent := hb.current
  unfold InMemory.step? at hx ⊢
  rw [hw] at hcurrent ⊢
  cases hworker : s.backend.worker with
  | idle => exact absurd hworker hidle
  | applied j status =>
    simp only [hworker, Option.some.injEq] at hx hcurrent ⊢
    subst hx
    rw [hb.backend.config]
    exact ⟨_, rfl, hb.both { hb.backend.fire _ status with } hb.shelf (hpassing rfl rfl rfl)
      (fun _ hk => hk) hcurrent⟩
  | halfway j status =>
    simp only [hworker, Option.some.injEq] at hx ⊢
    subst hx
    rw [hb.backend.config]
    exact ⟨_, rfl, hb.both { hb.backend.fire _ status with } hb.shelf (hpassing rfl rfl rfl)
      (fun _ hk => hk) nofun⟩

/-- The worker fires a milestone of the read. -/
theorem own {status : Status} {x : InMemory × Shelf} (hb : Beside job i s s₀)
    (hw : s.backend.worker.current? = some (job, status)) (hw₀ : s₀.backend.worker = .idle)
    (hq : s₀.backend.queue = s.backend.queue) (hx : s.backend.step? s.shelf = some x) :
    s.backend.due? = some job ∧ Beside job i (s.worked x) s₀ := by
  unfold InMemory.step? at hx
  unfold InMemory.due?
  cases hworker : s.backend.worker with
  | idle =>
    rw [hworker] at hw
    cases hw
  | applied j st =>
    rw [hworker] at hw
    obtain ⟨rfl, rfl⟩ := Prod.mk.inj (Option.some.inj hw)
    simp only [hworker, Option.some.injEq] at hx
    subst hx
    exact ⟨rfl, hb.left { hb.backend.fire_left _ st with } hb.shelf (.underway rfl hw₀ hq)⟩
  | halfway j st =>
    rw [hworker] at hw
    obtain ⟨rfl, rfl⟩ := Prod.mk.inj (Option.some.inj hw)
    simp only [hworker, Option.some.injEq] at hx
    subst hx
    exact ⟨rfl, hb.left { hb.backend.fire_left _ st with } hb.shelf (.done hw₀ hq)⟩

/-- **The worker makes the same step without the read**, unless the step is for the read. -/
theorem work (hb : Beside job i s s₀) (hj : job.buffer? = some i) {x : InMemory × Shelf}
    (hx : s.backend.step? s.shelf = some x) :
    (s.backend.due? = some job ∧ Beside job i (s.worked x) s₀) ∨
      ∃ x₀, s₀.backend.step? s₀.shelf = some x₀ ∧ Beside job i (s.worked x) (s₀.worked x₀) := by
  by_cases hidle : s.backend.worker = .idle
  · cases hb.passing with
    | @waiting before after hw hq hq₀ =>
      cases before with
      | nil =>
        rw [InMemory.step?, hidle, hq] at hx
        obtain rfl := Option.some.inj hx
        obtain ⟨hbackend, hshelf⟩ := hb.backend.applyNext_left hb.shelf hj after
        refine .inl ⟨by rw [InMemory.due?, hidle, hq]; rfl, hb.left hbackend hshelf ?_⟩
        exact .underway rfl (hw.trans hidle) hq₀
      | cons j more =>
        rw [InMemory.step?, hidle, hq] at hx
        obtain rfl := Option.some.inj hx
        exact .inr (hb.apply (hw.trans hidle) hq₀ fun hw hq hq₀ => .waiting hw hq hq₀)
    | underway hw =>
      rw [hidle] at hw
      cases hw
    | done hw hq =>
      cases hqueue : s.backend.queue with
      | nil =>
        rw [InMemory.step?, hidle, hqueue] at hx
        cases hx
      | cons j rest =>
        rw [InMemory.step?, hidle, hqueue] at hx
        obtain rfl := Option.some.inj hx
        exact .inr (hb.apply (hw.trans hidle) (hq.trans hqueue) fun hw hq hq₀ =>
          .done hw (hq₀.trans hq.symm))
  · cases hb.passing with
    | waiting hw hq hq₀ =>
      exact .inr (hb.fire hw hidle (fun hw hq' hq₀' =>
        .waiting hw (hq'.trans hq) (hq₀'.trans hq₀)) hx)
    | underway hw hw₀ hq => exact .inl (hb.own hw hw₀ hq hx)
    | done hw hq =>
      exact .inr (hb.fire hw hidle (fun hw hq' hq₀' =>
        .done hw (hq₀'.trans (hq.trans hq'.symm))) hx)

/-- What happens with the read happens without it, or is a step of the worker for the read. -/
theorem next? (hb : Beside job i s s₀) (hj : job.buffer? = some i) (hn : s.next? e = some t) :
    (e = .use .work ∧ s.backend.due? = some job ∧ Beside job i t s₀) ∨
      ∃ t₀, s₀.next? e = some t₀ ∧ Beside job i t t₀ := by
  obtain ⟨u, hu, -, hx, -⟩ := of_next? hn
  by_cases hw : u = .work
  · subst hw
    have he : e = .use .work := by
      cases e with
      | use u => rw [Option.some.inj (Option.ite_none_right_eq_some.mp hu).2]
      | share b => cases hu
      | call h c | read h pool oid c offset =>
        obtain ⟨_, -, hu⟩ := Option.map_eq_some_iff.mp hu
        cases hu
    subst he
    have ht := Option.some.inj (hn.symm.trans (next?_work hx))
    rw [ht]
    rcases hb.work hj hx with ⟨hdue, hleft⟩ | ⟨x₀, hx₀, hboth⟩
    · exact .inl ⟨rfl, hdue, hleft⟩
    · exact .inr ⟨_, next?_work hx₀, hboth⟩
  · exact .inr (hb.next?_users hu hw hn)

/-- **What happens with the read happens without it**, but for steps of the worker. -/
theorem replay {es : List (SharingEvent α)} (hb : Beside job i s s₀) (hj : job.buffer? = some i)
    (hn : s.replay es = some t) :
    ∃ es₀ t₀, es₀.Sublist es ∧ es₀.filter (!·.isWork) = es.filter (!·.isWork) ∧
      s₀.replay es₀ = some t₀ ∧ Beside job i t t₀ := by
  induction es generalizing s s₀ with
  | nil =>
    obtain rfl := Option.some.inj hn
    exact ⟨[], s₀, .slnil, rfl, rfl, hb⟩
  | cons e es ih =>
    obtain ⟨s', hs', ht⟩ := Option.bind_eq_some_iff.mp hn
    rcases hb.next? hj hs' with ⟨rfl, -, hb'⟩ | ⟨s₀', hs₀', hb'⟩
    · obtain ⟨es₀, t₀, hsub, hfilter, hreplay, hb'⟩ := ih hb' ht
      exact ⟨es₀, t₀, hsub.cons _, hfilter, hreplay, hb'⟩
    · obtain ⟨es₀, t₀, hsub, hfilter, hreplay, hb'⟩ := ih hb' ht
      refine ⟨e :: es₀, t₀, hsub.cons_cons e, ?_, ?_, hb'⟩
      · rw [List.filter_cons, List.filter_cons, hfilter]
      · rw [Sharing.replay, hs₀', Option.bind_some, hreplay]

end Beside

end Sharing

end Milepost
