import Milepost.Proofs.Pipeline
import Milepost.Proofs.Session

/-!
# A backend in service

A service is a session whose users keep to their own completions: an operation is issued with a
completion that a user was given, nobody releases another one, and the answer to a flush goes to
the one who asked for it. Users may issue with a completion again, release it before its
operation is done, or release it twice. Beside the backend and the buffers a service has a
`Ledger` of what happened so far, which nothing reads.

* `Use.deals`: a use leaves the jobs of the backend, or hands over one more; all else is done by
  the worker.
* `Service.invariant`: what holds at the start and outlives every fair use holds in every service.
* `Service.replay`: what follows on a service is a service, and its ledger goes on from there.
-/

namespace Milepost

/-- A turn and the time on the clock when it was had. -/
structure Entry extends Turn where
  now : Int

/-- What happened to a backend. -/
structure Ledger extends History where
  /-- The accesses to the store, oldest first. -/
  entries : List Entry := []
  /-- The milestones fired, oldest first. -/
  firings : List (CompletionId × Milestone) := []
  /-- The completions that were given to users. -/
  made : List CompletionId := []
  /-- The completions of the flushes that are waited for. -/
  flushing : List CompletionId := []

/-- The job that a flush hands over. -/
def Job.flush (pool : PoolId) (c : CompletionId) : Job :=
  { pool, oid := "", action := .flush, completion := c }

/-- The milestone that the worker fires when it makes its next step. -/
def InMemory.firing? (b : InMemory) : Option (CompletionId × Milestone) :=
  match b.worker with
  | .idle => none
  | .applied job _ => some (job.completion, b.config.order.first)
  | .halfway job _ => some (job.completion, b.config.order.second)

namespace Use

/-- The job that a use hands over, and the backend that gets it: a flush makes its completion
first. -/
def handsOver? (b : InMemory) : Use → Option (Job × InMemory)
  | issue pool oid c command => some ({ pool, oid, action := .command command, completion := c }, b)
  | beginFlush pool => some (.flush pool b.newCompletion.1, b.newCompletion.2)
  | _ => none

/-- What the worker applies, if the use is its step. -/
def application? (s : InMemory × Shelf) : Use → Option Application
  | work => s.1.application? s.2
  | _ => none

/-- The milestone that is fired, if the use is a step of the worker. -/
def firing? (b : InMemory) : Use → Option (CompletionId × Milestone)
  | work => b.firing?
  | _ => none

/-- Whether the use shuts the backend down. -/
def shutsDown : Use → Bool
  | shutdown => true
  | _ => false

/-- Whether those who make the use keep to their own completions. -/
def isFair (l : Ledger) : Use → Bool
  | issue _ _ c _ | release c => l.made.contains c
  | endFlush c => l.flushing.contains c
  | _ => true

end Use

namespace Ledger

/-- The completions that were given to users, after a use. -/
def madeAfter (l : Ledger) (b : InMemory) : Use → List CompletionId
  | .createCompletion => l.made ++ [b.createCompletion.1]
  | _ => l.made

/-- The completions of the flushes that are waited for, after a use. -/
def flushingAfter (l : Ledger) (b : InMemory) : Use → List CompletionId
  | .beginFlush pool =>
    match (b.beginFlush pool).1 with
    | .pending c => l.flushing ++ [c]
    | .done _ => l.flushing
  | .endFlush c => l.flushing.filter (· != c)
  | _ => l.flushing

/-- The ledger after a use. The operations handed over are numbered in their order. -/
def after (l : Ledger) (s : InMemory × Shelf) (u : Use) : Ledger where
  issues := l.issues ++
    ((u.handsOver? s.1).map fun p => p.2.issueOf l.issues.length p.1).toList
  applications := l.applications ++ (u.application? s).toList
  entries := l.entries ++ ((u.turn? s).map fun x => { toTurn := x, now := s.1.now }).toList
  firings := l.firings ++ (u.firing? s.1).toList
  made := l.madeAfter s.1 u
  flushing := l.flushingAfter s.1 u

/-- What a list of uses makes of a backend and its ledger, if they can happen and are fair. -/
def replay (l : Ledger) (s : InMemory × Shelf) : List Use → Option (Ledger × InMemory × Shelf)
  | [] => some (l, s)
  | u :: us => if u.isFair l then (u.next? s).bind fun t => replay (l.after s u) t us else none

end Ledger

/-- What can have happened to a backend whose users are fair, and the state after it. -/
inductive Service (config : InMemoryConfig) : Ledger → InMemory × Shelf → Prop
  | start (shelf : Shelf) : Service config {} (.ofConfig config, shelf)
  | use {l : Ledger} {s t : InMemory × Shelf} (u : Use) :
    Service config l s → u.isFair l = true → u.next? s = some t → Service config (l.after s u) t

/-! ## What a use does to the jobs -/

namespace InMemory

variable {b : InMemory} {c d : CompletionId} {f : Completion → Completion}

theorem isShutdown_of_accepts {job : Job} (ha : b.accepts job = true) : b.isShutdown = false := by
  simp only [accepts, Bool.and_eq_true, Bool.not_eq_true'] at ha
  exact ha.1.1.1.1

theorem isShutdown_submit {job : Job} : (b.submit job).2.isShutdown = b.isShutdown := by
  cases ha : b.accepts job with
  | true =>
    rw [submit_of_accepts ha]
    rfl
  | false => rw [submit_of_not_accepts ha]

theorem isShutdown_step? {b' : InMemory} {shelf shelf' : Shelf}
    (hs : b.step? shelf = some (b', shelf')) : b'.isShutdown = b.isShutdown := by
  unfold step? at hs
  split at hs
  · split at hs
    · cases hs
    · cases hs; rfl
  · cases hs; rfl
  · cases hs; rfl

namespace SameJobs

theorem refl (b : InMemory) : SameJobs b b := ⟨.refl b, rfl, rfl, fun _ => rfl⟩

theorem newCompletion (b : InMemory) : SameJobs b b.newCompletion.2 where
  worker := rfl
  fired _ := by rw [completion_newCompletion]
  returnValue _ := by rw [completion_newCompletion]
  config := rfl
  queue := rfl
  issued _ := by rw [completion_newCompletion]

/-- Releasing a completion leaves what is done with it. -/
theorem markReleased (c : CompletionId) :
    SameJobs b (b.onCompletion c ({ · with released := true })) where
  toSameProgress := .onCompletion c fun _ => ⟨rfl, rfl⟩
  config := rfl
  queue := rfl
  issued d := by
    by_cases hd : c = d
    · subst hd
      rcases Nat.lt_or_ge c b.completions.size with hc | hc
      · rw [completion_onCompletion_self hc]
      · rw [completion_of_le hc, completion_of_le (by simpa [InMemory.onCompletion] using hc)]
    · rw [completion_onCompletion_of_ne hd]

theorem release_any (c : CompletionId) : SameJobs b (b.release c) := by
  unfold InMemory.release
  split
  · exact ⟨⟨rfl, fun _ => rfl, fun _ => rfl⟩, rfl, rfl, fun _ => rfl⟩
  · have h := markReleased (b := b) c
    exact ⟨⟨rfl, h.fired, h.returnValue⟩, rfl, rfl, h.issued⟩

end SameJobs

end InMemory

namespace Use

variable {s t : InMemory × Shelf} {u : Use}

/-- What a use other than a step of the worker does to the jobs of a backend. -/
inductive Deals (s t : InMemory × Shelf) (u : Use) : Prop
  | leaves (hj : (u.handsOver? s.1).any (fun p => p.2.accepts p.1) = false)
      (hs : s.1.SameJobs t.1)
  | takes {job : Job} {b : InMemory} (hj : u.handsOver? s.1 = some (job, b))
      (hb : s.1.SameJobs b) (ha : b.accepts job = true) (ht : t.1 = (b.submit job).2)

/-- What is handed over is taken or leaves the backend that gets it. -/
theorem Deals.of_submit {job : Job} {b : InMemory} (hj : u.handsOver? s.1 = some (job, b))
    (hb : s.1.SameJobs b) (ht : t.1 = (b.submit job).2) : Deals s t u := by
  cases ha : b.accepts job with
  | true => exact .takes hj hb ha ht
  | false =>
    rw [InMemory.submit_of_not_accepts ha] at ht
    refine .leaves ?_ (ht ▸ hb)
    rw [hj]
    exact ha

/-- **A use leaves the jobs of the backend or hands over one more**, unless the worker makes it. -/
theorem deals (hn : u.next? s = some t) (hu : u ≠ .work) : Deals s t u := by
  cases u with
  | createCompletion =>
    cases hn
    exact .leaves rfl (.createCompletion s.1)
  | issue pool oid c command =>
    cases hn
    exact .of_submit rfl (.refl s.1) rfl
  | release c =>
    cases hn
    exact .leaves rfl (.release_any c)
  | beginFlush pool =>
    cases hn
    exact .of_submit rfl (.newCompletion s.1) rfl
  | endFlush c =>
    obtain ⟨⟨status, b⟩, hb, rfl⟩ := Option.map_eq_some_iff.mp hn
    obtain ⟨_, -, hb⟩ := Option.map_eq_some_iff.mp hb
    cases hb
    exact .leaves rfl (.markReleased c)
  | call k =>
    cases hn
    exact .leaves rfl (.call k s.1)
  | shutdown | clock | buffers =>
    cases hn
    exact .leaves rfl ⟨⟨rfl, fun _ => rfl, fun _ => rfl⟩, rfl, rfl, fun _ => rfl⟩
  | work => exact absurd rfl hu

/-- A use leaves the queue, or takes the oldest job from it, or adds a job that it hands over to
a backend that is not shut down. -/
theorem queue_cases (hn : u.next? s = some t) :
    t.1.queue = s.1.queue ∨ (u = .work ∧ ∃ job, s.1.queue = job :: t.1.queue) ∨
      ∃ job b, u.handsOver? s.1 = some (job, b) ∧ s.1.isShutdown = false ∧
        t.1.queue = s.1.queue ++ [job] := by
  by_cases hu : u = .work
  · subst hu
    obtain ⟨b, shelf⟩ := s
    simp only [next?, InMemory.step?] at hn
    cases hw : b.worker with
    | idle =>
      cases hq : b.queue with
      | nil => simp [hw, hq] at hn
      | cons job rest =>
        simp only [hw, hq, Option.some.injEq] at hn
        cases hn
        exact .inr (.inl ⟨rfl, job, rfl⟩)
    | applied job status | halfway job status =>
      simp only [hw, Option.some.injEq] at hn
      cases hn
      exact .inl rfl
  · cases u.deals hn hu with
    | leaves _ hs => exact .inl hs.queue
    | @takes job b hj hs ha ht =>
      refine .inr (.inr ⟨job, b, hj, ?_, ?_⟩)
      · have hopen : b.isShutdown = s.1.isShutdown := by
          cases u with
          | issue | beginFlush =>
            cases hj
            rfl
          | createCompletion | release | endFlush | call | shutdown | clock | buffers | work =>
            cases hj
        rw [← hopen]
        exact InMemory.isShutdown_of_accepts ha
      · rw [ht, InMemory.queue_submit ha, hs.queue]

/-- **Nothing but that use shuts a backend down**, and no use opens it again. -/
theorem isShutdown_eq (hn : u.next? s = some t) :
    t.1.isShutdown = (s.1.isShutdown || u.shutsDown) := by
  cases u with
  | createCompletion | clock | buffers =>
    cases hn
    exact (Bool.or_false _).symm
  | call k =>
    cases hn
    cases k <;> exact (Bool.or_false _).symm
  | shutdown =>
    cases hn
    exact (Bool.or_true _).symm
  | issue | beginFlush =>
    cases hn
    exact InMemory.isShutdown_submit.trans (Bool.or_false _).symm
  | release c =>
    cases hn
    change (s.1.release c).isShutdown = _
    unfold InMemory.release
    split <;> exact (Bool.or_false _).symm
  | endFlush c =>
    obtain ⟨⟨status, b⟩, hb, rfl⟩ := Option.map_eq_some_iff.mp hn
    obtain ⟨_, -, hb⟩ := Option.map_eq_some_iff.mp hb
    cases hb
    exact (Bool.or_false _).symm
  | work => exact (InMemory.isShutdown_step? hn).trans (Bool.or_false _).symm

/-- A backend that is shut down stays so. -/
theorem isShutdown_next? (hn : u.next? s = some t) (hs : s.1.isShutdown = true) :
    t.1.isShutdown = true := by
  rw [isShutdown_eq hn, hs, Bool.true_or]

/-- Users apply nothing and fire nothing. -/
theorem application?_eq_none (hu : u ≠ .work) :
    u.application? s = none ∧ u.firing? s.1 = none := by
  cases u with
  | work => exact absurd rfl hu
  | createCompletion | issue | release | beginFlush | endFlush | call | shutdown | clock
  | buffers => exact ⟨rfl, rfl⟩

end Use

/-! ## Going on -/

namespace Ledger

/-- The second ledger goes on from the first. -/
structure Extends (l l' : Ledger) : Prop where
  taken : l.taken <+: l'.taken
  applications : l.applications <+: l'.applications
  entries : l.entries <+: l'.entries
  firings : l.firings <+: l'.firings

namespace Extends

variable {l l' l'' : Ledger}

theorem refl (l : Ledger) : Extends l l :=
  ⟨List.prefix_refl _, List.prefix_refl _, List.prefix_refl _, List.prefix_refl _⟩

theorem trans (h : Extends l l') (h' : Extends l' l'') : Extends l l'' :=
  ⟨h.taken.trans h'.taken, h.applications.trans h'.applications, h.entries.trans h'.entries,
    h.firings.trans h'.firings⟩

theorem after (l : Ledger) (s : InMemory × Shelf) (u : Use) : Extends l (l.after s u) where
  taken := by
    have ht := l.toHistory.taken_append
      ((u.handsOver? s.1).map fun p => p.2.issueOf l.issues.length p.1).toList
      (l.after s u).applications
    exact ⟨_, ht.symm⟩
  applications := List.prefix_append ..
  entries := List.prefix_append ..
  firings := List.prefix_append ..

end Extends

/-- What one use more makes of the backend and its ledger. -/
theorem replay_concat {l : Ledger} {s : InMemory × Shelf} {uses : List Use} {u : Use} :
    l.replay s (uses ++ [u]) = (l.replay s uses).bind fun p =>
      if u.isFair p.1 then (u.next? p.2).map fun t => (p.1.after p.2 u, t) else none := by
  induction uses generalizing l s with
  | nil =>
    rw [List.nil_append, replay, replay, Option.bind_some]
    split
    · cases u.next? s <;> rfl
    · rfl
  | cons v us ih =>
    rw [List.cons_append, replay, replay]
    split
    · cases hn : v.next? s with
      | none => rfl
      | some t => exact ih
    · rfl

end Ledger

namespace Service

variable {config : InMemoryConfig} {l l' : Ledger} {s t : InMemory × Shelf} {uses : List Use}

/-- What holds at the start and outlives every fair use holds in every service. -/
theorem invariant {P : Ledger → InMemory × Shelf → Prop} (hs : Service config l s)
    (start : ∀ shelf, P {} (.ofConfig config, shelf))
    (step : ∀ {l s t} (u : Use), Service config l s → P l s → u.isFair l = true →
      u.next? s = some t → P (l.after s u) t) : P l s := by
  induction hs with
  | start shelf => exact start shelf
  | use u hs hfair hn ih => exact step u hs ih hfair hn

/-- **What follows on a service is a service**, and its ledger goes on from there. -/
theorem replay (hs : Service config l s) (hu : l.replay s uses = some (l', t)) :
    Service config l' t ∧ l.Extends l' := by
  induction uses generalizing l s with
  | nil =>
    cases hu
    exact ⟨hs, .refl _⟩
  | cons u us ih =>
    rw [Ledger.replay] at hu
    split at hu
    · rename_i hfair
      obtain ⟨s', hn, hu⟩ := Option.bind_eq_some_iff.mp hu
      obtain ⟨ht, he⟩ := ih (hs.use u hfair hn) hu
      exact ⟨ht, .trans (.after ..) he⟩
    · cases hu

/-- Fair uses of a fresh backend that can happen make a service. -/
theorem replay_get {shelf : Shelf}
    (hu : (Ledger.replay {} (.ofConfig config, shelf) uses).isSome = true) :
    Service config ((Ledger.replay {} (.ofConfig config, shelf) uses).get hu).1
      ((Ledger.replay {} (.ofConfig config, shelf) uses).get hu).2 :=
  ((start shelf).replay (Option.some_get hu).symm).1

end Service

/-! ## Whose completions there are -/

/-- Every completion given to a user is there; one of a flush that is waited for was given to
nobody and is not released. -/
structure Ledger.Owned (l : Ledger) (b : InMemory) : Prop where
  made : ∀ c ∈ l.made, c < b.completions.size
  flushing : ∀ c ∈ l.flushing,
    c < b.completions.size ∧ c ∉ l.made ∧ (b.completion c).released = false

namespace Ledger.Owned

variable {l l' : Ledger} {b b' : InMemory}

/-- What neither makes nor releases completions preserves it. -/
theorem sameTokens (ho : l.Owned b) (hs : b.SameTokens b') (hm : l'.made = l.made)
    (hf : l'.flushing = l.flushing) : l'.Owned b' where
  made := by rw [hm, hs.size]; exact ho.made
  flushing := by
    rw [hm, hf, hs.size]
    intro c hc
    rw [hs.flags]
    exact ho.flushing c hc

/-- A completion more that is given to a user. -/
theorem createCompletion (ho : l.Owned b) (hm : l'.made = l.made ++ [b.createCompletion.1])
    (hf : l'.flushing = l.flushing) : l'.Owned b.createCompletion.2 := by
  constructor
  · intro c hc
    rw [InMemory.size_createCompletion]
    rw [hm, List.mem_append, List.mem_singleton] at hc
    rcases hc with hc | rfl
    · exact Nat.lt_succ_of_lt (ho.made c hc)
    · exact Nat.lt_succ_self _
  · intro c hc
    obtain ⟨hlt, hnot, hr⟩ := ho.flushing c (hf ▸ hc)
    rw [InMemory.size_createCompletion, InMemory.completion_createCompletion, hm,
      List.mem_append, List.mem_singleton, not_or]
    exact ⟨Nat.lt_succ_of_lt hlt, ⟨hnot, Nat.ne_of_lt hlt⟩, hr⟩

/-- A release by a user leaves the completions of flushes. -/
theorem release (ho : l.Owned b) {c : CompletionId} (hc : c ∈ l.made) (hm : l'.made = l.made)
    (hf : l'.flushing = l.flushing) : l'.Owned (b.release c) := by
  constructor
  · rw [hm, InMemory.size_release]
    exact ho.made
  · intro d hd
    obtain ⟨hlt, hnot, hr⟩ := ho.flushing d (hf ▸ hd)
    have hcd : c ≠ d := fun h => hnot (h ▸ hc)
    rw [hm, InMemory.size_release]
    refine ⟨hlt, hnot, ?_⟩
    unfold InMemory.release
    split
    · exact hr
    · exact (congrArg _ (InMemory.completion_onCompletion_of_ne hcd)).trans hr

/-- A flush has a completion that was made for it alone. -/
theorem beginFlush (ho : l.Owned b) {pool : PoolId} (hm : l'.made = l.made)
    (hf : ∀ c ∈ l'.flushing, c ∈ l.flushing ∨ c = b.completions.size) :
    l'.Owned (b.beginFlush pool).2 := by
  have hsame := InMemory.SameTokens.beginFlush pool b
  have hsize := hsame.size.trans InMemory.size_newCompletion
  constructor
  · intro c hc
    rw [hsize]
    exact Nat.lt_succ_of_lt (ho.made c (hm ▸ hc))
  · intro c hc
    rw [hsize, hsame.flags, InMemory.completion_newCompletion, hm]
    rcases hf c hc with hc | rfl
    · obtain ⟨hlt, hnot, hr⟩ := ho.flushing c hc
      exact ⟨Nat.lt_succ_of_lt hlt, hnot, hr⟩
    · refine ⟨Nat.lt_succ_self _, fun h => Nat.lt_irrefl _ (ho.made _ h), ?_⟩
      rw [InMemory.completion_of_le (Nat.le_refl _)]

/-- The end of a flush releases the completion of that flush alone. -/
theorem endFlush (ho : l.Owned b) {c : CompletionId} (hm : l'.made = l.made)
    (hf : l'.flushing = l.flushing.filter (· != c)) :
    l'.Owned (b.onCompletion c ({ · with released := true })) := by
  have hsize : (b.onCompletion c ({ · with released := true })).completions.size =
      b.completions.size := by
    simp [InMemory.onCompletion]
  constructor
  · rw [hm, hsize]
    exact ho.made
  · intro d hd
    rw [hf, List.mem_filter, bne_iff_ne] at hd
    rw [hm, hsize, InMemory.completion_onCompletion_of_ne hd.2.symm]
    exact ho.flushing d hd.1

end Ledger.Owned

namespace Service

variable {config : InMemoryConfig} {l : Ledger} {s : InMemory × Shelf}

/-- **Nobody but its owner comes by a completion.** -/
theorem owned (hs : Service config l s) : l.Owned s.1 := by
  refine hs.invariant (P := fun l s => l.Owned s.1) (fun _ => ⟨nofun, nofun⟩) ?_
  intro l s t u _ ho hfair hn
  cases u with
  | createCompletion =>
    cases hn
    exact ho.createCompletion rfl rfl
  | issue pool oid c command =>
    cases hn
    exact ho.sameTokens (.submit_any _ s.1) rfl rfl
  | release c =>
    cases hn
    exact ho.release (List.contains_iff_mem.mp hfair) rfl rfl
  | beginFlush pool =>
    cases hn
    refine ho.beginFlush rfl fun c hc => ?_
    simp only [Ledger.after, Ledger.flushingAfter, InMemory.beginFlush] at hc
    split at hc
    · rename_i d hd
      split at hd
      · cases hd
      · cases hd
        exact (List.mem_append.mp hc).imp_right List.mem_singleton.mp
    · exact .inl hc
  | endFlush c =>
    obtain ⟨⟨status, b⟩, hb, rfl⟩ := Option.map_eq_some_iff.mp hn
    obtain ⟨_, -, hb⟩ := Option.map_eq_some_iff.mp hb
    cases hb
    exact ho.endFlush rfl rfl
  | call k =>
    cases hn
    exact ho.sameTokens (.call k s.1) rfl rfl
  | shutdown | clock | buffers =>
    cases hn
    exact ho.sameTokens ⟨rfl, fun _ => rfl, rfl, rfl, rfl⟩ rfl rfl
  | work => exact ho.sameTokens (.step hn) rfl rfl

end Service

end Milepost
