import Milepost.Proofs.Flight.Issue

/-!
# The completions of the backend in memory

What the operations of the backend do to one completion: making another leaves it, taking a job
marks the job's own as issued, releasing marks it as released, and firing resolves a milestone.

* `completion_release`: a release marks the completion released and nothing else.
* `SameJobs`: what leaves the queue, the worker and the progress of every completion alone.
-/

namespace Milepost

/-- The job that the worker is at, and its result. -/
def Worker.current? : Worker → Option (Job × Status)
  | idle => none
  | applied job status => some (job, status)
  | halfway job status => some (job, status)

namespace InMemory

variable {b b' : InMemory} {c d : CompletionId} {f : Completion → Completion}

theorem completion_of_le (h : b.completions.size ≤ c) : b.completion c = {} := by
  simp [completion, Array.getElem?_eq_none h]

theorem lt_size_of_issued (h : (b.completion c).issued = true) : c < b.completions.size := by
  rcases Nat.lt_or_ge c b.completions.size with hc | hc
  · exact hc
  · rw [completion_of_le hc] at h
    cases h

theorem completion_onCompletion_self (h : c < b.completions.size) :
    (b.onCompletion c f).completion c = f (b.completion c) := by
  simp only [completion, onCompletion, Array.getElem?_modify, if_pos,
    Array.getElem?_eq_getElem h]
  rfl

theorem completion_onCompletion_of_ne (h : c ≠ d) :
    (b.onCompletion c f).completion d = b.completion d := by
  simp [completion, onCompletion, Array.getElem?_modify, h]

/-- What firing a milestone of a job does to its completion. -/
theorem completion_fire_self {job : Job} {m : Milestone} {r : Status}
    (h : job.completion < b.completions.size) :
    (b.fire job m r).completion job.completion =
      (b.completion job.completion).fire m r (b.milestoneStatus job.oid m) :=
  completion_onCompletion_self h

theorem completion_fire_of_ne {job : Job} {m : Milestone} {r : Status}
    (h : job.completion ≠ d) : (b.fire job m r).completion d = b.completion d :=
  completion_onCompletion_of_ne h

theorem completion_createCompletion : b.createCompletion.2.completion d = b.completion d := by
  simp only [createCompletion, newCompletion, completion, Array.getElem?_push]
  split
  · rename_i h
    rw [h, Array.getElem?_eq_none (Nat.le_refl _)]
    rfl
  · rfl

theorem size_createCompletion :
    b.createCompletion.2.completions.size = b.completions.size + 1 := by
  simp [createCompletion, newCompletion]

theorem completion_newCompletion : b.newCompletion.2.completion d = b.completion d :=
  completion_createCompletion (b := b)

theorem size_newCompletion : b.newCompletion.2.completions.size = b.completions.size + 1 :=
  size_createCompletion (b := b)

theorem size_release : (b.release c).completions.size = b.completions.size := by
  unfold release
  split
  · rfl
  · simp [onCompletion]

/-- What a first release does. -/
theorem release_eq (h : (b.completion c).released = false) :
    b.release c =
      { b.onCompletion c ({ · with released := true }) with
        live := b.live - 1, released := b.released + 1 } := by
  simp [release, h]

/-- **A release marks the completion released and nothing else.** -/
theorem completion_release (hc : c < b.completions.size)
    (h : (b.completion c).released = false) :
    (b.release c).completion d =
      { b.completion d with released := (b.completion d).released || c == d } := by
  rw [release_eq h]
  by_cases hd : c = d
  · subst hd
    have hself := completion_onCompletion_self (f := ({ · with released := true })) hc
    simpa [completion] using hself
  · have hne := completion_onCompletion_of_ne (b := b) (f := ({ · with released := true })) hd
    have hbeq : (c == d) = false := by simpa using hd
    rw [hbeq, Bool.or_false]
    exact hne

theorem completion_submit {job : Job} (ha : b.accepts job = true) :
    (b.submit job).2.completion d =
      (b.onCompletion job.completion ({ · with issued := true })).completion d := by
  rw [submit_of_accepts ha]
  rfl

theorem store_submit {job : Job} : (b.submit job).2.store = b.store := by
  cases ha : b.accepts job with
  | true =>
    rw [submit_of_accepts ha]
    rfl
  | false => rw [submit_of_not_accepts ha]

/-- The second backend has the worker and the fired milestones of the first. -/
structure SameProgress (b b' : InMemory) : Prop where
  worker : b'.worker = b.worker
  fired : ∀ c, (b'.completion c).fired = (b.completion c).fired
  returnValue : ∀ c, (b'.completion c).returnValue = (b.completion c).returnValue

namespace SameProgress

theorem refl (b : InMemory) : SameProgress b b := ⟨rfl, fun _ => rfl, fun _ => rfl⟩

theorem trans {b'' : InMemory} (h : SameProgress b b') (h' : SameProgress b' b'') :
    SameProgress b b'' :=
  ⟨h'.worker.trans h.worker, fun c => (h'.fired c).trans (h.fired c),
    fun c => (h'.returnValue c).trans (h.returnValue c)⟩

/-- Changing a completion, but not what was fired of it, leaves the progress. -/
theorem onCompletion (c : CompletionId)
    (hf : ∀ k, (f k).fired = k.fired ∧ (f k).returnValue = k.returnValue) :
    SameProgress b (b.onCompletion c f) := by
  have hsame : ∀ d, ((b.onCompletion c f).completion d).fired = (b.completion d).fired ∧
      ((b.onCompletion c f).completion d).returnValue = (b.completion d).returnValue := by
    intro d
    by_cases hd : c = d
    · subst hd
      rcases Nat.lt_or_ge c b.completions.size with hc | hc
      · rw [completion_onCompletion_self hc]
        exact hf _
      · rw [completion_of_le hc, completion_of_le (by simpa [InMemory.onCompletion] using hc)]
        exact ⟨rfl, rfl⟩
    · rw [completion_onCompletion_of_ne hd]
      exact ⟨rfl, rfl⟩
  exact ⟨rfl, fun d => (hsame d).1, fun d => (hsame d).2⟩

theorem createCompletion (b : InMemory) : SameProgress b b.createCompletion.2 where
  worker := rfl
  fired _ := by rw [completion_createCompletion]
  returnValue _ := by rw [completion_createCompletion]

theorem submit (job : Job) (b : InMemory) : SameProgress b (b.submit job).2 := by
  cases ha : b.accepts job with
  | true =>
    rw [submit_of_accepts ha]
    have h := onCompletion (b := b) (f := ({ · with issued := true })) job.completion
      fun _ => ⟨rfl, rfl⟩
    exact ⟨rfl, h.fired, h.returnValue⟩
  | false =>
    rw [submit_of_not_accepts ha]
    exact refl b

theorem release (c : CompletionId) (b : InMemory) : SameProgress b (b.release c) := by
  unfold InMemory.release
  split
  · exact ⟨rfl, fun _ => rfl, fun _ => rfl⟩
  · have h := onCompletion (b := b) (f := ({ · with released := true })) c fun _ => ⟨rfl, rfl⟩
    exact ⟨rfl, h.fired, h.returnValue⟩

end SameProgress

/-- The second backend has the queue, the worker and the progress of every completion of the
first. -/
structure SameJobs (b b' : InMemory) : Prop extends SameProgress b b' where
  config : b'.config = b.config
  queue : b'.queue = b.queue
  issued : ∀ c, (b'.completion c).issued = (b.completion c).issued

namespace SameJobs

theorem createCompletion (b : InMemory) : SameJobs b b.createCompletion.2 where
  toSameProgress := .createCompletion b
  config := rfl
  queue := rfl
  issued _ := by rw [completion_createCompletion]

theorem release (hc : c < b.completions.size) (h : (b.completion c).released = false) :
    SameJobs b (b.release c) where
  toSameProgress := .release c b
  config := by rw [release_eq h]; rfl
  queue := by rw [release_eq h]; rfl
  issued _ := by rw [completion_release hc h]

theorem call (k : StoreCall) (b : InMemory) : SameJobs b (k.run b).2 := by
  cases k <;> exact ⟨⟨rfl, fun _ => rfl, fun _ => rfl⟩, rfl, rfl, fun _ => rfl⟩

end SameJobs

/-- The second backend has the same completions released as the first, and counts the same. -/
structure SameTokens (b b' : InMemory) : Prop where
  size : b'.completions.size = b.completions.size
  flags : ∀ c, (b'.completion c).released = (b.completion c).released
  live : b'.live = b.live
  released : b'.released = b.released
  doubleReleases : b'.doubleReleases = b.doubleReleases

namespace SameTokens

/-- Changing a completion, but not whether it is released, leaves the tokens. -/
theorem onCompletion (c : CompletionId) (hf : ∀ k, (f k).released = k.released) :
    SameTokens b (b.onCompletion c f) where
  size := by simp [InMemory.onCompletion]
  flags d := by
    by_cases hd : c = d
    · subst hd
      rcases Nat.lt_or_ge c b.completions.size with hc | hc
      · rw [completion_onCompletion_self hc, hf]
      · rw [completion_of_le hc, completion_of_le (by simpa [InMemory.onCompletion] using hc)]
    · rw [completion_onCompletion_of_ne hd]
  live := rfl
  released := rfl
  doubleReleases := rfl

theorem refl (b : InMemory) : SameTokens b b := ⟨rfl, fun _ => rfl, rfl, rfl, rfl⟩

theorem submit {job : Job} (ha : b.accepts job = true) : SameTokens b (b.submit job).2 := by
  have h := onCompletion (b := b) (f := ({ · with issued := true })) job.completion fun _ => rfl
  rw [submit_of_accepts ha]
  exact ⟨h.size, h.flags, rfl, rfl, rfl⟩

/-- A job leaves the tokens whether it is taken or not. -/
theorem submit_any (job : Job) (b : InMemory) : SameTokens b (b.submit job).2 := by
  cases ha : b.accepts job with
  | true => exact .submit ha
  | false =>
    rw [submit_of_not_accepts ha]
    exact .refl b

/-- A flush makes one completion, and leaves the tokens beside it. -/
theorem beginFlush (pool : PoolId) (b : InMemory) :
    SameTokens b.newCompletion.2 (b.beginFlush pool).2 :=
  submit_any ..

theorem fire (job : Job) (m : Milestone) (status : Status) (worker : Worker) :
    SameTokens b { b.fire job m status with worker } := by
  have h := onCompletion (b := b)
    (f := (·.fire m status (b.milestoneStatus job.oid m))) job.completion fun _ => rfl
  exact ⟨h.size, h.flags, rfl, rfl, rfl⟩

theorem step {shelf shelf' : Shelf} (hs : b.step? shelf = some (b', shelf')) :
    SameTokens b b' := by
  unfold step? at hs
  split at hs
  · split at hs
    · cases hs
    · cases hs; exact ⟨rfl, fun _ => rfl, rfl, rfl, rfl⟩
  · cases hs; exact .fire ..
  · cases hs; exact .fire ..

theorem call (k : StoreCall) (b : InMemory) : SameTokens b (k.run b).2 := by
  cases k <;> exact ⟨rfl, fun _ => rfl, rfl, rfl, rfl⟩

end SameTokens

end InMemory

end Milepost
