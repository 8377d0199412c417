import Mathlib.Algebra.Ring.Int.Defs
import Milepost.Proofs.Metering
import Milepost.Proofs.Watching

/-!
# Operations that are not issued

An operation need not get to the backend: there may be no completion for it, the backend may refuse
it, or the buffer of a read may be too large to be made. This follows one flight, over any backend
and whatever happens to the world between its steps, as long as nothing is accepted. The first two
are failures that the owner is told of, by one call and by both futures, and one refusal more is
counted. The third ends the issuer on the spot: nobody is called, nothing is counted, and the
futures are given up. In every case a completion that was made is released once.

* `Unissued.issuerStep`: what one step of the issuer does on this way.
* `Flying.withheld`: how far such a flight is, after any of its steps.
* `Flying.unissued_is_told`: how it ends, and that it does.
* `Run.exists_flying`: the flights of a run are such flights.
-/

namespace Milepost

/-- A step that a task of a flight made, and the world it found and left. -/
structure Stride (β : Type) where
  actor : Actor
  before : Flight
  found : World β
  after : Flight
  left : World β

namespace Stride

variable {β : Type}

/-- What the backend was asked by the step. -/
def asked [ObjectBackend β] (s : Stride β) : List CompletionCall :=
  match System.actorStep? s.actor s.before (s.found.watched []) with
  | some (_, v) => v.backend.calls
  | none => []

/-- What the step added to a meter of an account. -/
def counted (a : AccountId) (x : Meter) (s : Stride β) : Int :=
  s.left.reading a x - s.found.reading a x

end Stride

/-- What can have become of an operation submitted through an object: the steps of its tasks, and
its flight after them. Anything may happen to the world in between. -/
inductive Flying {β : Type} [ObjectBackend β] (o : AsyncObject) (r : Request) :
    List (Stride β) → Flight → Prop
  | submitted : Flying o r [] { task := o.task r }
  | step {strides : List (Stride β)} {f g : Flight} {w w' : World β} (a : Actor)
      (hf : Flying o r strides f) (hs : System.actorStep? a f w = some (g, w')) :
    Flying o r (strides ++ [⟨a, f, w, g, w'⟩]) g

/-- The buffer of the request is larger than a buffer may be. -/
def Request.Overflows (r : Request) : Prop :=
  ∃ length offset, r.operation = .read length offset ∧ Buffer.maxAllocation < length

/-- Why an operation is not issued, and what the backend was asked by the time its owner is
told. -/
inductive Request.Foils (pool : PoolId) (r : Request) : Failure → List CompletionCall → Prop
  | unmade {e : Failure} : Foils pool r e [.created (.error e)]
  | refused {c : CompletionId} {command : Command} {answer : Status}
      (he : answer.isError = true) :
    Foils pool r (r.refusal answer)
      [.created (.ok c), .issued pool r.oid c command answer, .released c]

namespace Flight

/-- The owner has heard nothing yet. -/
structure IsQuiet (f : Flight) : Prop where
  invocations : f.invocations = []
  futures : f.futures = .const none

/-- After the call about a failure, which raised or not: the phase of the issuer, and what the
futures were answered. -/
inductive Answering (e : Failure) : Bool → IssuerPhase → PerMilestone (Option Outcome) → Prop
  | notified : Answering e false (.notified e) (.const none)
  | answered : Answering e false (.answered e) ⟨some (.failed e), none⟩
  | told : Answering e false .finished (.const (some (.failed e)))
  | raised : Answering e true .lost (.const none)
  | lost : Answering e true .finished (.const (some .lost))

/-- A flight on its way without being issued: what the backend was asked for it, and how many
refusals were counted. -/
inductive Unissued (f : Flight) : List CompletionCall → Int → Prop
  | ready (hp : f.issuer = .ready) (hq : f.IsQuiet) : Unissued f [] 0
  | created {h : Handle} {c : CompletionId} (hp : f.issuer = .created) (hh : f.handle = some h)
      (hn : h.native = some c) (hr : h.released = false) (hi : h.issued = false)
      (hq : f.IsQuiet) : Unissued f [.created (.ok c)] 0
  | refused {h : Handle} {c : CompletionId} {command : Command} {answer : Status}
      (hp : f.issuer = .refused (f.task.request.refusal answer)) (hh : f.handle = some h)
      (hn : h.native = some c) (hr : h.released = false) (he : answer.isError = true)
      (hq : f.IsQuiet) :
    Unissued f [.created (.ok c), .issued f.task.pool f.task.request.oid c command answer] 0
  | rejected {e : Failure} {asked : List CompletionCall} (hp : f.issuer = .rejected e)
      (hu : f.task.request.Foils f.task.pool e asked) (hq : f.IsQuiet) : Unissued f asked 0
  | told {e : Failure} {asked : List CompletionCall} {raised : Bool}
      (hu : f.task.request.Foils f.task.pool e asked)
      (hc : f.invocations = (f.rejection e).toList) (hr : raises (f.rejection e) = raised)
      (ha : Answering e raised f.issuer f.futures) : Unissued f asked 1
  | crashed {h : Handle} {c : CompletionId} (hp : f.issuer = .crashed) (hh : f.handle = some h)
      (hn : h.native = some c) (hr : h.released = false) (hl : f.task.request.Overflows)
      (hq : f.IsQuiet) : Unissued f [.created (.ok c)] 0
  | dropped {c : CompletionId} (hp : f.issuer = .lost) (hl : f.task.request.Overflows)
      (hq : f.IsQuiet) : Unissued f [.created (.ok c), .released c] 0
  | lost {c : CompletionId} (hp : f.issuer = .finished) (hl : f.task.request.Overflows)
      (hc : f.invocations = []) (hf : f.futures = .const (some .lost)) :
    Unissued f [.created (.ok c), .released c] 0

end Flight

/-! ## What is counted -/

section Refusals

variable {β : Type} {f : Flight} {w v : World β} {b : AccountId} {n : Int}

/-- What does not concern refusals leaves their number. -/
theorem World.reading_refused_count {a : AccountId} {l : OperationKind}
    {k : OperationMeters → OperationMeters} (ha : a < w.accounts.size)
    (hk : ∀ o, (k o).refused = o.refused) :
    (w.count b k).reading a (.refused l) = w.reading a (.refused l) := by
  by_cases h : b = a
  · subst h
    rw [reading_count_self ha, OperationMeters.reading, hk]
    rfl
  · exact reading_count_of_ne h

/-- How many refusals of operations like that of the flight were counted on its account. -/
def Flight.refusals (f : Flight) (w v : World β) : Int :=
  v.reading f.task.account (.refused f.task.request.kind) -
    w.reading f.task.account (.refused f.task.request.kind)

theorem Flight.add_refusals_of_accounts (hv : v.accounts = w.accounts) :
    n = n + f.refusals w v := by
  rw [refusals, World.reading_congr hv, Int.sub_self, Int.add_zero]

theorem Flight.add_refusals_count {k : OperationMeters → OperationMeters}
    (ha : f.task.account < w.accounts.size) (hv : v.accounts = (w.count b k).accounts)
    (hk : ∀ o, (k o).refused = o.refused) : n = n + f.refusals w v := by
  rw [refusals, World.reading_congr hv, World.reading_refused_count ha hk, Int.sub_self,
    Int.add_zero]

/-- A refusal is counted. -/
theorem Flight.add_refusals_rejected (ha : f.task.account < w.accounts.size)
    (hv : v.accounts =
      (w.count f.task.account (·.operationRefused f.task.request.kind)).accounts) :
    1 = 0 + f.refusals w v := by
  rw [refusals, World.reading_congr hv, World.reading_count_self ha]
  simp only [OperationMeters.reading, OperationMeters.operationRefused,
    PerOperation.total_get_modify, World.reading, BEq.rfl, Bool.toInt_true]
  omega

end Refusals

/-! ## The steps of the issuer -/

namespace Flight

variable {β : Type} [ObjectBackend β] {f g : Flight} {w w' : World β}
  {asked : List CompletionCall} {n : Int}

/-- What a step of the issuer does to an operation that is not issued: it is accepted now, or it
is still on its way without being issued. -/
def GoesOn (f : Flight) (asked : List CompletionCall) (n : Int) (w : World β) (g : Flight)
    (w' : World β) : Prop :=
  ∃ calls m,
    (∀ before, f.issuerStep? (w.watched before) = some (g, w'.watched (before ++ calls))) ∧
    ((∃ k ∈ calls, k.isTaken = true) ∨
      g.task = f.task ∧ g.waiters = f.waiters ∧ m = n + f.refusals w w' ∧
        g.Unissued (asked ++ calls) m)

/-- A step that asks the backend nothing and leaves the world. -/
theorem GoesOn.inside
    (hs : ∀ before, f.issuerStep? (w.watched before) = some (g, w.watched before))
    (ht : g.task = f.task) (hw : g.waiters = f.waiters) (hu : g.Unissued asked n) :
    f.GoesOn asked n w g w := by
  refine ⟨[], n, fun before => ?_, .inr ⟨ht, hw, add_refusals_of_accounts rfl, ?_⟩⟩
  · rw [hs, List.append_nil]
  · rwa [List.append_nil]

/-- The handle is made, or it is not. -/
theorem goesOn_of_ready (hp : f.issuer = .ready) (hq : f.IsQuiet)
    (ha : f.task.account < w.accounts.size) (hs : f.issuerStep? w = some (g, w')) :
    f.GoesOn [] 0 w g w' := by
  generalize hc : ObjectBackend.createCompletion w.backend = s
  obtain ⟨e | c, backend⟩ := s
  · have hcreate : Handle.create f.task.account f.task.context w =
        (.error e, { w with backend }) := by
      rw [Handle.create_eq, hc]
    simp only [issuerStep?, hp, hcreate] at hs
    cases hs
    refine ⟨[.created (.error e)], 0, fun before => ?_, .inr ⟨rfl, rfl, ?_, ?_⟩⟩
    · simp only [issuerStep?, hp, Handle.create_watched, hcreate, hc]
    · exact add_refusals_of_accounts rfl
    · exact .rejected rfl .unmade ⟨hq.invocations, hq.futures⟩
  · have hcreate : Handle.create f.task.account f.task.context w =
        (.ok { native := some c, account := f.task.account, context := f.task.context },
          { w with backend }.count f.task.account .handleCreated) := by
      rw [Handle.create_eq, hc]
    simp only [issuerStep?, hp, hcreate] at hs
    cases hs
    refine ⟨[.created (.ok c)], 0, fun before => ?_, .inr ⟨rfl, rfl, ?_, ?_⟩⟩
    · simp only [issuerStep?, hp, Handle.create_watched, hcreate, hc]
    · exact add_refusals_count (k := .handleCreated) ha rfl fun _ => rfl
    · exact .created rfl rfl rfl rfl rfl ⟨hq.invocations, hq.futures⟩

/-- The operation is handed to the backend, if it can be. -/
theorem goesOn_of_created {h : Handle} {c : CompletionId} (hp : f.issuer = .created)
    (hh : f.handle = some h) (hn : h.native = some c) (hr : h.released = false)
    (hi : h.issued = false) (hq : f.IsQuiet) (hs : f.issuerStep? w = some (g, w')) :
    f.GoesOn [.created (.ok c)] 0 w g w' := by
  obtain ⟨calls, hissuing, hwatched⟩ := h.exists_issuing f.task.pool f.task.request w
  generalize hissue : h.issue f.task.pool f.task.request w = s at hissuing hwatched
  obtain ⟨i, h', v⟩ := s
  simp only [issuerStep?, hp, hh, hissue] at hs
  cases hissuing with
  | again hissued => cases hissued.symm.trans hi
  | late _ hnone => cases hnone.symm.trans hn
  | overflow _ _ hop hl =>
    cases hs
    refine .inside (fun before => ?_) rfl rfl
      (.crashed rfl rfl hn hr ⟨_, _, hop, hl⟩ ⟨hq.invocations, hq.futures⟩)
    simp only [issuerStep?, hp, hh, hwatched, List.append_nil]
  | @accepted d buffer command answer _ _ _ _ he =>
    cases hs
    refine ⟨[.issued f.task.pool f.task.request.oid d command answer], 0, fun before => ?_,
      .inl ⟨_, List.mem_singleton_self _, ?_⟩⟩
    · simp only [issuerStep?, hp, hh, hwatched]
    · rw [CompletionCall.isTaken, he]
      rfl
  | @refused d command answer _ _ hn' hsent he =>
    cases hs
    cases hn.symm.trans hn'
    refine ⟨[.issued f.task.pool f.task.request.oid c command answer], 0, fun before => ?_,
      .inr ⟨rfl, rfl, ?_, ?_⟩⟩
    · simp only [issuerStep?, hp, hh, hwatched]
    · exact add_refusals_of_accounts hsent.accounts
    · exact .refused rfl rfl hn hr he ⟨hq.invocations, hq.futures⟩

/-- The handle of a refused operation is released. -/
theorem goesOn_of_refused {h : Handle} {c : CompletionId} {command : Command} {answer : Status}
    (hp : f.issuer = .refused (f.task.request.refusal answer)) (hh : f.handle = some h)
    (hn : h.native = some c) (hr : h.released = false) (he : answer.isError = true)
    (hq : f.IsQuiet) (ha : f.task.account < w.accounts.size)
    (hs : f.issuerStep? w = some (g, w')) :
    f.GoesOn
      [.created (.ok c), .issued f.task.pool f.task.request.oid c command answer] 0 w g w' := by
  have hfail := h.fail_eq (f.task.request.refusal answer)
  have hreleased : (h.fail (f.task.request.refusal answer)).released = false := by
    rw [hfail]
    exact hr
  have hcalls : (h.fail (f.task.request.refusal answer)).releaseCalls = [.released c] := by
    rw [hfail]
    simp [Handle.releaseCalls, hr, hn]
  have haccounts := Handle.accounts_release (w := w) hreleased
  have hwatched := (h.fail (f.task.request.refusal answer)).release_watched w
  simp only [issuerStep?, hp, releaseRefused, hh] at hs
  cases hs
  refine ⟨[.released c], 0, fun before => ?_, .inr ⟨rfl, rfl, ?_, ?_⟩⟩
  · simp only [issuerStep?, hp, releaseRefused, hh, hwatched, hcalls]
  · exact add_refusals_count (k := .handleReleased) ha haccounts fun _ => rfl
  · exact .rejected rfl (.refused he) ⟨hq.invocations, hq.futures⟩

/-- The owner is called back about the failure. -/
theorem goesOn_of_rejected {e : Failure} (hp : f.issuer = .rejected e)
    (hu : f.task.request.Foils f.task.pool e asked) (hq : f.IsQuiet)
    (ha : f.task.account < w.accounts.size) (hs : f.issuerStep? w = some (g, w')) :
    f.GoesOn asked 0 w g w' := by
  simp only [issuerStep?, hp, reject] at hs
  cases hs
  refine ⟨[], 1, fun before => ?_, .inr ⟨rfl, rfl, ?_, ?_⟩⟩
  · simp only [issuerStep?, hp, reject, List.append_nil]
    rfl
  · exact add_refusals_rejected ha rfl
  · rw [List.append_nil]
    have hcalls : f.invocations ++ (f.rejection e).toList = (f.rejection e).toList := by
      rw [hq.invocations, List.nil_append]
    have hanswering : ∀ {raised}, raises (f.rejection e) = raised → Answering e raised
        (if raises (f.rejection e) then .lost else .notified e) f.futures := by
      rintro raised rfl
      rw [hq.futures]
      cases raises (f.rejection e)
      · exact .notified
      · exact .raised
    exact .told hu hcalls rfl (hanswering rfl)

/-- The futures are answered, or given up. -/
theorem goesOn_of_told {e : Failure} {raised : Bool}
    (hu : f.task.request.Foils f.task.pool e asked)
    (hc : f.invocations = (f.rejection e).toList) (hr : raises (f.rejection e) = raised)
    (ha : Answering e raised f.issuer f.futures) (hs : f.issuerStep? w = some (g, w')) :
    f.GoesOn asked 1 w g w' := by
  generalize hp : f.issuer = p, hf : f.futures = futures at ha
  cases ha with
  | notified =>
    simp only [issuerStep?, hp] at hs
    cases hs
    have hanswering : Answering e false (.answered e)
        (f.futures.set .complete (some (.failed e))) := by
      rw [hf]
      exact .answered
    exact .inside (fun before => by simp only [issuerStep?, hp]) rfl rfl
      (.told hu hc hr hanswering)
  | answered =>
    simp only [issuerStep?, hp] at hs
    cases hs
    have hanswering : Answering e false .finished
        (f.futures.set .safe (some (.failed e))) := by
      rw [hf]
      exact .told
    exact .inside (fun before => by simp only [issuerStep?, hp]) rfl rfl
      (.told hu hc hr hanswering)
  | raised =>
    simp only [issuerStep?, hp] at hs
    cases hs
    exact .inside (fun before => by simp only [issuerStep?, hp]) rfl rfl (.told hu hc hr .lost)
  | told | lost => simp [issuerStep?, hp] at hs

/-- The handle is dropped. -/
theorem goesOn_of_crashed {h : Handle} {c : CompletionId} (hp : f.issuer = .crashed)
    (hh : f.handle = some h) (hn : h.native = some c) (hr : h.released = false)
    (hl : f.task.request.Overflows) (hq : f.IsQuiet) (ha : f.task.account < w.accounts.size)
    (hs : f.issuerStep? w = some (g, w')) : f.GoesOn [.created (.ok c)] 0 w g w' := by
  have hdrop : ∀ {γ : Type} [ObjectBackend γ] (v : World γ), h.drop v = (h.release v).2 := by
    intro γ _ v
    rw [Handle.drop, if_neg (by simp [hr])]
  have hcalls : h.releaseCalls = [.released c] := by simp [Handle.releaseCalls, hr, hn]
  have hwatched := h.release_watched w
  simp only [issuerStep?, hp, hh, hdrop] at hs
  cases hs
  refine ⟨[.released c], 0, fun before => ?_, .inr ⟨rfl, rfl, ?_, ?_⟩⟩
  · simp only [issuerStep?, hp, hh, hdrop, hwatched, hcalls]
  · exact add_refusals_count (k := .handleReleased) ha (Handle.accounts_release hr) fun _ => rfl
  · exact .dropped rfl hl ⟨hq.invocations, hq.futures⟩

/-- The futures are given up. -/
theorem goesOn_of_dropped {c : CompletionId} (hp : f.issuer = .lost)
    (hl : f.task.request.Overflows) (hq : f.IsQuiet) (hs : f.issuerStep? w = some (g, w')) :
    f.GoesOn [.created (.ok c), .released c] 0 w g w' := by
  simp only [issuerStep?, hp] at hs
  cases hs
  exact .inside (fun before => by simp only [issuerStep?, hp]) rfl rfl
    (.lost rfl hl hq.invocations rfl)

/-- **The issuer accepts an operation, or leaves it on its way without being issued.** -/
theorem Unissued.issuerStep (hu : f.Unissued asked n) (ha : f.task.account < w.accounts.size)
    (hs : f.issuerStep? w = some (g, w')) : f.GoesOn asked n w g w' := by
  cases hu with
  | ready hp hq => exact goesOn_of_ready hp hq ha hs
  | created hp hh hn hr hi hq => exact goesOn_of_created hp hh hn hr hi hq hs
  | refused hp hh hn hr he hq => exact goesOn_of_refused hp hh hn hr he hq ha hs
  | rejected hp hu hq => exact goesOn_of_rejected hp hu hq ha hs
  | told hu hc hr ht => exact goesOn_of_told hu hc hr ht hs
  | crashed hp hh hn hr hl hq => exact goesOn_of_crashed hp hh hn hr hl hq ha hs
  | dropped hp hl hq => exact goesOn_of_dropped hp hl hq hs
  | lost hp => simp [issuerStep?, hp] at hs

/-- A waiter that was not started makes no step. -/
theorem waiterStep?_of_idle {m : Milestone} (hi : f.waiters = .const .idle) :
    f.waiterStep? m w = none := by
  cases hh : f.handle with
  | none => simp [waiterStep?, hh]
  | some h => simp [waiterStep?, hh, waiterStepWith?, hi]

end Flight

/-! ## The whole way -/

namespace Flying

open Flight

variable {β : Type} [ObjectBackend β] {o : AsyncObject} {r : Request}
  {strides : List (Stride β)} {f : Flight}

/-- How far a flight is of which nothing was accepted. -/
structure Withheld (o : AsyncObject) (r : Request) (strides : List (Stride β)) (f : Flight) :
    Prop where
  task : f.task = o.task r
  idle : f.waiters = .const .idle
  unissued : f.Unissued (strides.flatMap (·.asked))
    (strides.map (·.counted o.account (.refused r.kind))).sum
  rank : strides.length + f.issuer.rank ≤ 6

/-- **How far a flight is of which nothing was accepted**, after any of its steps. -/
theorem withheld (hf : Flying o r strides f)
    (ha : ∀ s ∈ strides, o.account < s.found.accounts.size)
    (hu : ∀ k ∈ strides.flatMap (·.asked), k.isTaken = false) : Withheld o r strides f := by
  induction hf with
  | submitted => exact ⟨rfl, rfl, .ready rfl ⟨rfl, rfl⟩, Nat.le_refl 6⟩
  | @step strides f g w w' a hf hs ih =>
    -- The waiters were never started, so it was the issuer that made the last step.
    rw [List.flatMap_append] at hu
    have hw := ih (fun s hs => ha s (List.mem_append_left _ hs))
      (fun k hk => hu k (List.mem_append_left _ hk))
    cases a with
    | waiter i m =>
      rw [System.actorStep?, waiterStep?_of_idle hw.idle] at hs
      cases hs
    | issuer i =>
      have haccount : f.task.account < w.accounts.size := by
        rw [hw.task]
        exact ha _ (List.mem_append_right _ (List.mem_singleton_self _))
      obtain ⟨calls, n, hwatched, hgoes⟩ := hw.unissued.issuerStep haccount hs
      have hasked : (⟨.issuer i, f, w, g, w'⟩ : Stride β).asked = calls := by
        simp only [Stride.asked, System.actorStep?, hwatched]
        rfl
      have hnone : ∀ k ∈ calls, k.isTaken = false := by
        intro k hk
        refine hu k (List.mem_append_right _ ?_)
        rwa [List.flatMap_singleton, hasked]
      rcases hgoes with ⟨k, hk, htaken⟩ | ⟨htask, hwaiters, rfl, hunissued⟩
      · exact Bool.noConfusion ((hnone k hk).symm.trans htaken)
      · refine ⟨htask.trans hw.task, hwaiters.trans hw.idle, ?_, ?_⟩
        · rw [List.flatMap_append, List.flatMap_singleton, hasked, List.map_append,
            List.map_singleton, List.sum_append, List.sum_singleton]
          have hcounted : f.refusals w w' =
              (⟨.issuer i, f, w, g, w'⟩ : Stride β).counted o.account (.refused r.kind) := by
            rw [Flight.refusals, hw.task]
            rfl
          exact hcounted ▸ hunissued
        · have hrank := hw.rank
          have hless := rank_issuerStep hs
          rw [List.length_append, List.length_singleton]
          omega

/-- What the owner of an object is called with about an operation that failed to be issued. -/
theorem rejection_eq {e : Failure} (ht : f.task = o.task r) :
    (f.rejection e).toList = (o.callbacks.get .failure).toList.map (fun k =>
        { occasion := .failure, callback := k, thread := (o.task r).issuerThread
          arguments := o.callbacks.snapshot none, failure := some e }) ∧
      raises (f.rejection e) = (o.callbacks.get .failure).any (·.raises) := by
  have hcall : f.rejection e = (o.callbacks.get .failure).map fun k =>
      { occasion := .failure, callback := k, thread := (o.task r).issuerThread
        arguments := o.callbacks.snapshot none, failure := some e } := by
    rw [rejection, ht]
    rfl
  rw [hcall]
  cases o.callbacks.get .failure <;> exact ⟨rfl, rfl⟩

/-- An operation that has a completion fails to be issued as one that was refused, and its
completion is released once. -/
theorem of_foils {e : Failure} {asked : List CompletionCall} {c : CompletionId}
    (hu : r.Foils o.pool e asked) (hc : .created (.ok c) ∈ asked) :
    e.kind = .issueFailed ∧ asked.countP (·.isReleaseOf c) = 1 := by
  cases hu with
  | unmade => simp at hc
  | refused he =>
    obtain rfl : c = _ := by simpa using hc
    refine ⟨rfl, ?_⟩
    simp [CompletionCall.isReleaseOf]

/-- What a list of steps makes of a flight, if nothing else happens to the world. -/
def replay (strides : List (Stride β)) (f : Flight) (w : World β) :
    List Actor → Option (List (Stride β) × Flight)
  | [] => some (strides, f)
  | a :: rest => (System.actorStep? a f w).bind fun (g, w') =>
    replay (strides ++ [⟨a, f, w, g, w'⟩]) g w' rest

theorem of_replay {strides' : List (Stride β)} {f' : Flight} {w : World β} {actors : List Actor}
    (hf : Flying o r strides f) (hs : replay strides f w actors = some (strides', f')) :
    Flying o r strides' f' := by
  induction actors generalizing strides f w with
  | nil =>
    cases hs
    exact hf
  | cons a rest ih =>
    obtain ⟨⟨g, w'⟩, hstep, hs⟩ := Option.bind_eq_some_iff.mp hs
    exact ih (hf.step a hstep) hs

end Flying

namespace Sample

/-- A world in which nothing has happened. -/
def freshWorld : World InMemory := (System.fresh config 1).world

/-- An object of a pool that there is not. -/
def strayObject : AsyncObject := { object with pool := 7 }

def shortRead : Request := ⟨"object", .read 2 0⟩

/-- A read that no buffer is large enough for. -/
def hugeRead : Request := ⟨"object", .read 0x8000000000000000 0⟩

theorem isSome_replay_strayObject :
    (Flying.replay [] { task := strayObject.task shortRead } freshWorld
      (.replicate 6 (.issuer 0))).isSome = true := by
  decide +kernel

/-- The steps of the read that is refused, and its flight after them. -/
@[irreducible]
def turnedDown : List (Stride InMemory) × Flight :=
  (Flying.replay [] { task := strayObject.task shortRead } freshWorld
    (.replicate 6 (.issuer 0))).get isSome_replay_strayObject

theorem flying_turnedDown : Flying strayObject shortRead turnedDown.1 turnedDown.2 := by
  unfold turnedDown
  exact Flying.submitted.of_replay (Option.some_get isSome_replay_strayObject).symm

theorem isSome_replay_hugeRead :
    (Flying.replay [] { task := object.task hugeRead } freshWorld
      (.replicate 4 (.issuer 0))).isSome = true := by
  decide +kernel

/-- The steps of the read that is too large, and its flight after them. -/
@[irreducible]
def overflown : List (Stride InMemory) × Flight :=
  (Flying.replay [] { task := object.task hugeRead } freshWorld
    (.replicate 4 (.issuer 0))).get isSome_replay_hugeRead

theorem flying_overflown : Flying object hugeRead overflown.1 overflown.2 := by
  unfold overflown
  exact Flying.submitted.of_replay (Option.some_get isSome_replay_hugeRead).symm

end Sample

namespace Flying

open Flight

variable {β : Type} [ObjectBackend β] {o : AsyncObject} {r : Request}
  {strides : List (Stride β)} {f : Flight}

/-- **What becomes of an operation that is not issued.** It is submitted through an object over any
backend, and nothing is accepted of it, whatever happens to the world between its steps. The issuer
always has a next step until it ends, and ends after six at most; no waiter is started. Then either
there is a failure, of which the owner was told by one call of the callback for failures and by both
futures (a callback that raises makes the issuer give them up), and one refusal was counted: the
failure is that of the backend that made no completion, or it is a failed issue and the completion
was released once. Or the buffer of a read would have been too large: then the completion was
released once as well, but nobody was called, nothing was counted, and the futures were given up. -/
theorem unissued_is_told (hf : Flying o r strides f)
    (ha : ∀ s ∈ strides, o.account < s.found.accounts.size)
    (hu : ∀ k ∈ strides.flatMap (·.asked), k.isTaken = false) :
    (f.issuer ≠ .finished → ∀ w : World β, (f.issuerStep? w).isSome = true) ∧
    strides.length ≤ 6 ∧ f.waiters = .const .idle ∧
    (f.issuer = .finished →
      (∃ e, r.Foils o.pool e (strides.flatMap (·.asked)) ∧
        (∀ c, .created (.ok c) ∈ strides.flatMap (·.asked) → e.kind = .issueFailed ∧
          (strides.flatMap (·.asked)).countP (·.isReleaseOf c) = 1) ∧
        f.invocations = (o.callbacks.get .failure).toList.map (fun k =>
          { occasion := .failure, callback := k, thread := (o.task r).issuerThread
            arguments := o.callbacks.snapshot none, failure := some e }) ∧
        f.futures = .const
          (some (if (o.callbacks.get .failure).any (·.raises) then .lost else .failed e)) ∧
        (strides.map (·.counted o.account (.refused r.kind))).sum = 1) ∨
      r.Overflows ∧ (∃ c, strides.flatMap (·.asked) = [.created (.ok c), .released c]) ∧
        f.invocations = [] ∧ f.futures = .const (some .lost) ∧
        (strides.map (·.counted o.account (.refused r.kind))).sum = 0) := by
  have hw := hf.withheld ha hu
  refine ⟨fun hp w => ?steps, ?length, hw.idle, fun hp => ?ended⟩
  case steps =>
    rw [Option.isSome_iff_ne_none]
    exact fun hnone => hp ((f.issuerStep?_eq_none_iff w).mp hnone)
  case length =>
    have hrank := hw.rank
    omega
  case ended =>
    -- On this way the issuer ends in two places: when the owner is told, and when all is given up.
    have hunissued := hw.unissued
    generalize strides.flatMap (·.asked) = asked at hunissued ⊢
    generalize (strides.map (·.counted o.account (.refused r.kind))).sum = n at hunissued ⊢
    cases hunissued with
    | @told e _ raised hfoils hc hr hanswering =>
      rw [hw.task] at hfoils
      obtain ⟨hcalls, hraises⟩ := rejection_eq (e := e) hw.task
      have hfutures : f.futures = .const (some (if raised then .lost else .failed e)) := by
        rw [hp] at hanswering
        generalize f.futures = futures at hanswering
        cases hanswering <;> rfl
      rw [← hr, hraises] at hfutures
      exact .inl ⟨e, hfoils, fun c hc => of_foils hfoils hc, hc.trans hcalls, hfutures, rfl⟩
    | lost _ hl hc hfutures =>
      rw [hw.task] at hl
      exact .inr ⟨hl, ⟨_, rfl⟩, hc, hfutures, rfl⟩
    | ready hp' | created hp' | refused hp' | rejected hp' | crashed hp' | dropped hp' =>
      cases hp'.symm.trans hp

/-- A read of a pool that there is not. -/
theorem unissued_is_told_stray :
    Flying Sample.strayObject Sample.shortRead Sample.turnedDown.1 Sample.turnedDown.2 ∧
      (∀ s ∈ Sample.turnedDown.1, Sample.strayObject.account < s.found.accounts.size) ∧
      (∀ k ∈ Sample.turnedDown.1.flatMap (·.asked), k.isTaken = false) ∧
      Sample.turnedDown.2.issuer = .finished ∧
      ∃ e, e.kind = .issueFailed ∧ Sample.turnedDown.2.futures = .const (some (.failed e)) ∧
        Sample.turnedDown.2.invocations.length = 1 ∧
        (Sample.turnedDown.1.map (·.counted 0 (.refused .read))).sum = 1 := by
  have ha : ∀ s ∈ Sample.turnedDown.1, Sample.strayObject.account < s.found.accounts.size := by
    decide +kernel
  have hu : ∀ k ∈ Sample.turnedDown.1.flatMap (·.asked), k.isTaken = false := by decide +kernel
  have hend : Sample.turnedDown.2.issuer = .finished := by decide +kernel
  obtain ⟨-, -, -, hended⟩ := unissued_is_told Sample.flying_turnedDown ha hu
  rcases hended hend with ⟨e, hfoils, -, hcalls, hfutures, hcounted⟩ | ⟨⟨l, n, hop, hl⟩, -⟩
  · have hlength : (Sample.turnedDown.1.flatMap (·.asked)).length = 3 := by decide +kernel
    have hissue : e.kind = .issueFailed := by
      generalize Sample.turnedDown.1.flatMap (·.asked) = asked at hfoils hlength
      cases hfoils with
      | unmade => cases hlength
      | refused => rfl
    exact ⟨Sample.flying_turnedDown, ha, hu, hend, e, hissue, hfutures, by rw [hcalls]; rfl,
      hcounted⟩
  · cases hop
    exact absurd hl (by decide)

/-- A read that no buffer is large enough for: nobody is told that it failed, and no refusal is
counted. -/
theorem overflow_is_not_told :
    Flying Sample.object Sample.hugeRead Sample.overflown.1 Sample.overflown.2 ∧
      (∀ k ∈ Sample.overflown.1.flatMap (·.asked), k.isTaken = false) ∧
      Sample.overflown.2.issuer = .finished ∧ Sample.overflown.2.invocations = [] ∧
      Sample.overflown.2.futures = .const (some .lost) ∧
      (Sample.overflown.1.map (·.counted 0 (.refused .read))).sum = 0 :=
  ⟨Sample.flying_overflown, by decide +kernel, by decide +kernel, by decide +kernel,
    by decide +kernel, by decide +kernel⟩

end Flying

/-! ## In a run -/

/-- Where a flight comes from: it was there before the event, or it was submitted by it, or one of
its tasks made a step. -/
theorem System.flight_of_next? {s t : System InMemory} {e : Event} {i : FlightId} {f : Flight}
    (hn : s.next? e = some t) (hf : t.flights[i]? = some f) :
    s.flights[i]? = some f ∨ (∃ o r, f = { task := AsyncObject.task o r }) ∨
      ∃ a g w, s.flights[i]? = some g ∧ actorStep? a g s.world = some (f, w) := by
  cases e with
  | submit o r =>
    cases hn
    rcases flight_submit hf with ⟨-, rfl⟩ | hf
    · exact .inr (.inl ⟨o, r, rfl⟩)
    · exact .inl hf
  | task a =>
    obtain ⟨g, hg, hn⟩ := Option.bind_eq_some_iff.mp hn
    obtain ⟨⟨g', w⟩, hstep, hn⟩ := Option.map_eq_some_iff.mp hn
    cases hn
    rcases flight_setIfInBounds hf with ⟨rfl, rfl⟩ | ⟨-, hf⟩
    · exact .inr (.inr ⟨a, g, w, hg, hstep⟩)
    · exact .inl hf
  | work =>
    obtain ⟨_, -, hn⟩ := Option.map_eq_some_iff.mp hn
    cases hn
    exact .inl hf
  | call | shutdown | clock =>
    cases hn
    exact .inl hf

/-- The flights of a run are such flights, and every step of theirs found the accounts of the
run. -/
theorem Run.exists_flying {config : InMemoryConfig} {accounts : Nat} {h : History}
    {s : System InMemory} {i : FlightId} {f : Flight} (hr : Run config accounts h s)
    (hf : s.flights[i]? = some f) :
    ∃ (o : AsyncObject) (r : Request) (strides : List (Stride InMemory)), Flying o r strides f ∧
      ∀ x ∈ strides, x.found.accounts.size = accounts := by
  induction hr generalizing i f with
  | start => simp [System.fresh] at hf
  | step e hr hn ih =>
    rcases System.flight_of_next? hn hf with hf | ⟨o, r, rfl⟩ | ⟨a, g, w, hg, hstep⟩
    · exact ih hf
    · exact ⟨o, r, [], .submitted, List.forall_mem_nil _⟩
    · obtain ⟨o, r, strides, hflying, hsize⟩ := ih hg
      refine ⟨o, r, _, hflying.step a hstep, fun x hx => ?_⟩
      rcases List.mem_append.mp hx with hx | hx
      · exact hsize x hx
      · obtain rfl := List.mem_singleton.mp hx
        exact hr.metered.size

end Milepost
