import Milepost.Proofs.Progress
import Milepost.Proofs.Telling

/-!
# Every completion is released once

The completion of an operation is released in one of three places: by the waiter that counts its
handle down last, by the issuer of a refused operation, or by the issuer that drops the handle of
a read without a buffer. `Run.released_once` puts together what a state of a run says of that.

* `Run.released_once`: no completion is released twice or too early, and in the end none is left.
* `Run.given_up_before_release`: a failed callback has its future given up before the release.
-/

namespace Milepost

namespace Flight

variable {f : Flight} {G : Grounds} {m : Milestone}

/-- Whether the handle of the flight is released. -/
def IsReleased (f : Flight) : Prop := ∃ k, f.handle = some k ∧ k.state = .released

/-- Whether a callback of the waiter for the milestone failed and its future was given up. -/
def IsAbandoned (f : Flight) (m : Milestone) : Prop :=
  f.waiters.get m = .abandoned ∧ ∃ o, f.calls m = (f.call m o).toList ∧ raises (f.call m o) = true

/-- The handle of the flight is released in time. -/
structure ReleasedInTime (f : Flight) : Prop where
  /-- Its waiters have called back before. -/
  afterCalls : f.IsTaken → f.IsReleased → ∀ m,
    (f.waiters.get m).hasCalled = true ∧ ∃ o, f.calls m = (f.call m o).toList
  /-- The owner is told of a refusal after it. -/
  beforeRejection : (∃ x ∈ f.invocations, x.thread = f.task.issuerThread) → f.IsReleased
  /-- Both futures are answered after it. -/
  beforeAnswers : (∀ m, ∃ o, f.futures.get m = some o ∧ o ≠ .lost) → f.IsReleased
  /-- A future is given up after it, unless a callback failed: its waiter gives the future up before
  it counts the handle down. -/
  beforeLosses : (∀ m, (f.futures.get m).isSome = true) → f.IsReleased ∨ ∃ m, f.IsAbandoned m

/-- A handle is released exactly when nobody needs the completion any more. -/
theorem Keeps.isReleased_iff (hk : f.Keeps) (hp : f.issuer ≠ .ready) :
    f.IsReleased ↔ f.holds = false := by
  obtain ⟨k, hh⟩ := hk.exists_handle hp
  have hr := hk.released k hh
  constructor
  · rintro ⟨k', hh', hs⟩
    cases hh.symm.trans hh'
    cases hf : f.holds with
    | false => rfl
    | true =>
      rw [hf] at hr
      simp only [Handle.state, hr, Bool.not_true, Bool.false_eq_true, if_false] at hs
      split at hs
      · cases hs
      · split at hs <;> cases hs
  · intro hf
    refine ⟨k, hh, ?_⟩
    rw [hf] at hr
    simp [Handle.state, hr]

/-- The handles that are not released are those with a completion. -/
theorem Keeps.any_handle_eq (hk : f.Keeps) :
    f.handle.any (!·.released) = f.native?.isSome := by
  rw [hk.isSome_native?]
  cases hh : f.handle with
  | none => simp [holds, hk.made.mp hh]
  | some k => simp [hk.released k hh]

/-- Where a waiter has called back and counted the handle down, its call was the one. -/
theorem Told.hasCalled {p : WaiterPhase} (ht : f.Told G m p) (hg : p.guards = 0) :
    p.hasCalled = true ∧ ∃ o, f.calls m = (f.call m o).toList := by
  cases ht with
  | counted _ hc | answered _ hc | lost _ hc => exact ⟨rfl, _, hc.calls⟩
  | waiting | copying | ready | recorded | notified | raised | abandoned => cases hg

/-- Where nobody needs the completion any more, both waiters have called back. -/
theorem Story.hasCalled (hs : f.Story G f.issuer) (hk : f.Keeps) (hf : f.holds = false)
    (hw : f.waiters.complete ≠ .idle) (m : Milestone) :
    (f.waiters.get m).hasCalled = true ∧ ∃ o, f.calls m = (f.call m o).toList := by
  have hne := hk.ne_idle (m := .complete) hw
  have hfin := hk.issuer_finished (hne m)
  refine ((hs.of_started hk (hne m)).1 m).hasCalled ?_
  have hsum : f.guards = 0 := by
    simpa only [holds, hfin, bne_eq_false_iff_eq] using hf
  rw [guards_eq hfin m] at hsum
  omega

theorem holds_of_idle (hp : f.issuer = .finished) (hw : f.waiters = .const .idle) :
    f.holds = false := by
  simp [holds, hp, guards, hw, PerMilestone.const, WaiterPhase.guards]

/-- A refused operation is told of only after its handle is released. -/
theorem Story.holds_of_rejection (hs : f.Story G f.issuer) {x : Invocation}
    (hx : x ∈ f.invocations) (ht : x.thread = f.task.issuerThread) :
    f.issuer ≠ .ready ∧ f.holds = false := by
  generalize hp : f.issuer = p at hs
  cases hs with
  | silent _ hc | overflown _ _ hc | dropped _ _ hc => rw [hc] at hx; cases hx
  | notified | answered | raised => exact ⟨by simp, by simp [hp, holds]⟩
  | rejected hw | abandoned hw => exact ⟨by simp, holds_of_idle hp hw⟩
  | launched _ _ hc =>
    obtain ⟨m, hm⟩ := hc x hx
    exact absurd (hm.symm.trans ht) (f.task.waiterThread_ne_issuerThread m)

/-- Where a future is answered its waiter is done, unless its callback failed. -/
theorem Told.finished_or_isAbandoned (ht : f.Told G m (f.waiters.get m))
    (hf : (f.futures.get m).isSome = true) : f.waiters.get m = .finished ∨ f.IsAbandoned m := by
  generalize hp : f.waiters.get m = p at ht
  cases ht with
  | answered | lost => exact .inl rfl
  | abandoned _ hc => exact .inr ⟨hp, _, hc.calls, hc.raises⟩
  | waiting hn | copying _ hn | ready _ hn | recorded _ hn => rw [hn.2] at hf; cases hf
  | notified _ hc | counted _ hc | raised _ hc => rw [hc.answered] at hf; cases hf

/-- Where both futures are answered nobody needs the completion any more, unless a callback failed
and its waiter is about to count the handle down. -/
theorem Story.holds_of_futures (hs : f.Story G f.issuer)
    (hf : ∀ m, (f.futures.get m).isSome = true) :
    f.issuer ≠ .ready ∧ (f.holds = false ∨ ∃ m, f.IsAbandoned m) := by
  generalize hp : f.issuer = p at hs
  have hsafe := hf .safe
  cases hs with
  | silent _ _ hnone | notified _ hnone | answered _ hnone | raised _ _ hnone
  | overflown _ _ _ hnone => rw [hnone] at hsafe; cases hsafe
  | rejected hw | abandoned hw | dropped hw => exact ⟨by simp, .inl (holds_of_idle hp hw)⟩
  | launched _ ht =>
    refine ⟨by simp, ?_⟩
    rcases (ht .complete).finished_or_isAbandoned (hf _) with hc | hc
    · rcases (ht .safe).finished_or_isAbandoned (hf _) with hs | hs
      · left
        change f.waiters.complete = .finished at hc
        change f.waiters.safe = .finished at hs
        simp [holds, hp, guards, hc, hs, WaiterPhase.guards]
      · exact .inr ⟨_, hs⟩
    · exact .inr ⟨_, hc⟩

/-- The future of an abandoned waiter is given up. -/
theorem Told.lost_of_isAbandoned (ht : f.Told G m (f.waiters.get m)) (ha : f.IsAbandoned m) :
    f.futures.get m = some .lost := by
  rw [ha.1] at ht
  cases ht with
  | abandoned _ hc => exact hc.answered

/-- The handle of a flight whose story is told is released in time. -/
theorem Story.releasedInTime (hs : f.Story G f.issuer) (hk : f.Keeps) : f.ReleasedInTime where
  afterCalls ht hreleased := by
    have hp : f.issuer ≠ .ready := by rcases ht with hp | ⟨hp, -⟩ <;> simp [hp]
    have hf := (hk.isReleased_iff hp).mp hreleased
    rcases ht with hp | ⟨-, hw⟩
    · simp [holds, hp] at hf
    · exact hs.hasCalled hk hf hw
  beforeRejection := by
    rintro ⟨x, hx, ht⟩
    obtain ⟨hp, hf⟩ := hs.holds_of_rejection hx ht
    exact (hk.isReleased_iff hp).mpr hf
  beforeAnswers hfutures := by
    have hsome : ∀ m, (f.futures.get m).isSome = true := by
      intro m
      obtain ⟨o, ho, -⟩ := hfutures m
      rw [ho]
      rfl
    obtain ⟨hp, hf | ⟨m, ha⟩⟩ := hs.holds_of_futures hsome
    · exact (hk.isReleased_iff hp).mpr hf
    · have hw : f.waiters.get m ≠ .idle := by simp [ha.1]
      have hlost := ((hs.of_started hk hw).1 m).lost_of_isAbandoned ha
      obtain ⟨o, ho, hne⟩ := hfutures m
      cases hlost.symm.trans ho
      exact absurd rfl hne
  beforeLosses hfutures := by
    obtain ⟨hp, hf⟩ := hs.holds_of_futures hfutures
    exact hf.imp_left (hk.isReleased_iff hp).mpr

end Flight

namespace Run

variable {config : InMemoryConfig} {accounts : Nat} {h : History} {s : System InMemory}

/-- Where nothing can go on, no flight has its completion any more. -/
theorem native?_of_isQuiet (hc : config.Refuses) (hr : Run config accounts h s) (hq : s.IsQuiet)
    {i : FlightId} {f : Flight} (hf : s.flights[i]? = some f) : f.native? = none := by
  obtain ⟨-, -, hdone⟩ := hr.isSettled_of_isQuiet hc hq
  obtain ⟨hfin, hw⟩ := hdone hf
  have hguards : ∀ m, (f.waiters.get m).guards = 0 := by
    intro m
    rcases hw m with hw | hw <;> rw [hw] <;> rfl
  have hholds : f.holds = false := by
    rw [Flight.holds_of_guards (n := 0) _ hfin]
    · rfl
    · rw [Flight.guards_eq hfin .complete, hguards, hguards]
  rw [← Option.not_isSome_iff_eq_none, (hr.sound.keeps hf).isSome_native?, hholds]
  exact Bool.false_ne_true

/-- Where nothing can go on, every completion is released. -/
theorem released_of_isQuiet (hc : config.Refuses) (hr : Run config accounts h s)
    (hq : s.IsQuiet) :
    s.world.backend.released = s.world.backend.completions.size ∧
      ∀ c, c < s.world.backend.completions.size →
        (s.world.backend.completion c).released = true := by
  constructor
  · have hlive := hr.custody.live
    have htotal := hr.custody.total
    have hzero : s.flights.countP (·.native?.isSome) = 0 := by
      rw [Array.countP_eq_zero]
      intro f hf
      obtain ⟨i, hi, rfl⟩ := Array.mem_iff_getElem.mp hf
      rw [hr.native?_of_isQuiet hc hq (Array.getElem?_eq_getElem hi)]
      exact Bool.false_ne_true
    omega
  · intro c hlt
    by_contra hrel
    obtain ⟨i, hi⟩ := hr.custody.covered hlt (Bool.eq_false_iff.mpr hrel)
    obtain ⟨f, hf, hn⟩ := System.exists_of_native? hi
    rw [hr.native?_of_isQuiet hc hq hf] at hn
    cases hn

/-- **No completion is released twice or too early, and in the end none is left.** Nothing is
counted as a second release, neither by the backend nor on any account. The live completions are
those of the handles made and not released, each held by one. Every handle is released in time.
Every step of what is under way lowers the weight, and where no step is left every completion is
released. -/
theorem released_once (hc : config.Refuses) (hr : Run config accounts h s) :
    (s.world.backend.doubleReleases = 0 ∧
      ∀ a, (s.world.getMeters a).operations.doubleReleases.value = 0) ∧
    (s.world.backend.live = s.flights.countP (·.handle.any (!·.released)) ∧
      s.world.backend.live + s.world.backend.released = s.world.backend.completions.size ∧
      ∀ c, c < s.world.backend.completions.size →
        ((s.world.backend.completion c).released = false ↔ ∃! i, s.native? i = some c)) ∧
    (∀ {i : FlightId} {f : Flight}, s.flights[i]? = some f → f.ReleasedInTime) ∧
    (∀ {e : Event} {t : System InMemory}, e.isOwn = true → s.next? e = some t →
      t.weight < s.weight) ∧
    (s.IsQuiet → s.world.backend.released = s.world.backend.completions.size ∧
      ∀ c, c < s.world.backend.completions.size →
        (s.world.backend.completion c).released = true) := by
  have hcustody := hr.custody
  have hkeeps : ∀ {i : FlightId} {f : Flight}, s.flights[i]? = some f → f.Keeps :=
    hr.sound.keeps
  refine ⟨⟨hcustody.once, ?_⟩, ⟨?_, hcustody.total, fun c => hcustody.released_eq_false_iff⟩,
    fun hf => (hr.story hf).releasedInTime (hkeeps hf), hr.weight_lt, hr.released_of_isQuiet hc⟩
  · intro a
    have hdoubles := hcustody.doubles a
    rw [World.doubles] at hdoubles
    rw [hdoubles]
    decide
  · rw [hcustody.live]
    refine congrArg Nat.cast (Array.countP_congr fun f hf => ?_)
    obtain ⟨i, hi, rfl⟩ := Array.mem_iff_getElem.mp hf
    rw [(hkeeps (Array.getElem?_eq_getElem hi)).any_handle_eq]

theorem released_once_after_write_and_read :
    Sample.config.Refuses ∧ Run Sample.config 1 Sample.reached.1 Sample.reached.2 ∧
      Sample.reached.2.world.backend.completions.size = 2 ∧
      Sample.reached.2.world.backend.doubleReleases = 0 ∧
      ∀ f, Sample.reached.2.flights[1]? = some f → f.ReleasedInTime := by
  obtain ⟨⟨honce, -⟩, -, htime, -⟩ := released_once Sample.refuses Sample.run
  exact ⟨Sample.refuses, Sample.run, by decide +kernel, honce, fun f hf => htime hf⟩

end Run

/-! ## Callbacks that fail

A write is called back about when it is safe, and a remove from a pool that there is not when it is
refused; both callbacks fail. The second waiter of the write has given its future up and is about to
count the handle down. -/

namespace Sample

/-- An object of whose callbacks only the first does not fail. -/
def clumsyObject : AsyncObject where
  pool := 1
  oid := "object"
  callbacks :=
    { onComplete := some { label := "complete" }
      onSafe := some { label := "safe", raises := true }
      onFailure := some { label := "failure", raises := true } }
  account := 0
  context := []
  thread := "task"

theorem isSome_get_clumsy (o : Occasion) : (clumsyObject.callbacks.get o).isSome = true := by
  rcases o with (_ | _) | _ <;> rfl

def clumsyEvents : List Event :=
  .submit clumsyObject { oid := "object", operation := .writeFull ⟨#[1]⟩ } ::
    .replicate 3 (.task (.issuer 0)) ++ .replicate 3 .work ++
    .replicate 5 (.task (.waiter 0 .complete)) ++ .replicate 4 (.task (.waiter 0 .safe)) ++
  .submit { clumsyObject with pool := 7 } { oid := "object", operation := .remove } ::
    .replicate 5 (.task (.issuer 1))

theorem isSome_replay_clumsy : ((System.fresh config 1).replay {} clumsyEvents).isSome = true := by
  decide +kernel

/-- The history and the state after these events. -/
@[irreducible]
def clumsy : History × System InMemory :=
  ((System.fresh config 1).replay {} clumsyEvents).get isSome_replay_clumsy

theorem run_clumsy : Run config 1 clumsy.1 clumsy.2 := by
  unfold clumsy
  exact Run.start.replay_get isSome_replay_clumsy

/-- Both futures of the write are answered, the second is given up, and the handle is not
released. -/
theorem exists_clumsyWrite : ∃ f k, clumsy.2.flights[0]? = some f ∧
    f.task = clumsyObject.task { oid := "object", operation := .writeFull ⟨#[1]⟩ } ∧
    f.futures = { complete := some (.reached none), safe := some .lost } ∧
    f.handle = some k ∧ k.state = .outstanding := by
  have hwrite : clumsy.2.flights[0]?.any (fun f =>
      f.task == clumsyObject.task { oid := "object", operation := .writeFull ⟨#[1]⟩ } &&
        f.futures == { complete := some (.reached none), safe := some .lost } &&
        f.handle.any (·.state == .outstanding)) = true := by
    decide +kernel
  obtain ⟨f, hf, hfacts⟩ := (Option.any_eq_true ..).mp hwrite
  rw [Bool.and_eq_true, Bool.and_eq_true, beq_iff_eq, beq_iff_eq] at hfacts
  obtain ⟨⟨htask, hfutures⟩, hhandle⟩ := hfacts
  obtain ⟨k, hk, hstate⟩ := (Option.any_eq_true ..).mp hhandle
  exact ⟨f, k, hf, htask, hfutures, hk, beq_iff_eq.mp hstate⟩

end Sample

/-- A future that is given up because its callback failed is resolved before the handle is
released. -/
theorem Run.given_up_before_release :
    ¬ ∀ (config : InMemoryConfig) (accounts : Nat) (h : History) (s : System InMemory)
      (i : FlightId) (f : Flight), config.Refuses → Run config accounts h s →
      s.flights[i]? = some f → (∀ m, (f.futures.get m).isSome = true) → f.IsReleased := by
  intro h
  obtain ⟨f, k, hf, -, hfutures, hk, hstate⟩ := Sample.exists_clumsyWrite
  have hsome : ∀ m, (f.futures.get m).isSome = true := by
    rw [hfutures]
    rintro (_ | _) <;> rfl
  obtain ⟨k', hk', hreleased⟩ :=
    h Sample.config 1 _ _ 0 f Sample.refuses Sample.run_clumsy hf hsome
  cases hk.symm.trans hk'
  cases hstate.symm.trans hreleased

end Milepost
