import Mathlib.Algebra.BigOperators.Group.Finset.Basic
import Milepost.Proofs.Agreement.Schedules
import Milepost.Proofs.Reporting

/-!
# The meters of an account balance

Seven meters count different moments of the same flights, in four tasks. `System.tally` counts
flights instead: every meter of an account is the tally of those flights on it that have come to a
certain point, and so relations between meters are relations between the points.

* `System.Balanced`: what the meters of an account say of each other in every state.
* `System.ClosedOut`: what they show once all flights on the account are over.
* `Run.balanced`: every run balances, and closes out.
-/

namespace Milepost

namespace System

variable (s : System InMemory) (a : AccountId)

/-- How many flights on an account have a property. -/
def tally (p : FlightId → Flight → Bool) : Nat :=
  ((Finset.range s.flights.size).filter fun i =>
    s.flights[i]?.any fun f => f.task.account == a && p i f).card

/-- How many flights there are on an account. -/
def submitted : Nat := s.tally a fun _ _ => true

/-- How many bytes the flights on an account write and ask for. -/
def bytes : Nat :=
  (((s.flights.toList.map (·.task)).filter (·.account == a)).map (·.request.length)).sum

/-- All tasks of all flights on an account are over. -/
def IsOver : Prop :=
  ∀ (i : FlightId) (f : Flight), s.flights[i]? = some f → f.task.account = a → f.isSettled = true

/-- No read on an account is longer than a buffer may be. -/
def ReadsFit : Prop :=
  ∀ (i : FlightId) (f : Flight), s.flights[i]? = some f → f.task.account = a →
    f.task.request.kind = .read → f.task.request.length ≤ Buffer.maxAllocation

/-! ### Tallies -/

variable {s a} {p q : FlightId → Flight → Bool}

theorem tally_congr
    (h : ∀ i f, s.flights[i]? = some f → f.task.account = a → p i f = q i f) :
    s.tally a p = s.tally a q := by
  unfold tally
  refine congrArg Finset.card (Finset.filter_congr fun i _ => ?_)
  cases hf : s.flights[i]? with
  | none => rfl
  | some f =>
    by_cases ha : f.task.account = a
    · simp [ha, h i f hf ha]
    · simp [ha]

theorem tally_le (h : ∀ i f, s.flights[i]? = some f → p i f = true → q i f = true) :
    s.tally a p ≤ s.tally a q := by
  unfold tally
  refine Finset.card_le_card (Finset.monotone_filter_right _ fun i _ hi => ?_)
  obtain ⟨f, hf, hp⟩ := (Option.any_eq_true ..).mp hi
  obtain ⟨ha, hp⟩ := Bool.and_eq_true_iff.mp hp
  exact (Option.any_eq_true ..).mpr ⟨f, hf, Bool.and_eq_true_iff.mpr ⟨ha, h i f hf hp⟩⟩

theorem tally_eq_zero
    (h : ∀ i f, s.flights[i]? = some f → f.task.account = a → p i f = false) :
    s.tally a p = 0 := by
  rw [tally_congr h, tally, Finset.card_eq_zero, Finset.filter_eq_empty_iff]
  intro i _ hany
  obtain ⟨f, -, hf⟩ := (Option.any_eq_true ..).mp hany
  exact Bool.false_ne_true (Bool.and_eq_true_iff.mp hf).2

theorem tally_le_submitted : s.tally a p ≤ s.submitted a := tally_le fun _ _ _ _ => rfl

/-- Flights that cannot have both properties are tallied together or one after the other. -/
theorem tally_add
    (h : ∀ i f, s.flights[i]? = some f → f.task.account = a → p i f = true → q i f = false) :
    s.tally a p + s.tally a q = s.tally a fun i f => p i f || q i f := by
  unfold tally
  rw [← Finset.card_union_of_disjoint, ← Finset.filter_or]
  · refine congrArg Finset.card (Finset.filter_congr fun i _ => ?_)
    cases s.flights[i]? with
    | none => simp
    | some f => simp [Bool.and_or_distrib_left]
  · refine Finset.disjoint_filter.mpr fun i _ hp hq => ?_
    cases hf : s.flights[i]? with
    | none => simp [hf] at hp
    | some f =>
      simp only [hf, Option.any_some, Bool.and_eq_true, beq_iff_eq] at hp hq
      exact Bool.false_ne_true ((h i f hf hp.1 hp.2).symm.trans hq.2)

/-- Flights are tallied together or kind by kind. -/
theorem tally_kinds {n : OperationKind → Nat}
    (hn : ∀ k, n k = s.tally a fun i f => p i f && f.task.request.kind == k) :
    n .write + n .writeFull + n .append + n .read + n .remove = s.tally a p := by
  rw [hn, hn, hn, hn, hn, tally_add, tally_add, tally_add, tally_add]
  · refine tally_congr fun i f _ _ => ?_
    cases f.task.request.kind <;> cases p i f <;> rfl
  all_goals
    intro i f _ _ hp
    cases hk : f.task.request.kind <;> simp +decide [hk] at hp ⊢

/-! ### The bytes asked for -/

/-- A new flight adds what its request asks for. -/
theorem bytes_submit (o : AsyncObject) (r : Request) :
    (s.submit o r).2.bytes a = s.bytes a + if o.account = a then r.length else 0 := by
  unfold bytes
  rw [flights_submit, Array.toList_push, List.map_append, List.filter_append, List.map_append,
    List.sum_append_nat, Nat.add_left_cancel_iff]
  by_cases ha : o.account = a <;> simp [AsyncObject.task, ha]

/-- A flight keeps its task, and so its request. -/
theorem bytes_setIfInBounds {i : FlightId} {f g : Flight} {w : World InMemory}
    (hf : s.flights[i]? = some f) (htask : g.task = f.task) :
    bytes { world := w, flights := s.flights.setIfInBounds i g } a = s.bytes a := by
  unfold bytes
  have hi : (s.flights.toList.map (·.task))[i]? = some f.task := by
    rw [List.getElem?_map, Array.getElem?_toList, hf]
    rfl
  obtain ⟨hlt, hget⟩ := List.getElem?_eq_some_iff.mp hi
  rw [Array.toList_setIfInBounds, List.map_set, htask, ← hget, List.set_getElem_self]

end System

/-! ### What counting operations leaves of the meters of buffers -/

theorem World.buffers_congr {w v : World InMemory} {a : AccountId}
    (h : v.accounts = w.accounts) : (v.getMeters a).buffers = (w.getMeters a).buffers := by
  rw [getMeters, h]
  rfl

theorem World.buffers_count {w : World InMemory} {a b : AccountId}
    {c : OperationMeters → OperationMeters} (ha : a < w.accounts.size) :
    ((w.count b c).getMeters a).buffers = (w.getMeters a).buffers := by
  unfold count
  by_cases h : b = a
  · rw [h, getMeters_onMeters_self ha]
    rfl
  · rw [getMeters_onMeters_of_ne h]

theorem Flight.Tick.buffers {misses : Milestone → Bool} {f g : Flight} {w w' : World InMemory}
    {a : AccountId} (ht : Tick misses f w g w') (ha : a < w.accounts.size) :
    (w'.getMeters a).buffers = (w.getMeters a).buffers := by
  cases ht with
  | none hw => exact World.buffers_congr hw
  | created hw | released hw | issued hw | refused hw | passed hw =>
    exact (World.buffers_congr hw).trans (World.buffers_count ha)

/-! ## Results -/

/-- Whether the outcome is a failure, and not just that there was nothing to read. -/
def Outcome.isMissed : Outcome → Bool
  | .failed e => e.kind != .emptyResult
  | _ => false

/-- What a milestone of an operation turned out to be, once its job was applied. -/
def History.result? (h : History) (config : InMemoryConfig) (i : FlightId) (r : Request)
    (m : Milestone) : Option Outcome :=
  (h.applications.find? fun x => h.issues.contains ⟨i, x.job, 0, true⟩).map
    (·.verdict config r m)

/-- A verdict is missed exactly if a refusal resolved the milestone. -/
theorem Application.isMissed_verdict {x : Application} {config : InMemoryConfig} {r : Request}
    {m : Milestone} :
    (x.verdict config r m).isMissed =
      ((config.milestoneStatus r.oid m).isError || x.result.isError) := by
  have hkind : m.failureKind ≠ .emptyResult := by cases m <;> simp [Milestone.failureKind]
  unfold verdict Request.verdict
  cases hs : (config.milestoneStatus r.oid m).isError with
  | true => exact bne_iff_ne.mpr hkind
  | false =>
    cases hr : x.result.isError with
    | true => exact bne_iff_ne.mpr hkind
    | false =>
      simp only [Bool.false_eq_true, if_false]
      split
      · split <;> rfl
      · rfl

namespace Run

variable {config : InMemoryConfig} {accounts : Nat} {h : History} {s : System InMemory}
  {a : AccountId} {i : FlightId} {f : Flight} {m : Milestone} {r : Request} {x : Application}

/-- An operation has the results of its one application. -/
theorem result?_eq (hr : Run config accounts h s) (hx : h.Applied i r x) :
    h.result? config i r m = some (x.verdict config r m) := by
  have hissue := (History.mem_issuesOf.mp (hx.issued ▸ List.mem_cons_self)).1
  unfold History.result?
  cases hfind : h.applications.find? fun x => h.issues.contains ⟨i, x.job, 0, true⟩ with
  | none =>
    have hnone := List.find?_eq_none.mp hfind x hx.applied
    exact absurd (List.contains_iff_mem.mpr hissue) hnone
  | some y =>
    have hy := List.find?_some hfind
    have hone := hr.issuesOf_of_mem (List.contains_iff_mem.mp hy)
    have hsame := List.singleton_inj.mp (hone.symm.trans hx.issued)
    have hjob : y.job = x.job := (Issue.mk.inj hsame).2.1
    obtain rfl := hr.pipeline.application_ext hx.applied (List.mem_of_find?_eq_some hfind)
      (by rw [hjob])
    rfl

/-- An operation that was not taken has none. -/
theorem result?_eq_none (hr : Run config accounts h s) {y : Issue} (hy : h.issuesOf i = [y])
    (hq : y.queued = false) : h.result? config i r m = none := by
  unfold History.result?
  rw [Option.map_eq_none_iff, List.find?_eq_none]
  intro x _ hx
  have hone := hr.issuesOf_of_mem (List.contains_iff_mem.mp hx)
  rw [List.singleton_inj.mp (hy.symm.trans hone)] at hq
  cases hq

/-! ## The meters of an account -/

/-- A meter shows a tally. -/
theorem reading_eq (hr : Run config accounts h s) (ha : a < accounts) (x : Meter) :
    s.world.reading a x = s.tally a fun i f =>
      f.standing.counts f.task.request.kind (h.misses config i f.task.request) x :=
  hr.metered.reading ha

/-- The bytes allocated are those asked for. -/
theorem allocated_eq (hr : Run config accounts h s) (ha : a < accounts) :
    (s.world.getMeters a).buffers.allocated = ⟨s.bytes a⟩ := by
  refine hr.preserved (P := fun _ s => (s.world.getMeters a).buffers.allocated = ⟨s.bytes a⟩)
    ?start fun {h s t e} hr ih hh => ?step
  case start => simp [System.fresh, World.getMeters, System.bytes, ha]
  case step =>
    have hsize : a < s.world.accounts.size := hr.metered.size ▸ ha
    cases hh with
    | submit o r =>
      rw [System.bytes_submit]
      by_cases ho : o.account = a
      · simp only [System.submit, ho, World.getMeters_onMeters_self hsize, if_pos]
        exact congrArg (·.add r.length) ih
      · simp only [System.submit, World.getMeters_onMeters_of_ne ho, if_neg ho, Nat.add_zero]
        exact ih
    | @issuer i f g w hf hk hm =>
      have ht : f.Tick (h.misses config i f.task.request) s.world g w :=
        hm.tick hk (hr.courses.course hf) (hr.metered.own hf)
      rw [System.bytes_setIfInBounds hf hm.task_eq, ht.buffers hsize, ih]
    | waiter hf hk hm =>
      have ht := hr.tick_of_waiterMove hf hk (hr.metered.own hf) hm
      rw [System.bytes_setIfInBounds hf hm.frame.1, ht.buffers hsize, ih]
    | work | call | shutdown | clock => exact ih

/-- The counter behind a meter reads as the tally, if there are fewer than `2 ^ 53` flights. -/
theorem value_eq (hr : Run config accounts h s) (ha : a < accounts)
    (hlt : s.submitted a < Counter.exactLimit) {c : Counter} {x : Meter}
    (hc : s.world.reading a x = c.total) :
    c.value = s.tally a fun i f =>
      f.standing.counts f.task.request.kind (h.misses config i f.task.request) x := by
  have htotal : c.total = _ := Int.ofNat.inj (hc.symm.trans (hr.reading_eq ha x))
  have hle : c.total ≤ s.submitted a := htotal ▸ System.tally_le_submitted
  rw [Counter.value_of_small (Nat.lt_of_le_of_lt hle hlt), htotal]

/-- As many operations were issued as flights had their waiters started. -/
theorem issuedSum_eq (hr : Run config accounts h s) (ha : a < accounts)
    (hlt : s.submitted a < Counter.exactLimit) :
    (s.world.getMeters a).operations.issuedSum = s.tally a fun _ f => f.standing.launched :=
  System.tally_kinds (n := fun k => ((s.world.getMeters a).operations.issued.get k).value)
    fun k => hr.value_eq ha hlt (x := .issued k) rfl

/-- The waiters of a flight that passed a milestone were started. -/
theorem launched_of_passed (hr : Run config accounts h s) (hf : s.flights[i]? = some f)
    (hp : f.standing.passed.get m = true) : f.standing.launched = true := by
  rw [Flight.get_passed] at hp
  have hne : f.waiters.get m ≠ .idle := by
    intro hidle
    rw [hidle] at hp
    cases hp
  exact bne_iff_ne.mpr ((hr.sound.keeps hf).ne_idle hne .complete)

end Run

/-- What the meters of an account say of each other, whatever is under way: milestones were passed
by operations that were issued, and every handle made is released or outstanding. -/
structure System.Balanced (s : System InMemory) (a : AccountId) : Prop where
  failures_le : ∀ m, ((s.world.getMeters a).operations.milestoneFailures.get m).value ≤
    ((s.world.getMeters a).operations.milestones.get m).value
  milestones_le : ∀ m, ((s.world.getMeters a).operations.milestones.get m).value ≤
    (s.world.getMeters a).operations.issuedSum
  handles : (s.world.getMeters a).operations.released.value +
    (s.world.getMeters a).operations.outstanding = s.tally a fun _ f => f.handle.isSome

/-- What the meters of an account show once all flights on it are over. -/
structure System.ClosedOut (config : InMemoryConfig) (h : History) (s : System InMemory)
    (a : AccountId) : Prop where
  attempts : ∀ k, ((s.world.getMeters a).operations.issued.get k).value +
    ((s.world.getMeters a).operations.refused.get k).value =
      s.tally a fun _ f => f.task.request.kind == k
  milestones : ∀ m, ((s.world.getMeters a).operations.milestones.get m).value =
    (s.world.getMeters a).operations.issuedSum
  failures : ∀ m, ((s.world.getMeters a).operations.milestoneFailures.get m).value =
    s.tally a fun i f => (h.result? config i f.task.request m).any (·.isMissed)
  released : (s.world.getMeters a).operations.released.value = s.submitted a
  outstanding : (s.world.getMeters a).operations.outstanding = 0
  doubleReleases : (s.world.getMeters a).operations.doubleReleases.value = 0

namespace Run

variable {config : InMemoryConfig} {accounts : Nat} {h : History} {s : System InMemory}
  {a : AccountId} {i : FlightId} {f : Flight} {m : Milestone}

/-- The meters of an account balance in every state. -/
theorem balanced_of_lt (hr : Run config accounts h s) (ha : a < accounts)
    (hlt : s.submitted a < Counter.exactLimit) : s.Balanced a where
  failures_le m := by
    rw [hr.value_eq ha hlt (x := .missed m) rfl, hr.value_eq ha hlt (x := .passed m) rfl]
    exact System.tally_le fun i f _ hp => (Bool.and_eq_true_iff.mp hp).1
  milestones_le m := by
    rw [hr.value_eq ha hlt (x := .passed m) rfl, hr.issuedSum_eq ha hlt]
    exact System.tally_le fun i f hf hp => hr.launched_of_passed hf hp
  handles := by
    have hout : (s.world.getMeters a).operations.outstanding = _ := hr.reading_eq ha .outstanding
    rw [hr.value_eq ha hlt (x := .released) rfl, hout, ← Int.natCast_add, System.tally_add]
    · refine congrArg Nat.cast (System.tally_congr fun i f _ _ => ?_)
      cases hh : f.handle with
      | none => simp [Standing.counts, Flight.standing, hh]
      | some k => cases hk : k.released <;> simp [Standing.counts, Flight.standing, hh, hk]
    · intro i f _ _ hp
      simp only [Standing.counts, beq_iff_eq] at hp
      simp [Standing.counts, hp]

/-! ### Once everything is over -/

/-- A flight that is over and has a job was refused or applied, and is counted accordingly. -/
theorem exists_fate_of_fits (hr : Run config accounts h s) (hf : s.flights[i]? = some f)
    (hs : f.isSettled = true)
    (hlen : f.task.request.kind = .read → f.task.request.length ≤ Buffer.maxAllocation) :
    ∃ fate, f.Met config fate ∧ h.Decides i f.task fate ∧ fate ≠ .dropped ∧ ∀ x,
      f.standing.counts f.task.request.kind (h.misses config i f.task.request) x =
        fate.standing.counts f.task.request.kind (fate.misses config f.task) x := by
  obtain ⟨fate, hm, hd⟩ := hr.exists_fate hf hs
  refine ⟨fate, hm, hd, ?_, hr.counts_of_decides hm hd _⟩
  rintro rfl
  cases hd with
  | dropped hfits =>
    rw [Task.fits, Option.isSome_eq_false_iff, Option.isNone_iff_eq_none] at hfits
    exact Task.job?_ne_none hlen hfits

/-- An operation that is over was issued once. If the backend did not take it, it has no results;
if it did, both futures were answered with them. -/
theorem results (hr : Run config accounts h s) (hf : s.flights[i]? = some f)
    (hs : f.isSettled = true)
    (hlen : f.task.request.kind = .read → f.task.request.length ≤ Buffer.maxAllocation) :
    ∃ y, h.issuesOf i = [y] ∧
      (y.queued = false → ∀ m, h.result? config i f.task.request m = none) ∧
      (y.queued = true → ∀ m, ∃ o, h.result? config i f.task.request m = some o ∧
        f.futures.get m = some (if Flight.raises (f.call m o) then .lost else o)) := by
  obtain ⟨fate, hm, hd, hne, -⟩ := hr.exists_fate_of_fits hf hs hlen
  cases hd with
  | dropped => exact absurd rfl hne
  | refused _ hi =>
    exact ⟨_, hi, fun hq m => hr.result?_eq_none hi hq, fun hq => nomatch hq⟩
  | applied _ hx =>
    exact ⟨_, hx.issued, fun hq => (nomatch hq), fun _ m => ⟨_, hr.result?_eq hx, hm.futures m⟩⟩

section Over

variable (hr : Run config accounts h s) (ha : a < accounts)
  (hlt : s.submitted a < Counter.exactLimit) (hlen : s.ReadsFit a) (hover : s.IsOver a)

include hr ha hlt hlen hover

/-- Every operation was issued or refused. -/
theorem attempts_of_isOver (k : OperationKind) :
    ((s.world.getMeters a).operations.issued.get k).value +
      ((s.world.getMeters a).operations.refused.get k).value =
        s.tally a fun _ f => f.task.request.kind == k := by
  rw [hr.value_eq ha hlt (x := .issued k) rfl, hr.value_eq ha hlt (x := .refused k) rfl,
    System.tally_add]
  · refine System.tally_congr fun i f hf hacc => ?_
    obtain ⟨fate, -, -, hne, hcounts⟩ :=
      hr.exists_fate_of_fits hf (hover i f hf hacc) (hlen i f hf hacc)
    rw [hcounts, hcounts]
    cases fate with
    | dropped => exact absurd rfl hne
    | refused => rfl
    | applied => exact Bool.or_false _
  · intro i f hf hacc
    obtain ⟨fate, -, -, -, hcounts⟩ :=
      hr.exists_fate_of_fits hf (hover i f hf hacc) (hlen i f hf hacc)
    rw [hcounts, hcounts]
    cases fate with
    | dropped | applied => exact fun _ => rfl
    | refused => exact fun hissued => nomatch hissued

/-- Every operation that was issued passed both milestones. -/
theorem milestones_of_isOver (m : Milestone) :
    ((s.world.getMeters a).operations.milestones.get m).value =
      (s.world.getMeters a).operations.issuedSum := by
  rw [hr.value_eq ha hlt (x := .passed m) rfl, hr.issuedSum_eq ha hlt]
  refine System.tally_congr fun i f hf hacc => ?_
  obtain ⟨fate, hm, -, -, hcounts⟩ :=
    hr.exists_fate_of_fits hf (hover i f hf hacc) (hlen i f hf hacc)
  rw [hcounts, hm.standing]
  cases fate <;> cases m <;> rfl

/-- Failures are the results that are missed. -/
theorem failures_of_isOver (m : Milestone) :
    ((s.world.getMeters a).operations.milestoneFailures.get m).value =
      s.tally a fun i f => (h.result? config i f.task.request m).any (·.isMissed) := by
  rw [hr.value_eq ha hlt (x := .missed m) rfl]
  refine System.tally_congr fun i f hf hacc => ?_
  obtain ⟨fate, -, hd, hne, hcounts⟩ :=
    hr.exists_fate_of_fits hf (hover i f hf hacc) (hlen i f hf hacc)
  rw [hcounts]
  cases hd with
  | dropped => exact absurd rfl hne
  | refused _ hi =>
    rw [hr.result?_eq_none hi rfl]
    cases m <;> rfl
  | applied _ hx =>
    rw [hr.result?_eq hx, Option.any_some, Application.isMissed_verdict]
    cases m <;> rfl

/-- Every handle is released. -/
theorem released_of_isOver :
    (s.world.getMeters a).operations.released.value = s.submitted a := by
  rw [hr.value_eq ha hlt (x := .released) rfl]
  refine System.tally_congr fun i f hf hacc => ?_
  obtain ⟨fate, -, -, -, hcounts⟩ :=
    hr.exists_fate_of_fits hf (hover i f hf hacc) (hlen i f hf hacc)
  rw [hcounts]
  cases fate <;> rfl

omit hlt in
/-- No handle is outstanding. -/
theorem outstanding_of_isOver : (s.world.getMeters a).operations.outstanding = 0 := by
  have hout : (s.world.getMeters a).operations.outstanding = _ := hr.reading_eq ha .outstanding
  rw [hout, System.tally_eq_zero]
  · rfl
  · intro i f hf hacc
    obtain ⟨fate, -, -, -, hcounts⟩ :=
      hr.exists_fate_of_fits hf (hover i f hf hacc) (hlen i f hf hacc)
    rw [hcounts]
    cases fate <;> rfl

/-- **The meters of an account close out** once all flights on it are over. -/
theorem closedOut_of_isOver : s.ClosedOut config h a where
  attempts := hr.attempts_of_isOver ha hlt hlen hover
  milestones := hr.milestones_of_isOver ha hlt hlen hover
  failures := hr.failures_of_isOver ha hlt hlen hover
  released := hr.released_of_isOver ha hlt hlen hover
  outstanding := hr.outstanding_of_isOver ha hlen hover
  doubleReleases := by
    rw [hr.value_eq ha hlt (x := .releasedAgain) rfl]
    exact System.tally_eq_zero fun _ _ _ _ => rfl

end Over

/-- Where nothing can go on, everything is over. -/
theorem isOver_of_isQuiet (hc : config.Refuses) (hr : Run config accounts h s) (hq : s.IsQuiet) :
    s.IsOver a := by
  intro i f hf _
  obtain ⟨-, -, hdone⟩ := hr.isSettled_of_isQuiet hc hq
  obtain ⟨hfin, hw⟩ := hdone hf
  refine f.isSettled_iff.mpr ⟨by rw [hfin]; rfl, fun m => ?_⟩
  rcases hw m with hidle | hfinished
  · rw [hidle]
    rfl
  · rw [hfinished]
    rfl

/-- **The meters of an account balance.** Fewer than `2 ^ 53` flights are on the account, so all
counters are exact, and no read is longer than a buffer may be. Then the meters balance in every
state, the bytes allocated are those asked for, and once all flights on the account are over the
meters close out: every operation was issued or refused, the issued ones passed both milestones,
failed are those whose result says so, and every handle was released once. A run that has come to
rest is over, and the results are what the futures were answered. -/
theorem balanced (hr : Run config accounts h s) (ha : a < accounts)
    (hlt : s.submitted a < Counter.exactLimit) (hlen : s.ReadsFit a) :
    s.Balanced a ∧
      (s.bytes a < Counter.exactLimit →
        (s.world.getMeters a).buffers.allocated.value = s.bytes a) ∧
      (config.Refuses → s.IsQuiet → s.IsOver a) ∧
      (s.IsOver a → s.ClosedOut config h a ∧
        ∀ i f, s.flights[i]? = some f → f.task.account = a → ∃ y, h.issuesOf i = [y] ∧
          (y.queued = false → ∀ m, h.result? config i f.task.request m = none) ∧
          (y.queued = true → ∀ m, ∃ o, h.result? config i f.task.request m = some o ∧
            f.futures.get m = some (if Flight.raises (f.call m o) then .lost else o))) := by
  refine ⟨hr.balanced_of_lt ha hlt, ?allocated, fun hc hq => hr.isOver_of_isQuiet hc hq,
    fun hover => ⟨hr.closedOut_of_isOver ha hlt hlen hover, ?results⟩⟩
  case allocated =>
    intro hbytes
    rw [hr.allocated_eq ha]
    exact Counter.value_of_small hbytes
  case results =>
    intro i f hf hacc
    exact hr.results hf (hover i f hf hacc) (hlen i f hf hacc)

end Run

/-! ## A run with failures -/

theorem System.readsFit_of_all {s : System InMemory} {a : AccountId}
    (h : (s.flights.all fun f => decide (f.task.request.length ≤ Buffer.maxAllocation)) = true) :
    s.ReadsFit a :=
  fun _ _ hf _ _ =>
    of_decide_eq_true (Array.all_eq_true_iff_forall_mem.mp h _ (Array.mem_of_getElem? hf))

namespace Sample

/-- Operations on one object are refused, those on another are never safe. -/
def faulty : InMemoryConfig where
  pools := ["data"]
  issueFaults := ({} : Std.ExtTreeMap String Status).insert "refused" (-5)
  milestoneFaults :=
    { complete := ∅, safe := ({} : Std.ExtTreeMap String Status).insert "unsafe" (-5) }

/-- A write that is refused, one that is never safe, and a read that finds nothing. -/
def mishaps : List Event :=
  .submit object { oid := "refused", operation := .writeFull ⟨#[1, 2, 3]⟩ } ::
    .replicate 6 (.task (.issuer 0)) ++
  .submit object { oid := "unsafe", operation := .write ⟨#[1]⟩ 0 } :: through 1 5 ++
  .submit object { oid := "unsafe", operation := .read 2 1 } :: through 2 5

theorem isSome_replay_mishaps : ((System.fresh faulty 1).replay {} mishaps).isSome = true := by
  decide +kernel

/-- The history and the state after these events. -/
@[irreducible]
def mishapped : History × System InMemory :=
  ((System.fresh faulty 1).replay {} mishaps).get isSome_replay_mishaps

theorem run_mishapped : Run faulty 1 mishapped.1 mishapped.2 := by
  unfold mishapped
  exact Run.start.replay_get isSome_replay_mishaps

end Sample

/-- Three operations were asked for six bytes. Two were issued; neither was ever safe, and that the
read found nothing is no failure of the other milestone. -/
theorem Run.balanced_after_mishaps :
    Run Sample.faulty 1 Sample.mishapped.1 Sample.mishapped.2 ∧
      Sample.mishapped.2.submitted 0 = 3 ∧ Sample.mishapped.2.ReadsFit 0 ∧
      Sample.mishapped.2.IsOver 0 ∧ Sample.mishapped.2.Balanced 0 ∧
      Sample.mishapped.2.ClosedOut Sample.faulty Sample.mishapped.1 0 ∧
      (Sample.mishapped.2.world.getMeters 0).buffers.allocated.value = 6 ∧
      (Sample.mishapped.2.world.getMeters 0).operations.issuedSum = 2 ∧
      ((Sample.mishapped.2.world.getMeters 0).operations.milestoneFailures.get .complete).value =
        0 ∧
      ((Sample.mishapped.2.world.getMeters 0).operations.milestoneFailures.get .safe).value =
        2 := by
  have hcount : Sample.mishapped.2.submitted 0 = 3 := by decide +kernel
  have hlt : Sample.mishapped.2.submitted 0 < Counter.exactLimit := by rw [hcount]; decide
  have hlen : Sample.mishapped.2.ReadsFit 0 := System.readsFit_of_all (by decide +kernel)
  have hfinished : Sample.mishapped.2.IsFinished := System.isFinished_of_all (by decide +kernel)
  have hover : Sample.mishapped.2.IsOver 0 := fun i f hf _ => hfinished hf
  obtain ⟨hbalanced, hbytes, -, hout⟩ :=
    Run.balanced Sample.run_mishapped Nat.one_pos hlt hlen
  obtain ⟨hclosed, -⟩ := hout hover
  have hsum : Sample.mishapped.2.bytes 0 = 6 := by decide +kernel
  have hallocated := hbytes (by rw [hsum]; decide)
  rw [hsum] at hallocated
  refine ⟨Sample.run_mishapped, hcount, hlen, hover, hbalanced, hclosed, hallocated, ?issued,
    ?complete, ?safe⟩
  case issued =>
    rw [Sample.run_mishapped.issuedSum_eq Nat.one_pos hlt]
    decide +kernel
  case complete =>
    rw [hclosed.failures]
    decide +kernel
  case safe =>
    rw [hclosed.failures]
    decide +kernel

end Milepost
