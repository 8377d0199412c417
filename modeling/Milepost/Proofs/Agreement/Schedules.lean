import Milepost.Proofs.Agreement.Fates
import Milepost.Proofs.Agreement.Lockstep
import Milepost.Proofs.Reading

/-!
# The schedule does not matter

Two runs that carry out the same tasks and did the same to their backends are `Twins`. In which
order the backends fire milestones may differ, so may all that leaves no trace: when tasks make
their steps, when the worker fires and when flights are submitted.

* `Twins.eq_of_decides`: the histories of twins decide on the same fates.
* `Twins.agree`: so twins end alike, in what they told, what is stored, and what they counted.
-/

namespace Milepost

/-- The arrival as it is with other numbers of flights. -/
def Arrival.rename (σ : FlightId → FlightId) (y : Arrival) : Arrival :=
  { y with flight := σ y.flight }

/-- All tasks of all flights are over. -/
def System.IsFinished (s : System InMemory) : Prop :=
  ∀ {i : FlightId} {f : Flight}, s.flights[i]? = some f → f.isSettled = true

/-- Two finished runs that did the same to their backends. `σ` says which flight of the second run
has the task of a flight of the first. -/
structure Twins (config : InMemoryConfig) (order : MilestoneOrder) (accounts : Nat)
    (σ : Equiv.Perm FlightId) (r r' : Trace) (h h' : History) (s s' : System InMemory) : Prop where
  /-- Both start from backends that differ in nothing but the order of milestones. -/
  first : Traced config accounts r h s
  second : Traced { config with order } accounts r' h' s'
  tasks : ∀ i, s'.flights[σ i]?.map (·.task) = s.flights[i]?.map (·.task)
  /-- The same operations reached the backend in the same order, and the same of them came late. -/
  arrivals : r'.arrivals = r.arrivals.map (Arrival.rename σ)
  /-- They were applied in the same order, with the same calls of others in between; the times may
  differ. What is applied is not settled by what arrived: a call may have deleted the pool. -/
  touches : r'.touches.map Prod.fst = r.touches.map fun x => x.1.rename σ
  finished : s.IsFinished
  finished' : s'.IsFinished

theorem System.isFinished_of_all {s : System InMemory} (h : s.flights.all (·.isSettled) = true) :
    s.IsFinished :=
  fun hf => Array.all_eq_true_iff_forall_mem.mp h _ (Array.mem_of_getElem? hf)

namespace Twins

variable {config : InMemoryConfig} {order : MilestoneOrder} {accounts : Nat}
  {σ : Equiv.Perm FlightId} {r r' : Trace} {h h' : History} {s s' : System InMemory}
  {i : FlightId} {f f' : Flight} {fate fate' : Fate}

/-- The flight with the same task. -/
theorem exists_flight (hp : Twins config order accounts σ r r' h h' s s')
    (hf : s.flights[i]? = some f) : ∃ f', s'.flights[σ i]? = some f' ∧ f'.task = f.task := by
  have htask := hp.tasks i
  rw [hf, Option.map_some] at htask
  exact Option.map_eq_some_iff.mp htask

/-- What was issued for the flights of one task is alike. -/
theorem alike (hp : Twins config order accounts σ r r' h h' s s') {job job' : Job}
    (hx : ⟨i, job, 0, true⟩ ∈ h.issues) (hx' : ⟨σ i, job', 0, true⟩ ∈ h'.issues) :
    job.Alike job' := by
  have hown := History.mem_issuesOf.mpr ⟨hx, rfl⟩
  have hown' := History.mem_issuesOf.mpr ⟨hx', rfl⟩
  rcases Nat.lt_or_ge i s.flights.size with hlt | hle
  · have hf := Array.getElem?_eq_getElem hlt
    obtain ⟨f', hf', htask⟩ := hp.exists_flight hf
    obtain ⟨c, n, hj⟩ := hp.first.run.job?_of_issue hf hown
    obtain ⟨c', n', hj'⟩ := hp.second.run.job?_of_issue hf' hown'
    rw [htask] at hj'
    exact Task.alike_of_job? hj hj'
  · rw [hp.first.run.courses.absent hle] at hown
    cases hown

/-- The stores of twins are in lockstep, in every relation that accesses respect at the times at
which they were touched. -/
theorem level (hp : Twins config order accounts σ r r' h h' s s') {T : Int → Int → Prop}
    {R : Store → Store → Prop} (hR : Store.Respects T R)
    (hstart : R (.ofPools config.pools) (.ofPools config.pools))
    (ht : List.Forall₂ (fun x x' => x'.1 = x.1.rename σ ∧ T x.2 x'.2) r.touches r'.touches) :
    Replayed.Level σ R h.issues h'.issues s.world.backend.store s'.world.backend.store
      h.applications h'.applications :=
  Replayed.lockstep hR hstart hp.alike hp.first.replayed hp.second.replayed ht

/-- Whatever the clock showed, the stores differ in times at most. -/
theorem sameButTimes (hp : Twins config order accounts σ r r' h h' s s') :
    Replayed.Level σ Store.SameButTimes h.issues h'.issues s.world.backend.store
      s'.world.backend.store h.applications h'.applications := by
  refine hp.level Store.respects_sameButTimes (.refl _) ?_
  have htouches : List.Forall₂ (· = ·) (r.touches.map fun x => x.1.rename σ)
      (r'.touches.map Prod.fst) := by
    rw [List.forall₂_eq_eq_eq, hp.touches]
  rw [List.forall₂_map_left_iff, List.forall₂_map_right_iff] at htouches
  exact htouches.imp fun _ _ hname => ⟨hname.symm, trivial⟩

/-- If the clock showed the same whenever the stores were touched, they are the same. -/
theorem store_eq (hp : Twins config order accounts σ r r' h h' s s')
    (hclock : r'.touches = r.touches.map (Prod.map (Touch.rename σ) id)) :
    s'.world.backend.store = s.world.backend.store := by
  refine (hp.level Store.respects_eq rfl ?_).store.symm
  rw [hclock, List.forall₂_map_right_iff, List.forall₂_same]
  exact fun _ _ => ⟨rfl, rfl⟩

/-- What was applied for a flight was applied for its twin. -/
theorem applied (hp : Twins config order accounts σ r r' h h' s s') {q : Request}
    {a : Application} (ha : h.Applied i q a) :
    ∃ a' ∈ h'.applications, ⟨σ i, a'.job, 0, true⟩ ∈ h'.issues ∧
      a.Matches σ Store.SameButTimes h.issues h'.issues a' := by
  obtain ⟨a', ha', hm⟩ := hp.sameButTimes.left a ha.applied
  obtain ⟨j, hj, hj'⟩ := hm.issued
  have hi := (History.mem_issuesOf.mp (ha.issued ▸ List.mem_cons_self)).1
  obtain rfl : i = j := congrArg Issue.flight (hp.first.run.issue_ext hi hj rfl)
  exact ⟨a', ha', hj', hm⟩

/-- What was applied for the twin of a flight was applied for the flight. -/
theorem applied' (hp : Twins config order accounts σ r r' h h' s s') {q : Request}
    {a' : Application} (ha' : h'.Applied (σ i) q a') :
    ∃ a ∈ h.applications, ⟨i, a.job, 0, true⟩ ∈ h.issues := by
  obtain ⟨a, ha, hm⟩ := hp.sameButTimes.right a' ha'.applied
  obtain ⟨j, hj, hj'⟩ := hm.issued
  have hi := (History.mem_issuesOf.mp (ha'.issued ▸ List.mem_cons_self)).1
  have hflight := congrArg Issue.flight (hp.second.run.issue_ext hi hj' rfl)
  obtain rfl : i = j := σ.injective hflight
  exact ⟨a, ha, hj⟩

/-- What was issued for the flights of one task is about one object. -/
theorem key_eq (hp : Twins config order accounts σ r r' h h' s s')
    (hf : s.flights[i]? = some f) {x x' : Issue} (hx : x ∈ h.issuesOf i)
    (hx' : x' ∈ h'.issuesOf (σ i)) : x'.job.key = x.job.key := by
  obtain ⟨f', hf', htask⟩ := hp.exists_flight hf
  rw [hp.first.run.key_of_issue hf hx, hp.second.run.key_of_issue hf' hx', htask]

/-- Operations of the same task were refused with the same answer. -/
theorem refused_eq (hp : Twins config order accounts σ r r' h h' s s')
    (hf : s.flights[i]? = some f) {job job' : Job} {answer answer' : Status}
    (hi : h.issuesOf i = [⟨i, job, answer, false⟩])
    (hi' : h'.issuesOf (σ i) = [⟨σ i, job', answer', false⟩]) : answer' = answer := by
  have hown : ⟨i, job, answer, false⟩ ∈ h.issuesOf i := hi ▸ List.mem_cons_self
  have hown' : ⟨σ i, job', answer', false⟩ ∈ h'.issuesOf (σ i) := hi' ▸ List.mem_cons_self
  have hoid : job'.oid = job.oid := congrArg Prod.snd (hp.key_eq hf hown hown')
  obtain ⟨y, hy, hfits⟩ := hp.first.recorded.arrived _ (History.mem_issuesOf.mp hown).1
  have hy' : y.rename σ ∈ r'.arrivals := hp.arrivals ▸ List.mem_map_of_mem hy
  obtain ⟨x', hx', hfits'⟩ := hp.second.recorded.issued _ hy'
  have hflight : x'.flight = σ i := hfits'.flight.trans (congrArg σ hfits.flight.symm)
  have hone := hp.second.run.issuesOf_of_mem hx'
  rw [hflight, hi'] at hone
  obtain rfl := List.singleton_inj.mp hone
  have hanswer : answer = config.refusal y.late job.oid := hfits.answer rfl
  have hanswer' : answer' = config.refusal y.late job'.oid := hfits'.answer rfl
  rw [hanswer', hanswer, hoid]

/-- Operations of the same task that were applied had the same result, and read the same bytes. -/
theorem applied_eq (hp : Twins config order accounts σ r r' h h' s s')
    (hf : s.flights[i]? = some f) {a a' : Application} (ha : h.Applied i f.task.request a)
    (ha' : h'.Applied (σ i) f.task.request a') :
    a'.result = a.result ∧ a'.bytes f.task.request = a.bytes f.task.request := by
  obtain ⟨b, hb, hissue, hm⟩ := hp.applied ha
  have hown : ⟨i, a.job, 0, true⟩ ∈ h.issuesOf i := ha.issued ▸ List.mem_cons_self
  have hown' : ⟨σ i, a'.job, 0, true⟩ ∈ h'.issuesOf (σ i) := ha'.issued ▸ List.mem_cons_self
  have hkey : a'.job.key = a.job.key := hp.key_eq hf hown hown'
  have hjob : b.job = a'.job := by
    have hone := hp.second.run.issuesOf_of_mem hissue
    rw [ha'.issued] at hone
    exact (Issue.mk.inj (List.singleton_inj.mp hone)).2.1.symm
  obtain rfl := hp.second.run.pipeline.application_ext hb ha'.applied (by rw [hjob])
  have hresult : b.result = a.result := by
    obtain ⟨c, n, hj⟩ := hp.first.run.job?_of_issue hf hown
    obtain ⟨-, -, -, command, hcommand, haction⟩ := Task.of_job? hj
    cases hop : f.task.request.operation with
    | read length offset =>
      have hkind : f.task.request.kind = .read := by rw [Request.kind, hop]; rfl
      rw [ha.read hkind, ha'.read hkind, hkey, hm.found.readResult]
    | write | writeFull | append | remove =>
      rw [hop] at hcommand
      cases hcommand
      exact hm.result _ haction
  refine ⟨hresult, ?_⟩
  rw [Application.bytes, Application.bytes, hresult, hkey, hm.found.readContent]

/-- **The histories of twins decide on the same fates.** -/
theorem eq_of_decides (hp : Twins config order accounts σ r r' h h' s s')
    (hf : s.flights[i]? = some f) (hd : h.Decides i f.task fate)
    (hd' : h'.Decides (σ i) f.task fate') : fate' = fate := by
  cases hd with
  | dropped hfits =>
    cases hd' with
    | dropped => rfl
    | refused hfits' | applied hfits' => cases hfits.symm.trans hfits'
  | refused hfits hi =>
    cases hd' with
    | dropped hfits' => cases hfits.symm.trans hfits'
    | refused _ hi' => rw [hp.refused_eq hf hi hi']
    | applied _ ha' =>
      obtain ⟨a, -, hissue⟩ := hp.applied' ha'
      have hone := hp.first.run.issuesOf_of_mem hissue
      cases hone.symm.trans hi
  | applied hfits ha =>
    cases hd' with
    | dropped hfits' => cases hfits.symm.trans hfits'
    | refused _ hi' =>
      obtain ⟨a', -, hissue, -⟩ := hp.applied ha
      have hone := hp.second.run.issuesOf_of_mem hissue
      cases hone.symm.trans hi'
    | applied _ ha' =>
      obtain ⟨hresult, hbytes⟩ := hp.applied_eq hf ha ha'
      rw [hresult, hbytes]

/-- Flights of the same task met the same fate. -/
theorem exists_fate (hp : Twins config order accounts σ r r' h h' s s')
    (hf : s.flights[i]? = some f) (hf' : s'.flights[σ i]? = some f') (htask : f'.task = f.task) :
    ∃ fate, f.Met config fate ∧ h.Decides i f.task fate ∧
      f'.Met { config with order } fate ∧ h'.Decides (σ i) f'.task fate := by
  obtain ⟨fate, hm, hd⟩ := hp.first.run.exists_fate hf (hp.finished hf)
  obtain ⟨fate', hm', hd'⟩ := hp.second.run.exists_fate hf' (hp.finished' hf')
  obtain rfl := hp.eq_of_decides hf hd (htask ▸ hd')
  exact ⟨_, hm, hd, hm', hd'⟩

/-- A flight and its twin are counted by the same meters. -/
theorem counts_eq (hp : Twins config order accounts σ r r' h h' s s') (a : AccountId)
    (x : Meter) (i : FlightId) :
    s'.counts { config with order } h' a x (σ i) = s.counts config h a x i := by
  unfold System.counts
  have htask := hp.tasks i
  cases hf : s.flights[i]? with
  | none =>
    rw [hf, Option.map_none, Option.map_eq_none_iff] at htask
    rw [htask]
    rfl
  | some f =>
    obtain ⟨f', hf', htask⟩ := hp.exists_flight hf
    obtain ⟨fate, hm, hd, hm', hd'⟩ := hp.exists_fate hf hf' htask
    rw [hf', Option.any_some, Option.any_some, Flight.isCounted, Flight.isCounted,
      hp.first.run.counts_of_decides hm hd, hp.second.run.counts_of_decides hm' hd', htask]
    rfl

/-- The meters of every account show the same. -/
theorem meters_eq (hp : Twins config order accounts σ r r' h h' s s') (a : AccountId) :
    (s'.world.getMeters a).operations = (s.world.getMeters a).operations := by
  have hs := hp.first.run.metered
  have hs' := hp.second.run.metered
  rcases Nat.lt_or_ge a accounts with hlt | hle
  · refine OperationMeters.ext_reading fun x => ?_
    have hcard : (s.counted config h a x).card =
        (s'.counted { config with order } h' a x).card := by
      refine Finset.card_equiv σ fun i => ?_
      rw [System.mem_counted, System.mem_counted, hp.counts_eq]
    have hreading := hs.reading (x := x) hlt
    have hreading' := hs'.reading (x := x) hlt
    rw [← hcard, ← hreading] at hreading'
    exact hreading'
  · rw [World.getMeters, World.getMeters, Array.getElem?_eq_none (hs.size.trans_le hle),
      Array.getElem?_eq_none (hs'.size.trans_le hle)]

/-- **The schedule does not matter.** When two runs are over that did the same to backends that
differ in the order of milestones, both owners of a task were told the same: both futures have the
same outcomes, and both callbacks were called equally often with the same arguments. The same
is stored, but for times that the clock showed; and the meters show the same. -/
theorem agree (hp : Twins config order accounts σ r r' h h' s s') :
    (∀ i f, s.flights[i]? = some f → ∃ f', s'.flights[σ i]? = some f' ∧
      (∀ m, ∃ o, f.futures.get m = some o ∧ f'.futures.get m = some o) ∧
        f'.invocations.Perm f.invocations) ∧
      s.world.backend.store.SameButTimes s'.world.backend.store ∧
      (r'.touches = r.touches.map (Prod.map (Touch.rename σ) id) →
        s'.world.backend.store = s.world.backend.store) ∧
      ∀ a, (s'.world.getMeters a).operations = (s.world.getMeters a).operations := by
  refine ⟨?told, hp.sameButTimes.store, hp.store_eq, hp.meters_eq⟩
  intro i f hf
  obtain ⟨f', hf', htask⟩ := hp.exists_flight hf
  obtain ⟨fate, hm, -, hm', -⟩ := hp.exists_fate hf hf' htask
  have hfutures := hm'.futures
  have hcalls := hm'.invocations
  rw [htask] at hfutures hcalls
  exact ⟨f', hf', fun m => ⟨_, hm.futures m, hfutures m⟩, hcalls.trans hm.invocations.symm⟩

end Twins

/-! ## Twins -/

namespace Sample

def write : Request := { oid := "object", operation := .writeFull ⟨#[1, 2, 3]⟩ }

def read : Request := { oid := "object", operation := .read 2 1 }

def label : Event := .call (.setAttribute (1, "object") "label" ⟨#[4]⟩)

/-- One operation after the other. -/
def inOrder : List Event :=
  .submit object write :: through 0 5 ++ [label] ++ .submit object read :: through 1 6

/-- The steps of the waiter for a milestone, which makes so many. -/
def wait (i : FlightId) (m : Milestone) (steps : Nat) : List Event :=
  .replicate steps (.task (.waiter i m))

/-- The read is submitted first, and the write overtakes it. -/
def overtaking : List Event :=
  [.submit object read, .submit object write] ++ .replicate 3 (.task (.issuer 1)) ++
    .replicate 3 (.task (.issuer 0)) ++ [.work, label] ++ .replicate 5 .work ++
    wait 0 .safe 6 ++ wait 1 .complete 5 ++ wait 1 .safe 5 ++ wait 0 .complete 6

theorem isSome_replay_inOrder :
    (Trace.replay {} {} (.fresh config 1) inOrder).isSome = true := by
  decide +kernel

theorem isSome_replay_overtaking :
    (Trace.replay {} {} (.fresh { config with order := .safeFirst } 1) overtaking).isSome =
      true := by
  decide +kernel

/-- The trace, the history and the state after one operation after the other. -/
@[irreducible]
def first : Trace × History × System InMemory :=
  (Trace.replay {} {} (.fresh config 1) inOrder).get isSome_replay_inOrder

/-- The trace, the history and the state after the write overtook the read. -/
@[irreducible]
def second : Trace × History × System InMemory :=
  (Trace.replay {} {} (.fresh { config with order := .safeFirst } 1) overtaking).get
    isSome_replay_overtaking

theorem traced_first : Traced config 1 first.1 first.2.1 first.2.2 := by
  unfold first
  exact Traced.start.replay_get isSome_replay_inOrder

theorem traced_second :
    Traced { config with order := .safeFirst } 1 second.1 second.2.1 second.2.2 := by
  unfold second
  exact Traced.start.replay_get isSome_replay_overtaking

theorem tasks_second (i : FlightId) :
    second.2.2.flights[Equiv.swap 0 1 i]?.map (·.task) = first.2.2.flights[i]?.map (·.task) := by
  match i with
  | 0 => decide +kernel
  | 1 => decide +kernel
  | i + 2 =>
    have hsize : first.2.2.flights.size = 2 := by decide +kernel
    have hsize' : second.2.2.flights.size = 2 := by decide +kernel
    have hfix : Equiv.swap 0 1 (i + 2) = i + 2 :=
      Equiv.swap_apply_of_ne_of_ne (Nat.succ_ne_zero _) (Nat.succ_succ_ne_one i)
    have hle : 2 ≤ i + 2 := Nat.le_add_left ..
    rw [hfix, Array.getElem?_eq_none (hsize.trans_le hle),
      Array.getElem?_eq_none (hsize'.trans_le hle)]

theorem twins : Twins config .safeFirst 1 (Equiv.swap 0 1) first.1 second.1 first.2.1 second.2.1
    first.2.2 second.2.2 where
  first := traced_first
  second := traced_second
  tasks := tasks_second
  arrivals := by decide +kernel
  touches := by decide +kernel
  finished := System.isFinished_of_all (by decide +kernel)
  finished' := System.isFinished_of_all (by decide +kernel)

end Sample

/-- A read and the write that overtook it end as they do when they are made in order. -/
theorem Twins.agree_overtaken :
    Twins Sample.config .safeFirst 1 (Equiv.swap 0 1) Sample.first.1 Sample.second.1
        Sample.first.2.1 Sample.second.2.1 Sample.first.2.2 Sample.second.2.2 ∧
      (∃ f f', Sample.first.2.2.flights[1]? = some f ∧ Sample.second.2.2.flights[0]? = some f' ∧
        f'.futures.get .safe = some (.reached (some ⟨#[2, 3]⟩)) ∧
        f'.futures.get .safe = f.futures.get .safe ∧ f'.invocations.Perm f.invocations) ∧
      Sample.second.2.2.world.backend.store = Sample.first.2.2.world.backend.store ∧
      (Sample.second.2.2.world.getMeters 0).operations =
        (Sample.first.2.2.world.getMeters 0).operations := by
  obtain ⟨htold, -, hstore, hmeters⟩ := Twins.agree Sample.twins
  have hread : Sample.first.2.2.flights[1]?.any
      (·.futures.get .safe == some (.reached (some ⟨#[2, 3]⟩))) = true := by
    decide +kernel
  obtain ⟨f, hf, hbytes⟩ := (Option.any_eq_true ..).mp hread
  rw [beq_iff_eq] at hbytes
  obtain ⟨f', hf', hfutures, hcalls⟩ := htold 1 f hf
  obtain ⟨o, ho, ho'⟩ := hfutures .safe
  have heq : f'.futures.get .safe = f.futures.get .safe := ho'.trans ho.symm
  have hclock : Sample.second.1.touches =
      Sample.first.1.touches.map (Prod.map (Touch.rename (Equiv.swap 0 1)) id) := by
    decide +kernel
  exact ⟨Sample.twins, ⟨f, f', hf, hf', heq.trans hbytes, heq, hcalls⟩, hstore hclock, hmeters 0⟩

end Milepost
