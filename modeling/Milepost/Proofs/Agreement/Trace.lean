import Milepost.Proofs.Metering
import Milepost.Proofs.Session

/-!
# What a run does to its backend

A `Trace` of a run says which operations reached the backend, in which order, and whether it was
shut down by then; and how the store was touched, by calls of other users and by the worker when it
applied operations. Neither the steps of tasks nor the firings of milestones leave a trace.

* `Run.exists_traced`: every run has a trace.
* `Traced.replayed`: the touches lead to the store, and to the one that each operation found.
* `Traced.recorded`: what the backend refused, it refused with what its trace says.
-/

namespace Milepost

/-- An operation that reached the backend. -/
structure Arrival where
  flight : FlightId
  /-- Whether the backend was shut down by then. -/
  late : Bool
deriving DecidableEq

/-- What may be done to the store. -/
inductive Touch
  /-- Another user makes a call. -/
  | call (k : StoreCall)
  /-- The worker applies the operation of a flight. -/
  | apply (i : FlightId)
deriving DecidableEq

/-- What a run did to its backend, newest first. -/
structure Trace where
  /-- The operations that reached the backend. -/
  arrivals : List Arrival := []
  /-- What was done to the store, and what the clock showed then. -/
  touches : List (Touch × Int) := []

/-- The flight that a job was issued for. -/
def History.flightOf? (h : History) (job : Job) : Option FlightId :=
  (h.issues.find? (·.job == job)).map (·.flight)

/-- What an event does to the store. -/
def System.touch? (s : System InMemory) (h : History) : Event → Option Touch
  | .call k => some (.call k)
  | .work =>
    (s.world.backend.application? s.world.shelf).bind fun a => (h.flightOf? a.job).map .apply
  | _ => none

/-- The trace after an event. -/
def Trace.after (r : Trace) (h : History) (s : System InMemory) (e : Event) : Trace where
  arrivals :=
    ((s.issue? e).map fun x => ⟨x.flight, s.world.backend.isShutdown⟩).toList ++ r.arrivals
  touches := ((s.touch? h e).map (·, s.world.backend.now)).toList ++ r.touches

/-- A run together with its trace. -/
inductive Traced (config : InMemoryConfig) (accounts : Nat) :
    Trace → History → System InMemory → Prop
  | start : Traced config accounts {} {} (.fresh config accounts)
  | step {r : Trace} {h : History} {s t : System InMemory} (e : Event) :
    Traced config accounts r h s → s.next? e = some t →
      Traced config accounts (r.after h s e) (h.after s e) t

/-- The trace, the history and the state after a list of events, if they can happen. -/
def Trace.replay (r : Trace) (h : History) (s : System InMemory) :
    List Event → Option (Trace × History × System InMemory)
  | [] => some (r, h, s)
  | e :: es => (s.next? e).bind fun t => replay (r.after h s e) (h.after s e) t es

section

variable {config : InMemoryConfig} {accounts : Nat} {r : Trace} {h : History}
  {s t : System InMemory} {e : Event}

theorem Traced.run (ht : Traced config accounts r h s) : Run config accounts h s := by
  induction ht with
  | start => exact .start
  | step e _ hn ih => exact ih.step e hn

/-- **Every run has a trace.** -/
theorem Run.exists_traced (hr : Run config accounts h s) : ∃ r, Traced config accounts r h s := by
  induction hr with
  | start => exact ⟨{}, .start⟩
  | step e _ hn ih =>
    obtain ⟨r, ht⟩ := ih
    exact ⟨_, ht.step e hn⟩

namespace Traced

/-- What follows on a run is traced on. -/
theorem replay {r' : Trace} {h' : History} {s' : System InMemory}
    (ht : Traced config accounts r h s) {events : List Event}
    (he : r.replay h s events = some (r', h', s')) : Traced config accounts r' h' s' := by
  induction events generalizing r h s with
  | nil => cases he; exact ht
  | cons e es ih =>
    obtain ⟨t, hn, he⟩ := Option.bind_eq_some_iff.mp he
    exact ih (ht.step e hn) he

theorem replay_get {events : List Event} (ht : Traced config accounts r h s)
    (he : (r.replay h s events).isSome = true) :
    Traced config accounts ((r.replay h s events).get he).1 ((r.replay h s events).get he).2.1
      ((r.replay h s events).get he).2.2 :=
  ht.replay (Option.some_get he).symm

/-- What holds at the start and outlives everything that happens always holds. -/
theorem preserved {P : Trace → History → System InMemory → Prop}
    (ht : Traced config accounts r h s) (start : P {} {} (.fresh config accounts))
    (step : ∀ {r h s t e}, Traced config accounts r h s → P r h s → Happens s e t →
      P (r.after h s e) (h.after s e) t) : P r h s := by
  induction ht with
  | start => exact start
  | step e ht hn ih => exact step ht ih (.of_next? ht.run.sound hn)

end Traced

/-! ## The store -/

/-- Touches lead from one store to another; on the way the worker found and answered what the
applications say, each of which is of a job that was issued. -/
inductive Replayed (issues : List Issue) (start : Store) :
    List (Touch × Int) → Store → List Application → Prop
  | start : Replayed issues start [] start []
  | call {touches : List (Touch × Int)} {store : Store} {applications : List Application}
      (k : StoreCall) (now : Int) (hr : Replayed issues start touches store applications) :
    Replayed issues start ((.call k, now) :: touches) (k.onStore now store).2 applications
  | apply {touches : List (Touch × Int)} {store : Store} {applications : List Application}
      {i : FlightId} {a : Application} {now : Int} {shelf : Shelf}
      (hx : ⟨i, a.job, 0, true⟩ ∈ issues)
      (hrun : (a.job.access shelf).run now a.found = (a.result, store))
      (hr : Replayed issues start touches a.found applications) :
    Replayed issues start ((.apply i, now) :: touches) store (applications ++ [a])

theorem Replayed.mono {issues issues' : List Issue} {start store : Store}
    {touches : List (Touch × Int)} {applications : List Application}
    (hr : Replayed issues start touches store applications)
    (hi : ∀ x ∈ issues, x ∈ issues') : Replayed issues' start touches store applications := by
  induction hr with
  | start => exact .start
  | call k now _ ih => exact ih.call k now
  | apply hx hrun _ ih => exact ih.apply (hi _ hx) hrun

/-- Nothing that a flight does touches the store. -/
theorem Flight.Deed.store {f g : Flight} {w w' : World InMemory} (hd : f.Deed w g w') :
    w'.backend.store = w.backend.store := by
  cases hd with
  | quiet hb | ignore hb | refuse hb => rw [hb]
  | make _ hb => rw [hb]; rfl
  | take hb => rw [hb, InMemory.store_submit]
  | release hb =>
    rw [hb, InMemory.release]
    split <;> rfl

theorem InMemory.found_of_application? {b : InMemory} {shelf : Shelf} {a : Application}
    (ha : b.application? shelf = some a) : a.found = b.store := by
  unfold application? at ha
  split at ha
  · cases ha
    rfl
  · cases ha

/-- A step of the worker that applies nothing leaves the store. -/
theorem InMemory.store_of_application? {b b' : InMemory} {shelf shelf' : Shelf}
    (ha : b.application? shelf = none) (hs : b.step? shelf = some (b', shelf')) :
    b'.store = b.store := by
  unfold application? at ha
  unfold step? at hs
  split at hs
  · rename_i hw
    split at hs
    · cases hs
    · rename_i hq
      simp only [hw, hq] at ha
      cases ha
  · cases hs
    rfl
  · cases hs
    rfl

/-- What the worker is about to apply is the job of a flight that was taken. -/
theorem Run.exists_flight (hr : Run config accounts h s) {a : Application}
    (ha : s.world.backend.application? s.world.shelf = some a) :
    ∃ i, ⟨i, a.job, 0, true⟩ ∈ h.issues ∧ h.flightOf? a.job = some i := by
  have hqueue : a.job ∈ s.world.backend.queue := by
    unfold InMemory.application? at ha
    split at ha
    · rename_i hq
      cases ha
      rw [hq]
      exact List.mem_cons_self
    · cases ha
  have htaken : a.job ∈ h.taken := by
    rw [hr.pipeline.taken]
    exact List.mem_append_right _ hqueue
  obtain ⟨x, hx, hjob⟩ := List.mem_map.mp htaken
  obtain ⟨hx, hqueued⟩ := List.mem_filter.mp hx
  have hanswer := hr.answer_of_queued hx hqueued
  obtain ⟨i, job, answer, queued⟩ := x
  cases hjob
  cases hqueued
  cases hanswer
  refine ⟨i, hx, ?_⟩
  cases hfind : h.issues.find? (·.job == a.job) with
  | none =>
    have hno := List.find?_eq_none.mp hfind _ hx
    exact absurd (beq_iff_eq.mpr rfl) hno
  | some y =>
    have hy := List.mem_of_find?_eq_some hfind
    have hjob : y.job = a.job := by simpa using List.find?_some hfind
    obtain rfl := hr.issue_ext hy hx (by rw [hjob])
    rw [History.flightOf?, hfind]
    rfl

/-- **The touches lead to the store**, and to the one that each operation found. -/
theorem Traced.replayed (ht : Traced config accounts r h s) :
    Replayed h.issues (.ofPools config.pools) r.touches s.world.backend.store h.applications := by
  refine ht.preserved (P := fun r h s => Replayed h.issues (.ofPools config.pools) r.touches
    s.world.backend.store h.applications) .start ?_
  intro r h s t e ht hs hh
  cases hh with
  | submit o r =>
    rw [History.after_of_not_isOwn rfl]
    exact hs
  | issuer hf hk hm =>
    rw [History.after_issuer hf]
    change Replayed _ _ r.touches _ _
    rw [(hm.deed hk).store]
    exact hs.mono fun _ => List.mem_append_left _
  | waiter hf hk hm =>
    rw [History.after_waiter]
    change Replayed _ _ r.touches _ _
    rw [(hm.deed hk).store]
    exact hs
  | work hstep =>
    rw [History.after_work]
    cases ha : s.world.backend.application? s.world.shelf with
    | none =>
      have hstore := InMemory.store_of_application? ha hstep
      have htouch : s.touch? h .work = none := by rw [System.touch?, ha]; rfl
      rw [Trace.after, htouch, Option.toList_none, List.append_nil]
      change Replayed _ _ r.touches _ _
      rw [hstore]
      exact hs
    | some a =>
      obtain ⟨i, hx, hflight⟩ := ht.run.exists_flight ha
      have htouch : s.touch? h .work = some (.apply i) := by
        rw [System.touch?, ha, Option.bind_some, hflight]
        rfl
      have hfound := InMemory.found_of_application? ha
      have hrun := InMemory.run_of_step? ha hstep
      rw [← hfound] at hrun hs
      rw [Trace.after, htouch]
      exact hs.apply hx hrun
  | call k =>
    rw [History.after_of_not_isOwn rfl]
    have hstore := congrArg Prod.snd (InMemory.run_eq_onStore k s.world.backend)
    change Replayed _ _ ((.call k, s.world.backend.now) :: r.touches) _ _
    rw [show (s.onBackend fun b => (k.run b).2).world.backend.store = _ from hstore]
    exact hs.call k _
  | shutdown | clock =>
    rw [History.after_of_not_isOwn rfl]
    exact hs

/-! ## The refusals -/

/-- What an operation on an object of the name is answered that is not taken. -/
def InMemoryConfig.refusal (c : InMemoryConfig) (late : Bool) (oid : String) : Status :=
  if late then .notConnected else c.issueFaults[oid]?.getD .noEntry

/-- With a completion that is not used, a job is not taken because the backend is shut down, an
answer was laid down, or the pool is missing. -/
theorem InMemory.answer_eq_refusal {b : InMemory} {job : Job} (ha : b.accepts job = false)
    (hi : (b.completion job.completion).issued = false)
    (hr : (b.completion job.completion).released = false) :
    (b.submit job).1 = b.config.refusal b.isShutdown job.oid := by
  unfold submit InMemoryConfig.refusal
  split
  · rfl
  · rename_i hs
    cases hf : b.config.issueFaults[job.oid]? with
    | some status => rfl
    | none =>
      cases hp : b.store.hasPool job.pool with
      | false => rfl
      | true => simp [accepts, hs, hf, hp, hi, hr] at ha

/-- The issue is what became of the arrival. -/
structure Arrival.Fits (config : InMemoryConfig) (y : Arrival) (x : Issue) : Prop where
  flight : x.flight = y.flight
  answer : x.queued = false → x.answer = config.refusal y.late x.job.oid

/-- The arrivals are those of the issues. -/
structure Trace.Records (config : InMemoryConfig) (r : Trace) (issues : List Issue) : Prop where
  arrived : ∀ x ∈ issues, ∃ y ∈ r.arrivals, y.Fits config x
  issued : ∀ y ∈ r.arrivals, ∃ x ∈ issues, y.Fits config x

/-- What the backend does with a job of a flight fits its arrival. -/
theorem Run.fits_issueOf (hr : Run config accounts h s) {i : FlightId} {f : Flight}
    (hf : s.flights[i]? = some f) {job : Job} (hj : f.job? s.world = some job) :
    Arrival.Fits config ⟨i, s.world.backend.isShutdown⟩ (s.world.backend.issueOf i job) where
  flight := rfl
  answer hq := by
    have hreleased := (hr.held hf _ (Flight.native?_of_job? hj)).2
    have hissued : (s.world.backend.completion job.completion).issued = false := by
      by_contra hissued
      have hmem := (hr.pipeline.issued _).mp (Bool.not_eq_false _ ▸ hissued)
      obtain ⟨job', hjob', hc⟩ := List.mem_map.mp hmem
      obtain ⟨x, hx, rfl⟩ := List.mem_map.mp hjob'
      exact hr.completion_ne_of_job? hf hj (List.mem_filter.mp hx).1 hc
    rw [← hr.sound.config]
    exact InMemory.answer_eq_refusal hq hissued hreleased

/-- **What the backend refused, it refused with what its trace says.** -/
theorem Traced.recorded (ht : Traced config accounts r h s) : r.Records config h.issues := by
  refine ht.preserved (P := fun r h s => r.Records config h.issues) ⟨nofun, nofun⟩ ?_
  intro r h s t e ht hs hh
  cases hh with
  | @issuer i f g w hf hk hm =>
    rw [History.after_issuer hf]
    have hissue : s.issue? (.task (.issuer i)) =
        (f.job? s.world).map (s.world.backend.issueOf i) := by
      rw [System.issue?, hf]
      rfl
    rw [Trace.after, hissue]
    cases hj : f.job? s.world with
    | none =>
      rw [h.sent_of_none hj]
      exact ⟨hs.arrived, hs.issued⟩
    | some job =>
      have hfits := ht.run.fits_issueOf hf hj
      rw [History.sent, hj]
      constructor
      case arrived =>
        intro x hx
        rcases List.mem_append.mp hx with hx | hx
        · obtain ⟨y, hy, hxy⟩ := hs.arrived x hx
          exact ⟨y, List.mem_cons_of_mem _ hy, hxy⟩
        · obtain rfl := List.mem_singleton.mp hx
          exact ⟨_, List.mem_cons_self, hfits⟩
      case issued =>
        intro y hy
        rcases List.mem_cons.mp hy with rfl | hy
        · exact ⟨_, List.mem_append_right _ List.mem_cons_self, hfits⟩
        · obtain ⟨x, hx, hxy⟩ := hs.issued y hy
          exact ⟨x, List.mem_append_left _ hx, hxy⟩
  | waiter =>
    rw [History.after_waiter]
    exact ⟨hs.arrived, hs.issued⟩
  | work =>
    rw [History.after_work]
    exact ⟨hs.arrived, hs.issued⟩
  | submit | call | shutdown | clock =>
    rw [History.after_of_not_isOwn rfl]
    exact ⟨hs.arrived, hs.issued⟩

end

end Milepost
