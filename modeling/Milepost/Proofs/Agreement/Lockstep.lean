import Mathlib.Data.List.Forall2
import Milepost.Proofs.Agreement.Times
import Milepost.Proofs.Agreement.Trace

/-!
# Two stores in lockstep

Two runs whose traces touch their stores alike take the stores through the same accesses, so that
both find and answer the same at each of them. How far the stores are the same depends on the clock
alone: they differ in times at most, and not at all if the clock showed the same at every touch.

* `Replayed.lockstep`: so it is for every relation of stores that accesses respect.
-/

namespace Milepost

/-- The touch as it is with other numbers of flights. -/
def Touch.rename (σ : FlightId → FlightId) : Touch → Touch
  | call k => call k
  | apply i => apply (σ i)

namespace Store

/-- At times so related, accesses have the same answers on stores so related and leave them so. -/
def Respects (T : Int → Int → Prop) (R : Store → Store → Prop) : Prop :=
  ∀ (x : Access) {now now' : Int} {s s' : Store}, T now now' → R s s' →
    (x.run now' s').1 = (x.run now s).1 ∧ R (x.run now s).2 (x.run now' s').2

theorem respects_sameButTimes : Respects (fun _ _ => True) SameButTimes := by
  intro x now now' s s' _ hs
  have hrun : SameOutcome SameButTimes (x.run now s) (x.run now' s') := hs.run x
  exact ⟨hrun.answer, hrun.store⟩

theorem respects_eq : Respects Eq Eq := by
  rintro x now _ s _ rfl rfl
  exact ⟨rfl, rfl⟩

end Store

/-- Two jobs make the same edit of the same object, or both of them read. -/
inductive Job.Alike (job job' : Job) : Prop
  | edit {e : Edit} (hk : job'.key = job.key) (ha : job.action = .command (.edit e))
      (ha' : job'.action = .command (.edit e))
  | read {n n' : BufferId} {offset offset' : Nat} (ha : job.action = .command (.read n offset))
      (ha' : job'.action = .command (.read n' offset'))

/-- The jobs that a task hands over are alike. -/
theorem Task.alike_of_job? {t : Task} {c c' : CompletionId} {n n' : BufferId} {job job' : Job}
    (hj : t.job? c n = some job) (hj' : t.job? c' n' = some job') : job.Alike job' := by
  obtain ⟨-, hpool, hoid, command, hcommand, haction⟩ := Task.of_job? hj
  obtain ⟨-, hpool', hoid', command', hcommand', haction'⟩ := Task.of_job? hj'
  have hkey : job'.key = job.key := by rw [Job.key, Job.key, hpool, hoid, hpool', hoid']
  cases hop : t.request.operation with
  | read length offset =>
    exact .read (Task.action_of_job? hj hop) (Task.action_of_job? hj' hop)
  | write | writeFull | append | remove =>
    rw [hop] at hcommand hcommand'
    cases hcommand
    cases hcommand'
    exact .edit hkey haction haction'

/-- Two applications are of the jobs of one flight, found stores so related, and had the same
result unless they were reads. -/
structure Application.Matches (σ : FlightId → FlightId) (R : Store → Store → Prop)
    (issues issues' : List Issue) (a a' : Application) : Prop where
  issued : ∃ i, ⟨i, a.job, 0, true⟩ ∈ issues ∧ ⟨σ i, a'.job, 0, true⟩ ∈ issues'
  found : R a.found a'.found
  result : ∀ e, a.job.action = .command (.edit e) → a'.result = a.result

/-- Where two stores got to in lockstep. -/
structure Replayed.Level (σ : FlightId → FlightId) (R : Store → Store → Prop)
    (issues issues' : List Issue) (store store' : Store)
    (applications applications' : List Application) : Prop where
  store : R store store'
  left : ∀ a ∈ applications, ∃ a' ∈ applications', a.Matches σ R issues issues' a'
  right : ∀ a' ∈ applications', ∃ a ∈ applications, a.Matches σ R issues issues' a'

section

variable {σ : FlightId → FlightId} {R : Store → Store → Prop} {T : Int → Int → Prop}
  {issues issues' : List Issue} {start start' store store' : Store}
  {touches touches' : List (Touch × Int)} {applications applications' : List Application}

/-- One more application on either side. -/
theorem Replayed.Level.apply {a a' : Application}
    (hl : Level σ R issues issues' a.found a'.found applications applications')
    (hm : a.Matches σ R issues issues' a') (hs : R store store') :
    Level σ R issues issues' store store' (applications ++ [a]) (applications' ++ [a']) where
  store := hs
  left b hb := by
    rcases List.mem_append.mp hb with hb | hb
    · obtain ⟨b', hb', hbb'⟩ := hl.left b hb
      exact ⟨b', List.mem_append_left _ hb', hbb'⟩
    · obtain rfl := List.mem_singleton.mp hb
      exact ⟨a', List.mem_append_right _ List.mem_cons_self, hm⟩
  right b' hb' := by
    rcases List.mem_append.mp hb' with hb' | hb'
    · obtain ⟨b, hb, hbb'⟩ := hl.right b' hb'
      exact ⟨b, List.mem_append_left _ hb, hbb'⟩
    · obtain rfl := List.mem_singleton.mp hb'
      exact ⟨a, List.mem_append_right _ List.mem_cons_self, hm⟩

/-- What alike jobs do on stores so related. -/
theorem Job.Alike.run {job job' : Job} (hj : job.Alike job') (hR : Store.Respects T R)
    {now now' : Int} {s s' t t' : Store} {shelf shelf' : Shelf} {result result' : Status}
    (hT : T now now') (hs : R s s') (hrun : (job.access shelf).run now s = (result, t))
    (hrun' : (job'.access shelf').run now' s' = (result', t')) :
    R t t' ∧ ∀ e, job.action = .command (.edit e) → result' = result := by
  cases hj with
  | edit hk ha ha' =>
    rw [Job.access, ha] at hrun
    rw [Job.access, ha', hk] at hrun'
    obtain ⟨hanswer, hstore⟩ := hR (.edit job.key _) hT hs
    rw [hrun, hrun'] at hanswer hstore
    exact ⟨hstore, fun _ _ => hanswer⟩
  | read ha ha' =>
    rw [Job.access, ha] at hrun
    rw [Job.access, ha'] at hrun'
    cases hrun
    cases hrun'
    exact ⟨hs, fun e he => nomatch ha.symm.trans he⟩

/-- **Stores that are touched alike go in lockstep.** -/
theorem Replayed.lockstep (hR : Store.Respects T R) (hstart : R start start')
    (hjobs : ∀ {i job job'}, ⟨i, job, 0, true⟩ ∈ issues → ⟨σ i, job', 0, true⟩ ∈ issues' →
      job.Alike job')
    (hr : Replayed issues start touches store applications)
    (hr' : Replayed issues' start' touches' store' applications')
    (ht : List.Forall₂ (fun x x' => x'.1 = x.1.rename σ ∧ T x.2 x'.2) touches touches') :
    Level σ R issues issues' store store' applications applications' := by
  induction hr generalizing touches' store' applications' with
  | start =>
    cases ht
    cases hr'
    exact ⟨hstart, nofun, nofun⟩
  | call k now hr ih =>
    cases ht with
    | cons hx ht =>
      obtain ⟨hname, hT⟩ := hx
      cases hr' with
      | call k' now' hr' =>
        cases hname
        have hl := ih hr' ht
        exact ⟨(hR (.call k) hT hl.store).2, hl.left, hl.right⟩
      | apply => cases hname
  | apply hx hrun hr ih =>
    cases ht with
    | cons hx' ht =>
      obtain ⟨hname, hT⟩ := hx'
      cases hr' with
      | call => cases hname
      | apply hx' hrun' hr' =>
        cases hname
        have hl := ih hr' ht
        obtain ⟨hstore, hresult⟩ := (hjobs hx hx').run hR hT hl.store hrun hrun'
        exact hl.apply ⟨⟨_, hx, hx'⟩, hl.store, hresult⟩ hstore

end

end Milepost
