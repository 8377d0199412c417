import Milepost.Proofs.Metering

/-!
# How a flight ends

A flight is over when its tasks are. By then its operation was never issued, or was refused, or
was applied with a result and, for a read, with bytes. This `Fate` alone, with the task and what
was laid down for the object, says what the owner was told and what the meters show of the flight.

* `Run.exists_fate`: every flight that is over met a fate, and the history says which.
* `Run.counts_of_decides`: its fate says by which meters it is counted.
-/

namespace Milepost

/-- How a flight ended. -/
inductive Fate
  /-- The buffer of a read could not be made. -/
  | dropped
  /-- The backend refused the operation. -/
  | refused (answer : Status)
  /-- The operation was applied; a read delivers bytes. -/
  | applied (result : Status) (bytes : ByteArray)

namespace Fate

variable (config : InMemoryConfig) (t : Task) (m : Milestone)

/-- What came of a milestone. -/
def outcome : Fate → Outcome
  | dropped => .lost
  | refused answer => .failed (t.request.refusal answer)
  | applied result bytes =>
    t.request.verdict m (config.milestoneStatus t.request.oid m) result bytes

/-- The call that told the owner the outcome. -/
def call? (fate : Fate) : Option Invocation :=
  match fate with
  | dropped => none
  | refused _ => t.callbacks.invocation? .complete t.issuerThread (fate.outcome config t m)
  | applied .. => t.callbacks.invocation? m (t.waiterThread m) (fate.outcome config t m)

/-- What the future was answered: a callback that failed leaves it without an answer. -/
def answer (fate : Fate) : Outcome :=
  if Flight.raises (fate.call? config t m) then .lost else fate.outcome config t m

/-- All calls, in one of the orders in which they may have been made. -/
def calls (fate : Fate) : List Invocation :=
  match fate with
  | dropped => []
  | refused _ => (fate.call? config t .complete).toList
  | applied .. => (fate.call? config t .complete).toList ++ (fate.call? config t .safe).toList

/-- How far the flight had come. -/
def standing : Fate → Standing
  | dropped =>
    { launched := false, rejected := false, passed := .const false, released := some true }
  | refused _ =>
    { launched := false, rejected := true, passed := .const false, released := some true }
  | applied .. =>
    { launched := true, rejected := false, passed := .const true, released := some true }

/-- Whether a refusal resolved the milestone. -/
def misses : Fate → Bool
  | dropped | refused _ => false
  | applied result _ => (config.milestoneStatus t.request.oid m).isError || result.isError

end Fate

/-- The flight is over, and everything it did belongs to its fate. -/
structure Flight.Met (config : InMemoryConfig) (f : Flight) (fate : Fate) : Prop where
  standing : f.standing = fate.standing
  futures : ∀ m, f.futures.get m = some (fate.answer config f.task m)
  invocations : f.invocations.Perm (fate.calls config f.task)

/-- The history says which fate a flight meets. -/
inductive History.Decides (h : History) (i : FlightId) (t : Task) : Fate → Prop
  | dropped (hfits : t.fits = false) : Decides h i t .dropped
  | refused {job : Job} {answer : Status} (hfits : t.fits = true)
      (hi : h.issuesOf i = [⟨i, job, answer, false⟩]) : Decides h i t (.refused answer)
  | applied {a : Application} (hfits : t.fits = true) (ha : h.Applied i t.request a) :
    Decides h i t (.applied a.result (a.bytes t.request))

theorem IssuerPhase.eq_finished {p : IssuerPhase} (h : p.rank = 0) : p = .finished := by
  cases p <;> first | rfl | cases h

theorem WaiterPhase.eq_finished {p : WaiterPhase} (h : p.rank = 0) (hne : p ≠ .idle) :
    p = .finished := by
  cases p <;> first | rfl | exact absurd rfl hne | cases h

namespace Flight

variable {f : Flight} {m : Milestone} {config : InMemoryConfig} {h : History} {i : FlightId}

/-- A handle that nobody needs is released. -/
theorem Keeps.released_of_holds (hk : f.Keeps) (hp : f.issuer ≠ .ready) (hf : f.holds = false) :
    f.standing.released = some true := by
  obtain ⟨k, hh⟩ := hk.exists_handle hp
  rw [released_eq hh, hk.released k hh, hf]
  rfl

/-- If the waiters made all calls, there are theirs and no others. -/
theorem perm_calls (hc : ∀ k ∈ f.invocations, ∃ m, k.thread = f.task.waiterThread m) :
    f.invocations.Perm (f.calls .complete ++ f.calls .safe) := by
  have hsafe : f.calls .safe =
      f.invocations.filter (fun k => !(k.thread == f.task.waiterThread .complete)) := by
    refine List.filter_congr fun k hk => ?_
    obtain ⟨m, hm⟩ := hc k hk
    have hne : f.task.waiterThread .complete ≠ f.task.waiterThread .safe :=
      fun h => nomatch Task.waiterThread_inj h
    rw [hm]
    cases m with
    | complete => rw [beq_eq_false_iff_ne.mpr hne, beq_self_eq_true]; rfl
    | safe => rw [beq_eq_false_iff_ne.mpr hne.symm, beq_self_eq_true]; rfl
  rw [hsafe]
  exact (List.filter_append_perm _ _).symm

/-- A flight without waiters that is over was rejected exactly if it has a job. -/
theorem Keeps.standing_of_idle (hk : f.Keeps) (hp : f.issuer = .finished)
    (hw : f.waiters = .const .idle) :
    f.standing =
      { launched := false
        rejected := f.task.fits
        passed := .const false
        released := some true } := by
  have hreleased := hk.released_of_holds (by simp [hp]) (holds_of_idle hp hw)
  have hrejected : f.isRejected = f.task.fits := by simp [isRejected, hp, hw, PerMilestone.const]
  rw [Flight.standing_of_idle hw] at hreleased ⊢
  rw [hrejected]
  exact Standing.ext rfl rfl rfl hreleased

/-- A flight whose waiters are over passed both milestones. -/
theorem Keeps.standing_of_finished (hk : f.Keeps) (hp : f.issuer = .finished)
    (hw : ∀ m, f.waiters.get m = .finished) :
    f.standing =
      { launched := true
        rejected := false
        passed := .const true
        released := some true } := by
  have hcomplete : f.waiters.complete = .finished := hw .complete
  have hsafe : f.waiters.safe = .finished := hw .safe
  have hholds : f.holds = false := by simp [holds, hp, guards, hcomplete, hsafe, WaiterPhase.guards]
  have hreleased := hk.released_of_holds (by simp [hp]) hholds
  rw [standing_of_started hp (by simp [hcomplete])] at hreleased ⊢
  rw [hcomplete, hsafe]
  exact Standing.ext rfl rfl rfl hreleased

/-- What a waiter told that is over. -/
theorem Told.of_finished {G : Grounds} (ht : f.Told G m .finished) :
    ∃ o, G.outcome m o ∧ f.calls m = (f.call m o).toList ∧
      f.futures.get m = some (if raises (f.call m o) then .lost else o) := by
  cases ht with
  | answered hg hc => exact ⟨_, hg, hc.calls, by rw [hc.raises]; exact hc.answered⟩
  | lost hg hc => exact ⟨_, hg, hc.calls, by rw [hc.raises]; exact hc.answered⟩

/-- A flight whose issuer told of a refusal, and answered both futures. -/
theorem Rejected.met {e : Failure} {raised : Bool} (hk : f.Keeps) (hp : f.issuer = .finished)
    (hw : f.waiters = .const .idle) (hfits : f.task.fits = true)
    (hr : f.Rejected (Telling.grounds h config i f.task) e raised)
    (hf : f.futures = .const (some (if raised then .lost else .failed e))) :
    ∃ fate, f.Met config fate ∧ h.Decides i f.task fate := by
  obtain ⟨job, answer, hi, -, rfl⟩ := hr.grounds
  refine ⟨.refused answer, ?_, .refused hfits hi⟩
  constructor
  case standing => rw [hk.standing_of_idle hp hw, hfits]; rfl
  case futures =>
    intro m
    rw [hf, PerMilestone.get_const, ← hr.raises]
    rfl
  case invocations =>
    rw [hr.calls]
    exact .refl _

end Flight

namespace Run

variable {config : InMemoryConfig} {accounts : Nat} {h : History} {s : System InMemory}
  {i : FlightId} {f : Flight} {fate : Fate}

/-- A flight that issued something has a job. -/
theorem fits_of_issue (hr : Run config accounts h s) (hf : s.flights[i]? = some f) {x : Issue}
    (hx : x ∈ h.issuesOf i) : f.task.fits = true := by
  obtain ⟨c, n, hj⟩ := hr.job?_of_issue hf hx
  exact Task.fits_of_job? hj

/-- **Every flight that is over met a fate**, and the history says which. -/
theorem exists_fate (hr : Run config accounts h s) (hf : s.flights[i]? = some f)
    (hs : f.isSettled = true) : ∃ fate, f.Met config fate ∧ h.Decides i f.task fate := by
  obtain ⟨hrank, hwaiters⟩ := f.isSettled_iff.mp hs
  have hk := hr.sound.keeps hf
  have hp := IssuerPhase.eq_finished hrank
  have hstory := hr.story hf
  rw [hp] at hstory
  cases hstory with
  | silent hp' => cases hp'
  | rejected hw hrejected hfutures | abandoned hw hrejected hfutures =>
    obtain ⟨job, answer, hi, -⟩ := hrejected.grounds
    have hfits := hr.fits_of_issue hf (hi ▸ List.mem_cons_self)
    exact hrejected.met hk hp hw hfits hfutures
  | dropped hw hg hc hfutures =>
    have hfits : f.task.fits = false := by rw [Task.fits, hg.2 0 0]; rfl
    refine ⟨.dropped, ?_, .dropped hfits⟩
    constructor
    case standing => rw [hk.standing_of_idle hp hw, hfits]; rfl
    case futures =>
      intro m
      rw [hfutures, PerMilestone.get_const]
      rfl
    case invocations =>
      rw [hc]
      exact .refl _
  | launched hne ht hc =>
    have hfinished := fun m => WaiterPhase.eq_finished (hwaiters m) (hne m)
    have htold : ∀ m, f.Told (Telling.grounds h config i f.task) m .finished := by
      intro m
      have ht := ht m
      rwa [hfinished m] at ht
    obtain ⟨_, ⟨a, ha, rfl⟩, hcomplete⟩ := (htold .complete).of_finished
    obtain ⟨_, ⟨a', ha', rfl⟩, hsafe⟩ := (htold .safe).of_finished
    obtain rfl := hr.applied_ext ha ha'
    have hfits := hr.fits_of_issue hf (ha.issued ▸ List.mem_cons_self)
    refine ⟨.applied a.result (a.bytes f.task.request), ?_, .applied hfits ha⟩
    constructor
    case standing => exact hk.standing_of_finished hp hfinished
    case futures =>
      intro m
      cases m with
      | complete => exact hcomplete.2
      | safe => exact hsafe.2
    case invocations =>
      have hperm := Flight.perm_calls hc
      rw [hcomplete.1, hsafe.1] at hperm
      exact hperm

/-- A flight is counted according to its fate. -/
theorem counts_of_decides (hr : Run config accounts h s) (hm : f.Met config fate)
    (hd : h.Decides i f.task fate) (k : OperationKind) (x : Meter) :
    f.standing.counts k (h.misses config i f.task.request) x =
      fate.standing.counts k (fate.misses config f.task) x := by
  rw [hm.standing]
  refine Standing.counts_congr fun m hp => ?_
  cases hd with
  | dropped | refused => cases m <;> cases hp
  | applied _ ha => exact hr.misses_eq ha

end Run

end Milepost
