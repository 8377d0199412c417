import Mathlib.Algebra.Ring.Nat
import Milepost.Proofs.Flight.Course
import Milepost.Proofs.Pipeline

/-!
# Everything under way comes to an end

The tasks and the worker have only so much to do: `System.weight` bounds the steps that are left,
and each of their steps lowers it. A state in which none of them has a step to make is `IsQuiet`,
and nobody is left waiting there: a waiter waits for a milestone of a job that the backend took,
and the worker does not stop before that milestone is fired.

* `Run.weight_lt`: every step of what is under way lowers the weight.
* `Run.isSettled_of_isQuiet`: where nothing can go on, everything is done.
-/

namespace Milepost

/-- A bound on what the issuer and what follows from it have to do. -/
def IssuerPhase.weight : IssuerPhase → Nat
  | ready => 18
  | created => 17
  | accepted => 13
  | p => p.rank

/-- A bound on what is to be done for a flight. -/
def Flight.weight (f : Flight) : Nat :=
  f.issuer.weight + (f.waiters.complete.rank + f.waiters.safe.rank)

namespace Flight

variable {f g : Flight} {w w' : World InMemory} {m : Milestone}

/-- A step of the issuer lowers the weight, even if it gives a job to the backend. -/
theorem IssuerMove.weight_lt (hm : IssuerMove f w g w') :
    g.weight + (if (f.job? w).isSome then 3 else 0) < f.weight := by
  have hjob : (if (f.job? w).isSome then 3 else 0) ≤ 3 := by split <;> omega
  have hnone : f.issuer ≠ .created → (if (f.job? w).isSome then 3 else 0) = 0 := by
    intro hp
    rw [job?_of_ne hp]
    rfl
  cases hm with
  | make hp | release hp | drop hp | answerFirst hp | answerSecond hp | lose hp =>
    rw [hnone (by simp [hp])]
    simp only [weight, answer, hp, IssuerPhase.weight, IssuerPhase.rank]
    omega
  | take hp | ignore hp | refuse hp | overflow hp =>
    simp only [weight, hp, IssuerPhase.weight, IssuerPhase.rank]
    omega
  | launch hp =>
    rw [hnone (by simp [hp])]
    simp only [weight, Flight.launch, hp, IssuerPhase.weight, IssuerPhase.rank, PerMilestone.const,
      WaiterPhase.rank]
    omega
  | reject hp =>
    rw [hnone (by simp [hp])]
    simp only [weight, Flight.reject, Flight.invoked, hp]
    split
    · simp only [IssuerPhase.weight, IssuerPhase.rank]
      omega
    · simp only [IssuerPhase.weight, IssuerPhase.rank]
      omega

/-- A step of a waiter lowers the weight. -/
theorem weight_lt_of_waiterStep? (hm : WaiterMove m f w g w')
    (hs : f.waiterStep? m w = some (g, w')) : g.weight < f.weight := by
  obtain ⟨-, hissuer, p, -, hw⟩ := hm.frame
  have hrank := rank_waiterStep hs
  rw [hw, PerMilestone.get_set_self] at hrank
  unfold weight
  rw [hissuer, hw]
  cases m with
  | complete => exact Nat.add_lt_add_left (Nat.add_lt_add_right hrank _) _
  | safe => exact Nat.add_lt_add_left (Nat.add_lt_add_left hrank _) _

/-- What a flight does gives the worker no more to do than the job it hands over. -/
theorem Deed.pendingSteps_le (hd : Deed f w g w') :
    w'.backend.pendingSteps ≤
      w.backend.pendingSteps + (if (f.job? w).isSome then 3 else 0) := by
  cases hd with
  | quiet hb | ignore hb | refuse hb => rw [hb]; exact Nat.le_add_right _ _
  | make _ hb => rw [hb]; exact Nat.le_add_right _ _
  | take hb _ hj ha =>
    rw [hb, hj, InMemory.submit_of_accepts ha]
    simp only [InMemory.pendingSteps, InMemory.onCompletion, List.length_append,
      List.length_singleton, Option.isSome_some, if_true]
    omega
  | release hb =>
    rw [hb]
    refine Nat.le_trans (Nat.le_of_eq ?_) (Nat.le_add_right _ _)
    unfold InMemory.release
    split <;> rfl

end Flight

/-- The sum over a list after one entry changed. -/
theorem sum_map_set {α : Type} (k : α → Nat) {l : List α} {i : Nat} {a b : α}
    (h : l[i]? = some a) : ((l.set i b).map k).sum + k a = (l.map k).sum + k b := by
  induction l generalizing i with
  | nil => cases h
  | cons x xs ih =>
    cases i with
    | zero =>
      cases h
      simp only [List.set_cons_zero, List.map_cons, List.sum_cons]
      omega
    | succ i =>
      have := ih (i := i) h
      simp only [List.set_cons_succ, List.map_cons, List.sum_cons]
      omega

namespace System

/-- A bound on what the tasks and the worker have to do. -/
def weight (s : System InMemory) : Nat :=
  (s.flights.toList.map Flight.weight).sum + s.world.backend.pendingSteps

/-- No task and not the worker has a step to make. -/
def IsQuiet (s : System InMemory) : Prop := ∀ e : Event, e.isOwn = true → s.next? e = none

variable {s : System InMemory} {i : FlightId} {f g : Flight} {w : World InMemory}

theorem weight_set_lt (hf : s.flights[i]? = some f)
    (h : g.weight + w.backend.pendingSteps < f.weight + s.world.backend.pendingSteps) :
    weight { world := w, flights := s.flights.setIfInBounds i g } < s.weight := by
  have hsum := sum_map_set Flight.weight (b := g) ((Array.getElem?_toList ..).trans hf)
  simp only [weight, Array.toList_setIfInBounds]
  omega

end System

namespace Run

variable {config : InMemoryConfig} {accounts : Nat} {h : History} {s t : System InMemory}
  {e : Event}

/-- **Every step of what is under way lowers the weight.** -/
theorem weight_lt (hr : Run config accounts h s) (he : e.isOwn = true)
    (hn : s.next? e = some t) : t.weight < s.weight := by
  have hsound := hr.sound
  cases e with
  | submit | call | shutdown | clock => cases he
  | task a =>
    obtain ⟨f, hf, hn⟩ := Option.bind_eq_some_iff.mp hn
    obtain ⟨⟨g, w⟩, hstep, hn⟩ := Option.map_eq_some_iff.mp hn
    cases hn
    have hk := hsound.keeps hf
    cases a with
    | issuer i =>
      have hm := Flight.IssuerMove.of_step hk hstep
      have hlt := hm.weight_lt
      have hle := (hm.deed hk).pendingSteps_le
      exact System.weight_set_lt hf (by omega)
    | waiter i m =>
      have hm := Flight.WaiterMove.of_step hk hstep
      have hlt := Flight.weight_lt_of_waiterStep? hm hstep
      have hle := (hm.deed hk).pendingSteps_le
      rw [hm.job?_eq_none hk] at hle
      exact System.weight_set_lt hf (Nat.add_lt_add_of_lt_of_le hlt hle)
  | work =>
    obtain ⟨⟨b, shelf⟩, hstep, hn⟩ := Option.map_eq_some_iff.mp hn
    cases hn
    have hpending := InMemory.pendingSteps_step hstep
    simp only [System.weight]
    omega

/-- Where every answer laid down is a refusal, the milestone that a waiter waits for is fired
before the worker stops. -/
theorem exists_resolution (hc : config.Refuses) (hr : Run config accounts h s) {i : FlightId}
    {f : Flight} {m : Milestone} (hf : s.flights[i]? = some f)
    (hw : f.waiters.get m = .waiting) (hidle : s.world.backend.worker = .idle)
    (hqueue : s.world.backend.queue = []) :
    ∃ k c status, f.handle = some k ∧ k.native = some c ∧
      (s.world.backend.completion c).resolution? m = some status := by
  have hk := hr.sound.keeps hf
  have hguards : (f.waiters.get m).guards = 1 := by rw [hw]; rfl
  have hne : f.waiters.get m ≠ .idle := by rw [hw]; exact nofun
  have hfin := hk.issuer_finished hne
  obtain ⟨c, n, job, answer, queued, hj, hi, he, -, held⟩ :=
    (hr.courses.course hf).of_isTaken (.inr ⟨hfin, hk.ne_idle hne .complete⟩)
  obtain ⟨k, c', hh, hnative, -⟩ := hk.exists_native_of_guards hguards
  have hholds : f.holds = true := by
    rw [← hk.isSome_native?, Flight.native?_eq hh, hnative]
    rfl
  obtain ⟨hcc, -⟩ := held hholds
  cases ((Flight.native?_eq hh).trans hnative).symm.trans hcc
  obtain ⟨rfl, -⟩ := Task.of_job? hj
  have hissue : Issue.mk i job answer queued ∈ h.issues :=
    (History.mem_issuesOf.mp (hi ▸ List.mem_cons_self)).1
  -- The job was queued and is not any more, nor is the worker at it: it was applied and fired.
  have hmem := History.mem_taken_of_queued hissue ((hr.queued_eq hc hissue).trans (by rw [he]; rfl))
  have hfired := hr.pipeline.fired_of_idle hidle hqueue hmem m
  have hrel := (hr.held hf _ hcc).2
  refine ⟨k, _, s.world.backend.milestoneStatus job.oid m, hh, hnative, ?_⟩
  rw [Completion.resolution?, hrel]
  exact hfired

/-- **Where nothing can go on, everything is done**, if all answers laid down are refusals. -/
theorem isSettled_of_isQuiet (hc : config.Refuses) (hr : Run config accounts h s)
    (hq : s.IsQuiet) :
    s.world.backend.worker = .idle ∧ s.world.backend.queue = [] ∧
      ∀ {i : FlightId} {f : Flight}, s.flights[i]? = some f →
        f.issuer = .finished ∧ ∀ m, f.waiters.get m = .idle ∨ f.waiters.get m = .finished := by
  have hwork := hq .work rfl
  obtain ⟨hidle, hqueue⟩ := (InMemory.step?_eq_none_iff _ _).mp (Option.map_eq_none_iff.mp hwork)
  refine ⟨hidle, hqueue, fun {i f} hf => ?_⟩
  have htask : ∀ a : Actor, a.flight = i → System.actorStep? a f s.world = none := by
    rintro a rfl
    have hnone : s.step? a = none := hq (.task a) rfl
    rw [System.step?, hf, Option.bind_some, Option.map_eq_none_iff] at hnone
    exact hnone
  have hfin := (Flight.issuerStep?_eq_none_iff f s.world).mp (htask (.issuer i) rfl)
  refine ⟨hfin, fun m => ?_⟩
  have hk := hr.sound.keeps hf
  obtain ⟨k, hh⟩ := hk.exists_handle (by simp [hfin])
  have hstep : f.waiterStepWith? m k s.world = none := by
    have hnone : f.waiterStep? m s.world = none := htask (.waiter i m) rfl
    rw [Flight.waiterStep?, hh] at hnone
    exact hnone
  unfold Flight.waiterStepWith? at hstep
  cases hw : f.waiters.get m with
  | idle => exact .inl rfl
  | finished => exact .inr rfl
  | waiting =>
    obtain ⟨k', c, status, hh', hn, hres⟩ := hr.exists_resolution hc hf hw hidle hqueue
    cases hh.symm.trans hh'
    rw [hw] at hstep
    simp only [Flight.await?, Option.map_eq_none_iff, Handle.waitFor?] at hstep
    split at hstep
    · cases hstep
    · rename_i c' hc'
      cases hn.symm.trans hc'
      rw [Option.map_eq_none_iff] at hstep
      cases hres.symm.trans hstep
  | copying | ready | recorded | notified | counted | raised | abandoned =>
    rw [hw] at hstep
    cases hstep

end Run

end Milepost
