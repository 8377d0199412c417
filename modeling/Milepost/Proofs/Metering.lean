import Mathlib.Data.Finset.Card
import Milepost.Proofs.Flight.Standing
import Milepost.Proofs.Reporting

/-!
# What the meters show

Every meter of an account shows how many of the flights on that account have come to a certain
point. Which milestones of a flight were missed is read off the history: a refusal resolved them
that was laid down, or that its one application had for a result.

* `Run.metered`: so it is in every state of a run.
-/

namespace Milepost

/-- Whether a refusal resolved a milestone of the flight: one that was laid down, or the result of
its operation. -/
def History.misses (h : History) (config : InMemoryConfig) (i : FlightId) (r : Request)
    (m : Milestone) : Bool :=
  (config.milestoneStatus r.oid m).isError ||
    h.applications.any fun a => h.issues.contains ⟨i, a.job, 0, true⟩ && a.result.isError

/-- Whether a meter of an account is to count the flight. -/
def Flight.isCounted (misses : Milestone → Bool) (a : AccountId) (x : Meter) (f : Flight) : Bool :=
  f.task.account == a && f.standing.counts f.task.request.kind misses x

namespace System

variable (config : InMemoryConfig) (h : History) (s : System InMemory) (a : AccountId) (x : Meter)

/-- Whether a meter of an account is to count the flight of the number. -/
def counts (i : FlightId) : Bool :=
  s.flights[i]?.any fun f => f.isCounted (h.misses config i f.task.request) a x

/-- The flights that a meter of an account is to count. -/
def counted : Finset FlightId := (Finset.range s.flights.size).filter (s.counts config h a x ·)

/-- Only flights that there are can be counted. -/
theorem mem_counted {i : FlightId} :
    i ∈ s.counted config h a x ↔ s.counts config h a x i = true := by
  rw [counted, Finset.mem_filter, Finset.mem_range, and_iff_right_iff_imp]
  intro hcounts
  by_contra hle
  rw [counts, Array.getElem?_eq_none (Nat.not_lt.mp hle)] at hcounts
  cases hcounts

end System

theorem Flight.Told.applied {h : History} {config : InMemoryConfig} {i : FlightId} {f : Flight}
    {m : Milestone} {p : WaiterPhase}
    (ht : f.Told (Telling.grounds h config i f.task) m p) (hp : p.hasPassed = true) :
    ∃ a, h.Applied i f.task.request a := by
  cases ht with
  | waiting => cases hp
  | copying hg => exact ⟨_, hg.choose_spec.1⟩
  | ready hg | recorded hg | notified hg | counted hg | raised hg | answered hg | abandoned hg
  | lost hg => exact ⟨_, hg.choose_spec.1⟩

namespace Run

variable {config : InMemoryConfig} {accounts : Nat} {h h' : History} {s s' t : System InMemory}
  {i : FlightId} {f : Flight} {m : Milestone} {r : Request} {a : Application} {x : Issue}

/-- An issue is the only one of its flight. -/
theorem issuesOf_of_mem (hr : Run config accounts h s) (hx : x ∈ h.issues) :
    h.issuesOf x.flight = [x] := by
  have hown := History.mem_issuesOf.mpr ⟨hx, rfl⟩
  rcases Nat.lt_or_ge x.flight s.flights.size with hlt | hle
  · exact hr.issuesOf_eq (Array.getElem?_eq_getElem hlt) hown
  · rw [hr.courses.absent hle] at hown
    cases hown

/-- What was applied stays so in what follows. -/
theorem applied_later (hr : Run config accounts h' s') (hi : ∀ x ∈ h.issues, x ∈ h'.issues)
    (ha : ∀ a ∈ h.applications, a ∈ h'.applications) (happlied : h.Applied i r a) :
    h'.Applied i r a := by
  have hissue := (History.mem_issuesOf.mp (happlied.issued ▸ List.mem_cons_self)).1
  exact ⟨hr.issuesOf_of_mem (hi _ hissue), ha a happlied.applied, happlied.read⟩

/-- A milestone is missed by the result of the one application of the job. -/
theorem misses_eq (hr : Run config accounts h s) (ha : h.Applied i r a) :
    h.misses config i r m = ((config.milestoneStatus r.oid m).isError || a.result.isError) := by
  have hissue := (History.mem_issuesOf.mp (ha.issued ▸ List.mem_cons_self)).1
  refine congrArg _ (Bool.eq_iff_iff.mpr ?_)
  rw [List.any_eq_true]
  constructor
  · rintro ⟨a', ha', hresult⟩
    obtain ⟨hmem, hresult⟩ := Bool.and_eq_true_iff.mp hresult
    have hissue' := hr.issuesOf_of_mem (List.contains_iff_mem.mp hmem)
    have hjob : a'.job = a.job := by
      have hone := List.singleton_inj.mp (hissue'.symm.trans ha.issued)
      exact (Issue.mk.inj hone).2.1
    rwa [hr.pipeline.application_ext ha.applied ha' (by rw [hjob])]
  · intro hresult
    exact ⟨a, ha.applied, Bool.and_eq_true_iff.mpr ⟨List.contains_iff_mem.mpr hissue, hresult⟩⟩

/-- A milestone was passed because the job was applied. -/
theorem exists_applied_of_hasPassed (hr : Run config accounts h s) (hf : s.flights[i]? = some f)
    (hp : (f.waiters.get m).hasPassed = true) : ∃ a, h.Applied i f.task.request a := by
  have hstarted : f.waiters.get m ≠ .idle := by
    intro hidle
    rw [hidle] at hp
    cases hp
  exact (((hr.story hf).of_started (hr.sound.keeps hf) hstarted).1 m).applied hp

/-- What follows does not change how the flights are counted. -/
theorem counts_later {k : OperationKind} {y : Meter} (hr : Run config accounts h s)
    (hr' : Run config accounts h' s') (hi : ∀ x ∈ h.issues, x ∈ h'.issues)
    (ha : ∀ a ∈ h.applications, a ∈ h'.applications) (hf : s.flights[i]? = some f) :
    f.standing.counts k (h'.misses config i f.task.request) y =
      f.standing.counts k (h.misses config i f.task.request) y := by
  refine Standing.counts_congr fun m hp => ?_
  rw [Flight.get_passed] at hp
  obtain ⟨a, happlied⟩ := hr.exists_applied_of_hasPassed hf hp
  rw [hr.misses_eq happlied, hr'.misses_eq (hr'.applied_later hi ha happlied)]

end Run

/-- How many numbers have a property after one of them got or lost it. -/
theorem card_filter_range {n i : Nat} (hi : i < n) {p q : Nat → Bool} (h : ∀ j ≠ i, q j = p j) :
    (((Finset.range n).filter (q ·)).card : Int) + (p i).toInt =
      ((Finset.range n).filter (p ·)).card + (q i).toInt := by
  have hothers : ((Finset.range n).erase i).filter (q ·) =
      ((Finset.range n).erase i).filter (p ·) :=
    Finset.filter_congr fun j hj => by rw [h j (Finset.ne_of_mem_erase hj)]
  have hnot : i ∉ ((Finset.range n).erase i).filter (p ·) := by simp
  rw [← Finset.insert_erase (Finset.mem_range.mpr hi), Finset.filter_insert, Finset.filter_insert,
    hothers]
  cases p i <;> cases q i <;> simp [Finset.card_insert_of_notMem hnot]

/-- Every meter shows how many flights it is to count. -/
structure System.Metered (config : InMemoryConfig) (accounts : Nat) (h : History)
    (s : System InMemory) : Prop where
  size : s.world.accounts.size = accounts
  own : ∀ {i : FlightId} {f : Flight}, s.flights[i]? = some f → f.ChargesOwn
  reading : ∀ {a : AccountId} {x : Meter}, a < accounts →
    s.world.reading a x = (s.counted config h a x).card

namespace System.Metered

variable {config : InMemoryConfig} {accounts : Nat} {h h' : History} {s t : System InMemory}
  {i : FlightId} {f g : Flight} {w : World InMemory}

theorem start (config : InMemoryConfig) (accounts : Nat) :
    Metered config accounts {} (.fresh config accounts) where
  size := Array.size_replicate
  own hf := by simp [fresh] at hf
  reading {a x} ha := by
    have hmeters : (fresh config accounts).world.getMeters a = {} := by
      simp [World.getMeters, fresh, ha]
    rw [World.reading, hmeters]
    cases x <;> simp [OperationMeters.reading, counted, fresh]

/-- What leaves the flights and the accounts preserves it, if they are counted as before. -/
theorem congr (hs : s.Metered config accounts h) (hw : t.world.accounts = s.world.accounts)
    (hf : t.flights = s.flights)
    (hlater : ∀ a x i, s.counts config h' a x i = s.counts config h a x i) :
    t.Metered config accounts h' where
  size := hw ▸ hs.size
  own := hf ▸ hs.own
  reading {a x} ha := by
    have hcounts : t.counts config h' a x = s.counts config h a x := by
      funext i
      rw [← hlater, counts, counts, hf]
    rw [World.reading_congr hw, hs.reading ha, counted, counted, hf, hcounts]

/-- A flight that was just submitted is counted by no meter. -/
theorem submit (hs : s.Metered config accounts h) (o : AsyncObject) (r : Request) :
    (s.submit o r).2.Metered config accounts h where
  size := by rw [← hs.size]; simp [System.submit, World.onMeters]
  own hj := by
    rcases flight_submit hj with ⟨-, rfl⟩ | hj
    · intro k hk
      cases hk
    · exact hs.own hj
  reading {a x} ha := by
    have hreading : (s.submit o r).2.world.reading a x = s.world.reading a x :=
      World.reading_onBuffers (hs.size ▸ ha)
    have hnew : (s.submit o r).2.counts config h a x s.flights.size = false := by
      rw [counts, flights_submit, Array.getElem?_push, if_pos rfl, Option.any_some,
        Flight.isCounted, Flight.counts_start, Bool.and_false]
    have hold : ∀ j ∈ Finset.range s.flights.size,
        ((s.submit o r).2.counts config h a x j = true ↔ s.counts config h a x j = true) := by
      intro j hj
      have hne : j ≠ s.flights.size := Nat.ne_of_lt (Finset.mem_range.mp hj)
      simp only [counts, flights_submit, Array.getElem?_push, if_neg hne]
    rw [hreading, hs.reading ha, counted, counted, flights_submit, Array.size_push,
      Finset.range_add_one, Finset.filter_insert, hnew, if_neg Bool.false_ne_true,
      Finset.filter_congr hold]

/-- So does a step of a task. -/
theorem tick (hs : s.Metered config accounts h) (hf : s.flights[i]? = some f)
    (ht : f.Tick (h'.misses config i f.task.request) s.world g w) (htask : g.task = f.task)
    (hg : g.ChargesOwn)
    (hlater : ∀ a x i, s.counts config h' a x i = s.counts config h a x i) :
    Metered config accounts h' { world := w, flights := s.flights.setIfInBounds i g } where
  size := ht.size_accounts.trans hs.size
  own hj := by
    rcases flight_setIfInBounds hj with ⟨-, rfl⟩ | ⟨-, hj⟩
    · exact hg
    · exact hs.own hj
  reading {a x} ha := by
    have hi : i < s.flights.size := (Array.getElem?_eq_some_iff.mp hf).1
    have hother : ∀ j ≠ i, counts config h' { world := w, flights := s.flights.setIfInBounds i g }
        a x j = s.counts config h a x j := by
      intro j hj
      rw [← hlater, counts, counts, Array.getElem?_setIfInBounds_ne hj.symm]
    have hcard := card_filter_range hi hother
    have hold : s.counts config h a x i =
        f.isCounted (h'.misses config i f.task.request) a x := by
      rw [← hlater, counts, hf]
      rfl
    have hnew : counts config h' { world := w, flights := s.flights.setIfInBounds i g } a x i =
        g.isCounted (h'.misses config i f.task.request) a x := by
      rw [counts, Array.getElem?_setIfInBounds_self_of_lt hi, Option.any_some, htask]
    have hreading : w.reading a x + (s.counts config h a x i).toInt = s.world.reading a x +
        (counts config h' { world := w, flights := s.flights.setIfInBounds i g } a x i).toInt := by
      rw [hold, hnew, Flight.isCounted, Flight.isCounted, htask]
      by_cases hown : f.task.account = a
      · subst hown
        simp only [beq_self_eq_true, Bool.true_and]
        exact ht.reading_self (hs.size ▸ ha)
      · rw [ht.reading_of_ne hown, beq_eq_false_iff_ne.mpr hown]
        rfl
    rw [counted, Array.size_setIfInBounds]
    rw [hs.reading ha] at hreading
    exact (Int.add_left_inj _).mp (hreading.trans hcard.symm)

end System.Metered

namespace Run

variable {config : InMemoryConfig} {accounts : Nat} {h : History} {s t : System InMemory}
  {e : Event}

/-- An event does not change how the flights before it are counted. -/
theorem counts_after (hr : Run config accounts h s) (hn : s.next? e = some t) (a : AccountId)
    (x : Meter) (i : FlightId) : s.counts config (h.after s e) a x i = s.counts config h a x i := by
  unfold System.counts
  cases hf : s.flights[i]? with
  | none => rfl
  | some f =>
    have hlater := hr.counts_later (hr.step e hn) (k := f.task.request.kind) (y := x)
      (fun _ => List.mem_append_left _) (fun _ => List.mem_append_left _) hf
    exact congrArg (f.task.account == a && ·) hlater

/-- What a step of a waiter counts, if the milestones missed are those that the history names. -/
theorem tick_of_waiterMove {i : FlightId} {m : Milestone} {f g : Flight} {w : World InMemory}
    (hr : Run config accounts h s) (hf : s.flights[i]? = some f) (hk : f.Keeps)
    (ho : f.ChargesOwn) (hm : f.WaiterMove m s.world g w) :
    f.Tick (h.misses config i f.task.request) s.world g w := by
  refine hm.tick hk ho fun c status hc hres => ?_
  have htaken : f.IsTaken := .inr ⟨hm.issuer_finished hk, hk.ne_idle hm.started .complete⟩
  obtain ⟨a, happlied, rfl, hvalue⟩ := hr.exists_applied hf htaken hc hres
  rw [hr.misses_eq happlied, hvalue]

/-- **Every meter shows how many flights it is to count**, in every state of a run. -/
theorem metered (hr : Run config accounts h s) : s.Metered config accounts h := by
  induction hr with
  | start => exact .start config accounts
  | @step h s t e hr hn ih =>
    have hlater := hr.counts_after hn
    cases Happens.of_next? hr.sound hn with
    | submit o r =>
      rw [History.after_of_not_isOwn rfl]
      exact ih.submit o r
    | @issuer i f g w hf hk hm =>
      exact ih.tick hf (hm.tick hk (hr.courses.course hf) (ih.own hf)) hm.task_eq
        (hm.chargesOwn (ih.own hf)) hlater
    | @waiter i m f g w hf hk hm =>
      refine ih.tick hf ?_ hm.frame.1 (hm.chargesOwn (ih.own hf)) hlater
      rw [History.after_waiter]
      exact hr.tick_of_waiterMove hf hk (ih.own hf) hm
    | work | call | shutdown | clock => exact ih.congr rfl rfl hlater

end Run

end Milepost
