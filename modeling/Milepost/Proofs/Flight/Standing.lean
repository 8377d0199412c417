import Milepost.Proofs.Flight.Course
import Milepost.Proofs.Flight.Story

/-!
# What a step of a task counts

How far a flight has come is its `Standing`: whether its waiters were started, whether it was
rejected, which milestones it passed, whether its handle is released. A step of a task changes at
most one of these, and counts that on the account of the flight. What the meters show of a flight
is so a matter of its standing alone.

* `IssuerMove.tick`, `WaiterMove.tick`: what a step counts.
* `Tick.reading_self`: a meter is advanced exactly if the flight is counted by it from then on.
-/

namespace Milepost

/-- The meters of operations. -/
inductive Meter
  | issued (k : OperationKind)
  | refused (k : OperationKind)
  | passed (m : Milestone)
  | missed (m : Milestone)
  | released
  | releasedAgain
  | outstanding
deriving DecidableEq

theorem Counter.total_inj {c c' : Counter} (h : (c'.total : Int) = c.total) : c' = c :=
  congrArg Counter.mk (Int.ofNat.inj h)

theorem PerOperation.ext_get {α : Type} {p q : PerOperation α} (h : ∀ k, q.get k = p.get k) :
    q = p := by
  obtain ⟨a, b, c, d, e⟩ := p
  obtain ⟨a', b', c', d', e'⟩ := q
  cases h .write
  cases h .writeFull
  cases h .append
  cases h .read
  cases h .remove
  rfl

theorem PerMilestone.ext_get {α : Type} {p q : PerMilestone α} (h : ∀ m, q.get m = p.get m) :
    q = p := by
  obtain ⟨a, b⟩ := p
  obtain ⟨a', b'⟩ := q
  cases h .complete
  cases h .safe
  rfl

/-- Counting one more operation of a kind. -/
theorem PerOperation.total_get_modify (p : PerOperation Counter) (k l : OperationKind) :
    (((p.modify k .increment).get l).total : Int) = (p.get l).total + (k == l).toInt := by
  rw [get_modify]
  by_cases h : k = l
  · simp [h, Counter.increment, Counter.add]
  · simp [h, beq_eq_false_iff_ne.mpr h]

/-- Counting one more milestone. -/
theorem PerMilestone.total_get_modify (p : PerMilestone Counter) (m n : Milestone) :
    (((p.modify m .increment).get n).total : Int) = (p.get n).total + (m == n).toInt := by
  rw [modify, get_set]
  by_cases h : m = n
  · simp [h, Counter.increment, Counter.add]
  · simp [h, beq_eq_false_iff_ne.mpr h]

namespace OperationMeters

variable {o o' : OperationMeters}

/-- What a meter shows. -/
def reading (o : OperationMeters) : Meter → Int
  | .issued k => (o.issued.get k).total
  | .refused k => (o.refused.get k).total
  | .passed m => (o.milestones.get m).total
  | .missed m => (o.milestoneFailures.get m).total
  | .released => o.released.total
  | .releasedAgain => o.doubleReleases.total
  | .outstanding => o.outstanding

/-- There is nothing more to the meters than what they show. -/
theorem ext_reading (h : ∀ x, o'.reading x = o.reading x) : o' = o := by
  have hi : o'.issued = o.issued :=
    PerOperation.ext_get fun k => Counter.total_inj (h (.issued k))
  have hr : o'.refused = o.refused :=
    PerOperation.ext_get fun k => Counter.total_inj (h (.refused k))
  have hp : o'.milestones = o.milestones :=
    PerMilestone.ext_get fun m => Counter.total_inj (h (.passed m))
  have hm : o'.milestoneFailures = o.milestoneFailures :=
    PerMilestone.ext_get fun m => Counter.total_inj (h (.missed m))
  have hreleased := Counter.total_inj (h .released)
  have hagain := Counter.total_inj (h .releasedAgain)
  have hout : o'.outstanding = o.outstanding := h .outstanding
  cases o
  cases o'
  simp_all

end OperationMeters

namespace World

variable {β : Type} {w v : World β} {a b : AccountId} {x : Meter}
  {c : OperationMeters → OperationMeters}

/-- What a meter of an account shows. -/
def reading (w : World β) (a : AccountId) (x : Meter) : Int :=
  (w.getMeters a).operations.reading x

theorem reading_congr (h : v.accounts = w.accounts) : v.reading a x = w.reading a x := by
  rw [reading, getMeters, h]
  rfl

theorem size_accounts_count : (w.count b c).accounts.size = w.accounts.size := by
  simp [count, onMeters]

theorem reading_count_self (ha : a < w.accounts.size) :
    (w.count a c).reading a x = (c (w.getMeters a).operations).reading x := by
  rw [reading, count, getMeters_onMeters_self ha]
  rfl

theorem reading_count_of_ne (h : b ≠ a) : (w.count b c).reading a x = w.reading a x := by
  rw [reading, count, getMeters_onMeters_of_ne h]
  rfl

end World

/-- The meters of operations do not show what is counted of buffers. -/
theorem World.reading_onBuffers {w : World InMemory} {a b : AccountId} {x : Meter}
    {k : BufferMeters → BufferMeters} (ha : a < w.accounts.size) :
    (w.onMeters b (·.onBuffers k)).reading a x = w.reading a x := by
  unfold reading
  by_cases h : b = a
  · rw [h, getMeters_onMeters_self ha]
    rfl
  · rw [getMeters_onMeters_of_ne h]

/-- Releasing a handle is counted on its account. -/
theorem Handle.accounts_release {β : Type} [ObjectBackend β] {h : Handle} {w : World β}
    (hr : h.released = false) :
    (h.release w).2.2.accounts = (w.count h.account .handleReleased).accounts := by
  simp only [release, hr, surrender]
  cases h.native <;> cases h.buffer <;> rfl

/-! ## How far a flight has come -/

/-- Whether the waiter has passed its milestone. -/
def WaiterPhase.hasPassed : WaiterPhase → Bool
  | idle | waiting => false
  | copying _ | ready _ | recorded _ | notified _ | counted _ | raised | abandoned | finished =>
    true

theorem WaiterPhase.hasPassed_of_afterCount? {p q : WaiterPhase} (h : p.afterCount? = some q) :
    p.hasPassed = true ∧ q.hasPassed = true := by
  cases p <;> cases h <;> exact ⟨rfl, rfl⟩

theorem Flight.hasPassed_afterMilestone (r : Request) (result : Except Failure Status) :
    (afterMilestone r result).hasPassed = true := by
  rcases afterMilestone_cases r result with ⟨o, h⟩ | ⟨n, h⟩
  · rw [h]
    rfl
  · rw [h]
    rfl

/-- Whether there is a job for the task: the buffer of a read can be made. -/
def Task.fits (t : Task) : Bool := (t.job? 0 0).isSome

theorem Task.fits_of_job? {t : Task} {c : CompletionId} {n : BufferId} {job : Job}
    (hj : t.job? c n = some job) : t.fits = true := by
  cases hfits : t.job? 0 0 with
  | some job => rw [fits, hfits]; rfl
  | none => cases (Flight.job?_eq_none_iff.mp hfits).symm.trans hj

/-- How far a flight has come. -/
@[ext]
structure Standing where
  /-- The waiters were started. -/
  launched : Bool
  /-- The owner heard that the operation was refused. -/
  rejected : Bool
  /-- The milestones were passed. -/
  passed : PerMilestone Bool
  /-- The handle is released; none if there is no handle. -/
  released : Option Bool

namespace Flight

/-- Whether the owner heard that the operation was refused. -/
def isRejected (f : Flight) : Bool :=
  match f.issuer with
  | .notified _ | .answered _ => true
  | .lost | .finished => f.waiters.complete == .idle && f.task.fits
  | _ => false

/-- How far the flight has come. -/
def standing (f : Flight) : Standing where
  launched := f.waiters.complete != .idle
  rejected := f.isRejected
  passed := ⟨f.waiters.complete.hasPassed, f.waiters.safe.hasPassed⟩
  released := f.handle.map (·.released)

end Flight

/-- Whether a flight that has come so far is counted by a meter. `misses` says which milestones
a refusal resolved. -/
def Standing.counts (p : Standing) (k : OperationKind) (misses : Milestone → Bool) : Meter → Bool
  | .issued l => p.launched && k == l
  | .refused l => p.rejected && k == l
  | .passed m => p.passed.get m
  | .missed m => p.passed.get m && misses m
  | .released => p.released == some true
  | .releasedAgain => false
  | .outstanding => p.released == some false

/-- A flight is not counted by what a milestone is that it did not pass. -/
theorem Standing.counts_congr {p : Standing} {k : OperationKind} {misses misses' : Milestone → Bool}
    {x : Meter} (h : ∀ m, p.passed.get m = true → misses' m = misses m) :
    p.counts k misses' x = p.counts k misses x := by
  cases x with
  | missed m =>
    rw [counts, counts]
    cases hp : p.passed.get m with
    | false => rfl
    | true => rw [h m hp]
  | issued | refused | passed | released | releasedAgain | outstanding => rfl

/-! ## What a step counts -/

namespace Flight

/-- What a step of a task counts on the account of its flight, and what it changes of the standing
of the flight. -/
inductive Tick (misses : Milestone → Bool) (f : Flight) (w : World InMemory) (g : Flight)
    (w' : World InMemory) : Prop
  | none (hw : w'.accounts = w.accounts) (hg : g.standing = f.standing)
  | created (hw : w'.accounts = (w.count f.task.account .handleCreated).accounts)
      (hf : f.standing.released = .none)
      (hg : g.standing = { f.standing with released := some false })
  | released (hw : w'.accounts = (w.count f.task.account .handleReleased).accounts)
      (hf : f.standing.released = some false)
      (hg : g.standing = { f.standing with released := some true })
  | issued
      (hw : w'.accounts =
        (w.count f.task.account (·.operationIssued f.task.request.kind)).accounts)
      (hf : f.standing.launched = false) (hg : g.standing = { f.standing with launched := true })
  | refused
      (hw : w'.accounts =
        (w.count f.task.account (·.operationRefused f.task.request.kind)).accounts)
      (hf : f.standing.rejected = false) (hg : g.standing = { f.standing with rejected := true })
  | passed {m : Milestone}
      (hw : w'.accounts = (w.count f.task.account (·.milestonePassed m (misses m))).accounts)
      (hf : f.standing.passed.get m = false)
      (hg : g.standing = { f.standing with passed := f.standing.passed.set m true })

variable {misses : Milestone → Bool} {f g : Flight} {w w' : World InMemory} {a : AccountId}
  {x : Meter} {m : Milestone}

namespace Tick

theorem size_accounts (ht : Tick misses f w g w') : w'.accounts.size = w.accounts.size := by
  cases ht with
  | none hw => rw [hw]
  | created hw | released hw | issued hw | refused hw | passed hw =>
    rw [hw, World.size_accounts_count]

/-- Nothing is counted on another account. -/
theorem reading_of_ne (ht : Tick misses f w g w') (h : f.task.account ≠ a) :
    w'.reading a x = w.reading a x := by
  cases ht with
  | none hw => exact World.reading_congr hw
  | created hw | released hw | issued hw | refused hw | passed hw =>
    rw [World.reading_congr hw, World.reading_count_of_ne h]

/-- **A meter is advanced if the flight is counted by it and was not before.** -/
theorem reading_self (ht : Tick misses f w g w') (ha : f.task.account < w.accounts.size) :
    w'.reading f.task.account x + (f.standing.counts f.task.request.kind misses x).toInt =
      w.reading f.task.account x + (g.standing.counts f.task.request.kind misses x).toInt := by
  cases ht with
  | none hw hg => rw [World.reading_congr hw, hg]
  | created hw hf hg =>
    rw [World.reading_congr hw, World.reading_count_self ha, World.reading, hg]
    cases x with
    | outstanding | released =>
      simp [OperationMeters.reading, OperationMeters.handleCreated, Standing.counts, hf]
    | issued | refused | passed | missed | releasedAgain => rfl
  | released hw hf hg =>
    rw [World.reading_congr hw, World.reading_count_self ha, World.reading, hg]
    cases x with
    | outstanding | released =>
      simp [OperationMeters.reading, OperationMeters.handleReleased, Standing.counts, hf,
        Counter.increment, Counter.add]
    | issued | refused | passed | missed | releasedAgain => rfl
  | issued hw hf hg =>
    rw [World.reading_congr hw, World.reading_count_self ha, World.reading, hg]
    cases x with
    | issued l =>
      simp [OperationMeters.reading, OperationMeters.operationIssued,
        PerOperation.total_get_modify, Standing.counts, hf]
    | refused | passed | missed | released | releasedAgain | outstanding => rfl
  | refused hw hf hg =>
    rw [World.reading_congr hw, World.reading_count_self ha, World.reading, hg]
    cases x with
    | refused l =>
      simp [OperationMeters.reading, OperationMeters.operationRefused,
        PerOperation.total_get_modify, Standing.counts, hf]
    | issued | passed | missed | released | releasedAgain | outstanding => rfl
  | @passed m hw hf hg =>
    rw [World.reading_congr hw, World.reading_count_self ha, World.reading, hg]
    cases x with
    | passed n =>
      simp only [OperationMeters.reading, OperationMeters.milestonePassed,
        PerMilestone.total_get_modify, Standing.counts, PerMilestone.get_set]
      by_cases hn : m = n
      · simp [← hn, hf]
      · simp [hn, beq_eq_false_iff_ne.mpr hn]
    | missed n =>
      simp only [OperationMeters.reading, OperationMeters.milestonePassed, Standing.counts,
        PerMilestone.get_set]
      by_cases hn : m = n
      · subst hn
        cases misses m <;> simp [PerMilestone.total_get_modify, hf]
      · cases misses m <;>
          simp [PerMilestone.total_get_modify, hn, beq_eq_false_iff_ne.mpr hn]
    | issued | refused | released | releasedAgain | outstanding => rfl

end Tick

/-- The handle counts on the account of its flight. -/
def ChargesOwn (f : Flight) : Prop := ∀ k, f.handle = some k → k.account = f.task.account

theorem standing_of_idle (hw : f.waiters = .const .idle) :
    f.standing =
      { launched := false
        rejected := f.isRejected
        passed := .const false
        released := f.handle.map (·.released) } := by
  rw [standing, hw]
  rfl

/-- A flight whose operation was refused has a job. -/
theorem Course.fits_of_refusal {i : FlightId} {issues : List Issue} {e : Failure}
    (hc : Course i f issues) (hp : f.issuer.refusal? = some e) : f.task.fits = true := by
  obtain ⟨c, n, job, answer, hj, -⟩ := hc.of_refusal hp
  exact Task.fits_of_job? hj

/-- **What a step of the issuer counts.** -/
theorem IssuerMove.tick {i : FlightId} {issues : List Issue} (hk : f.Keeps)
    (hc : Course i f issues) (ho : f.ChargesOwn) (hm : IssuerMove f w g w') :
    Tick misses f w g w' := by
  have hidle : f.issuer ≠ .finished → f.waiters = .const .idle := hk.idle
  cases hm with
  | make hp =>
    have hn := hk.made.mpr hp
    exact .created rfl (by simp [standing, hn]) (by simp [standing, isRejected, hp])
  | take hp hh | ignore hp hh | refuse hp hh | overflow hp hh =>
    exact .none rfl (by simp [standing, isRejected, hp, hh])
  | launch hp =>
    have hw := hidle (by simp [hp])
    have hrejected : f.isRejected = false := by simp [isRejected, hp]
    refine .issued rfl (by rw [standing_of_idle hw]) ?_
    rw [standing_of_idle hw, hrejected]
    rfl
  | @release e hp h hh hr =>
    have hfail := h.fail_eq e
    have hreleased : (h.fail e).released = false := by rw [hfail]; exact hr
    have haccount : (h.fail e).account = f.task.account := by rw [hfail]; exact ho h hh
    refine .released (haccount ▸ Handle.accounts_release hreleased) ?_ ?_
    · simp [standing, hh, hr]
    · simp [standing, isRejected, hp, Handle.spent]
  | @drop hp h hh hr =>
    have hfits : f.task.fits = false := by rw [Task.fits, (hc.of_crashed hp).1 0 0]; rfl
    refine .released (ho h hh ▸ Handle.accounts_release hr) ?_ ?_
    · simp [standing, hh, hr]
    · simp [standing, isRejected, hp, hfits, Handle.spent]
  | @reject e hp =>
    have hw := hidle (by simp [hp])
    have hfits := hc.fits_of_refusal (e := e) (by rw [hp]; rfl)
    have hrejected : (f.reject e w).1.isRejected = true := by
      change (match (if raises (f.rejection e) then IssuerPhase.lost else .notified e) with
        | .notified _ | .answered _ => true
        | .lost | .finished => f.waiters.complete == .idle && f.task.fits
        | _ => false) = true
      cases raises (f.rejection e) <;> simp [hw, hfits, PerMilestone.const]
    refine .refused rfl (by simp [standing, isRejected, hp]) ?_
    rw [standing, hrejected]
    rfl
  | @answerFirst e hp => exact .none rfl (by simp [standing, isRejected, hp, answer])
  | @answerSecond e hp =>
    have hw := hidle (by simp [hp])
    have hfits := hc.fits_of_refusal (e := e) (by rw [hp]; rfl)
    refine .none rfl ?_
    simp [standing, isRejected, hp, answer, hw, hfits, PerMilestone.const]
  | lose hp => exact .none rfl (by simp [standing, isRejected, hp, answer])

/-- Nothing of a flight that was just submitted is counted. -/
theorem counts_start {t : Task} {k : OperationKind} :
    (Flight.standing { task := t }).counts k misses x = false := by
  rw [standing_of_idle rfl]
  cases x with
  | passed m | missed m => cases m <;> rfl
  | issued | refused | released | releasedAgain | outstanding => rfl

theorem get_passed (f : Flight) (m : Milestone) :
    f.standing.passed.get m = (f.waiters.get m).hasPassed := by
  cases m <;> rfl

theorem standing_of_started (hp : f.issuer = .finished) (hw : f.waiters.complete ≠ .idle) :
    f.standing =
      { launched := true
        rejected := false
        passed := ⟨f.waiters.complete.hasPassed, f.waiters.safe.hasPassed⟩
        released := f.handle.map (·.released) } := by
  simp [standing, isRejected, hp, hw]

/-- What a move of a waiter can change of the standing of its flight. -/
theorem WaiterMove.standing (hk : f.Keeps) (hm : WaiterMove m f w g w') :
    g.standing =
      { f.standing with
        passed := f.standing.passed.set m (g.waiters.get m).hasPassed
        released := g.handle.map (·.released) } := by
  obtain ⟨-, hissuer, p, hp, hw⟩ := hm.frame
  have hfin := hm.issuer_finished hk
  have hstarted : g.waiters.complete ≠ .idle := by
    rw [hw]
    exact hk.set_ne_idle hm.started hp .complete
  rw [standing_of_started (hissuer.trans hfin) hstarted,
    standing_of_started hfin (hk.ne_idle hm.started .complete), hw]
  cases m <;> rfl

/-- A waiter that has passed its milestone changes nothing but the handle. -/
theorem WaiterMove.standing_of_hasPassed (hk : f.Keeps) (hm : WaiterMove m f w g w')
    (hf : (f.waiters.get m).hasPassed = true) (hg : (g.waiters.get m).hasPassed = true) :
    g.standing = { f.standing with released := g.handle.map (·.released) } := by
  have hpassed : f.standing.passed.set m true = f.standing.passed := by
    rw [← hf, ← get_passed]
    cases m <;> rfl
  rw [hm.standing hk, hg, hpassed]

theorem released_eq {h : Handle} (hh : f.handle = some h) :
    f.standing.released = some h.released := by
  simp [standing, hh]

theorem isFailure_outcome (m : Milestone) (status returnValue : Status) :
    isFailure (Handle.outcome m status returnValue) =
      (status.isError || returnValue.isError) := by
  unfold Handle.outcome check
  cases status.isError with
  | true => rfl
  | false => cases returnValue.isError <;> rfl

/-- **What a step of a waiter counts.** -/
theorem WaiterMove.tick (hk : f.Keeps) (ho : f.ChargesOwn) (hm : WaiterMove m f w g w')
    (hmisses : ∀ c status, f.native? = some c →
      (w.backend.completion c).resolution? m = some status →
        misses m = (status.isError || (w.backend.completion c).returnValue.isError)) :
    Tick misses f w g w' := by
  have hstanding := hm.standing hk
  have hreleases := hm.standing_of_hasPassed hk
  -- A waiter that goes on after its milestone counts nothing as long as it keeps the handle.
  have goesOn : (f.waiters.get m).hasPassed = true → (g.waiters.get m).hasPassed = true →
      g.handle.map (·.released) = f.standing.released → g.standing = f.standing := by
    intro hf hg hreleased
    rw [hreleases hf hg, hreleased]
  cases hm with
  | @observe hp h c status result hh hn hres hresult =>
    have hfailed : isFailure result = misses m := by
      rw [hresult, isFailure_outcome, hmisses c status ((native?_eq hh).trans hn) hres]
    refine .passed (m := m) ?_ (by rw [get_passed, hp]; rfl) ?_
    · rw [← hfailed, ← ho h hh]
    · rw [hstanding, get_onWaiter, hasPassed_afterMilestone]
      exact Standing.ext rfl rfl rfl (released_eq hh).symm
  | copy hp => exact .none rfl (goesOn (by rw [hp]; rfl) (by rw [get_onWaiter]; rfl) rfl)
  | @record o hp h hh =>
    refine .none rfl (goesOn (by rw [hp]; rfl) (by rw [get_onWaiter]; rfl) ?_)
    change some (reported o h).released = _
    rw [released_eq hh]
    cases o with
    | reached => rfl
    | failed e => rw [reported, Handle.fail_eq]
  | call hp =>
    refine .none rfl (goesOn (by rw [hp]; rfl) ?_ rfl)
    rw [notify, get_onWaiter]
    split <;> rfl
  | countFirst hp hh =>
    obtain ⟨hf, hg⟩ := WaiterPhase.hasPassed_of_afterCount? hp
    exact .none rfl (goesOn hf (by rw [get_onWaiter]; exact hg) (released_eq hh).symm)
  | @countLast p hp h hh hl hr =>
    obtain ⟨hf, hg⟩ := WaiterPhase.hasPassed_of_afterCount? hp
    refine .released (ho h hh ▸ Handle.accounts_release hr) ((released_eq hh).trans (by rw [hr])) ?_
    exact hreleases hf (by rw [get_onWaiter]; exact hg)
  | answer hp | abandon hp =>
    exact .none rfl (goesOn (by rw [hp]; rfl) (by rw [get_onWaiter]; rfl) rfl)

/-- Every move of the issuer leaves the handle on the account of the flight. -/
theorem IssuerMove.chargesOwn (ho : f.ChargesOwn) (hm : IssuerMove f w g w') : g.ChargesOwn := by
  intro k hk
  cases hm with
  | make => cases hk; rfl
  | take _ hh | ignore _ hh | refuse _ hh | overflow _ hh | drop _ hh =>
    have hown := ho _ hh
    cases hk
    exact hown
  | @release e hp h hh =>
    cases hk
    have haccount : (h.fail e).spent.account = h.account := by rw [h.fail_eq e]; rfl
    exact haccount.trans (ho h hh)
  | launch | reject | answerFirst | answerSecond | lose => exact ho k hk

/-- So does every move of a waiter. -/
theorem WaiterMove.chargesOwn (ho : f.ChargesOwn) (hm : WaiterMove m f w g w') :
    g.ChargesOwn := by
  intro k hk
  cases hm with
  | observe _ hh | countFirst _ hh | countLast _ hh =>
    have hown := ho _ hh
    cases hk
    exact hown
  | @record o hp h hh =>
    cases hk
    have haccount : (reported o h).account = h.account := by
      cases o with
      | reached => rfl
      | failed e => rw [reported, Handle.fail_eq]
    exact haccount.trans (ho h hh)
  | copy | call | answer | abandon => exact ho k hk

end Flight

end Milepost
