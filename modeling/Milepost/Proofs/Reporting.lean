import Milepost.Proofs.Release

/-!
# What the owner hears of an operation

With all callbacks registered the owner of an operation is called back once about a refusal, or
once about each of the two milestones, and each future is answered after that with the same result.
What a milestone brings is its `Application.verdict`; the other milestone has no part in it.

* `Run.reports`: so it is in every state of a run, and nobody waits for ever.
* `Run.unanswered_after_raising`: a callback that fails costs its future the result.
-/

namespace Milepost

/-- The call, made by a task of the name, tells the owner the outcome of a milestone. -/
structure Task.Notifies (t : Task) (thread : String) (m : Milestone) (o : Outcome)
    (x : Invocation) : Prop where
  thread : x.thread = thread
  passed : x.arguments.passed = t.callbacks.arguments
  /-- Success goes to the callback for the milestone with the payload, any failure to the callback
  for failures. -/
  outcome : match o with
    | .reached payload => x.occasion = .milestone m ∧
      t.callbacks.get (.milestone m) = some x.callback ∧ x.arguments.payload = payload ∧
      x.failure = none
    | .failed e => x.occasion = .failure ∧ t.callbacks.get .failure = some x.callback ∧
      x.arguments.payload = none ∧ x.failure = some e

/-- What a future is answered after the call about the outcome: a callback that failed leaves it
without an answer. -/
def Invocation.answer (x : Invocation) (o : Outcome) : Outcome :=
  if x.callback.raises then .lost else o

namespace Flight

/-- The owner hears of a refusal: by one call, and then from both futures. -/
structure HearsRefusal (f : Flight) (e : Failure) : Prop where
  calls : f.invocations = [] ∨
    ∃ x, f.invocations = [x] ∧ f.task.Notifies f.task.issuerThread .complete (.failed e) x
  answers : ∀ m o, f.futures.get m = some o →
    ∃ x, f.invocations = [x] ∧ o = x.answer (.failed e)

/-- The owner has heard of the outcome of the milestone: by one call, and perhaps from the
future. -/
def Hears (f : Flight) (m : Milestone) (o : Outcome) : Prop :=
  ∃ x, f.calls m = [x] ∧ f.task.Notifies (f.task.waiterThread m) m o x ∧
    ∀ answer, f.futures.get m = some answer → answer = x.answer o

variable {f g : Flight} {G : Grounds} {m : Milestone} {o : Outcome} {e : Failure}
  {w w' : World InMemory}

theorem notifies_of_invocation? {t : Task} {thread : String} {x : Invocation}
    (hx : t.callbacks.invocation? m thread o = some x) : t.Notifies thread m o x := by
  cases o with
  | reached payload =>
    obtain ⟨k, hk, rfl⟩ := Option.map_eq_some_iff.mp hx
    exact ⟨rfl, rfl, rfl, hk, rfl, rfl⟩
  | failed e =>
    obtain ⟨k, hk, rfl⟩ := Option.map_eq_some_iff.mp hx
    exact ⟨rfl, rfl, rfl, hk, rfl, rfl⟩

/-- With all callbacks registered a call is heard, and an answer after it is its answer. -/
theorem Called.hears {raised : Bool} {answer : Option Outcome} (hc : f.Called m o raised answer)
    (hcb : ∀ o, (f.task.callbacks.get o).isSome)
    (ha : ∀ a, answer = some a → a = if raised then .lost else o) : f.Hears m o := by
  obtain ⟨x, hx⟩ := Option.isSome_iff_exists.mp
    (Callbacks.invocation?_isSome hcb m (f.task.waiterThread m) o)
  have hcall : f.call m o = some x := hx
  obtain ⟨hcalls, hraises, hanswered⟩ := hc
  rw [hcall] at hcalls hraises
  refine ⟨x, hcalls, notifies_of_invocation? hx, fun a hf => ?_⟩
  rw [ha a (hanswered.symm.trans hf), ← hraises]
  rfl

/-- With all callbacks registered the waiter tells every outcome that it knows. -/
theorem Told.hears {p : WaiterPhase} (ht : f.Told G m p)
    (hcb : ∀ o, (f.task.callbacks.get o).isSome) :
    f.HearsNothing m ∨ ∃ o, G.outcome m o ∧ f.Hears m o := by
  cases ht with
  | waiting hn | copying _ hn | ready _ hn | recorded _ hn => exact .inl hn
  | notified hg hc | counted hg hc | raised hg hc =>
    exact .inr ⟨_, hg, hc.hears hcb fun a ha => nomatch ha⟩
  | answered hg hc | abandoned hg hc | lost hg hc =>
    exact .inr ⟨_, hg, hc.hears hcb fun a ha => (Option.some.inj ha).symm⟩

/-- With all callbacks registered a call about a refusal is heard, and an answer after it is its
answer. -/
theorem Rejected.hearsRefusal {e' : Failure} {raised : Bool} (hr : f.Rejected G e' raised)
    (hcb : ∀ o, (f.task.callbacks.get o).isSome) (he : ∀ e', G.refused e' → e' = e)
    (hf : ∀ m a, f.futures.get m = some a → a = if raised then .lost else .failed e') :
    f.HearsRefusal e := by
  obtain rfl := he e' hr.grounds
  obtain ⟨x, hx⟩ := Option.isSome_iff_exists.mp
    (Callbacks.invocation?_isSome hcb .complete f.task.issuerThread (.failed e'))
  have hcall : f.rejection e' = some x := hx
  obtain ⟨-, hcalls, hraises⟩ := hr
  rw [hcall] at hcalls hraises
  refine ⟨.inr ⟨x, hcalls, notifies_of_invocation? hx⟩, fun m o ho => ⟨x, hcalls, ?_⟩⟩
  rw [hf m o ho, ← hraises]
  rfl

/-- With all callbacks registered the issuer tells the refusal. -/
theorem Story.hearsRefusal (hs : f.Story G f.issuer) (hcb : ∀ o, (f.task.callbacks.get o).isSome)
    (hw : ¬ f.IsTaken) (ho : ¬ G.overflown) (he : ∀ e', G.refused e' → e' = e) :
    f.HearsRefusal e := by
  have unanswered : f.futures = .const none → ∀ m a, f.futures.get m ≠ some a := by
    intro hf m a ha
    rw [hf, PerMilestone.get_const] at ha
    cases ha
  have answered : ∀ {o}, f.futures = .const (some o) → ∀ m a, f.futures.get m = some a → a = o := by
    intro o hf m a ha
    rw [hf, PerMilestone.get_const] at ha
    cases ha
    rfl
  generalize hp : f.issuer = p at hs
  cases hs with
  | silent _ hc hf => exact ⟨.inl hc, fun m a ha => absurd ha (unanswered hf m a)⟩
  | notified hr hf =>
    exact hr.hearsRefusal hcb he fun m a ha => absurd ha (unanswered hf m a)
  | answered hr hf =>
    refine hr.hearsRefusal hcb he fun m a ha => ?_
    rw [hf] at ha
    cases m with
    | complete => exact (Option.some.inj ha).symm
    | safe => cases ha
  | rejected _ hr hf | abandoned _ hr hf => exact hr.hearsRefusal hcb he (answered hf)
  | raised _ hr hf => exact hr.hearsRefusal hcb he fun m a ha => absurd ha (unanswered hf m a)
  | overflown _ hg | dropped _ hg => exact absurd hg ho
  | launched hne => exact absurd (.inr ⟨hp, hne .complete⟩) hw

/-- A waiter answers only a future that was not answered. -/
theorem Story.futures_waiterMove (hs : f.Story G f.issuer) (hk : f.Keeps)
    (hm : WaiterMove m f w g w') {n : Milestone} (hf : f.futures.get n = some o) :
    g.futures.get n = some o := by
  have hset : ∀ a : Option Outcome, f.futures.get m = none →
      (f.futures.set m a).get n = some o := by
    intro a hnone
    rw [PerMilestone.get_set, if_neg]
    · exact hf
    · rintro rfl
      rw [hnone] at hf
      cases hf
  have ht := (hs.of_started hk hm.started).1 m
  cases hm with
  | observe | copy | record | call | countFirst | countLast => exact hf
  | answer hp =>
    rw [hp] at ht
    cases ht with
    | counted _ hc => exact hset _ hc.answered
  | abandon hp =>
    rw [hp] at ht
    cases ht with
    | raised _ hc => exact hset _ hc.answered

/-- The issuer answers only futures that were not answered. -/
theorem Story.futures_issuerMove (hs : f.Story G f.issuer) (hm : IssuerMove f w g w')
    {n : Milestone} (hf : f.futures.get n = some o) : g.futures.get n = some o := by
  cases hm with
  | make | take | ignore | refuse | overflow | launch | release | drop | reject => exact hf
  | answerFirst hp =>
    rw [hp] at hs
    cases hs with
    | silent hp' => cases hp'
    | notified _ hnone =>
      rw [hnone, PerMilestone.get_const] at hf
      cases hf
  | answerSecond hp =>
    rw [hp] at hs
    cases hs with
    | silent hp' => cases hp'
    | answered _ hnone =>
      rw [hnone] at hf
      cases n with
      | complete => exact (congrArg (PerMilestone.get · .complete) hnone).trans hf
      | safe => cases hf
  | lose hp =>
    rw [hp] at hs
    cases hs with
    | silent hp' => cases hp'
    | raised _ _ hnone | overflown _ _ _ hnone =>
      rw [hnone, PerMilestone.get_const] at hf
      cases hf

/-- Where issuer and waiters are done both futures are answered. -/
theorem Story.isSome_futures (hs : f.Story G f.issuer) (hp : f.issuer = .finished)
    (hw : ∀ m, f.waiters.get m = .idle ∨ f.waiters.get m = .finished) (m : Milestone) :
    (f.futures.get m).isSome = true := by
  rw [hp] at hs
  cases hs with
  | silent hp' => cases hp'
  | rejected _ _ hf | abandoned _ _ hf | dropped _ _ _ hf => rw [hf, PerMilestone.get_const]; rfl
  | launched hne ht =>
    have ht := ht m
    rw [(hw m).resolve_left (hne m)] at ht
    cases ht with
    | answered _ hc | lost _ hc => rw [hc.answered]; rfl

end Flight

/-- Only a read that is too long has no job. -/
theorem Task.job?_ne_none {t : Task} {c : CompletionId} {n : BufferId}
    (h : t.request.kind = .read → t.request.length ≤ Buffer.maxAllocation) :
    t.job? c n ≠ none := by
  unfold Task.job? Request.length Request.kind at *
  cases hop : t.request.operation with
  | read length offset =>
    rw [hop] at h
    simp [Operation.command?, Operation.length] at h ⊢
    exact h rfl
  | write | writeFull | append | remove => simp [Operation.command?]

/-- No verdict is that an answer got lost. -/
theorem Request.verdict_ne_lost {r : Request} {status result : Status} {bytes : ByteArray}
    {m : Milestone} : r.verdict m status result bytes ≠ .lost := by
  have missed : ∀ status, r.missed m status ≠ .lost := by
    intro status hlost
    have hkind : m.failureKind = .other := congrArg Failure.kind (Outcome.failed.inj hlost)
    cases m <;> cases hkind
  unfold verdict
  split
  · exact missed status
  · split
    · exact missed result
    · split
      · split
        · intro hlost
          cases congrArg Failure.kind (Outcome.failed.inj hlost)
        · exact Outcome.noConfusion
      · exact Outcome.noConfusion

/-! ## The read of the sample run -/

namespace Sample

/-- Both futures of the read are answered with the two bytes from the second on. -/
theorem exists_reader : ∃ f, reached.2.flights[1]? = some f ∧
    f.task = object.task { oid := "object", operation := .read 2 1 } ∧
    f.futures = .const (some (.reached (some ⟨#[2, 3]⟩))) := by
  have hreader : reached.2.flights[1]?.any (fun f =>
      f.task == object.task { oid := "object", operation := .read 2 1 } &&
        f.futures == .const (some (.reached (some ⟨#[2, 3]⟩)))) = true := by
    decide +kernel
  obtain ⟨f, hf, hfacts⟩ := (Option.any_eq_true ..).mp hreader
  rw [Bool.and_eq_true, beq_iff_eq, beq_iff_eq] at hfacts
  exact ⟨f, hf, hfacts⟩

theorem mem_issuesOf_reader :
    (⟨1, ⟨1, "object", .command (.read 0 1), 1⟩, 0, true⟩ : Issue) ∈ reached.1.issuesOf 1 := by
  decide +kernel

/-- Both futures of the remove that was refused are given up. -/
theorem exists_clumsyRemove : ∃ f, clumsy.2.flights[1]? = some f ∧
    f.task = AsyncObject.task { clumsyObject with pool := 7 }
      { oid := "object", operation := .remove } ∧
    f.futures = .const (some .lost) := by
  have hremove : clumsy.2.flights[1]?.any (fun f =>
      f.task == AsyncObject.task { clumsyObject with pool := 7 }
          { oid := "object", operation := .remove } &&
        f.futures == .const (some .lost)) = true := by
    decide +kernel
  obtain ⟨f, hf, hfacts⟩ := (Option.any_eq_true ..).mp hremove
  rw [Bool.and_eq_true, beq_iff_eq, beq_iff_eq] at hfacts
  exact ⟨f, hf, hfacts⟩

theorem mem_issuesOf_clumsyRemove :
    (⟨1, ⟨7, "object", .command (.edit .remove), 1⟩, .noEntry, false⟩ : Issue) ∈
      clumsy.1.issuesOf 1 := by
  decide +kernel

theorem mem_issuesOf_clumsyWrite :
    (⟨0, ⟨1, "object", .command (.edit (.writeFull ⟨#[1]⟩)), 0⟩, 0, true⟩ : Issue) ∈
      clumsy.1.issuesOf 0 := by
  decide +kernel

end Sample

/-! ## Along a run -/

namespace Run

variable {config : InMemoryConfig} {accounts : Nat} {h : History} {s t : System InMemory}
  {i : FlightId} {f g : Flight} {e : Event} {m : Milestone} {o : Outcome}

/-- A future that is answered stays so. -/
theorem futures_next? (hr : Run config accounts h s)
    (hf : s.flights[i]? = some f) (hn : s.next? e = some t) (hg : t.flights[i]? = some g)
    (ho : f.futures.get m = some o) : g.futures.get m = some o := by
  have same : ∀ {g}, s.flights[i]? = some g → g.futures.get m = some o := by
    intro g hg
    cases hf.symm.trans hg
    exact ho
  cases Happens.of_next? hr.sound hn with
  | submit o r =>
    rcases System.flight_submit hg with ⟨rfl, -⟩ | hg
    · rw [Array.getElem?_eq_none (Nat.le_refl _)] at hf
      cases hf
    · exact same hg
  | issuer hf' hk hm =>
    rcases System.flight_setIfInBounds hg with ⟨rfl, rfl⟩ | ⟨-, hg⟩
    · cases hf.symm.trans hf'
      exact (hr.story hf).futures_issuerMove hm ho
    · exact same hg
  | waiter hf' hk hm =>
    rcases System.flight_setIfInBounds hg with ⟨rfl, rfl⟩ | ⟨-, hg⟩
    · cases hf.symm.trans hf'
      exact (hr.story hf).futures_waiterMove hk hm ho
    · exact same hg
  | work | call | shutdown | clock => exact same hg

/-- What was issued on behalf of a flight is its only issue. -/
theorem issuesOf_eq (hr : Run config accounts h s)
    (hf : s.flights[i]? = some f) {x : Issue} (hx : x ∈ h.issuesOf i) : h.issuesOf i = [x] := by
  cases hr.courses.course hf with
  | before _ hnone | overflown _ _ hnone => rw [hnone] at hx; cases hx
  | taken _ _ hone | refused _ _ hone =>
    rw [hone] at hx ⊢
    rw [List.mem_singleton.mp hx]

/-- Two applications of the job of a flight are one. -/
theorem applied_ext (hr : Run config accounts h s) {r r' : Request}
    {a a' : Application} (ha : h.Applied i r a) (ha' : h.Applied i r' a') : a = a' := by
  refine hr.pipeline.application_ext ha.applied ha'.applied ?_
  have hissue := List.singleton_inj.mp (ha.issued.symm.trans ha'.issued)
  rw [(Issue.mk.inj hissue).2.1]

/-- Of an operation that was taken only the waiters tell. -/
theorem told_of_accepted (hr : Run config accounts h s)
    (hf : s.flights[i]? = some f) {x : Issue} (hx : x ∈ h.issuesOf i)
    (he : x.answer.isError = false) :
    (f.invocations = [] ∧ f.futures = .const none) ∨
      (∀ m, f.Told (Telling.grounds h config i f.task) m (f.waiters.get m)) ∧
        ∀ k ∈ f.invocations, ∃ m, k.thread = f.task.waiterThread m := by
  have hone := hr.issuesOf_eq hf hx
  have refused : ∀ {e}, ¬ (Telling.grounds h config i f.task).refused e := by
    rintro e ⟨job', answer', hone', he', -⟩
    cases hone.symm.trans hone'
    cases he.symm.trans he'
  have hs := hr.story hf
  generalize f.issuer = p at hs
  cases hs with
  | silent _ hcalls hfutures => exact .inl ⟨hcalls, hfutures⟩
  | notified hg | answered hg | rejected _ hg | raised _ hg | abandoned _ hg =>
    exact absurd hg.grounds refused
  | overflown _ hg | dropped _ hg => cases hone.symm.trans hg.1
  | launched _ ht hcalls => exact .inr ⟨ht, hcalls⟩

/-- Of a refused operation the owner hears the refusal. -/
theorem hearsRefusal (hr : Run config accounts h s) (hf : s.flights[i]? = some f)
    (hcb : ∀ o, (f.task.callbacks.get o).isSome = true) {x : Issue} (hx : x ∈ h.issuesOf i)
    (he : x.answer.isError = true) : f.HearsRefusal (f.task.request.refusal x.answer) := by
  have hone := hr.issuesOf_eq hf hx
  refine (hr.story hf).hearsRefusal hcb ?_ ?_ ?_
  · intro ht
    obtain ⟨_, _, _, _, _, -, hone', he', -⟩ := (hr.courses.course hf).of_isTaken ht
    cases hone.symm.trans hone'
    cases he.symm.trans he'
  · rintro ⟨hnone, -⟩
    rw [hone] at hnone
    cases hnone
  · rintro e' ⟨job', answer', hone', -, rfl⟩
    cases hone.symm.trans hone'
    rfl

/-- Every call about an operation that was not refused is made by a waiter. -/
theorem exists_mem_calls (hr : Run config accounts h s) (hf : s.flights[i]? = some f) {x : Issue}
    (hx : x ∈ h.issuesOf i) (he : x.answer.isError = false) {k : Invocation}
    (hk : k ∈ f.invocations) : ∃ m, k ∈ f.calls m := by
  rcases hr.told_of_accepted hf hx he with ⟨hcalls, -⟩ | ⟨-, hcalls⟩
  · rw [hcalls] at hk
    cases hk
  · obtain ⟨m, hm⟩ := hcalls k hk
    exact ⟨m, List.mem_filter.mpr ⟨hk, beq_iff_eq.mpr hm⟩⟩

/-- Of an operation that was not refused the owner hears the verdicts on the one application of
its job. -/
theorem hearsVerdicts (hr : Run config accounts h s) (hf : s.flights[i]? = some f)
    (hcb : ∀ o, (f.task.callbacks.get o).isSome = true) {x : Issue} (hx : x ∈ h.issuesOf i)
    (he : x.answer.isError = false) :
    (∀ m, f.HearsNothing m) ∨ ∃ a, h.Applied i f.task.request a ∧ a.job = x.job ∧
      ∀ m, f.HearsNothing m ∨ f.Hears m (a.verdict config f.task.request m) := by
  have hone := hr.issuesOf_eq hf hx
  rcases hr.told_of_accepted hf hx he with ⟨hcalls, hfutures⟩ | ⟨ht, -⟩
  · left
    intro m
    constructor
    · rw [Flight.calls, hcalls]
      rfl
    · rw [hfutures, PerMilestone.get_const]
  · have hears : ∀ m, f.HearsNothing m ∨ ∃ a, h.Applied i f.task.request a ∧
        f.Hears m (a.verdict config f.task.request m) := by
      intro m
      refine ((ht m).hears hcb).imp_right ?_
      rintro ⟨o, ⟨a, happlied, rfl⟩, hhears⟩
      exact ⟨a, happlied, hhears⟩
    by_cases hnone : ∀ m, f.HearsNothing m
    · exact .inl hnone
    · -- Some waiter knows of an application; whatever the other one knows of is the same.
      obtain ⟨m, hm⟩ := not_forall.mp hnone
      obtain ⟨a, ha, -⟩ := (hears m).resolve_left hm
      have hissue := List.singleton_inj.mp (hone.symm.trans ha.issued)
      refine .inr ⟨a, ha, by rw [hissue], fun n => (hears n).imp_right ?_⟩
      rintro ⟨a', ha', hheard⟩
      rw [hr.applied_ext ha ha']
      exact hheard

/-- Where nothing can go on, an operation with a job was issued, and both futures are answered. -/
theorem answered_of_isQuiet (hc : config.Refuses) (hr : Run config accounts h s)
    (hf : s.flights[i]? = some f)
    (hlen : f.task.request.kind = .read → f.task.request.length ≤ Buffer.maxAllocation)
    (hq : s.IsQuiet) : (∃ x, x ∈ h.issuesOf i) ∧ ∀ m, (f.futures.get m).isSome = true := by
  obtain ⟨-, -, hdone⟩ := hr.isSettled_of_isQuiet hc hq
  obtain ⟨hfin, hw⟩ := hdone hf
  refine ⟨?_, (hr.story hf).isSome_futures hfin hw⟩
  cases hr.courses.course hf with
  | before hp => rcases hp with hp | hp <;> cases hfin.symm.trans hp
  | taken _ _ hone | refused _ _ hone => exact ⟨_, hone ▸ List.mem_cons_self⟩
  | overflown _ hnone => exact absurd (hnone 0 0) (Task.job?_ne_none hlen)

/-- **What the owner hears of an operation.** If the backend refused it, one call of the callback
for failures and the answers of both futures carry the refused status. If the backend took it,
the owner hears of each milestone, by one call of one callback and then from its future, the
verdict of that milestone on the one application of the job; and there are no other calls. An
answer stays. Every step of what is under way lowers the weight, and where no step is left the
operation was issued and both futures are answered. -/
theorem reports (hc : config.Refuses) (hr : Run config accounts h s)
    (hf : s.flights[i]? = some f) (hcb : ∀ o, (f.task.callbacks.get o).isSome = true)
    (hlen : f.task.request.kind = .read → f.task.request.length ≤ Buffer.maxAllocation) :
    (∀ x ∈ h.issuesOf i, x.answer.isError = true →
      ∃ e, e.kind = .issueFailed ∧ e.status? = some x.answer ∧ f.HearsRefusal e) ∧
    (∀ x ∈ h.issuesOf i, x.answer.isError = false →
      (∀ k ∈ f.invocations, ∃ m, k ∈ f.calls m) ∧
      ((∀ m, f.HearsNothing m) ∨ ∃ a, h.Applied i f.task.request a ∧ a.job = x.job ∧
        ∀ m, f.HearsNothing m ∨ f.Hears m (a.verdict config f.task.request m))) ∧
    (∀ {e : Event} {t : System InMemory} {g : Flight}, s.next? e = some t →
      t.flights[i]? = some g →
        ∀ m o, f.futures.get m = some o → g.futures.get m = some o) ∧
    (∀ {e : Event} {t : System InMemory}, e.isOwn = true → s.next? e = some t →
      t.weight < s.weight) ∧
    (s.IsQuiet → (∃ x, x ∈ h.issuesOf i) ∧ ∀ m, (f.futures.get m).isSome = true) := by
  refine ⟨fun x hx he => ?_, fun x hx he => ⟨fun k hk => ?_, ?_⟩,
    fun hn hg m o => hr.futures_next? hf hn hg, hr.weight_lt, hr.answered_of_isQuiet hc hf hlen⟩
  · exact ⟨f.task.request.refusal x.answer, rfl, rfl, hr.hearsRefusal hf hcb hx he⟩
  · exact hr.exists_mem_calls hf hx he hk
  · exact hr.hearsVerdicts hf hcb hx he

theorem reports_after_write_and_read :
    Sample.config.Refuses ∧ Run Sample.config 1 Sample.reached.1 Sample.reached.2 ∧
      ∃ f, Sample.reached.2.flights[1]? = some f ∧
        (∀ o, (f.task.callbacks.get o).isSome = true) ∧
        f.task.request.length ≤ Buffer.maxAllocation ∧
        ∃ a, Sample.reached.1.Applied 1 f.task.request a ∧
          ∀ m, f.Hears m (a.verdict Sample.config f.task.request m) := by
  obtain ⟨f, hf, htask, hfutures⟩ := Sample.exists_reader
  have hcb : ∀ o, (f.task.callbacks.get o).isSome = true := by
    rw [htask]
    rintro ((_ | _) | _) <;> rfl
  have hlen : f.task.request.length ≤ Buffer.maxAllocation := by
    rw [htask]
    decide
  have hheard : ∀ m, ¬ f.HearsNothing m := by
    rintro m ⟨-, hnone⟩
    rw [hfutures, PerMilestone.get_const] at hnone
    cases hnone
  obtain ⟨-, hreport, -⟩ := reports Sample.refuses Sample.run hf hcb fun _ => hlen
  obtain ⟨-, hnothing | ⟨a, ha, -, hhears⟩⟩ := hreport _ Sample.mem_issuesOf_reader rfl
  · exact absurd (hnothing .complete) (hheard .complete)
  · exact ⟨Sample.refuses, Sample.run, f, hf, hcb, hlen, a, ha,
      fun m => (hhears m).resolve_left (hheard m)⟩

/-- A callback that fails leaves its future without the result: the futures of the refused remove
do not carry the refusal, and the second future of the write does not carry the verdict. -/
theorem unanswered_after_raising :
    (¬ ∀ (config : InMemoryConfig) (accounts : Nat) (h : History) (s : System InMemory)
      (i : FlightId) (f : Flight), config.Refuses → Run config accounts h s →
      s.flights[i]? = some f → (∀ o, (f.task.callbacks.get o).isSome = true) →
      ∀ x ∈ h.issuesOf i, x.answer.isError = true → ∀ m o, f.futures.get m = some o →
        ∃ e, o = .failed e ∧ e.kind = .issueFailed ∧ e.status? = some x.answer) ∧
    ¬ ∀ (config : InMemoryConfig) (accounts : Nat) (h : History) (s : System InMemory)
      (i : FlightId) (f : Flight), config.Refuses → Run config accounts h s →
      s.flights[i]? = some f → (∀ o, (f.task.callbacks.get o).isSome = true) →
      ∀ x ∈ h.issuesOf i, x.answer.isError = false → ∀ a, h.Applied i f.task.request a →
        ∀ m o, f.futures.get m = some o → o = a.verdict config f.task.request m := by
  constructor
  · intro h
    obtain ⟨f, hf, htask, hfutures⟩ := Sample.exists_clumsyRemove
    have hcb : ∀ o, (f.task.callbacks.get o).isSome = true := by
      rw [htask]
      exact Sample.isSome_get_clumsy
    obtain ⟨e, he, hkind, -⟩ := h Sample.config 1 _ _ 1 f Sample.refuses Sample.run_clumsy hf hcb
      _ Sample.mem_issuesOf_clumsyRemove (by decide) .safe .lost (by rw [hfutures]; rfl)
    cases he
    cases hkind
  · intro h
    obtain ⟨f, k, hf, htask, hfutures, -⟩ := Sample.exists_clumsyWrite
    have hcb : ∀ o, (f.task.callbacks.get o).isSome = true := by
      rw [htask]
      exact Sample.isSome_get_clumsy
    have hx := Sample.mem_issuesOf_clumsyWrite
    obtain hnothing | ⟨a, ha, -⟩ := Sample.run_clumsy.hearsVerdicts hf hcb hx rfl
    · obtain ⟨-, hnone⟩ := hnothing .safe
      rw [hfutures] at hnone
      cases hnone
    · exact Request.verdict_ne_lost (h Sample.config 1 _ _ 0 f Sample.refuses Sample.run_clumsy hf
        hcb _ hx rfl a ha .safe .lost (by rw [hfutures]; rfl)).symm

end Run

end Milepost
