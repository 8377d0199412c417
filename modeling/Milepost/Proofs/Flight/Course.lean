import Milepost.Proofs.Custody

/-!
# What the backend was asked on behalf of a flight

A flight hands at most one job to the backend, and which phases it is in says whether that was
done and with which answer. `Course` relates a flight to the issues of the history that are its
own: none before, one that was not refused while waiters follow, one that was refused, or none at
all because the buffer of a read could not be made.

* `Run.courses`: every flight of a run is on such a course.
* `Run.issue_ext`: no two jobs are handed over with one completion.
-/

namespace Milepost

/-- The failure that the issuer is to report. -/
def IssuerPhase.refusal? : IssuerPhase → Option Failure
  | refused e | rejected e | notified e | answered e => some e
  | ready | created | accepted | crashed | lost | finished => none

/-- The job of a task is about its object and has the completion it was made with. -/
theorem Task.of_job? {t : Task} {c : CompletionId} {n : BufferId} {job : Job}
    (h : t.job? c n = some job) :
    job.completion = c ∧ job.pool = t.pool ∧ job.oid = t.request.oid ∧
      ∃ command, t.request.operation.command? n = some command ∧ job.action = .command command := by
  obtain ⟨command, hcommand, rfl⟩ := Option.map_eq_some_iff.mp h
  exact ⟨rfl, rfl, rfl, command, hcommand, rfl⟩

namespace Flight

/-- Whether the backend did not refuse the operation of the flight. -/
def IsTaken (f : Flight) : Prop :=
  f.issuer = .accepted ∨ f.issuer = .finished ∧ f.waiters.complete ≠ .idle

/-- Whether the flight ended without a waiter, or is about to. -/
def IsLost (f : Flight) : Prop :=
  f.issuer = .lost ∨ f.issuer = .finished ∧ f.waiters.complete = .idle

/-- What the backend was asked on behalf of the flight, and where the flight is. -/
inductive Course (i : FlightId) (f : Flight) (issues : List Issue) : Prop
  | before (hp : f.issuer = .ready ∨ f.issuer = .created) (hi : issues = [])
  | taken {c : CompletionId} {n : BufferId} {job : Job} {answer : Status} {queued : Bool}
      (hp : f.IsTaken) (hj : f.task.job? c n = some job)
      (hi : issues = [⟨i, job, answer, queued⟩]) (he : answer.isError = false)
      (hq : queued = true → answer = 0)
      (held : f.holds = true →
        f.native? = some c ∧ f.buffer? = f.task.request.operation.ownBuffer? n)
  | refused {c : CompletionId} {n : BufferId} {job : Job} {answer : Status}
      (hp : f.issuer.refusal? = some (f.task.request.refusal answer) ∨ f.IsLost)
      (hj : f.task.job? c n = some job) (hi : issues = [⟨i, job, answer, false⟩])
      (he : answer.isError = true)
  | overflown (hp : f.issuer = .crashed ∨ f.IsLost) (hj : ∀ c n, f.task.job? c n = none)
      (hi : issues = [])

variable {i : FlightId} {f g : Flight} {w w' : World InMemory} {m : Milestone}
  {issues : List Issue} {e : Failure}

/-- Whether an operation fits into a buffer does not depend on completion and buffer. -/
theorem job?_eq_none_iff {t : Task} {c c' : CompletionId} {n n' : BufferId} :
    t.job? c n = none ↔ t.job? c' n' = none := by
  unfold Task.job?
  rw [Option.map_eq_none_iff, Option.map_eq_none_iff]
  cases t.request.operation with
  | read length offset => simp only [Operation.command?]; split <;> simp
  | write | writeFull | append | remove => simp [Operation.command?]

namespace Course

theorem of_created (hc : Course i f issues) (hp : f.issuer = .ready ∨ f.issuer = .created) :
    issues = [] := by
  cases hc with
  | before _ hi => exact hi
  | taken hp' => rcases hp with hp | hp <;> simp [IsTaken, hp] at hp'
  | refused hp' => rcases hp with hp | hp <;> simp [IsLost, hp, IssuerPhase.refusal?] at hp'
  | overflown hp' => rcases hp with hp | hp <;> simp [IsLost, hp] at hp'

theorem of_isTaken (hc : Course i f issues) (hp : f.IsTaken) :
    ∃ c n job answer queued, f.task.job? c n = some job ∧
      issues = [⟨i, job, answer, queued⟩] ∧ answer.isError = false ∧
      (queued = true → answer = 0) ∧ (f.holds = true →
        f.native? = some c ∧ f.buffer? = f.task.request.operation.ownBuffer? n) := by
  cases hc with
  | before hp' => rcases hp' with hp' | hp' <;> simp [IsTaken, hp'] at hp
  | taken _ hj hi he hq held => exact ⟨_, _, _, _, _, hj, hi, he, hq, held⟩
  | refused hp' =>
    rcases hp with hp | ⟨hp, hw⟩ <;> simp_all [IsLost, IssuerPhase.refusal?]
  | overflown hp' => rcases hp with hp | ⟨hp, hw⟩ <;> simp_all [IsLost]

theorem of_refusal (hc : Course i f issues) (hp : f.issuer.refusal? = some e) :
    ∃ c n job answer, f.task.job? c n = some job ∧ issues = [⟨i, job, answer, false⟩] ∧
      answer.isError = true ∧ e = f.task.request.refusal answer := by
  cases hc with
  | before hp' => rcases hp' with hp' | hp' <;> simp [IssuerPhase.refusal?, hp'] at hp
  | taken hp' => rcases hp' with hp' | ⟨hp', -⟩ <;> simp [IssuerPhase.refusal?, hp'] at hp
  | refused hp' hj hi he =>
    rcases hp' with hp' | hp' | ⟨hp', -⟩
    · exact ⟨_, _, _, _, hj, hi, he, Option.some.inj (hp.symm.trans hp')⟩
    · simp [IssuerPhase.refusal?, hp'] at hp
    · simp [IssuerPhase.refusal?, hp'] at hp
  | overflown hp' =>
    rcases hp' with hp' | hp' | ⟨hp', -⟩ <;> simp [IssuerPhase.refusal?, hp'] at hp

theorem of_crashed (hc : Course i f issues) (hp : f.issuer = .crashed) :
    (∀ c n, f.task.job? c n = none) ∧ issues = [] := by
  cases hc with
  | before hp' => simp [hp] at hp'
  | taken hp' => simp [IsTaken, hp] at hp'
  | refused hp' => simp [IsLost, hp, IssuerPhase.refusal?] at hp'
  | overflown _ hj hi => exact ⟨hj, hi⟩

/-- A flight that is lost stays on its course when it ends. -/
theorem lost (hc : Course i f issues) (hp : f.issuer = .lost) (ht : g.task = f.task)
    (hg : g.IsLost) : Course i g issues := by
  cases hc with
  | before hp' => simp [hp] at hp'
  | taken hp' => simp [IsTaken, hp] at hp'
  | refused _ hj hi he => exact .refused (.inr hg) (ht ▸ hj) hi he
  | overflown _ hj hi => exact .overflown (.inr hg) (ht ▸ hj) hi

/-- A refused flight stays on its course. -/
theorem refusal (hc : Course i f issues) (hp : f.issuer.refusal? = some e)
    (ht : g.task = f.task) (hg : g.issuer.refusal? = some e ∨ g.IsLost) : Course i g issues := by
  obtain ⟨c, n, job, answer, hj, hi, he, rfl⟩ := hc.of_refusal hp
  refine .refused ?_ (ht ▸ hj) hi he
  rw [ht]
  exact hg

/-- Every move of the issuer keeps the flight on its course. -/
theorem issuerMove (hc : Course i f issues) (hk : f.Keeps) (hm : IssuerMove f w g w') :
    Course i g (issues ++ ((f.job? w).map (w.backend.issueOf i)).toList) := by
  have quiet : f.issuer ≠ .created → Course i g issues →
      Course i g (issues ++ ((f.job? w).map (w.backend.issueOf i)).toList) := by
    intro hp hg
    rw [job?_of_ne hp]
    simpa using hg
  have idle : f.issuer ≠ .finished → f.waiters.complete = .idle := by
    intro hp
    rw [hk.idle hp]
    rfl
  cases hm with
  | make hp => exact quiet (by simp [hp]) (.before (.inr rfl) (hc.of_created (.inl hp)))
  | take hp hh hn hj ha =>
    rw [job?_eq hp ((native?_eq hh).trans hn), hj, hc.of_created (.inr hp)]
    rw [Option.map_some, InMemory.issueOf_of_accepts ha]
    exact .taken (.inl rfl) hj rfl rfl (fun _ => rfl) fun _ => ⟨hn, rfl⟩
  | ignore hp hh hn hj ha he =>
    rw [job?_eq hp ((native?_eq hh).trans hn), hj, hc.of_created (.inr hp)]
    rw [Option.map_some, InMemory.issueOf_of_not_accepts ha]
    exact .taken (.inl rfl) hj rfl he nofun fun _ => ⟨hn, rfl⟩
  | refuse hp hh hn hj he =>
    rw [job?_eq hp ((native?_eq hh).trans hn), hj, hc.of_created (.inr hp)]
    rw [Option.map_some, InMemory.issueOf_of_not_accepts (InMemory.accepts_of_isError he)]
    exact .refused (.inl rfl) hj rfl he
  | overflow hp hh hn hj =>
    rw [job?_eq hp ((native?_eq hh).trans hn), hj, hc.of_created (.inr hp)]
    exact .overflown (.inl rfl) (fun _ _ => job?_eq_none_iff.mp hj) rfl
  | launch hp =>
    refine quiet (by simp [hp]) ?_
    obtain ⟨c, n, job, answer, queued, hj, hi, he, hq, held⟩ := hc.of_isTaken (.inl hp)
    exact .taken (.inr ⟨rfl, nofun⟩) hj hi he hq fun _ => held (by simp [holds, hp])
  | release hp => exact quiet (by simp [hp]) (hc.refusal (by rw [hp]; rfl) rfl (.inl rfl))
  | drop hp =>
    obtain ⟨hj, hi⟩ := hc.of_crashed hp
    exact quiet (by simp [hp]) (.overflown (.inr (.inl rfl)) hj hi)
  | @reject e hp =>
    refine quiet (by simp [hp]) (hc.refusal (e := e) (by rw [hp]; rfl) rfl ?_)
    simp only [Flight.reject]
    split
    · exact .inr (.inl rfl)
    · exact .inl rfl
  | answerFirst hp => exact quiet (by simp [hp]) (hc.refusal (by rw [hp]; rfl) rfl (.inl rfl))
  | answerSecond hp =>
    have hw := idle (by simp [hp])
    exact quiet (by simp [hp]) (hc.refusal (by rw [hp]; rfl) rfl (.inr (.inr ⟨rfl, hw⟩)))
  | lose hp =>
    have hw := idle (by simp [hp])
    exact quiet (by simp [hp]) (hc.lost hp rfl (.inr ⟨rfl, hw⟩))

/-- Every move of a waiter keeps the flight on its course. -/
theorem waiterMove (hc : Course i f issues) (hk : f.Keeps) (hm : WaiterMove m f w g w') :
    Course i g issues := by
  obtain ⟨ht, hissuer, p, hp, hw⟩ := hm.frame
  have hfin := hm.issuer_finished hk
  obtain ⟨c, n, job, answer, queued, hj, hi, he, hq, held⟩ :=
    hc.of_isTaken (.inr ⟨hfin, hk.ne_idle hm.started .complete⟩)
  refine .taken (.inr ⟨hissuer.trans hfin, ?_⟩) (ht ▸ hj) hi he hq fun hg => ?_
  · rw [hw]
    exact hk.set_ne_idle hm.started hp .complete
  · have hsome := (hk.waiterMove hm).isSome_native?.trans hg
    cases hm.deed hk with
    | quiet _ _ _ hn hb =>
      rw [hn, hb, ht]
      exact held (hk.isSome_native?.symm.trans (hn ▸ hsome))
    | release _ _ _ _ hn => rw [hn] at hsome; cases hsome
    | make hp => rw [hfin] at hp; cases hp
    | take _ _ hjob => rw [hm.job?_eq_none hk] at hjob; cases hjob
    | ignore _ _ hjob => rw [hm.job?_eq_none hk] at hjob; cases hjob
    | refuse _ _ hjob => rw [hm.job?_eq_none hk] at hjob; cases hjob

end Course

/-- A job that is handed over has the completion of its flight. -/
theorem native?_of_job? {job : Job} (hj : f.job? w = some job) :
    f.native? = some job.completion := by
  unfold job? at hj
  split at hj
  · obtain ⟨c, hn, hj⟩ := Option.bind_eq_some_iff.mp hj
    rw [hn, (Task.of_job? hj).1]
  · cases hj

/-- A job is handed over after the handle was made, and before anything follows. -/
theorem created_of_job? {job : Job} (hj : f.job? w = some job) : f.issuer = .created := by
  by_contra hp
  rw [job?_of_ne hp] at hj
  cases hj

/-- A flight gives its completion up only by releasing it. -/
theorem Deed.native?_or_released {c : CompletionId} (hd : Deed f w g w')
    (held : c < w.backend.completions.size ∧ (w.backend.completion c).released = false)
    (hn : f.native? = some c) :
    (w'.backend.completion c).released = true ∨ g.native? = some c := by
  cases hd with
  | quiet _ _ _ hn' | refuse _ _ _ _ hn' => exact .inr (hn'.trans hn)
  | make _ _ _ _ hf => cases hf.symm.trans hn
  | take _ _ _ _ _ hf hn' | ignore _ _ _ _ _ _ hf hn' => exact .inr (hn'.trans (hf.symm.trans hn))
  | release hb _ _ hf =>
    cases hf.symm.trans hn
    refine .inl ?_
    rw [hb, InMemory.completion_release held.1 held.2]
    exact Bool.or_eq_true_iff.mpr (.inr (beq_iff_eq.mpr rfl))

/-- What is released stays so. -/
theorem Deed.released {c : CompletionId} (hd : Deed f w g w')
    (held : ∀ c, f.native? = some c →
      c < w.backend.completions.size ∧ (w.backend.completion c).released = false)
    (hr : (w.backend.completion c).released = true) :
    (w'.backend.completion c).released = true := by
  cases hd with
  | quiet hb | ignore hb | refuse hb => rwa [hb]
  | make _ hb => rwa [hb, InMemory.completion_createCompletion]
  | take hb _ _ ha => rwa [hb, (InMemory.SameTokens.submit ha).flags]
  | release hb _ _ hf =>
    obtain ⟨hlt, hr'⟩ := held _ hf
    rw [hb, InMemory.completion_release hlt hr']
    exact Bool.or_eq_true_iff.mpr (.inl hr)

end Flight

/-- The issues of one flight. -/
def History.issuesOf (h : History) (i : FlightId) : List Issue :=
  h.issues.filter (·.flight == i)

namespace History

variable {h : History} {i j : FlightId} {f : Flight} {w : World InMemory}

theorem issuesOf_sent_self :
    (h.sent i f w).issuesOf i =
      h.issuesOf i ++ ((f.job? w).map (w.backend.issueOf i)).toList := by
  simp only [issuesOf, sent, List.filter_append]
  cases f.job? w <;> simp [InMemory.issueOf]

theorem issuesOf_sent_of_ne (hij : i ≠ j) : (h.sent i f w).issuesOf j = h.issuesOf j := by
  simp only [issuesOf, sent, List.filter_append]
  cases f.job? w <;> simp [InMemory.issueOf, hij]

theorem mem_issuesOf {x : Issue} : x ∈ h.issuesOf i ↔ x ∈ h.issues ∧ x.flight = i := by
  rw [issuesOf, List.mem_filter, beq_iff_eq]

theorem mem_taken_of_queued {x : Issue} (hx : x ∈ h.issues) (hq : x.queued = true) :
    x.job ∈ h.taken :=
  List.mem_map.mpr ⟨x, List.mem_filter.mpr ⟨hx, hq⟩, rfl⟩

theorem issuesOf_after_work {s : System InMemory} :
    (h.after s .work).issuesOf i = h.issuesOf i := by
  rw [after_work]
  rfl

end History

theorem System.of_issue? {s : System InMemory} {e : Event} {x : Issue} (hx : s.issue? e = some x) :
    ∃ i job, s.world.backend.issueOf i job = x := by
  cases e with
  | task a =>
    cases a with
    | issuer i =>
      obtain ⟨f, -, hx⟩ := Option.bind_eq_some_iff.mp hx
      obtain ⟨job, -, rfl⟩ := Option.map_eq_some_iff.mp hx
      exact ⟨i, job, rfl⟩
    | waiter => cases hx
  | submit | work | call | shutdown | clock => cases hx

/-- The flight of the issue has the completion of the job, unless this is released. -/
def Issue.IsHeld (x : Issue) (s : System InMemory) : Prop :=
  (s.world.backend.completion x.job.completion).released = true ∨
    s.native? x.flight = some x.job.completion

namespace Issue

variable {x : Issue} {s : System InMemory} {i : FlightId} {f g : Flight} {w : World InMemory}

theorem isHeld_of_deed (hf : s.flights[i]? = some f) (hd : f.Deed s.world g w)
    (held : ∀ c, f.native? = some c →
      c < s.world.backend.completions.size ∧ (s.world.backend.completion c).released = false)
    (hi : x.flight = i) (hn : f.native? = some x.job.completion) :
    x.IsHeld { world := w, flights := s.flights.setIfInBounds i g } := by
  unfold IsHeld
  rw [hi, System.native?_set_self hf]
  exact hd.native?_or_released (held _ hn) hn

/-- Whatever a flight does leaves it so. -/
theorem IsHeld.deed (hx : x.IsHeld s) (hf : s.flights[i]? = some f) (hd : f.Deed s.world g w)
    (held : ∀ c, f.native? = some c →
      c < s.world.backend.completions.size ∧ (s.world.backend.completion c).released = false) :
    x.IsHeld { world := w, flights := s.flights.setIfInBounds i g } := by
  rcases hx with hreleased | hn
  · exact .inl (hd.released held hreleased)
  · by_cases hi : i = x.flight
    · have hn' : f.native? = some x.job.completion := by
        rw [← hn, ← hi]
        exact (System.native?_eq hf).symm
      exact isHeld_of_deed hf hd held hi.symm hn'
    · exact .inr ((System.native?_set_of_ne hi).trans hn)

end Issue

namespace Run

variable {config : InMemoryConfig} {accounts : Nat} {h : History} {s : System InMemory}

/-- The flights of a system keep to their courses, and there are no issues of others. -/
structure Courses (h : History) (s : System InMemory) : Prop where
  course : ∀ {i : FlightId} {f : Flight}, s.flights[i]? = some f → f.Course i (h.issuesOf i)
  absent : ∀ {i : FlightId}, s.flights.size ≤ i → h.issuesOf i = []

/-- Every flight of a run is on such a course. -/
theorem courses (hr : Run config accounts h s) : Courses h s := by
  refine hr.preserved ⟨fun hf => ?_, fun _ => rfl⟩ ?_
  · simp [System.fresh] at hf
  intro h s t e _ hs hh
  cases hh with
  | submit o r =>
    rw [History.after_of_not_isOwn rfl]
    refine ⟨fun hj => ?_, fun hj => hs.absent ?_⟩
    · rcases System.flight_submit hj with ⟨rfl, rfl⟩ | hj
      · exact .before (.inl rfl) (hs.absent (Nat.le_refl _))
      · exact hs.course hj
    · rw [System.flights_submit, Array.size_push] at hj
      exact Nat.le_of_succ_le hj
  | @issuer i f g w hf hk hm =>
    rw [History.after_issuer hf]
    refine ⟨fun {j k} hj => ?_, fun {j} hj => ?_⟩
    · rcases System.flight_setIfInBounds hj with ⟨rfl, rfl⟩ | ⟨hij, hj⟩
      · rw [History.issuesOf_sent_self]
        exact (hs.course hf).issuerMove hk hm
      · rw [History.issuesOf_sent_of_ne hij.symm]
        exact hs.course hj
    · rw [Array.size_setIfInBounds] at hj
      have hi := (Array.getElem?_eq_some_iff.mp hf).1
      rw [History.issuesOf_sent_of_ne (Nat.ne_of_lt (Nat.lt_of_lt_of_le hi hj))]
      exact hs.absent hj
  | @waiter i m f g w hf hk hm =>
    rw [History.after_waiter]
    refine ⟨fun {j k} hj => ?_, fun {j} hj => hs.absent ?_⟩
    · rcases System.flight_setIfInBounds hj with ⟨rfl, rfl⟩ | ⟨-, hj⟩
      · exact (hs.course hf).waiterMove hk hm
      · exact hs.course hj
    · rwa [Array.size_setIfInBounds] at hj
  | work hstep =>
    refine ⟨fun hj => ?_, fun hj => ?_⟩
    · rw [History.issuesOf_after_work]
      exact hs.course hj
    · rw [History.issuesOf_after_work]
      exact hs.absent hj
  | call | shutdown | clock =>
    rw [History.after_of_not_isOwn rfl]
    exact ⟨hs.course, hs.absent⟩

/-- What is issued for a flight is a job of its task. -/
theorem job?_of_issue (hr : Run config accounts h s) {i : FlightId} {f : Flight}
    (hf : s.flights[i]? = some f) {x : Issue} (hx : x ∈ h.issuesOf i) :
    ∃ c n, f.task.job? c n = some x.job := by
  cases hr.courses.course hf with
  | before _ hnone | overflown _ _ hnone => rw [hnone] at hx; cases hx
  | taken _ hj hone | refused _ hj hone =>
    rw [hone] at hx
    obtain rfl := List.mem_singleton.mp hx
    exact ⟨_, _, hj⟩

/-- What was queued was answered with zero. -/
theorem answer_of_queued (hr : Run config accounts h s) {x : Issue} (hx : x ∈ h.issues)
    (hq : x.queued = true) : x.answer = 0 := by
  refine hr.invariant (P := fun h _ => ∀ x ∈ h.issues, x.queued = true → x.answer = 0) nofun
    (fun {h s t} e hs _ x hx hq => ?_) x hx hq
  rcases List.mem_append.mp hx with hx | hx
  · exact hs x hx hq
  · obtain ⟨i, job, rfl⟩ := System.of_issue? (Option.mem_toList.mp hx)
    rw [InMemory.issueOf_of_accepts hq]

/-- Where all answers laid down are refusals, what was not refused was queued. -/
theorem queued_eq (hc : config.Refuses) (hr : Run config accounts h s) {x : Issue}
    (hx : x ∈ h.issues) : x.queued = !x.answer.isError := by
  refine hr.preserved (P := fun h _ => ∀ x ∈ h.issues, x.queued = !x.answer.isError) nofun
    (fun {h s t e} hr hs _ x hx => ?_) x hx
  rcases List.mem_append.mp hx with hx | hx
  · exact hs x hx
  · obtain ⟨i, job, rfl⟩ := System.of_issue? (Option.mem_toList.mp hx)
    have hsubmit := InMemory.isError_submit (hr.sound.config ▸ hc) job
    rw [InMemory.issueOf, hsubmit, Bool.not_not]

/-- The flight of an issue has the completion of the job until it is released. -/
theorem issue_held (hr : Run config accounts h s) {x : Issue} (hx : x ∈ h.issues) :
    x.IsHeld s := by
  refine hr.preserved (P := fun h s => ∀ x ∈ h.issues, x.IsHeld s) nofun ?_ x hx
  intro h s t e hr hs hh
  cases hh with
  | submit o r =>
    intro x hx
    rw [History.after_of_not_isOwn rfl] at hx
    refine (hs x hx).imp_right fun hn => ?_
    obtain ⟨f, hf, hn⟩ := System.exists_of_native? hn
    have hlt := (Array.getElem?_eq_some_iff.mp hf).1
    rw [System.native?, System.flights_submit, Array.getElem?_push, if_neg (Nat.ne_of_lt hlt), hf]
    exact hn
  | issuer hf hk hm =>
    intro x hx
    rw [History.after_issuer hf] at hx
    have hd := hm.deed hk
    rcases List.mem_append.mp hx with hx | hx
    · exact (hs x hx).deed hf hd (hr.held hf)
    · obtain ⟨job, hjob, rfl⟩ := Option.map_eq_some_iff.mp (Option.mem_toList.mp hx)
      exact Issue.isHeld_of_deed hf hd (hr.held hf) rfl (Flight.native?_of_job? hjob)
  | waiter hf hk hm =>
    intro x hx
    rw [History.after_waiter] at hx
    exact (hs x hx).deed hf (hm.deed hk) (hr.held hf)
  | work hstep =>
    intro x hx
    rw [History.after_work] at hx
    refine (hs x hx).imp_left fun hreleased => ?_
    exact ((InMemory.SameTokens.step hstep).flags _).trans hreleased
  | call k =>
    intro x hx
    rw [History.after_of_not_isOwn rfl] at hx
    refine (hs x hx).imp_left fun hreleased => ?_
    exact ((InMemory.SameTokens.call k _).flags _).trans hreleased
  | shutdown | clock =>
    rw [History.after_of_not_isOwn rfl]
    exact hs

/-- A job is handed over with a completion that no other was handed over with. -/
theorem completion_ne_of_job? (hr : Run config accounts h s) {i : FlightId} {f : Flight}
    (hf : s.flights[i]? = some f) {job : Job} (hj : f.job? s.world = some job) {x : Issue}
    (hx : x ∈ h.issues) : x.job.completion ≠ job.completion := by
  intro hc
  -- The other issue would be of the same flight, which has none.
  have hn := (System.native?_eq hf).trans (Flight.native?_of_job? hj)
  have hflight : x.flight = i := by
    rcases hr.issue_held hx with hreleased | hn'
    · rw [hc, (hr.custody.held hn).2] at hreleased
      cases hreleased
    · rw [hc] at hn'
      exact hr.custody.sole hn' hn
  have hmem := History.mem_issuesOf.mpr ⟨hx, hflight⟩
  rw [(hr.courses.course hf).of_created (.inr (Flight.created_of_job? hj))] at hmem
  cases hmem

/-- Two issues with one completion are one. -/
theorem issue_ext (hr : Run config accounts h s) {x y : Issue} (hx : x ∈ h.issues)
    (hy : y ∈ h.issues) (hc : x.job.completion = y.job.completion) : x = y := by
  refine hr.preserved (P := fun h _ => ∀ x ∈ h.issues, ∀ y ∈ h.issues,
    x.job.completion = y.job.completion → x = y) nofun ?_ x hx y hy hc
  intro h s t e hr hs hh
  have fresh : ∀ x ∈ h.issues, ∀ y ∈ (s.issue? e).toList,
      x.job.completion ≠ y.job.completion := by
    intro x hx y hy
    cases hh with
    | @issuer i f g w hf hk hm =>
      rw [System.issue?, hf] at hy
      obtain ⟨job, hjob, rfl⟩ := Option.map_eq_some_iff.mp (Option.mem_toList.mp hy)
      exact hr.completion_ne_of_job? hf hjob hx
    | submit | waiter | work | call | shutdown | clock => cases hy
  intro x hx y hy hc
  rcases List.mem_append.mp hx with hx | hx <;> rcases List.mem_append.mp hy with hy | hy
  · exact hs x hx y hy hc
  · exact absurd hc (fresh x hx y hy)
  · exact absurd hc.symm (fresh y hy x hx)
  · rw [Option.mem_toList] at hx hy
    exact Option.some.inj (hx.symm.trans hy)

end Run

end Milepost
