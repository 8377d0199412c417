import Mathlib.Data.List.Induction
import Milepost.Proofs.Handling
import Milepost.Proofs.Service.Answers

/-!
# Which operations are accepted

The answer to an operation follows from what was done before it: whether the backend was shut
down, which answer is laid down for the object, whether there is such a pool, and whether an
operation was accepted with the completion before, or a user released it. The checks are made in
this order, and the last one marks the completion; so an operation that is refused leaves the
backend as it is, and its completion can be used for another one.

* `Ledger.Recalls`: what the backend knows of the uses so far.
* `Service.acceptance`: which operation is accepted, what it changes, and that no two are with one
  completion.
-/

namespace Milepost

/-- Whether a user releases the completion. -/
def Use.releases (c : CompletionId) : Use → Bool
  | release d => d == c
  | _ => false

/-- Whether an operation was accepted with the completion: whoever issued it got no refusal. -/
def Issue.accepts (c : CompletionId) (x : Issue) : Bool :=
  x.job.completion == c && !x.answer.isError

/-! ## What a backend takes -/

namespace InMemory

/-- The second backend is the first with one more job, the last in the queue, and with the
completion of the job marked as issued. -/
structure Took (b : InMemory) (job : Job) (b' : InMemory) : Prop where
  queue : b'.queue = b.queue ++ [job]
  own : b'.completion job.completion = { b.completion job.completion with issued := true }
  others : ∀ c, c ≠ job.completion → b'.completion c = b.completion c
  size : b'.completions.size = b.completions.size
  rest : { b' with queue := b.queue, completions := b.completions } = b

theorem took_submit {b : InMemory} {job : Job} (ha : b.accepts job = true)
    (hc : job.completion < b.completions.size) : b.Took job (b.submit job).2 := by
  have hcompletion := fun c => completion_submit (d := c) ha
  constructor
  case queue => exact queue_submit ha
  case own => rw [hcompletion, completion_onCompletion_self hc]
  case others =>
    intro c hne
    rw [hcompletion, completion_onCompletion_of_ne hne.symm]
  case size => exact (SameTokens.submit ha).size
  case rest =>
    rw [submit_of_accepts ha]
    rfl

end InMemory

/-! ## What is recalled -/

namespace Ledger

/-- A backend recalls whether it was shut down and which completions its users released. -/
structure Recalls (uses : List Use) (l : Ledger) (b : InMemory) : Prop where
  shutdown : b.isShutdown = uses.any (·.shutsDown)
  released : ∀ c ∈ l.made, (b.completion c).released = uses.any (·.releases c)
  made : ∀ c, uses.any (·.releases c) = true → c ∈ l.made

variable {l : Ledger} {s t : InMemory × Shelf} {u : Use} {uses : List Use} {c : CompletionId}

/-- The completions given to users are those from before and the one made now. -/
theorem mem_madeAfter {b : InMemory} :
    c ∈ l.madeAfter b u ↔ c ∈ l.made ∨ u = .createCompletion ∧ c = b.completions.size := by
  cases u with
  | createCompletion =>
    rw [madeAfter, List.mem_append, List.mem_singleton]
    exact or_congr_right ⟨fun h => ⟨rfl, h⟩, And.right⟩
  | issue | release | beginFlush | endFlush | call | shutdown | clock | buffers | work =>
    exact (or_iff_left nofun).symm

/-- What becomes of the flag of a completion that a user has. -/
theorem Owned.released_next? (ho : l.Owned s.1) (hn : u.next? s = some t)
    (hfair : u.isFair l = true) (hc : c ∈ l.made) :
    (t.1.completion c).released = ((s.1.completion c).released || u.releases c) := by
  by_cases hspares : u.spares c = true
  · have hnot : u.releases c = false := by
      cases u with
      | release d => exact beq_eq_false_iff_ne.mpr (bne_iff_ne.mp hspares)
      | createCompletion | issue | beginFlush | endFlush | call | shutdown | clock | buffers
      | work => rfl
    rw [(u.released_of_spares hspares hn (ho.made c hc)).2, hnot, Bool.or_false]
  · -- Releases set the flag, and so do flushes that end, whose completions no user has.
    cases u with
    | release d =>
      obtain rfl : d = c := by simpa [Use.spares] using hspares
      cases hn
      rw [Use.releases, beq_self_eq_true, Bool.or_true]
      cases hr : (s.1.completion d).released with
      | true =>
        rw [InMemory.release, if_pos hr]
        exact hr
      | false => simp [InMemory.completion_release (ho.made d hc) hr]
    | endFlush d =>
      obtain rfl : d = c := by simpa [Use.spares] using hspares
      exact absurd hc (ho.flushing d (List.contains_iff_mem.mp hfair)).2.1
    | createCompletion | issue | beginFlush | call | shutdown | clock | buffers | work =>
      exact absurd rfl hspares

/-- Every fair use preserves it. -/
theorem Recalls.next? (hr : Recalls uses l s.1) (ho : l.Owned s.1) (hfair : u.isFair l = true)
    (hn : u.next? s = some t) : Recalls (uses ++ [u]) (l.after s u) t.1 := by
  have hany : ∀ p : Use → Bool, (uses ++ [u]).any p = (uses.any p || p u) := by simp
  constructor
  case shutdown => rw [u.isShutdown_eq hn, hr.shutdown, hany]
  case released =>
    intro c hc
    rw [hany]
    rcases mem_madeAfter.mp hc with hc | ⟨rfl, rfl⟩
    · rw [ho.released_next? hn hfair hc, hr.released c hc]
    · -- Nobody can have released a completion that is made now.
      have hnot : uses.any (·.releases s.1.completions.size) = false := by
        by_contra h
        exact Nat.lt_irrefl _ (ho.made _ (hr.made _ (eq_true_of_ne_false h)))
      cases hn
      rw [hnot, InMemory.completion_createCompletion,
        InMemory.completion_of_le (Nat.le_refl _)]
      rfl
  case made =>
    intro c hc
    rw [hany, Bool.or_eq_true] at hc
    refine mem_madeAfter.mpr (.inl ?_)
    rcases hc with hc | hc
    · exact hr.made c hc
    · cases u with
      | release d =>
        obtain rfl := eq_of_beq hc
        exact List.contains_iff_mem.mp hfair
      | createCompletion | issue | beginFlush | endFlush | call | shutdown | clock | buffers
      | work => cases hc

end Ledger

namespace Service

variable {config : InMemoryConfig} {l : Ledger} {s : InMemory × Shelf} {shelf : Shelf}
  {uses : List Use}

/-- **A backend recalls all its uses.** -/
theorem recalls (hu : Ledger.replay {} (.ofConfig config, shelf) uses = some (l, s)) :
    Ledger.Recalls uses l s.1 := by
  induction uses using List.reverseRecOn generalizing l s with
  | nil =>
    cases hu
    exact ⟨rfl, nofun, nofun⟩
  | append_singleton us u ih =>
    rw [Ledger.replay_concat] at hu
    obtain ⟨⟨l', s'⟩, hus, hu⟩ := Option.bind_eq_some_iff.mp hu
    split at hu
    · rename_i hfair
      obtain ⟨t, hn, hu⟩ := Option.map_eq_some_iff.mp hu
      cases hu
      exact (ih hus).next? ((start shelf).replay hus).1.owned hfair hn
    · cases hu

/-- Where only refusals are laid down, what is queued is what is not refused. -/
theorem isError_answer (hs : Service config l s) (hc : config.Refuses) {x : Issue}
    (hx : x ∈ l.issues) : x.answer.isError = !x.queued := by
  refine hs.invariant (P := fun l _ => ∀ x ∈ l.issues, x.answer.isError = !x.queued)
    (fun _ => nofun) ?_ x hx
  intro l s t u hs ih _ _ x hx
  rcases List.mem_append.mp hx with hx | hx
  · exact ih x hx
  · obtain ⟨⟨job, b⟩, hj, rfl⟩ := Option.map_eq_some_iff.mp (Option.mem_toList.mp hx)
    have hconfig := (u.config_of_handsOver? hj).trans hs.orderly.config
    exact InMemory.isError_submit (hconfig ▸ hc) job

/-- How often operations were accepted with a completion is how often it is that of a job taken. -/
theorem countP_accepts (hs : Service config l s) (hc : config.Refuses) (c : CompletionId) :
    l.issues.countP (·.accepts c) = (l.taken.map (·.completion)).count c := by
  rw [History.taken, List.map_map, List.count_eq_countP, List.countP_map, List.countP_filter]
  refine List.countP_congr fun x hx => ?_
  simp [Issue.accepts, hs.isError_answer hc hx]

/-- A completion is marked as issued when an operation was accepted with it. -/
theorem issued_eq (hs : Service config l s) (hc : config.Refuses) (c : CompletionId) :
    (s.1.completion c).issued = l.issues.any (·.accepts c) := by
  rw [Bool.eq_iff_iff, hs.orderly.pipeline.issued, ← List.count_pos_iff, ← hs.countP_accepts hc,
    List.countP_pos_iff, List.any_eq_true]

/-- **Which operations are accepted.** The answers that are laid down are refusals. After any uses
an operation with a completion that a user was given is refused if the backend was shut down, gets
the answer laid down for its object if there is one, is refused if there is no such pool, or if an
operation was accepted with the completion before or a user released it, and is accepted otherwise.
If it is accepted it goes to the end of the queue, its completion is marked as issued, and nothing
else changes. If it is refused the backend stays as it is, and so does the answer to any other
operation with the completion. No two operations were ever accepted with one completion. -/
theorem acceptance (hc : config.Refuses)
    (hu : Ledger.replay {} (.ofConfig config, shelf) uses = some (l, s)) :
    (∀ c ∈ l.made, ∀ pool oid command,
      (InMemory.issue pool oid c command s).1 =
        (if uses.any (·.shutsDown) then .notConnected
        else match config.issueFaults[oid]? with
          | some status => status
          | none =>
            if !s.1.store.hasPool pool then .noEntry
            else if l.issues.any (·.accepts c) || uses.any (·.releases c) then .invalid
            else 0) ∧
      ((InMemory.issue pool oid c command s).1 = 0 ∧
          s.1.Took { pool, oid, action := .command command, completion := c }
            (InMemory.issue pool oid c command s).2.1 ∨
        (InMemory.issue pool oid c command s).1.isError = true ∧
          (InMemory.issue pool oid c command s).2.1 = s.1 ∧
          ∀ pool' oid' command',
            (InMemory.issue pool' oid' c command' (InMemory.issue pool oid c command s).2).1 =
              (InMemory.issue pool' oid' c command' s).1)) ∧
    ∀ c, l.issues.countP (·.accepts c) ≤ 1 := by
  have hs := ((start shelf).replay hu).1
  have hr := recalls hu
  have hconfig := hs.orderly.config
  refine ⟨fun c hmade pool oid command => ?_, fun c => ?_⟩
  · obtain ⟨hanswer, hbackend⟩ := Prod.ext_iff.mp (InMemory.issue_eq_submit pool oid c command s)
    dsimp only at hanswer hbackend
    constructor
    · have hsubmit := s.1.answer_submit { pool, oid, action := .command command, completion := c }
      rw [hconfig, hr.shutdown, hs.issued_eq hc, hr.released c hmade] at hsubmit
      exact hanswer.trans hsubmit
    · cases ha : s.1.accepts ⟨pool, oid, .command command, c⟩ with
      | true =>
        refine .inl ⟨hanswer.trans ?_, hbackend ▸ InMemory.took_submit ha (hs.owned.made c hmade)⟩
        rw [InMemory.submit_of_accepts ha]
      | false =>
        rw [InMemory.submit_of_not_accepts ha] at hbackend
        refine .inr ⟨?_, hbackend, fun pool' oid' command' => ?_⟩
        · rw [hanswer, InMemory.isError_submit (hconfig ▸ hc), ha]
          rfl
        · change (InMemory.submit _ (InMemory.issue pool oid c command s).2.1).1 = _
          rw [hbackend]
          rfl
  · rw [hs.countP_accepts hc]
    exact List.nodup_iff_count_le_one.mp hs.orderly.pipeline.distinct c

end Service

/-! ## One service

Two operations are refused with a completion that a third one is accepted with, and another
completion is released before it is used. -/

namespace Sample

def strict : InMemoryConfig where
  pools := ["data"]
  issueFaults := (∅ : Std.ExtTreeMap String Status).insert "bad" .ioError

def attempts : List Use :=
  [.createCompletion, .createCompletion, .createCompletion, .issue 2 "foo" 0 (.edit .remove),
    .issue 1 "bad" 0 (.edit .remove), .issue 1 "foo" 0 (.edit (.append ⟨#[7]⟩)), .release 1]

theorem isSome_replay_attempts :
    (Ledger.replay {} (.ofConfig strict, {}) attempts).isSome = true := by
  decide +kernel

/-- The ledger and the state after these uses. -/
@[irreducible]
def attempted : Ledger × InMemory × Shelf :=
  (Ledger.replay {} (.ofConfig strict, {}) attempts).get isSome_replay_attempts

theorem replay_attempts : Ledger.replay {} (.ofConfig strict, {}) attempts = some attempted := by
  unfold attempted
  exact (Option.some_get isSome_replay_attempts).symm

theorem refuses_strict : strict.Refuses := by
  intro oid status h
  rw [strict, Std.ExtTreeMap.getElem?_insert] at h
  split at h
  · obtain rfl := Option.some.inj h
    rfl
  · simp at h

end Sample

/-- The first completion is used and the second one released; the third can be used, but not with
the object whose answer is laid down, or in a pool that is not there. -/
theorem Service.acceptance_after_refusals :
    Sample.strict.Refuses ∧
      Ledger.replay {} (.ofConfig Sample.strict, {}) Sample.attempts = some Sample.attempted ∧
      (∀ c ∈ [0, 1, 2], c ∈ Sample.attempted.1.made) ∧
      Sample.attempted.1.issues.map (·.answer) = [.noEntry, .ioError, 0] ∧
      (∀ c ∈ [0, 1], ∀ command,
        (InMemory.issue 1 "foo" c command Sample.attempted.2).1 = .invalid) ∧
      (∀ command, (InMemory.issue 1 "foo" 2 command Sample.attempted.2).1 = 0 ∧
        (InMemory.issue 1 "bad" 2 command Sample.attempted.2).1 = .ioError ∧
        (InMemory.issue 2 "foo" 2 command Sample.attempted.2).1 = .noEntry) ∧
      Sample.attempted.1.issues.countP (·.accepts 0) = 1 := by
  have hmade : ∀ c ∈ [0, 1, 2], c ∈ Sample.attempted.1.made := by decide +kernel
  have h := (acceptance Sample.refuses_strict Sample.replay_attempts).1
  have hused : ∀ c ∈ [0, 1], ∀ command,
      (InMemory.issue 1 "foo" c command Sample.attempted.2).1 = .invalid := by
    intro c hc command
    rw [(h c (hmade c (by revert c; decide)) 1 "foo" command).1]
    revert c
    decide +kernel
  refine ⟨Sample.refuses_strict, Sample.replay_attempts, hmade, by decide +kernel, hused, ?_,
    by decide +kernel⟩
  intro command
  rw [(h 2 (hmade 2 (by decide)) 1 "foo" command).1, (h 2 (hmade 2 (by decide)) 1 "bad" command).1,
    (h 2 (hmade 2 (by decide)) 2 "foo" command).1]
  decide +kernel

end Milepost
