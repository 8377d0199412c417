import Milepost.Proofs.Changes
import Milepost.Proofs.Happenings

/-!
# Sessions with the backend in memory

A session is whatever can happen to a backend: its users make calls in any order, with any
completions and any buffers, the worker makes its steps, the clock goes on. Its `Turn`s are the
accesses to the store, in the order in which the store is had: the calls that change it, and the
operations when the worker applies them.

* `Session.replay_eq`: the turns of a session, made on the reference one after the other, are
  answered in the same way there, and leave a reference that the store mirrors.
* `Run.session`: the backend and the buffers in a run of a system are in a session, whose turns
  have the results of what was applied in the run.
-/

namespace Milepost

/-- What may happen to a backend. -/
inductive Use
  | createCompletion
  | issue (pool : PoolId) (oid : String) (c : CompletionId) (command : Command)
  | release (c : CompletionId)
  | beginFlush (pool : PoolId)
  | endFlush (c : CompletionId)
  | call (k : StoreCall)
  | shutdown
  | clock (now : Int)
  /-- Those who have the buffers leave them like this. -/
  | buffers (shelf : Shelf)
  /-- The worker makes a step. -/
  | work

/-- One access to the store and its answer. -/
structure Turn where
  access : Access
  answer : Status
  /-- The completion that gets the answer, if the worker made the access. -/
  completion : Option CompletionId
deriving DecidableEq

/-- The access that the worker makes for a job. -/
def Job.access (j : Job) (shelf : Shelf) : Access :=
  match j.action with
  | .flush => .flush j.pool
  | .command (.edit e) => .edit j.key e
  | .command (.read buffer offset) => .read j.key offset (shelf.get buffer)

namespace Use

/-- The backend and the buffers after a use, if it can happen. -/
def next? (s : InMemory × Shelf) : Use → Option (InMemory × Shelf)
  | createCompletion => some (s.1.createCompletion.2, s.2)
  | issue pool oid c command => some (InMemory.issue pool oid c command s).2
  | release c => some (s.1.release c, s.2)
  | beginFlush pool => some ((s.1.beginFlush pool).2, s.2)
  | endFlush c => (s.1.endFlush? c).map fun (_, b) => (b, s.2)
  | call k => some ((k.run s.1).2, s.2)
  | shutdown => some (ObjectBackend.shutdown s.1, s.2)
  | clock now => some ({ s.1 with now }, s.2)
  | buffers shelf => some (s.1, shelf)
  | work => s.1.step? s.2

/-- The turn that a use has, if it has one. -/
def turn? (s : InMemory × Shelf) : Use → Option Turn
  | call k => some { access := .call k, answer := (k.run s.1).1, completion := none }
  | work =>
    (s.1.application? s.2).map fun a =>
      { access := a.job.access s.2, answer := a.result, completion := some a.job.completion }
  | _ => none

/-- What a list of uses makes of a backend, and the turns before and in it. -/
def replay (turns : List Turn) (s : InMemory × Shelf) :
    List Use → Option (List Turn × InMemory × Shelf)
  | [] => some (turns, s)
  | u :: us => (u.next? s).bind fun t => replay (turns ++ (u.turn? s).toList) t us

end Use

/-- The turns that there can have been, and the backend and the buffers after them. -/
inductive Session (config : InMemoryConfig) : List Turn → InMemory × Shelf → Prop
  | start (shelf : Shelf) : Session config [] (.ofConfig config, shelf)
  | use {turns : List Turn} {s t : InMemory × Shelf} (u : Use) :
    Session config turns s → u.next? s = some t → Session config (turns ++ (u.turn? s).toList) t

/-- The answers to accesses made one after the other, and the reference after them. -/
def Reference.replay (r : Reference) : List Access → List Int × Reference
  | [] => ([], r)
  | x :: xs => ((r.access x).1 :: (replay (r.access x).2 xs).1, (replay (r.access x).2 xs).2)

theorem Reference.replay_concat {r : Reference} {xs : List Access} {x : Access} :
    r.replay (xs ++ [x]) =
      ((r.replay xs).1 ++ [((r.replay xs).2.access x).1], ((r.replay xs).2.access x).2) := by
  induction xs generalizing r with
  | nil => rfl
  | cons y ys ih => simp only [List.cons_append, replay, ih]

/-! ## One use -/

namespace InMemory

variable {b b' : InMemory} {shelf shelf' : Shelf} {job : Job} {now : Int}

/-- What the worker does to the store is the access of its job. -/
theorem applyJob_eq_run (store : Store) :
    ((applyJob now job store shelf).1, (applyJob now job store shelf).2.1) =
      (job.access shelf).run now store := by
  unfold applyJob Job.access
  cases job.action with
  | flush => rfl
  | command c =>
    cases c with
    | edit e => rfl
    | read buffer offset =>
      rw [Access.run, Store.readAnswer]
      simp only [readInto]
      cases store.find job.key with
      | error status => rfl
      | ok o =>
        simp only [Shelf.update, SharedBuffer.modify, SharedBuffer.capacity, SharedBuffer.access]
        cases (shelf.get buffer).poisoned <;> rfl

theorem applyJob_of_step? {a : Application} (ha : b.application? shelf = some a)
    (hs : b.step? shelf = some (b', shelf')) :
    applyJob b.now a.job b.store shelf = (a.result, b'.store, shelf') := by
  unfold application? at ha
  unfold step? at hs
  split at ha
  · rename_i job rest hw hq
    simp only [hw, hq, Option.some.injEq] at hs
    cases hs
    cases ha
    rfl
  · cases ha

/-- The result of a job and the store after it are those of its access. -/
theorem run_of_step? {a : Application} (ha : b.application? shelf = some a)
    (hs : b.step? shelf = some (b', shelf')) :
    (a.job.access shelf).run b.now b.store = (a.result, b'.store) := by
  rw [← applyJob_eq_run, applyJob_of_step? ha hs]

/-- What the worker applies is the oldest job. -/
theorem queue_of_application? {a : Application} (ha : b.application? shelf = some a) :
    ∃ rest, b.queue = a.job :: rest := by
  unfold application? at ha
  split at ha
  · rename_i job rest hw hq
    cases ha
    exact ⟨rest, hq⟩
  · cases ha

/-- A call does to the store what is said of it there. -/
theorem run_eq_onStore (k : StoreCall) (b : InMemory) :
    ((k.run b).1, (k.run b).2.store) = k.onStore b.now b.store := by
  cases k <;> rfl

end InMemory

namespace Use

variable {u : Use} {s t : InMemory × Shelf} {x : Turn}

/-- A use that has no turn leaves the store. -/
theorem store_eq (hn : u.next? s = some t) (hx : u.turn? s = none) : t.1.store = s.1.store := by
  cases u with
  | createCompletion | shutdown | clock | buffers =>
    cases hn
    rfl
  | issue | beginFlush =>
    cases hn
    exact InMemory.store_submit
  | release c =>
    cases hn
    change (s.1.release c).store = _
    unfold InMemory.release
    split <;> rfl
  | endFlush c =>
    obtain ⟨⟨status, b⟩, hb, rfl⟩ := Option.map_eq_some_iff.mp hn
    obtain ⟨_, -, hb⟩ := Option.map_eq_some_iff.mp hb
    cases hb
    rfl
  | call k => cases hx
  | work =>
    obtain ⟨b, shelf⟩ := s
    have hnone := Option.map_eq_none_iff.mp hx
    simp only [next?, InMemory.step?] at hn
    cases hw : b.worker with
    | idle =>
      cases hq : b.queue with
      | nil => simp [hw, hq] at hn
      | cons job rest => simp [InMemory.application?, hw, hq] at hnone
    | applied job status | halfway job status =>
      simp only [hw, Option.some.injEq] at hn
      cases hn
      rfl

/-- A use that has a turn makes the access of it. -/
theorem run_eq (hn : u.next? s = some t) (hx : u.turn? s = some x) :
    (x.answer, t.1.store) = x.access.run s.1.now s.1.store := by
  cases u with
  | call k =>
    cases hn
    cases hx
    exact InMemory.run_eq_onStore k s.1
  | work =>
    obtain ⟨a, ha, rfl⟩ := Option.map_eq_some_iff.mp hx
    exact (InMemory.run_of_step? ha hn).symm
  | createCompletion | issue | release | beginFlush | endFlush | shutdown | clock | buffers =>
    cases hx

/-- A use leaves the store, or makes its call, or has the worker apply the oldest job. -/
theorem store_cases (hn : u.next? s = some t) :
    t.1.store = s.1.store ∨
      (∃ k, u = .call k ∧ t.1.store = ((Access.call k).run s.1.now s.1.store).2) ∨
      u = .work ∧ ∃ job rest, s.1.queue = job :: rest ∧
        t.1.store = ((job.access s.2).run s.1.now s.1.store).2 := by
  cases hx : u.turn? s with
  | none => exact .inl (u.store_eq hn hx)
  | some x =>
    have hstore := (Prod.mk.inj (u.run_eq hn hx)).2
    cases u with
    | call k =>
      cases hx
      exact .inr (.inl ⟨k, rfl, hstore⟩)
    | work =>
      obtain ⟨a, ha, rfl⟩ := Option.map_eq_some_iff.mp hx
      obtain ⟨rest, hq⟩ := InMemory.queue_of_application? ha
      exact .inr (.inr ⟨rfl, a.job, rest, hq, hstore⟩)
    | createCompletion | issue | release | beginFlush | endFlush | shutdown | clock | buffers =>
      cases hx

/-- Only the worker fires milestones. -/
theorem sameProgress (hn : u.next? s = some t) (hu : u ≠ .work) : s.1.SameProgress t.1 := by
  cases u with
  | createCompletion =>
    cases hn
    exact .createCompletion s.1
  | issue =>
    cases hn
    exact .submit _ s.1
  | release c =>
    cases hn
    exact .release c s.1
  | beginFlush =>
    cases hn
    have hnew : s.1.SameProgress s.1.newCompletion.2 :=
      ⟨rfl, (InMemory.SameProgress.createCompletion s.1).fired,
        (InMemory.SameProgress.createCompletion s.1).returnValue⟩
    exact hnew.trans (.submit _ s.1.newCompletion.2)
  | endFlush c =>
    obtain ⟨⟨status, b⟩, hb, rfl⟩ := Option.map_eq_some_iff.mp hn
    obtain ⟨_, -, hb⟩ := Option.map_eq_some_iff.mp hb
    cases hb
    exact .onCompletion c fun _ => ⟨rfl, rfl⟩
  | call k =>
    cases hn
    exact (InMemory.SameJobs.call k s.1).toSameProgress
  | shutdown | clock | buffers =>
    cases hn
    exact ⟨rfl, fun _ => rfl, fun _ => rfl⟩
  | work => exact absurd rfl hu

/-! ### What outlives every access -/

variable {P : List Turn → Store → Prop} {turns : List Turn}

theorem next?_preserved (hn : u.next? s = some t) (h : P turns s.1.store)
    (hstep : ∀ {turns store now x}, P turns store → x.answer = (x.access.run now store).1 →
      P (turns ++ [x]) (x.access.run now store).2) :
    P (turns ++ (u.turn? s).toList) t.1.store := by
  cases hx : u.turn? s with
  | none =>
    rw [Option.toList_none, List.append_nil, u.store_eq hn hx]
    exact h
  | some x =>
    obtain ⟨hanswer, hstore⟩ := Prod.mk.inj (u.run_eq hn hx)
    rw [hstore]
    exact hstep h hanswer

/-- What outlives every access outlives every list of uses. -/
theorem replay_preserved {uses : List Use} {turns' : List Turn}
    (hu : replay turns s uses = some (turns', t)) (h : P turns s.1.store)
    (hstep : ∀ {turns store now x}, P turns store → x.answer = (x.access.run now store).1 →
      P (turns ++ [x]) (x.access.run now store).2) : P turns' t.1.store := by
  induction uses generalizing turns s with
  | nil => cases hu; exact h
  | cons u us ih =>
    obtain ⟨s', hn, hu⟩ := Option.bind_eq_some_iff.mp hu
    exact ih hu (u.next?_preserved hn h hstep)

end Use

/-! ## What completions return -/

/-- What the worker is at and what it fired has the answer of a turn. -/
structure Turn.Answers (turns : List Turn) (b : InMemory) : Prop where
  current : ∀ job status, b.worker.current? = some (job, status) →
    ∃ x ∈ turns, x.completion = some job.completion ∧ x.answer = status
  returned : ∀ c m, (b.completion c).fired.get m ≠ none →
    ∃ x ∈ turns, x.completion = some c ∧ x.answer = (b.completion c).returnValue

namespace Turn.Answers

variable {turns : List Turn} {b b' : InMemory} {shelf shelf' : Shelf} {job : Job}
  {status : Status} {s t : InMemory × Shelf} {u : Use}

theorem mono (ha : Answers turns b) (more : List Turn) : Answers (turns ++ more) b where
  current job status hj := by
    obtain ⟨x, hx, h⟩ := ha.current job status hj
    exact ⟨x, List.mem_append_left _ hx, h⟩
  returned c m hf := by
    obtain ⟨x, hx, h⟩ := ha.returned c m hf
    exact ⟨x, List.mem_append_left _ hx, h⟩

theorem sameProgress (ha : Answers turns b) (hs : b.SameProgress b') : Answers turns b' where
  current := by rw [hs.worker]; exact ha.current
  returned c m := by rw [hs.fired, hs.returnValue]; exact ha.returned c m

/-- A milestone is fired with the answer of the turn that the worker is at. -/
theorem fire (ha : Answers turns b) (hw : b.worker.current? = some (job, status)) {m : Milestone}
    {worker : Worker} (hcurrent : ∀ p, worker.current? = some p → p = (job, status)) :
    Answers turns { b.fire job m status with worker } where
  current job' status' hj := by
    cases hcurrent _ hj
    exact ha.current job status hw
  returned c n hf := by
    change ((b.fire job m status).completion c).fired.get n ≠ none at hf
    change ∃ x ∈ turns, _ ∧ x.answer = ((b.fire job m status).completion c).returnValue
    by_cases hc : job.completion = c
    · subst hc
      rcases Nat.lt_or_ge job.completion b.completions.size with hlt | hge
      · rw [InMemory.completion_fire_self hlt]
        exact ha.current job status hw
      · rw [InMemory.completion_of_le (by simpa [InMemory.fire, InMemory.onCompletion] using hge)]
          at hf
        exact absurd (PerMilestone.get_const ..) hf
    · rw [InMemory.completion_fire_of_ne hc] at hf ⊢
      exact ha.returned c n hf

theorem work (ha : Answers turns b) (hs : b.step? shelf = some (b', shelf')) :
    Answers (turns ++ (Use.turn? (b, shelf) .work).toList) b' := by
  unfold InMemory.step? at hs
  cases hw : b.worker with
  | idle =>
    cases hq : b.queue with
    | nil => simp [hw, hq] at hs
    | cons job rest =>
      simp only [hw, hq, Option.some.injEq] at hs
      cases hs
      refine ⟨fun job' status hj => ?_, (ha.mono _).returned⟩
      cases hj
      rw [Use.turn?, InMemory.application?, hw, hq]
      exact ⟨_, List.mem_append_right _ List.mem_cons_self, rfl, rfl⟩
  | applied job status =>
    simp only [hw, Option.some.injEq] at hs
    cases hs
    refine mono (ha.fire (by rw [hw]; rfl) ?_) _
    exact fun p hp => (Option.some.inj hp).symm
  | halfway job status =>
    simp only [hw, Option.some.injEq] at hs
    cases hs
    refine mono (ha.fire (by rw [hw]; rfl) ?_) _
    exact nofun

end Turn.Answers

namespace Session

variable {config : InMemoryConfig} {turns : List Turn} {s : InMemory × Shelf}

/-- Uses that can happen lead from one state of a session to another. -/
theorem replay (hs : Session config turns s) {uses : List Use}
    {t : List Turn × InMemory × Shelf} (hu : Use.replay turns s uses = some t) :
    Session config t.1 t.2 := by
  induction uses generalizing turns s with
  | nil => cases hu; exact hs
  | cons u us ih =>
    obtain ⟨t', hn, hu⟩ := Option.bind_eq_some_iff.mp hu
    exact ih (hs.use u hn) hu

/-- Uses of a fresh backend that can happen make a session. -/
theorem replay_get {uses : List Use} {shelf : Shelf}
    (hu : (Use.replay [] (.ofConfig config, shelf) uses).isSome = true) :
    Session config ((Use.replay [] (.ofConfig config, shelf) uses).get hu).1
      ((Use.replay [] (.ofConfig config, shelf) uses).get hu).2 :=
  (start shelf).replay (Option.some_get hu).symm

/-- What holds of the store at the start and outlives every access holds in every session. -/
theorem preserved (hs : Session config turns s) {P : List Turn → Store → Prop}
    (h0 : P [] (.ofPools config.pools))
    (hstep : ∀ {turns store now x}, P turns store → x.answer = (x.access.run now store).1 →
      P (turns ++ [x]) (x.access.run now store).2) : P turns s.1.store := by
  induction hs with
  | start shelf => exact h0
  | use u _ hn ih => exact u.next?_preserved hn ih hstep

theorem answers (hs : Session config turns s) : Turn.Answers turns s.1 := by
  induction hs with
  | start shelf =>
    refine ⟨nofun, fun c m hf => absurd ?_ hf⟩
    simp [InMemory.completion, InMemory.ofConfig]
  | @use turns s t u _ hn ih =>
    by_cases hu : u = .work
    · subst hu
      exact ih.work hn
    · exact (ih.mono _).sameProgress (u.sameProgress hn hu)

/-- The reference after the turns of a session. -/
def reference (config : InMemoryConfig) (turns : List Turn) : List Int × Reference :=
  (Reference.ofPools config.pools).replay (turns.map (·.access))

/-- **A session is answered as the reference answers it.** If the data written fits and nobody
spoils a buffer that is read into, the accesses of a session have the answers that they have on
the reference, one after the other; the store has the pools and the objects of the reference after
them; and a milestone that is fired comes with the answer of a turn of its completion. -/
theorem replay_eq (hs : Session config turns s) (hregular : ∀ x ∈ turns, x.access.IsRegular) :
    turns.map (·.answer.toInt) = (reference config turns).1 ∧
    s.1.store.Mirrors (reference config turns).2 ∧
    ∀ c m, (s.1.completion c).fired.get m ≠ none →
      ∃ x ∈ turns, x.completion = some c ∧ x.answer = (s.1.completion c).returnValue := by
  -- The sizes of the objects go along: they have to fit for a read to report them.
  suffices h : turns.map (·.answer.toInt) = (reference config turns).1 ∧
      s.1.store.Mirrors (reference config turns).2 ∧ s.1.store.Fits from
    ⟨h.1, h.2.1, hs.answers.returned⟩
  induction hs with
  | start shelf => exact ⟨rfl, .ofPools config.pools, .ofPools config.pools⟩
  | @use turns s t u _ hn ih =>
    obtain ⟨hanswers, hmirrors, hfits⟩ := ih fun x hx => hregular x (List.mem_append_left _ hx)
    cases hx : u.turn? s with
    | none =>
      rw [Option.toList_none, List.append_nil, u.store_eq hn hx]
      exact ⟨hanswers, hmirrors, hfits⟩
    | some x =>
      have hrun := u.run_eq hn hx
      have hreg : x.access.IsRegular := hregular x <| by
        rw [hx]
        exact List.mem_append_right _ List.mem_cons_self
      have hagrees := hmirrors.access s.1.now hfits hreg
      have hfits' := hfits.access s.1.now hreg
      rw [← hrun] at hagrees hfits'
      rw [reference, Option.toList_some, List.map_append, List.map_append, List.map_singleton,
        List.map_singleton, Reference.replay_concat, hanswers, hagrees.answer]
      exact ⟨rfl, hagrees.mirrors, hfits'⟩

end Session

/-! ## Runs of systems -/

/-- The completion that got the answer of a turn, and the answer. -/
def Turn.result? (x : Turn) : Option (CompletionId × Status) := x.completion.map (·, x.answer)

namespace Session

variable {config : InMemoryConfig} {turns : List Turn} {s : InMemory × Shelf}

/-- A use without a turn adds none. -/
theorem quiet (hs : Session config turns s) {t : InMemory × Shelf} (u : Use)
    (hn : u.next? s = some t) (hx : u.turn? s = none) : Session config turns t := by
  have ht := hs.use u hn
  rwa [hx, Option.toList_none, List.append_nil] at ht

theorem buffers (hs : Session config turns s) (shelf : Shelf) :
    Session config turns (s.1, shelf) :=
  hs.quiet (.buffers shelf) rfl rfl

/-- Whatever a flight does is made of uses without turns. -/
theorem deed {f g : Flight} {w w' : World InMemory}
    (hs : Session config turns (w.backend, w.shelf)) (hd : f.Deed w g w') :
    Session config turns (w'.backend, w'.shelf) := by
  cases hd with
  | quiet hb | ignore hb | refuse hb =>
    rw [hb]
    exact hs.buffers _
  | make _ hb =>
    rw [hb]
    exact (hs.quiet .createCompletion rfl rfl).buffers _
  | @take c job hb _ _ _ hc =>
    obtain ⟨command, -, rfl⟩ := Option.map_eq_some_iff.mp hc
    rw [hb]
    exact (hs.quiet (.issue f.task.pool f.task.request.oid c command) rfl rfl).buffers _
  | @release c hb =>
    rw [hb]
    exact (hs.quiet (.release c) rfl rfl).buffers _

end Session

namespace Run

/-- **The backend of a run is in a session.** -/
theorem session {config : InMemoryConfig} {accounts : Nat} {h : History} {s : System InMemory}
    (hr : Run config accounts h s) :
    ∃ turns, Session config turns (s.world.backend, s.world.shelf) ∧
      turns.filterMap Turn.result? = h.applications.map fun a => (a.job.completion, a.result) := by
  refine hr.preserved (P := fun h s =>
    ∃ turns, Session config turns (s.world.backend, s.world.shelf) ∧
      turns.filterMap Turn.result? = h.applications.map fun a => (a.job.completion, a.result))
    ⟨[], .start _, rfl⟩ ?_
  rintro h s t e - ⟨turns, hs, hresults⟩ hh
  cases hh with
  | submit o r =>
    rw [History.after_of_not_isOwn rfl]
    exact ⟨turns, hs, hresults⟩
  | issuer hf hk hm =>
    rw [History.after_issuer hf]
    exact ⟨turns, hs.deed (hm.deed hk), hresults⟩
  | waiter hf hk hm =>
    rw [History.after_waiter]
    exact ⟨turns, hs.deed (hm.deed hk), hresults⟩
  | work hstep =>
    refine ⟨_, hs.use .work hstep, ?_⟩
    rw [History.after_work, List.filterMap_append, List.map_append, hresults, Use.turn?]
    cases s.world.backend.application? s.world.shelf <;> rfl
  | call k =>
    refine ⟨_, hs.use (.call k) rfl, ?_⟩
    rw [History.after_of_not_isOwn rfl, List.filterMap_append, hresults]
    exact List.append_nil _
  | shutdown =>
    rw [History.after_of_not_isOwn rfl]
    exact ⟨turns, hs.quiet .shutdown rfl rfl, hresults⟩
  | clock now =>
    rw [History.after_of_not_isOwn rfl]
    exact ⟨turns, hs.quiet (.clock now) rfl rfl, hresults⟩

end Run

/-! ## One session

An object is written and read, and a write that would reach too far is refused. -/

namespace Sample

def uses : List Use :=
  [.call (.createPool "more"),
    .createCompletion, .issue 1 "object" 0 (.edit (.write ⟨#[7]⟩ 2)), .work, .work, .work,
    .createCompletion, .issue 1 "object" 1 (.edit (.write ⟨#[7]⟩ 0xffffffffffffffff)),
    .work, .work, .work,
    .createCompletion, .buffers ⟨#[{ content := ⟨Bytes.zeros 8⟩ }]⟩,
    .issue 1 "object" 2 (.read 0 1), .work, .call (.deletePool "data")]

theorem isSome_replay_uses : (Use.replay [] (.ofConfig config, {}) uses).isSome = true := by
  decide +kernel

/-- The turns and the state after these uses. -/
@[irreducible]
def session : List Turn × InMemory × Shelf :=
  (Use.replay [] (.ofConfig config, {}) uses).get isSome_replay_uses

theorem isSession : Session config session.1 session.2 := by
  unfold session
  exact Session.replay_get isSome_replay_uses

end Sample

namespace Session

theorem replay_eq_write_and_read :
    Session Sample.config Sample.session.1 Sample.session.2 ∧
      (∀ x ∈ Sample.session.1, x.access.IsRegular) ∧
      (reference Sample.config Sample.session.1).1 = [0, 0, -27, 2, 0] := by
  have hregular : ∀ x ∈ Sample.session.1, x.access.IsRegular := by decide +kernel
  have hanswers : Sample.session.1.map (·.answer.toInt) = [0, 0, -27, 2, 0] := by decide +kernel
  exact ⟨Sample.isSession, hregular, (replay_eq Sample.isSession hregular).1.symm.trans hanswers⟩

end Session

end Milepost
