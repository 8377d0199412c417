import Milepost.Proofs.Reading
import Milepost.Proofs.Sharing.Beside

/-!
# Buffers that a task has failed on

A task that fails while it changes a shared buffer spoils it: from then on nobody is told anything
about its content, nobody changes it, and no task is run on it. A read into such a buffer is an
operation like any other. It is answered that the object is not there, if that is so, and otherwise
that the bytes could not be copied; its milestones are fired, and nothing else comes of it.

* `Sharing.Spoiled.replay`: a spoiled buffer stays as it is.
* `Sharing.Replies`: what a read into a spoiled buffer is answered.
* `Sharing.shared_until_spoiled`: what those who share a buffer can rely on.
-/

namespace Milepost

namespace Sharing

variable {α : Type} {config : InMemoryConfig} {s t : Sharing} {e : SharingEvent α}
  {es : List (SharingEvent α)} {i : BufferId} {b : Buffer} {h : HoldId} {p : BufferPast}
  {job : Job}

/-! ## Spoiled for good -/

/-- A task failed on the buffer, and this is what it left. -/
def Spoiled (s : Sharing) (i : BufferId) (b : Buffer) : Prop :=
  ∃ p, s.pasts[i]? = some p ∧ p.outcome = (b, true)

theorem spoiled_iff :
    s.Spoiled i b ↔ s.pasts[i]?.map BufferPast.outcome = some (b, true) :=
  Option.map_eq_some_iff.symm

/-- Nothing that is done to a spoiled buffer, or to another one, matters to it. -/
theorem Spoiled.pastsWith {o : Option (BufferId × BufferUpdate)} (hs : s.Spoiled i b)
    (ht : t.pasts = s.pastsWith o) : t.Spoiled i b := by
  obtain ⟨p, hp, hb⟩ := hs
  cases o with
  | none => exact ⟨p, by rw [ht]; exact hp, hb⟩
  | some x =>
    obtain ⟨j, f⟩ := x
    by_cases hj : j = i
    · subst hj
      refine ⟨p.add f, by rw [ht, getElem?_pastsWith_self hp], ?_⟩
      rw [BufferPast.outcome_add_of_isSpoiled (congrArg Prod.snd hb), hb]
    · refine ⟨p, ?_, hb⟩
      rw [ht, getElem?_pastsWith_of_ne (by rintro x ⟨⟩; exact hj), hp]

theorem Spoiled.next? (hs : s.Spoiled i b) (hn : s.next? e = some t) : t.Spoiled i b := by
  obtain ⟨u, -, -, -, -, -, hpasts⟩ := of_next? hn
  cases e with
  | share b' =>
    obtain ⟨p, hp, hb⟩ := hs
    refine ⟨p, ?_, hb⟩
    rw [hpasts, SharingEvent.pastsAfter,
      List.getElem?_append_left (List.getElem?_eq_some_iff.mp hp).1, hp]
  | call => exact hs.pastsWith hpasts
  | read => exact hs.pastsWith (o := none) hpasts
  | use => exact hs.pastsWith hpasts

/-- **A spoiled buffer stays as it is.** -/
theorem Spoiled.replay (hs : s.Spoiled i b) (hn : s.replay es = some t) : t.Spoiled i b := by
  induction es generalizing s with
  | nil =>
    cases hn
    exact hs
  | cons e es ih =>
    obtain ⟨s', hs', hn⟩ := Option.bind_eq_some_iff.mp hn
    exact ih (hs.next? hs') hn

theorem Spoiled.get (hs : s.Spoiled i b) (hk : s.Kept) (hpos : 0 < (s.shelf.get i).holders) :
    (s.shelf.get i).content = b ∧ (s.shelf.get i).poisoned = true := by
  obtain ⟨p, hp, hb⟩ := hs
  exact Prod.mk.inj ((hk.fits hp hpos).trans hb)

/-- A task that fails spoils the buffer. -/
theorem spoiled_of_raised {f : Buffer → Buffer × Ending α} (hk : s.Kept)
    (hb : s.buffer? h = some i)
    (hr : ((HoldCall.update f).run i s.shelf).1 = .ended (.ok .raised))
    (hn : s.next? (.call h (.update f)) = some t) :
    t.Spoiled i (f (s.shelf.get i).content).1 := by
  obtain ⟨p, hp, hfits⟩ := hk.exists_past (hk.holders_pos hb)
  rw [HoldCall.run_fst hfits, HoldCall.answer, BufferPast.guarded] at hr
  obtain ⟨u, -, -, -, -, -, hpasts⟩ := of_next? hn
  rw [SharingEvent.pastsAfter, hb] at hpasts
  split at hr
  · cases hr
  · rename_i hgood
    have hend : (f p.content).2 = .raised := by
      injection hr with hr
      injection hr
    refine ⟨_, (congrArg (·[i]?) hpasts).trans (getElem?_pastsWith_self hp), ?_⟩
    rw [BufferPast.outcome_add, if_neg hgood, hfits.content, hend]
    rfl

end Sharing

/-- With this failure everything is refused that is asked of the buffer. Nothing is changed, and no
task is run. -/
structure Shelf.Refuses (s : Shelf) (i : BufferId) (α : Type) (e : Failure) : Prop where
  capacity : (HoldCall.capacity : HoldCall α).run i s = (.size (.error e), s)
  materialize : ∀ n, (HoldCall.materialize n : HoldCall α).run i s = (.bytes (.error e), s)
  update : ∀ f : Buffer → Buffer × Ending α,
    (HoldCall.update f).run i s = (.ended (.error e), s)

theorem Shelf.modify_get {s : Shelf} {i : BufferId} (h : i < s.cells.size) :
    s.modify i (fun _ => s.get i) = s := by
  have hget : s.get i = s.cells[i] := by rw [get, Array.getElem?_eq_getElem h, Option.getD_some]
  refine congrArg Shelf.mk (Array.ext (by simp) fun j hj hj' => ?_)
  rw [Array.getElem_modify]
  split
  · rename_i hij
    subst hij
    exact hget
  · rfl

theorem Shelf.refuses {s : Shelf} {i : BufferId} (h : i < s.cells.size)
    (hp : (s.get i).poisoned = true) (α : Type) : s.Refuses i α SharedBuffer.refusal where
  capacity := by rw [HoldCall.run, SharedBuffer.capacity, SharedBuffer.access_of_poisoned hp]
  materialize n := by
    rw [HoldCall.run, SharedBuffer.materialize, SharedBuffer.access_of_poisoned hp]
  update f := by
    rw [HoldCall.run, Shelf.update, SharedBuffer.update_of_poisoned hp]
    exact congrArg (Prod.mk _) (modify_get h)

/-! ## Reads into spoiled buffers -/

/-- What a read into a spoiled buffer is answered: first of all the object must be there. -/
def Store.spoiledResult (s : Store) (key : ObjectKey) : Status :=
  if (s.find key).isOk then .ioError else .noEntry

theorem InMemory.applyJob_spoiled {job : Job} {store : Store} {shelf : Shelf} {i : BufferId}
    (now : Int) (hj : job.buffer? = some i) (hp : (shelf.get i).poisoned = true) :
    (applyJob now job store shelf).1 = store.spoiledResult job.key := by
  obtain ⟨offset, ha⟩ := Job.action_of_buffer? hj
  rw [applyJob_read_fst ha, hp, Store.spoiledResult]
  cases hf : store.find job.key with
  | error status => exact Store.find_error hf
  | ok o => rfl

namespace Sharing

variable {α : Type} {config : InMemoryConfig} {s t : Sharing} {e : SharingEvent α}
  {es : List (SharingEvent α)} {i : BufferId} {b : Buffer} {h : HoldId} {job : Job}

/-- The read is in the queue, or it was applied with the answer of one into a spoiled buffer. -/
def Replies (s : Sharing) (job : Job) : Prop :=
  job ∈ s.backend.queue ∨
    ∃ a ∈ s.ledger.applications, a.job = job ∧ a.result = a.found.spoiledResult job.key

/-- A spoiled buffer that a queued read is to fill is still held by it. -/
theorem Spoiled.poisoned_of_mem (hspoiled : s.Spoiled i b) (hs : Sound config s)
    (hj : job.buffer? = some i) (hq : job ∈ s.backend.queue) :
    (s.shelf.get i).poisoned = true :=
  (hspoiled.get hs.kept (hs.kept.holders_pos_of_mem hq hj)).2

/-- When the worker applies the read, it gets that answer. -/
theorem Replies.work {x : InMemory × Shelf} (hr : s.Replies job) (hs : Sound config s)
    (hspoiled : s.Spoiled i b) (hj : job.buffer? = some i)
    (hx : s.backend.step? s.shelf = some x) : (s.worked x).Replies job := by
  rcases hr with hq | ⟨a, ha, hr⟩
  · have hp := hspoiled.poisoned_of_mem hs hj hq
    unfold InMemory.step? at hx
    cases hw : s.backend.worker with
    | applied j status | halfway j status =>
      simp only [hw, Option.some.injEq] at hx
      subst hx
      exact .inl hq
    | idle =>
      cases hqueue : s.backend.queue with
      | nil => simp [hw, hqueue] at hx
      | cons j rest =>
        simp only [hw, hqueue, Option.some.injEq] at hx
        subst hx
        rw [hqueue, List.mem_cons] at hq
        rcases hq with rfl | hq
        · refine .inr ⟨⟨job, s.backend.store, s.backend.store.spoiledResult job.key⟩, ?_, rfl, rfl⟩
          refine List.mem_append_right _ ?_
          rw [Use.application?, InMemory.application?, hw, hqueue, Option.mem_toList,
            ← InMemory.applyJob_spoiled s.backend.now hj hp]
        · exact .inl hq
  · exact .inr ⟨a, List.mem_append_left _ ha, hr⟩

theorem Replies.next? (hr : s.Replies job) (hs : Sound config s) (hspoiled : s.Spoiled i b)
    (hj : job.buffer? = some i) (hn : s.next? e = some t) : t.Replies job := by
  obtain ⟨u, hu, -, hx, -, hledger, -⟩ := of_next? hn
  by_cases hw : u = .work
  · subst hw
    have hwork := hr.work hs hspoiled hj hx
    rcases hwork with hq | ⟨a, ha, hr⟩
    · exact .inl hq
    · exact .inr ⟨a, hledger ▸ ha, hr⟩
  · rcases hr with hq | ⟨a, ha, hr⟩
    · refine .inl ?_
      have hqueue := u.queue_eq_adds hw hx
      rw [hqueue]
      exact List.mem_append_left _ hq
    · refine .inr ⟨a, ?_, hr⟩
      rw [hledger]
      exact List.mem_append_left _ ha

/-- **A read into a spoiled buffer keeps to its answer**, whatever else is done. -/
theorem Replies.replay (hr : s.Replies job) (hs : Sound config s) (hspoiled : s.Spoiled i b)
    (hj : job.buffer? = some i) (hn : s.replay es = some t) : t.Replies job := by
  induction es generalizing s with
  | nil =>
    cases hn
    exact hr
  | cons e es ih =>
    obtain ⟨s', hs', hn⟩ := Option.bind_eq_some_iff.mp hn
    exact ih (hr.next? hs hspoiled hj hs') (hs.next? hs').1 (hspoiled.next? hs') hn

/-- When a milestone of the read is fired, it returns that answer. -/
theorem Replies.fired {m : Milestone} {status : Status} (hr : s.Replies job)
    (hs : Sound config s) (hmem : job ∈ s.ledger.taken)
    (hf : (s.backend.completion job.completion).fired.get m = some status) :
    status = config.milestoneStatus job.oid m ∧
      ∃ a ∈ s.ledger.applications, a.job = job ∧
        (s.backend.completion job.completion).returnValue = a.found.spoiledResult job.key := by
  have ho := hs.service.orderly
  have hp := ho.pipeline
  obtain ⟨a, ha, hc, hstatus, hvalue⟩ := hp.of_fired hf
  obtain rfl := hp.job_ext (hp.mem_taken ha) hmem hc
  rw [InMemory.milestoneStatus, ho.config] at hstatus
  refine ⟨hstatus, ?_⟩
  rcases hr with hq | ⟨a', ha', hjob, hresult⟩
  · exact absurd (hf.symm.trans (hp.fired_of_mem_queue hq m)) (Option.some_ne_none status)
  · obtain rfl := hp.application_ext ha' ha (congrArg Job.completion hjob)
    exact ⟨a', ha', rfl, hvalue.trans hresult⟩

/-- What the worker does alone happens to a sharing. -/
theorem replay_work {n : Nat} {l : Ledger} {x : InMemory × Shelf}
    (hn : s.ledger.replay (s.backend, s.shelf) (.replicate n .work) = some (l, x)) :
    ∃ t, s.replay (.replicate n (.use .work : SharingEvent α)) = some t ∧ t.ledger = l ∧
      (t.backend, t.shelf) = x := by
  induction n generalizing s with
  | zero =>
    cases hn
    exact ⟨s, rfl, rfl, rfl⟩
  | succ n ih =>
    rw [List.replicate_succ, Ledger.replay, if_pos (show Use.isFair s.ledger .work = true from rfl)]
      at hn
    obtain ⟨y, hy, hn⟩ := Option.bind_eq_some_iff.mp hn
    obtain ⟨t, ht, hrest⟩ := ih (s := s.worked y) hn
    refine ⟨t, ?_, hrest⟩
    rw [List.replicate_succ, replay, next?_work hy, Option.bind_some, ht]

/-- The worker gets to the read, and fires both its milestones. -/
theorem Sound.exists_done (hs : Sound config s) (hmem : job ∈ s.ledger.taken) :
    ∃ n t, s.replay (.replicate n (.use .work : SharingEvent α)) = some t ∧ ∀ m,
      (t.backend.completion job.completion).fired.get m =
        some (config.milestoneStatus job.oid m) := by
  obtain ⟨l, x, hn, hw, hq⟩ := s.ledger.exists_rest (s.backend, s.shelf)
  obtain ⟨t, ht, rfl, rfl⟩ := replay_work (α := α) hn
  obtain ⟨hsound, hextends⟩ := hs.replay ht
  exact ⟨_, t, ht, fun m => (hsound.service.done_at_rest hw hq (hextends.taken.subset hmem) m).1⟩

/-- The steps of the worker for the read leave the store and all other buffers. -/
theorem onlyTouches_of_due {x : InMemory × Shelf} (hj : job.buffer? = some i)
    (hdue : s.backend.due? = some job) (hx : s.backend.step? s.shelf = some x) :
    s.backend.OnlyTouches job.completion x.1 ∧ ∀ j, j ≠ i → x.2.get j = s.shelf.get j := by
  obtain ⟨offset, ha⟩ := Job.action_of_buffer? hj
  refine ⟨.step_of_store hdue (by rw [InMemory.applyJob, ha]) hx, fun j hne => ?_⟩
  unfold InMemory.due? at hdue
  unfold InMemory.step? at hx
  cases hw : s.backend.worker with
  | applied | halfway =>
    simp only [hw, Option.some.injEq] at hx
    subst hx
    rfl
  | idle =>
    cases hq : s.backend.queue with
    | nil => simp [hw, hq] at hx
    | cons first rest =>
      simp only [hw, hq, List.head?_cons, Option.some.injEq] at hx hdue
      subst hx hdue
      exact InMemory.get_applyJob_of_ne (by rw [hj]; exact fun h => hne (Option.some.inj h).symm)

end Sharing

/-! ## Without the read -/

/-- What is issued with a completion is issued by the user who has it. -/
theorem Service.made_of_taken {config : InMemoryConfig} {l : Ledger} {s : InMemory × Shelf}
    (hs : Service config l s) {job : Job} (hj : job ∈ l.taken) :
    job.action = .flush ∨ job.completion ∈ l.made := by
  obtain ⟨x, hx, rfl⟩ := List.mem_map.mp hj
  refine hs.invariant (P := fun l _ => ∀ x ∈ l.issues, x.job.action = .flush ∨
    x.job.completion ∈ l.made) (fun _ => nofun) ?_ x (List.mem_of_mem_filter hx)
  intro l s t u _ ih hfair _ x hx
  have hmade : ∀ c ∈ l.made, c ∈ (l.after s u).made := by
    intro c hc
    cases u with
    | createCompletion => exact List.mem_append_left _ hc
    | issue | release | beginFlush | endFlush | call | shutdown | clock | buffers | work =>
      exact hc
  rcases List.mem_append.mp hx with hx | hx
  · exact (ih x hx).imp_right (hmade _)
  · obtain ⟨⟨job, b⟩, hj, rfl⟩ := Option.map_eq_some_iff.mp (Option.mem_toList.mp hx)
    cases u with
    | issue pool oid c command =>
      cases hj
      exact .inr (hmade _ (List.contains_iff_mem.mp hfair))
    | beginFlush pool =>
      cases hj
      exact .inl rfl
    | createCompletion | release | endFlush | call | shutdown | clock | buffers | work => cases hj

namespace Sharing

variable {config : InMemoryConfig} {s : Sharing} {i : BufferId} {b : Buffer} {job : Job}

/-- The sharing as if the read had never been queued: its hold on the buffer is given up. -/
def without (s : Sharing) (job : Job) (i : BufferId) : Sharing :=
  { s with
    backend := { s.backend with queue := s.backend.queue.erase job }
    shelf := s.shelf.letGo i }

/-- Without the read all is the same at first. -/
theorem Spoiled.beside (hspoiled : s.Spoiled i b) (hs : Sound config s)
    (hj : job.buffer? = some i) (hq : job ∈ s.backend.queue) :
    Beside job i s (s.without job i) := by
  have hp := hs.service.orderly.pipeline
  have hmem : job ∈ s.ledger.taken := by
    rw [hp.taken]
    exact List.mem_append_right _ hq
  have hissued : (s.backend.completion job.completion).issued = true :=
    (hp.issued _).mpr (List.mem_map_of_mem hmem)
  have hpoisoned := hspoiled.poisoned_of_mem hs hj hq
  obtain ⟨before, after, -, hsplit, herase⟩ := List.exists_erase_eq hq
  constructor
  case backend =>
    exact ⟨rfl, rfl, rfl, rfl, rfl, rfl, rfl, rfl, fun _ _ => rfl, ⟨hissued, hissued⟩, rfl⟩
  case shelf =>
    have hrefl : s.shelf.AllBut i s.shelf := ⟨rfl, fun _ _ => rfl, hpoisoned, hpoisoned⟩
    exact hrefl.letGo_right
  case holds => rfl
  case ledger => exact ⟨rfl, rfl, rfl⟩
  case passing => exact .waiting rfl hsplit herase
  case queued =>
    intro j hother hc
    have hd := hp.distinct
    rw [hp.taken, List.map_append] at hd
    have hd := (List.nodup_append.mp hd).2.1
    rw [hsplit, List.map_append, List.map_cons, List.nodup_middle, ← List.map_append] at hd
    change j ∈ s.backend.queue.erase job at hother
    rw [herase] at hother
    exact (List.nodup_cons.mp hd).1 (List.mem_map.mpr ⟨j, hother, hc⟩)
  case current =>
    intro p hcurrent
    obtain ⟨a, ha, hjob, -⟩ := hp.current p.1 p.2 hcurrent
    rw [← hjob]
    exact hp.completion_ne_of_mem_queue ha hq
  case flushing =>
    intro hflushing
    rcases hs.service.made_of_taken hmem with hflush | hmade
    · obtain ⟨offset, ha⟩ := Job.action_of_buffer? hj
      rw [ha] at hflush
      cases hflush
    · exact (hs.service.owned.flushing _ hflushing).2.1 hmade

/-! ## What those who share a buffer can rely on -/

/-- A read that the backend takes is queued. -/
theorem mem_queue_of_accepts {α : Type} {t : Sharing} {h : HoldId} {pool : PoolId} {oid : String}
    {c : CompletionId} {offset : Nat} (hb : s.buffer? h = some i)
    (ha : s.backend.accepts ⟨pool, oid, .command (.read i offset), c⟩ = true)
    (hn : s.next? (.read h pool oid c offset : SharingEvent α) = some t) :
    ⟨pool, oid, .command (.read i offset), c⟩ ∈ t.backend.queue := by
  obtain ⟨u, hu, -, hx, -⟩ := of_next? hn
  rw [SharingEvent.use?, hb] at hu
  obtain rfl := Option.some.inj hu
  have hbackend := congrArg Prod.fst (Option.some.inj hx)
  change (s.backend.submit ⟨pool, oid, .command (.read i offset), c⟩).2 = t.backend at hbackend
  rw [← hbackend, InMemory.queue_submit ha]
  exact List.mem_append_right _ List.mem_cons_self

/-- **What those who share a buffer can rely on.** A buffer has as many holders as there are holds
on it, with those of the reads that are queued. Whoever makes a call gets an answer that is told
from what was done to the buffer before, and as long as no task failed on it, a copy of its first
bytes. If a task fails, the buffer stays as the task left it, and whatever is asked of it later is
refused for its inconsistent state. A read into it that is queued returns that the object is not
there, if that is so when it is applied, and else an input/output error. Both its milestones are
fired, with the statuses laid down for its object; the worker's steps for it leave the store and all
other buffers and completions; and all that happens with it in the queue happens likewise without
it. -/
theorem shared_until_spoiled {α : Type} {events : List (SharingEvent α)}
    (hs : (fresh config).replay events = some s) :
    (∀ i, (s.shelf.get i).holders = s.holds.count (some i) + s.backend.readsInto i) ∧
    (∀ h i, s.buffer? h = some i → ∃ p, s.pasts[i]? = some p ∧
      (∀ c : HoldCall α, (c.run i s.shelf).1 = c.answer p) ∧
      (p.isSpoiled = false → ∀ n, ∃ bytes,
        ((HoldCall.materialize n : HoldCall α).run i s.shelf).1 = .bytes (.ok bytes) ∧
          bytes.data.toList = p.content.bytes.data.toList.take n ∧
          bytes.size = min n p.content.capacity)) ∧
    (∀ h i (f : Buffer → Buffer × Ending α) t, s.buffer? h = some i →
      ((HoldCall.update f).run i s.shelf).1 = .ended (.ok .raised) →
      s.next? (.call h (.update f)) = some t → t.Spoiled i (f (s.shelf.get i).content).1) ∧
    ∀ i b, s.Spoiled i b →
      (∀ (later : List (SharingEvent α)) t, s.replay later = some t → t.Spoiled i b ∧
        ∀ h, t.buffer? h = some i → (t.shelf.get i).content = b ∧
          ∃ e : Failure, e.kind = .inconsistentState ∧ t.shelf.Refuses i α e) ∧
      (∀ h pool oid c offset t, s.buffer? h = some i →
        s.backend.accepts ⟨pool, oid, .command (.read i offset), c⟩ = true →
        s.next? (.read h pool oid c offset : SharingEvent α) = some t →
        ⟨pool, oid, .command (.read i offset), c⟩ ∈ t.backend.queue) ∧
      ∀ job ∈ s.backend.queue, job.buffer? = some i →
        ∀ (later : List (SharingEvent α)) t, s.replay later = some t →
          (∀ m status, (t.backend.completion job.completion).fired.get m = some status →
            status = config.milestoneStatus job.oid m ∧
            ∃ a ∈ t.ledger.applications, a.job = job ∧
              (t.backend.completion job.completion).returnValue =
                a.found.spoiledResult job.key) ∧
          (∃ n u, t.replay (.replicate n (.use .work : SharingEvent α)) = some u ∧ ∀ m,
            (u.backend.completion job.completion).fired.get m =
              some (config.milestoneStatus job.oid m)) ∧
          (t.backend.due? = some job → ∀ x, t.backend.step? t.shelf = some x →
            t.backend.OnlyTouches job.completion x.1 ∧
              ∀ j, j ≠ i → x.2.get j = t.shelf.get j) ∧
          ∃ kept t₀, kept.Sublist later ∧
            kept.filter (!·.isWork) = later.filter (!·.isWork) ∧
            (s.without job i).replay kept = some t₀ ∧ Beside job i t t₀ := by
  obtain ⟨hsound, -⟩ := (Sound.fresh config).replay hs
  have hk := hsound.kept
  refine ⟨hk.holders, fun h i hb => ?_, fun h i f t hb hr hn => spoiled_of_raised hk hb hr hn,
    fun i b hspoiled => ⟨fun later t hn => ?_, fun h pool oid c offset t hb ha hn =>
      mem_queue_of_accepts hb ha hn, fun job hq hj later t hn => ?_⟩⟩
  · obtain ⟨p, hp, hanswer⟩ := hk.answer (α := α) hb
    refine ⟨p, hp, hanswer, fun hgood n => ⟨p.content.materialize n, ?_,
      p.content.toList_materialize n, p.content.size_materialize n⟩⟩
    rw [hanswer, HoldCall.answer, BufferPast.guarded,
      if_neg (by rw [hgood]; exact Bool.false_ne_true)]
  · have ht := (hsound.replay hn).1.kept
    have hspoiled := hspoiled.replay hn
    refine ⟨hspoiled, fun h hb => ?_⟩
    have hpos := ht.holders_pos hb
    obtain ⟨hcontent, hpoisoned⟩ := hspoiled.get ht hpos
    exact ⟨hcontent, _, rfl, Shelf.refuses (Shelf.lt_size_of_holders hpos) hpoisoned α⟩
  · obtain ⟨ht, hextends⟩ := hsound.replay hn
    have hmem : job ∈ t.ledger.taken := by
      refine hextends.taken.subset ?_
      rw [hsound.service.orderly.pipeline.taken]
      exact List.mem_append_right _ hq
    have hreplies : t.Replies job := Replies.replay (.inl hq) hsound hspoiled hj hn
    exact ⟨fun m status hf => hreplies.fired ht hmem hf, ht.exists_done hmem,
      fun hdue x hx => onlyTouches_of_due hj hdue hx, (hspoiled.beside hsound hj hq).replay hj hn⟩

end Sharing

/-! ## Two buffers

One buffer is shared by three, grown through one hold and spoiled through another; a read into it is
queued between two writes. The other buffer is spoiled, and read into from an object that is not
there. -/

namespace Sample

def sharing : List (SharingEvent Unit) :=
  [.share ⟨⟨#[1, 2, 3, 4]⟩⟩, .call 0 .clone,
    .call 1 (.update fun _ => (⟨⟨#[5, 6, 7, 8, 9, 10]⟩⟩, .returned ())), .call 0 .clone,
    .use .createCompletion, .use .createCompletion, .use .createCompletion,
    .use (.issue 1 "object" 0 (.edit (.append ⟨#[7]⟩))), .call 1 (.materialize 3),
    .call 0 (.update fun c => (c.fill ⟨#[11]⟩, .raised)), .read 2 1 "object" 1 0,
    .use (.issue 1 "object" 2 (.edit (.append ⟨#[8]⟩)))]

theorem isSome_replay_sharing : ((Sharing.fresh config).replay sharing).isSome = true := by
  decide +kernel

/-- The sharing after these events. -/
@[irreducible]
def shared : Sharing := ((Sharing.fresh config).replay sharing).get isSome_replay_sharing

theorem replay_sharing : (Sharing.fresh config).replay sharing = some shared := by
  unfold shared
  exact (Option.some_get isSome_replay_sharing).symm

def unread : List (SharingEvent Unit) :=
  [.share ⟨⟨#[1, 2, 3, 4]⟩⟩, .call 0 .clone, .call 0 (.update fun c => (c, .raised)),
    .use .createCompletion, .read 1 1 "missing" 0 0]

theorem isSome_replay_unread : ((Sharing.fresh config).replay unread).isSome = true := by
  decide +kernel

/-- The sharing with the read of the missing object in the queue. -/
@[irreducible]
def readMissing : Sharing := ((Sharing.fresh config).replay unread).get isSome_replay_unread

theorem replay_unread : (Sharing.fresh config).replay unread = some readMissing := by
  unfold readMissing
  exact (Option.some_get isSome_replay_unread).symm

theorem isSome_replay_readMissing :
    (readMissing.replay (.replicate 3 (.use .work : SharingEvent Unit))).isSome = true := by
  decide +kernel

/-- The sharing when that read is done. -/
@[irreducible]
def missed : Sharing :=
  (readMissing.replay (.replicate 3 (.use .work : SharingEvent Unit))).get isSome_replay_readMissing

theorem replay_readMissing :
    readMissing.replay (.replicate 3 (.use .work : SharingEvent Unit)) = some missed := by
  unfold missed
  exact (Option.some_get isSome_replay_readMissing).symm

end Sample

namespace Sharing

/-- Two holds and a queued read make three holders. The buffer is as the failed task left it, and
the read gets done. -/
theorem shared_until_spoiled_with_read :
    (fresh Sample.config).replay Sample.sharing = some Sample.shared ∧
      (Sample.shared.shelf.get 0).holders = 3 ∧
      Sample.shared.Spoiled 0 ⟨⟨#[11, 6, 7, 8, 9, 10]⟩⟩ ∧
      ∃ n t, Sample.shared.replay (.replicate n (.use .work : SharingEvent Unit)) = some t ∧
        ∀ m, (t.backend.completion 1).fired.get m = some 0 := by
  have hspoiled : Sample.shared.Spoiled 0 ⟨⟨#[11, 6, 7, 8, 9, 10]⟩⟩ :=
    spoiled_iff.mpr (by decide +kernel)
  obtain ⟨hholders, -, -, hreads⟩ := shared_until_spoiled Sample.replay_sharing
  have hqueued : (⟨1, "object", .command (.read 0 0), 1⟩ : Job) ∈ Sample.shared.backend.queue := by
    decide +kernel
  obtain ⟨-, ⟨n, t, hn, hfired⟩, -⟩ :=
    (hreads 0 _ hspoiled).2.2 _ hqueued rfl [] Sample.shared rfl
  refine ⟨Sample.replay_sharing, (hholders 0).trans (by decide +kernel), hspoiled, n, t, hn, ?_⟩
  intro m
  rw [hfired m]
  cases m <;> decide +kernel

/-- Not every read into a spoiled buffer returns an input/output error: the object may be missing,
which is found out before the buffer is touched. -/
theorem spoiled_read_of_missing :
    ¬ ∀ (config : InMemoryConfig) (events later : List (SharingEvent Unit)) (s t : Sharing)
      (i : BufferId) (b : Buffer) (job : Job), (fresh config).replay events = some s →
      s.Spoiled i b → job ∈ s.backend.queue → job.buffer? = some i → s.replay later = some t →
      (t.backend.completion job.completion).fired.get .complete ≠ none →
      (t.backend.completion job.completion).returnValue = .ioError := by
  intro h
  have hvalue := h Sample.config Sample.unread _ Sample.readMissing Sample.missed 0
    ⟨⟨#[1, 2, 3, 4]⟩⟩ ⟨1, "missing", .command (.read 0 0), 0⟩ Sample.replay_unread
    (spoiled_iff.mpr (by decide +kernel)) (by decide +kernel) rfl Sample.replay_readMissing
    (by decide +kernel)
  exact absurd hvalue (by decide +kernel)

end Sharing

end Milepost
