import Milepost.Proofs.Flight.Course
import Milepost.Proofs.Pipeline

/-!
# The buffers of reads

A read that was not refused has a buffer of its own: no other job has it, nobody spoils it, and
the flight keeps it as long as its completion. The worker fills it once, when it applies the read,
with a part of the object as it is at that moment; what is applied later never touches it.

* `Run.shelving`: so it is in every state of a run.
-/

namespace Milepost

/-! ## Shelves -/

namespace Shelf

variable {s : Shelf} {i j : BufferId} {b : Buffer}

theorem get_put_of_lt (h : i < s.cells.size) : (s.put b).2.get i = s.get i := by
  simp [put, get, Array.getElem?_push, Nat.ne_of_lt h]

theorem size_put : (s.put b).2.cells.size = s.cells.size + 1 := by simp [put]

theorem size_modify (f : SharedBuffer → SharedBuffer) :
    (s.modify i f).cells.size = s.cells.size := by simp [modify]

theorem get_hold_of_ne (h : i ≠ j) : (s.hold i).get j = s.get j := get_modify_of_ne h _

theorem get_letGo_of_ne (h : i ≠ j) : (s.letGo i).get j = s.get j := get_modify_of_ne h _

theorem get_without_of_ne {o : Option BufferId} (h : o ≠ some i) :
    (s.without o).get i = s.get i := by
  cases o with
  | none => rfl
  | some j => exact get_letGo_of_ne fun hj => h (congrArg some hj)

theorem size_without {o : Option BufferId} : (s.without o).cells.size = s.cells.size := by
  cases o with
  | none => rfl
  | some j => exact size_modify _

theorem get_letGo_self (h : i < s.cells.size) (hh : (s.get i).holders = 2) :
    (s.letGo i).get i = { s.get i with holders := 1 } := by
  rw [letGo, get_modify_self h, if_neg (by omega), SharedBuffer.letGo, hh]

end Shelf

namespace Operation

variable {s : Shelf} {op : Operation} {i : BufferId}

theorem get_shelved_of_lt (h : i < s.cells.size) : (op.shelved s).get i = s.get i := by
  cases op with
  | read length offset =>
    rw [shelved, Shelf.get_hold_of_ne (Nat.ne_of_gt h), Shelf.get_put_of_lt h]
  | write | writeFull | append | remove => rfl

theorem get_ignored_of_lt (h : i < s.cells.size) : (op.ignored s).get i = s.get i := by
  cases op with
  | read length offset =>
    rw [ignored, Shelf.get_letGo_of_ne (Nat.ne_of_gt h), get_shelved_of_lt h]
  | write | writeFull | append | remove => rfl

theorem get_unshelved_of_lt (h : i < s.cells.size) : (op.unshelved s).get i = s.get i := by
  cases op with
  | read length offset =>
    rw [unshelved, Shelf.get_letGo_of_ne (Nat.ne_of_gt h), get_ignored_of_lt h]
  | write | writeFull | append | remove => rfl

/-- The buffer that a read brings: zeros, held by the flight and by the job. -/
theorem get_shelved_self {length offset : Nat} :
    ((read length offset).shelved s).get s.cells.size =
      { content := ⟨Bytes.zeros length⟩, holders := 2 } := by
  rw [shelved, Shelf.hold, Shelf.get_modify_self (by rw [Shelf.size_put]; exact Nat.lt_succ_self _)]
  have hput := s.get_put_self ⟨Bytes.zeros length⟩
  rw [Shelf.put] at hput ⊢
  rw [hput]
  rfl

theorem size_le_shelved : s.cells.size ≤ (op.shelved s).cells.size := by
  cases op with
  | read length offset =>
    rw [shelved, Shelf.hold, Shelf.size_modify, Shelf.size_put]
    omega
  | write | writeFull | append | remove => exact Nat.le_refl _

theorem size_shelved_of_ownBuffer? {n : BufferId} (h : op.ownBuffer? s.cells.size = some n) :
    n < (op.shelved s).cells.size := by
  cases op with
  | read length offset =>
    cases h
    rw [shelved, Shelf.hold, Shelf.size_modify, Shelf.size_put]
    exact Nat.lt_succ_self _
  | write | writeFull | append | remove => cases h

theorem size_ignored : (op.ignored s).cells.size = (op.shelved s).cells.size := by
  cases op with
  | read length offset => rw [ignored, Shelf.letGo, Shelf.size_modify]
  | write | writeFull | append | remove => rfl

theorem size_unshelved : (op.unshelved s).cells.size = (op.shelved s).cells.size := by
  cases op with
  | read length offset => rw [unshelved, Shelf.letGo, Shelf.size_modify, size_ignored]
  | write | writeFull | append | remove => rfl

end Operation

/-! ## What a read leaves in its buffer -/

/-- The buffer of a job. -/
def Job.buffer? (j : Job) : Option BufferId :=
  match j.action with
  | .command (.read n _) => some n
  | _ => none

namespace Store

variable (s : Store) (key : ObjectKey) (length offset : Nat)

/-- The result of a read of so many bytes. -/
def readResult : Status :=
  match s.find key with
  | .ok o => .ofSize (o.slice offset length).size
  | .error status => status

/-- What a read of so many bytes leaves in its buffer. -/
def readContent : Buffer :=
  match s.find key with
  | .ok o => Buffer.fill ⟨Bytes.zeros length⟩ (o.slice offset length)
  | .error _ => ⟨Bytes.zeros length⟩

end Store

namespace InMemory

variable {job : Job} {store : Store} {shelf : Shelf} {now : Int} {i n : BufferId}
  {length offset : Nat}

/-- Applying a job leaves every buffer but its own. -/
theorem get_applyJob_of_ne (h : job.buffer? ≠ some i) :
    (applyJob now job store shelf).2.2.get i = shelf.get i := by
  unfold applyJob
  cases ha : job.action with
  | flush => rfl
  | command c =>
    cases c with
    | edit e => rfl
    | read n offset =>
      have hn : n ≠ i := fun hn => h (by rw [Job.buffer?, ha, hn])
      simp only [readInto]
      split
      · exact Shelf.get_letGo_of_ne hn
      · simp only [Shelf.update]
        split <;>
          exact (Shelf.get_letGo_of_ne hn).trans (Shelf.get_modify_of_ne hn _)

/-- What a read does to its own buffer, and its result. -/
theorem applyJob_read (now : Int) (store : Store)
    (ha : job.action = .command (.read n offset)) (hn : n < shelf.cells.size)
    (hget : shelf.get n = { content := ⟨Bytes.zeros length⟩, holders := 2 }) :
    (applyJob now job store shelf).1 = store.readResult job.key length offset ∧
      (applyJob now job store shelf).2.2.get n =
        { content := store.readContent job.key length offset, holders := 1 } := by
  have hcapacity : Buffer.capacity ⟨Bytes.zeros length⟩ = length := Bytes.size_zeros length
  unfold applyJob Store.readResult Store.readContent
  rw [ha]
  simp only [readInto]
  cases hf : store.find job.key with
  | error status =>
    refine ⟨rfl, ?_⟩
    rw [Shelf.get_letGo_self hn (by rw [hget]), hget]
  | ok o =>
    simp only [Shelf.update, hget, SharedBuffer.modify, Bool.false_eq_true, if_false, hcapacity,
      true_and]
    have hself := Shelf.get_modify_self hn fun _ =>
      { content := Buffer.fill ⟨Bytes.zeros length⟩ (o.slice offset length), holders := 2 }
    rw [Shelf.get_letGo_self (by rw [Shelf.size_modify]; exact hn) (by rw [hself]), hself]

theorem size_applyJob : (applyJob now job store shelf).2.2.cells.size = shelf.cells.size := by
  unfold applyJob
  cases ha : job.action with
  | flush => rfl
  | command c =>
    cases c with
    | edit e => rfl
    | read n offset =>
      simp only [readInto]
      split
      · exact Shelf.size_modify _
      · simp only [Shelf.update]
        split <;> exact (Shelf.size_modify _).trans (Shelf.size_modify _)

end InMemory

/-! ## Whose buffer is whose -/

/-- What the buffer of a read looks like: before its job is applied, or after. -/
inductive BufferKept (h : History) (queue : List Job) (job : Job) (length offset : Nat) :
    SharedBuffer → Prop
  | queued (hj : job ∈ queue) :
    BufferKept h queue job length offset { content := ⟨Bytes.zeros length⟩, holders := 2 }
  | applied {a : Application} (ha : a ∈ h.applications) (hj : a.job = job)
      (hr : a.result = a.found.readResult job.key length offset) :
    BufferKept h queue job length offset
      { content := a.found.readContent job.key length offset, holders := 1 }

/-- The issues that were not refused. -/
def History.accepted (h : History) : List Issue := h.issues.filter fun x => !x.answer.isError

/-- Every read that was not refused has a buffer of its own, kept by its flight. -/
structure Shelving (h : History) (s : System InMemory) : Prop where
  bound : ∀ {x : Issue} {n : BufferId}, x ∈ h.accepted → x.job.buffer? = some n →
    n < s.world.shelf.cells.size
  sole : ∀ {x y : Issue} {n : BufferId}, x ∈ h.accepted → y ∈ h.accepted →
    x.job.buffer? = some n → y.job.buffer? = some n → x = y
  kept : ∀ {i : FlightId} {f : Flight} {n : BufferId}, s.flights[i]? = some f →
    f.buffer? = some n → ∃ x length offset, x ∈ h.accepted ∧ x.flight = i ∧
      f.task.request.operation = .read length offset ∧
      x.job.action = .command (.read n offset) ∧
      (x.queued = true →
        BufferKept h s.world.backend.queue x.job length offset (s.world.shelf.get n))

theorem History.accepted_sent {h : History} {i : FlightId} {f : Flight} {w : World InMemory}
    {job : Job} (hj : f.job? w = some job) :
    (h.sent i f w).accepted = h.accepted ++
      if (w.backend.submit job).1.isError then [] else [w.backend.issueOf i job] := by
  rw [accepted, sent, hj, List.filter_append]
  cases he : (w.backend.submit job).1.isError <;> simp [accepted, InMemory.issueOf, he]

theorem Job.buffer?_eq {job : Job} {n : BufferId} {offset : Nat}
    (h : job.action = .command (.read n offset)) : job.buffer? = some n := by
  rw [buffer?, h]

/-- The job of a read is to fill the buffer that was made for it. -/
theorem Task.action_of_job? {t : Task} {c : CompletionId} {n : BufferId} {job : Job}
    {length offset : Nat} (hj : t.job? c n = some job)
    (hop : t.request.operation = .read length offset) :
    job.action = .command (.read n offset) := by
  obtain ⟨-, -, -, command, hcommand, haction⟩ := Task.of_job? hj
  rw [hop, Operation.command?] at hcommand
  split at hcommand
  · cases hcommand
    exact haction
  · cases hcommand

/-- A job fills the buffer that was made for its operation, if one was. -/
theorem Task.buffer?_of_job? {t : Task} {c : CompletionId} {n : BufferId} {job : Job}
    (hj : t.job? c n = some job) : job.buffer? = t.request.operation.ownBuffer? n := by
  cases hop : t.request.operation with
  | read length offset => exact Job.buffer?_eq (Task.action_of_job? hj hop)
  | write | writeFull | append | remove =>
    obtain ⟨-, -, -, command, hcommand, haction⟩ := Task.of_job? hj
    rw [hop] at hcommand
    cases hcommand
    rw [Job.buffer?, haction]
    rfl

namespace BufferKept

variable {h h' : History} {queue queue' : List Job} {job : Job} {length offset : Nat}
  {b : SharedBuffer}

theorem mono (hb : BufferKept h queue job length offset b)
    (hq : job ∈ queue → job ∈ queue') (ha : ∀ a ∈ h.applications, a ∈ h'.applications) :
    BufferKept h' queue' job length offset b := by
  cases hb with
  | queued hj => exact .queued (hq hj)
  | applied hmem hj hr => exact .applied (ha _ hmem) hj hr

end BufferKept

namespace Shelving

variable {h : History} {s : System InMemory} {i : FlightId} {f g : Flight}
  {w : World InMemory} {job : Job} {rest : List Job}

theorem start (config : InMemoryConfig) (accounts : Nat) :
    Shelving {} (.fresh config accounts) where
  bound hx := by cases hx
  sole hx := by cases hx
  kept hf := by simp [System.fresh] at hf

/-- What leaves the buffers and the queue, and all buffers that are held, preserves it. -/
theorem congr {h' : History} {t : System InMemory} (hs : Shelving h s)
    (hx : h'.accepted = h.accepted) (ha : h'.applications = h.applications)
    (hsize : s.world.shelf.cells.size ≤ t.world.shelf.cells.size)
    (hq : t.world.backend.queue = s.world.backend.queue)
    (hf : ∀ {i : FlightId} {g : Flight} {n : BufferId}, t.flights[i]? = some g →
      g.buffer? = some n → t.world.shelf.get n = s.world.shelf.get n ∧ ∃ f, s.flights[i]? = some f ∧
        f.buffer? = some n ∧ g.task = f.task) : Shelving h' t where
  bound hx' hn := Nat.lt_of_lt_of_le (hs.bound (hx ▸ hx') hn) hsize
  sole hx' hy := hs.sole (hx ▸ hx') (hx ▸ hy)
  kept hg hn := by
    obtain ⟨hget, f, hf, hn', htask⟩ := hf hg hn
    obtain ⟨x, length, offset, hx', hi, hop, haction, hkept⟩ := hs.kept hf hn'
    refine ⟨x, length, offset, hx ▸ hx', hi, by rw [htask]; exact hop, haction, fun hqueued => ?_⟩
    rw [hget, hq]
    exact (hkept hqueued).mono id fun a hmem => by rw [ha]; exact hmem

/-- The buffer that a flight holds is not beyond the shelf. -/
theorem lt_size (hs : Shelving h s) {n : BufferId} (hf : s.flights[i]? = some f)
    (hn : f.buffer? = some n) : n < s.world.shelf.cells.size := by
  obtain ⟨x, length, offset, hx, -, -, haction, -⟩ := hs.kept hf hn
  exact hs.bound hx (Job.buffer?_eq haction)

/-- Two flights never hold the same buffer. -/
theorem flight_ext (hs : Shelving h s) {j : FlightId} {n : BufferId}
    (hf : s.flights[i]? = some f) (hg : s.flights[j]? = some g) (hn : f.buffer? = some n)
    (hn' : g.buffer? = some n) : i = j := by
  obtain ⟨x, _, _, hx, rfl, -, haction, -⟩ := hs.kept hf hn
  obtain ⟨y, _, _, hy, rfl, -, haction', -⟩ := hs.kept hg hn'
  rw [hs.sole hx hy (Job.buffer?_eq haction) (Job.buffer?_eq haction')]

/-- What a flight does that brings no buffer preserves it. -/
theorem keep {h' : History} (hs : Shelving h s) (hf : s.flights[i]? = some f)
    (hx : h'.accepted = h.accepted) (ha : h'.applications = h.applications)
    (hsize : s.world.shelf.cells.size ≤ w.shelf.cells.size)
    (hq : w.backend.queue = s.world.backend.queue)
    (hget : ∀ n, n < s.world.shelf.cells.size → f.buffer? ≠ some n ∨ g.buffer? = some n →
      w.shelf.get n = s.world.shelf.get n)
    (hg : ∀ n, g.buffer? = some n → f.buffer? = some n ∧ g.task = f.task) :
    Shelving h' { world := w, flights := s.flights.setIfInBounds i g } := by
  refine hs.congr hx ha hsize hq fun {j k n} hj hn => ?_
  rcases System.flight_setIfInBounds hj with ⟨rfl, rfl⟩ | ⟨hij, hj⟩
  · obtain ⟨hn', htask⟩ := hg n hn
    exact ⟨hget n (hs.lt_size hf hn') (.inr hn), f, hf, hn', htask⟩
  · refine ⟨hget n (hs.lt_size hj hn) (.inl fun hn' => ?_), k, hj, hn, rfl⟩
    exact hij (hs.flight_ext hj hf hn hn')

/-- A job that is not refused brings a buffer that nobody has. -/
theorem accept {h' : History} {c : CompletionId} {x : Issue} (hs : Shelving h s)
    (hx : h'.accepted = h.accepted ++ [x]) (ha : h'.applications = h.applications)
    (hi : x.flight = i) (hj : f.task.job? c s.world.shelf.cells.size = some x.job)
    (hg : g.buffer? = f.task.request.operation.ownBuffer? s.world.shelf.cells.size)
    (ht : g.task = f.task)
    (hsize : w.shelf.cells.size = (f.task.request.operation.shelved s.world.shelf).cells.size)
    (hget : ∀ n, n < s.world.shelf.cells.size → w.shelf.get n = s.world.shelf.get n)
    (hq : ∀ job ∈ s.world.backend.queue, job ∈ w.backend.queue)
    (hown : ∀ length offset, f.task.request.operation = .read length offset → x.queued = true →
      BufferKept h' w.backend.queue x.job length offset
        (w.shelf.get s.world.shelf.cells.size)) :
    Shelving h' { world := w, flights := s.flights.setIfInBounds i g } := by
  have hle : s.world.shelf.cells.size ≤ w.shelf.cells.size := hsize ▸ Operation.size_le_shelved
  have hbuffer := Task.buffer?_of_job? hj
  have hnew : ∀ {n : BufferId}, x.job.buffer? = some n → n = s.world.shelf.cells.size := by
    intro n hn
    rw [hbuffer] at hn
    cases hop : f.task.request.operation <;> rw [hop] at hn <;> cases hn
    rfl
  constructor
  case bound =>
    intro y n hy hn
    rw [hx] at hy
    rcases List.mem_append.mp hy with hy | hy
    · exact Nat.lt_of_lt_of_le (hs.bound hy hn) hle
    · rw [List.mem_singleton.mp hy, hbuffer] at hn
      change n < w.shelf.cells.size
      rw [hsize]
      exact Operation.size_shelved_of_ownBuffer? hn
  case sole =>
    intro y z n hy hz hn hn'
    rw [hx] at hy hz
    rcases List.mem_append.mp hy with hy | hy <;> rcases List.mem_append.mp hz with hz | hz
    · exact hs.sole hy hz hn hn'
    · rw [List.mem_singleton.mp hz] at hn'
      exact absurd (hnew hn') (Nat.ne_of_lt (hs.bound hy hn))
    · rw [List.mem_singleton.mp hy] at hn
      exact absurd (hnew hn) (Nat.ne_of_lt (hs.bound hz hn'))
    · rw [List.mem_singleton.mp hy, List.mem_singleton.mp hz]
  case kept =>
    intro j k n hk hkn
    change ∃ x length offset, _ ∧ _ ∧ _ ∧ _ ∧
      (_ → BufferKept _ w.backend.queue _ _ _ (w.shelf.get n))
    rw [hx]
    rcases System.flight_setIfInBounds hk with ⟨rfl, rfl⟩ | ⟨-, hk⟩
    · rw [hg] at hkn
      cases hop : f.task.request.operation with
      | read length offset =>
        rw [hop] at hkn
        cases hkn
        exact ⟨x, length, offset, List.mem_append_right _ List.mem_cons_self, hi, ht ▸ hop,
          Task.action_of_job? hj hop, hown length offset hop⟩
      | write | writeFull | append | remove => rw [hop] at hkn; cases hkn
    · obtain ⟨y, length, offset, hy, hflight, hop, haction, hkept⟩ := hs.kept hk hkn
      refine ⟨y, length, offset, List.mem_append_left _ hy, hflight, hop, haction,
        fun hqueued => ?_⟩
      rw [hget n (hs.lt_size hk hkn)]
      exact (hkept hqueued).mono (hq _) fun a hmem => by rw [ha]; exact hmem

/-- Whatever a flight does preserves it. -/
theorem deed (hs : Shelving h s) (hf : s.flights[i]? = some f) (hm : f.Deed s.world g w)
    (ht : g.task = f.task) :
    Shelving (h.sent i f s.world) { world := w, flights := s.flights.setIfInBounds i g } := by
  cases hm with
  | quiet hb hshelf hj hn hi =>
    rw [h.sent_of_none hj]
    refine hs.keep hf rfl rfl ?_ (by rw [hb]) (fun n _ _ => by rw [hshelf]) fun n hn' => ?_
    · exact Nat.le_of_eq (by rw [hshelf])
    · exact ⟨hi ▸ hn', ht⟩
  | make _ hb hshelf hj _ _ hi hi' =>
    rw [h.sent_of_none hj]
    refine hs.keep hf rfl rfl ?_ (by rw [hb]; rfl) (fun n _ _ => by rw [hshelf]) fun n hn' => ?_
    · exact Nat.le_of_eq (by rw [hshelf])
    · rw [hi'] at hn'
      cases hn'
  | @take c job hb hshelf hj ha hjob _ hn hi' =>
    have hqueue : w.backend.queue = s.world.backend.queue ++ [job] := by
      rw [hb, InMemory.queue_submit ha]
    refine hs.accept (x := ⟨i, job, 0, true⟩) ?_ rfl rfl hjob hi' ht (by rw [hshelf])
      (fun n hlt => ?_) (fun k hk => ?_) fun length offset hop _ => ?_
    · rw [History.accepted_sent hj, InMemory.issueOf_of_accepts ha, InMemory.submit_of_accepts ha]
      rfl
    · rw [hshelf, Operation.get_shelved_of_lt hlt]
    · rw [hqueue]
      exact List.mem_append_left _ hk
    · rw [hshelf, hop, Operation.get_shelved_self, hqueue]
      exact .queued (List.mem_append_right _ List.mem_cons_self)
  | @ignore c job hb hshelf hj ha he hjob _ hn hi' =>
    refine hs.accept (x := ⟨i, job, (s.world.backend.submit job).1, false⟩) ?_ rfl rfl hjob hi' ht
      (by rw [hshelf, Operation.size_ignored]) (fun n hlt => ?_) (fun k hk => ?_) nofun
    · rw [History.accepted_sent hj, InMemory.issueOf_of_not_accepts ha, he]
      exact congrArg _ (if_neg Bool.false_ne_true)
    · rw [hshelf, Operation.get_ignored_of_lt hlt]
    · rw [hb]
      exact hk
  | refuse hb hshelf hj he hn hi =>
    refine hs.keep hf ?_ rfl ?_ (by rw [hb]) (fun n hlt _ => ?_) fun n hn' => ?_
    · rw [History.accepted_sent hj, if_pos he, List.append_nil]
    · rw [hshelf, Operation.size_unshelved]
      exact Operation.size_le_shelved
    · rw [hshelf, Operation.get_unshelved_of_lt hlt]
    · exact ⟨hi ▸ hn', ht⟩
  | release hb hshelf hj _ _ hi =>
    rw [h.sent_of_none hj]
    refine hs.keep hf rfl rfl ?_ ?_ (fun n _ hne => ?_) fun n hn' => ?_
    · rw [hshelf]
      exact Nat.le_of_eq Shelf.size_without.symm
    · rw [hb]
      unfold InMemory.release
      split <;> rfl
    · rw [hi] at hne
      rw [hshelf]
      exact Shelf.get_without_of_ne (hne.resolve_right nofun)
    · rw [hi] at hn'
      cases hn'

/-- The worker fills the buffer of the job that it applies, and no other. -/
theorem apply (hs : Shelving h s) (hp : Pipeline h s.world.backend)
    (hanswer : ∀ x ∈ h.issues, x.queued = true → x.answer = 0)
    (hw : s.world.backend.worker = .idle) (hq : s.world.backend.queue = job :: rest) :
    Shelving
      { h with
        applications := h.applications ++
          (s.world.backend.application? s.world.shelf).toList }
      { s with
        world := { s.world with
          backend := (s.world.backend.applyNext job rest s.world.shelf).1
          shelf := (s.world.backend.applyNext job rest s.world.shelf).2 } } := by
  have hmem : job ∈ s.world.backend.queue := hq ▸ List.mem_cons_self
  obtain ⟨y, hy, hyjob⟩ : ∃ y ∈ h.accepted, y.job = job := by
    have htaken : job ∈ h.taken := by
      rw [hp.taken]
      exact List.mem_append_right _ hmem
    obtain ⟨y, hy, rfl⟩ := List.mem_map.mp htaken
    obtain ⟨hy, hqueued⟩ := List.mem_filter.mp hy
    exact ⟨y, List.mem_filter.mpr ⟨hy, by rw [hanswer y hy hqueued]; rfl⟩, rfl⟩
  rw [InMemory.application?, hw, hq]
  constructor
  case bound =>
    intro x n hx hn
    change _ < (InMemory.applyJob _ job _ s.world.shelf).2.2.cells.size
    rw [InMemory.size_applyJob]
    exact hs.bound hx hn
  case sole => exact hs.sole
  case kept =>
    intro i f n hf hn
    obtain ⟨x, length, offset, hx, hflight, hop, haction, hkept⟩ := hs.kept hf hn
    refine ⟨x, length, offset, hx, hflight, hop, haction, fun hqueued => ?_⟩
    have hkept := hkept hqueued
    change BufferKept _ rest x.job length offset
      ((InMemory.applyJob s.world.backend.now job s.world.backend.store s.world.shelf).2.2.get n)
    by_cases hjob : x.job = job
    · -- Before, the buffer was as it was made: a job in the queue is not among those applied.
      subst hjob
      have hget : s.world.shelf.get n =
          { content := ⟨Bytes.zeros length⟩, holders := 2 } := by
        generalize hb : s.world.shelf.get n = b at hkept
        cases hkept with
        | queued => rfl
        | applied ha haj =>
          exact absurd (congrArg Job.completion haj) (hp.completion_ne_of_mem_queue ha hmem)
      obtain ⟨hresult, hcontent⟩ :=
        InMemory.applyJob_read s.world.backend.now s.world.backend.store haction
          (hs.lt_size hf hn) hget
      rw [hcontent]
      let a : Application :=
        { job := x.job, found := s.world.backend.store
          result := (InMemory.applyJob s.world.backend.now x.job s.world.backend.store
            s.world.shelf).1 }
      have hmem' : a ∈ h.applications ++ [a] := List.mem_append_right _ List.mem_cons_self
      exact .applied (a := a) hmem' rfl hresult
    · rw [InMemory.get_applyJob_of_ne fun hb => hjob <| by
        rw [hs.sole hx hy (Job.buffer?_eq haction) (hyjob ▸ hb), hyjob]]
      refine hkept.mono (fun hmem' => ?_) fun a ha => List.mem_append_left _ ha
      rw [hq] at hmem'
      exact (List.mem_cons.mp hmem').resolve_left hjob

/-- Every step of the worker preserves it. -/
theorem work (hs : Shelving h s) (hp : Pipeline h s.world.backend)
    (hanswer : ∀ x ∈ h.issues, x.queued = true → x.answer = 0) {b : InMemory} {shelf : Shelf}
    (hstep : s.world.backend.step? s.world.shelf = some (b, shelf)) :
    Shelving
      { h with
        applications := h.applications ++
          (s.world.backend.application? s.world.shelf).toList }
      { s with world := { s.world with backend := b, shelf } } := by
  unfold InMemory.step? at hstep
  cases hw : s.world.backend.worker with
  | idle =>
    cases hq : s.world.backend.queue with
    | nil => simp [hw, hq] at hstep
    | cons job rest =>
      simp only [hw, hq, Option.some.injEq] at hstep
      obtain ⟨rfl, rfl⟩ := Prod.mk.inj hstep
      exact hs.apply hp hanswer hw hq
  | applied job status | halfway job status =>
    simp only [hw, Option.some.injEq] at hstep
    cases hstep
    rw [InMemory.application?, hw, Option.toList_none, List.append_nil]
    exact hs.congr rfl rfl (Nat.le_refl _) rfl fun {i f n} hf hn => ⟨rfl, f, hf, hn, rfl⟩

end Shelving

namespace Run

variable {config : InMemoryConfig} {accounts : Nat} {h : History} {s : System InMemory}

/-- **So it is in every state of a run.** -/
theorem shelving (hr : Run config accounts h s) : Shelving h s := by
  refine hr.preserved (.start config accounts) ?_
  intro h s t e hr hs hh
  cases hh with
  | submit o r =>
    rw [History.after_of_not_isOwn rfl]
    refine hs.congr rfl rfl (Nat.le_refl _) rfl fun {i f n} hf hn => ?_
    rcases System.flight_submit hf with ⟨-, rfl⟩ | hf
    · cases hn
    · exact ⟨rfl, f, hf, hn, rfl⟩
  | issuer hf hk hm =>
    rw [History.after_issuer hf]
    exact hs.deed hf (hm.deed hk) hm.task_eq
  | @waiter i m f g w hf hk hm =>
    rw [History.after_waiter, ← h.sent_of_none (i := i) (hm.job?_eq_none hk)]
    exact hs.deed hf (hm.deed hk) hm.frame.1
  | work hstep =>
    rw [History.after_work]
    exact hs.work hr.pipeline (fun _ => hr.answer_of_queued) hstep
  | call k =>
    rw [History.after_of_not_isOwn rfl]
    exact hs.congr rfl rfl (Nat.le_refl _) (InMemory.SameJobs.call k _).queue
      fun {i f n} hf hn => ⟨rfl, f, hf, hn, rfl⟩
  | shutdown | clock =>
    rw [History.after_of_not_isOwn rfl]
    exact hs.congr rfl rfl (Nat.le_refl _) rfl fun {i f n} hf hn => ⟨rfl, f, hf, hn, rfl⟩

end Run

end Milepost
