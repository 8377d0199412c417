import Milepost.Proofs.Changes
import Milepost.Proofs.DirectCalls
import Milepost.Proofs.NameList
import Milepost.Proofs.Shelving

/-!
# What a refusal leaves

A negative status is a refusal, and a size that is too large for a status would look like one. In a
`Modest` store nothing is that large. There every refusal, of an operation that the worker applies
or of a call that is answered at once, leaves the pools and the objects as they were, and with them
the buffers and the places that the caller lent.

* `Shelf.SameContents.letGo`: ending a hold leaves the bytes of what is still held.
* `InMemory.refused_unchanged`: a refusal leaves everything as it was.
-/

namespace Milepost

/-- Everything of which a status reports the size has a size that fits into a status. -/
structure Store.Modest (s : Store) : Prop where
  objects : s.Fits
  attributes : ∀ (key : ObjectKey) (o : Object) (name : String) (value : ByteArray),
    s.objects[key]? = some o → o.attributes[name]? = some value → value.size < 0x80000000
  list : (InMemory.encodeNames s.poolNames).size < 0x80000000

/-- The name of a pool fits where the list of all does. -/
theorem Store.Modest.name {s : Store} (hm : s.Modest) {name : String} {pool : PoolId}
    (h : s.pools[name]? = some pool) : name.toUTF8.size < 0x80000000 :=
  Nat.lt_trans (InMemory.size_lt_encodeNames (Store.mem_poolNames.mpr ⟨pool, h⟩)) hm.list

/-! ## Buffers -/

/-- Whoever holds a buffer finds in it what was there before. -/
def Shelf.SameContents (s t : Shelf) : Prop :=
  ∀ i, 0 < (t.get i).holders →
    (t.get i).content = (s.get i).content ∧ (t.get i).poisoned = (s.get i).poisoned

namespace Shelf

variable {s t : Shelf} {i j : BufferId}

theorem SameContents.of_get_eq (h : ∀ i, t.get i = s.get i) : s.SameContents t := by
  intro i _
  rw [h i]
  exact ⟨rfl, rfl⟩

theorem get_modify_of_le {f : SharedBuffer → SharedBuffer} (h : s.cells.size ≤ i) :
    (s.modify i f).get j = s.get j := by
  by_cases hij : i = j
  · subst hij
    have hsize : (s.modify i f).cells.size ≤ i := by rwa [size_modify]
    rw [get, get, Array.getElem?_eq_none hsize, Array.getElem?_eq_none h]
  · exact get_modify_of_ne hij f

/-- A buffer that is put back as it is changes nothing. -/
theorem get_modify_get : (s.modify i fun _ => s.get i).get j = s.get j := by
  rcases Nat.lt_or_ge i s.cells.size with hi | hi
  · by_cases hij : i = j
    · subst hij
      exact get_modify_self hi _
    · exact get_modify_of_ne hij _
  · exact get_modify_of_le hi

theorem SameContents.letGo (h : s.SameContents t) : s.SameContents (t.letGo i) := by
  intro j hheld
  rcases Nat.lt_or_ge i t.cells.size with hi | hi
  · by_cases hij : i = j
    · subst hij
      rw [Shelf.letGo, get_modify_self hi] at hheld ⊢
      split at hheld
      · -- Nobody holds the buffer any more.
        rename_i hle
        exact absurd hheld (by simp only [SharedBuffer.letGo]; omega)
      · rename_i hle
        rw [if_neg hle]
        exact h i (by omega)
    · rw [get_letGo_of_ne hij] at hheld ⊢
      exact h j hheld
  · rw [Shelf.letGo, get_modify_of_le hi] at hheld ⊢
    exact h j hheld

end Shelf

/-! ## Operations -/

namespace Access

variable {x : Access} {now : Int} {s : Store}

/-- Of objects whose sizes fit exactly the refusals are answered by negative statuses. -/
theorem isError_run_iff (hfits : s.Fits) :
    (x.run now s).1.isError = true ↔ (x.run now s).1 ∈ x.refusals := by
  refine ⟨fun h => ?_, isError_of_mem_refusals⟩
  have hdone := done_run now x s
  generalize x.run now s = r at hdone h
  cases hdone with
  | refused hmem => exact hmem
  | @copied key offset buffer o hp ho hb =>
    exact absurd h (Status.not_isError_ofSize (o.size_slice_lt (hfits key o ho)))
  | created | deleted | attributeSet | attributeRemoved | written | replaced | appended | removed
  | flushed => cases h

/-- What the worker can be refused. -/
theorem refusals_of_job {j : Job} {shelf : Shelf} {status : Status}
    (h : status ∈ (j.access shelf).refusals) :
    status = .noEntry ∨ status = .tooBig ∨ status = .ioError := by
  unfold Job.access refusals at h
  grind

end Access

namespace InMemory

variable {b b' : InMemory} {shelf shelf' : Shelf} {a : Application}

/-- A read that fails leaves the buffers. -/
theorem get_readInto {key : ObjectKey} {offset : Nat} {buffer : BufferId} {store : Store}
    (hfits : store.Fits) (h : (readInto store key offset buffer shelf).1.isError = true)
    (i : BufferId) : (readInto store key offset buffer shelf).2.get i = shelf.get i := by
  unfold readInto at *
  cases hfind : store.find key with
  | error status => rfl
  | ok o =>
    simp only [hfind, Shelf.update, SharedBuffer.modify] at h ⊢
    cases hp : (shelf.get buffer).poisoned with
    | true =>
      simp only [if_true]
      exact Shelf.get_modify_get
    | false =>
      rw [hp] at h
      have hfit := hfits key o (Store.getElem?_of_find hfind)
      exact absurd h (Status.not_isError_ofSize (o.size_slice_lt hfit))

/-- **A refused operation leaves the store and the buffers.** -/
theorem step?_of_isError (hfits : b.store.Fits) (ha : b.application? shelf = some a)
    (hs : b.step? shelf = some (b', shelf')) (he : a.result.isError = true) :
    (a.result = .noEntry ∨ a.result = .tooBig ∨ a.result = .ioError) ∧ b'.store = b.store ∧
      shelf.SameContents shelf' := by
  have happly := applyJob_of_step? ha hs
  have hrun := run_of_step? ha hs
  have hrefused : ((a.job.access shelf).run b.now b.store).1.isError = true := by rwa [hrun]
  refine ⟨?_, ?_, ?_⟩
  · have hmem := (Access.isError_run_iff hfits).mp hrefused
    rw [hrun] at hmem
    exact Access.refusals_of_job hmem
  · have hstore := Access.store_of_isError hrefused
    rwa [hrun] at hstore
  · have hshelf : (applyJob b.now a.job b.store shelf).2.2 = shelf' := by rw [happly]
    have hstatus : (applyJob b.now a.job b.store shelf).1.isError = true := by rwa [happly]
    rw [← hshelf]
    unfold applyJob at hstatus ⊢
    cases hact : a.job.action with
    | flush => exact .of_get_eq fun _ => rfl
    | command c =>
      rw [hact] at hstatus
      cases c with
      | edit e => exact .of_get_eq fun _ => rfl
      | read buffer offset =>
        exact (Shelf.SameContents.of_get_eq (get_readInto hfits hstatus)).letGo

end InMemory

/-! ## Calls that are answered at once -/

namespace DirectCall

variable {b : InMemory} {l : Lent} {c : DirectCall}

/-- **A refused call leaves the backend and what was lent to it.** -/
theorem run_of_isError (hm : b.store.Modest) (h : (c.run l b).1.isError = true) :
    (c.run l b).2 = (l, b) := by
  cases c with
  | change k =>
    rw [run_change] at h ⊢
    have hstore : (k.onStore b.now b.store).2 = b.store := Access.store_of_isError (x := .call k) h
    rw [hstore]
  | listPools =>
    rw [status_listPools] at h
    exact absurd h (Status.not_isError_ofSize hm.list)
  | poolName pool =>
    cases hname : b.store.poolName? pool with
    | none => rw [run_poolName_of_none hname]
    | some name =>
      rcases run_poolName_of_some (l := l) hname with ⟨-, hrun⟩ | hstatus
      · rw [hrun]
      · have hfit := hm.name (Store.getElem?_of_poolName? hname)
        rw [hstatus] at h
        exact absurd h (Status.not_isError_ofSize hfit)
  | getAttribute key name =>
    cases hvalue : b.store.getAttribute key name with
    | error status => rw [run_getAttribute_of_error hvalue]
    | ok value =>
      rcases run_getAttribute_of_ok (l := l) hvalue with ⟨-, hrun⟩ | hstatus
      · rw [hrun]
      · obtain ⟨o, ho, ha⟩ := Store.exists_of_getAttribute hvalue
        rw [hstatus] at h
        exact absurd h (Status.not_isError_ofSize (hm.attributes key o name value ho ha))
  | stat key =>
    cases ho : b.store.objects[key]? with
    | none => rw [run_stat_of_none ho]
    | some o =>
      rw [run_stat_of_some ho] at h
      cases h

end DirectCall

/-- **A refusal leaves everything as it was.** An operation that the worker applies is refused with
one of three statuses; then the store is as before, and so are the bytes of every buffer that is
still held. A call that is refused leaves the backend, the buffer lent to it, and the places lent
for a size and a time; the list of pools leaves them also when the buffer is too small for it. -/
theorem InMemory.refused_unchanged {b : InMemory} (hm : b.store.Modest) :
    (∀ {shelf shelf' : Shelf} {b' : InMemory} {a : Application},
      b.application? shelf = some a → b.step? shelf = some (b', shelf') →
      a.result.isError = true →
      (a.result = .noEntry ∨ a.result = .tooBig ∨ a.result = .ioError) ∧ b'.store = b.store ∧
        shelf.SameContents shelf') ∧
    (∀ (c : DirectCall) (l : Lent), (c.run l b).1.isError = true → (c.run l b).2 = (l, b)) ∧
    ∀ l : Lent, l.buffer.capacity < (DirectCall.listPools.run l b).1.toSize →
      (DirectCall.listPools.run l b).2 = (l, b) := by
  refine ⟨fun ha hs he => step?_of_isError hm.objects ha hs he,
    fun c l h => DirectCall.run_of_isError hm h, fun l h => ?_⟩
  rw [DirectCall.status_listPools, Status.toSize_ofSize hm.list] at h
  rw [DirectCall.run_listPools_of_lt h]

/-! ## One store

An object with an attribute is stored, and a write that would reach too far is queued. -/

namespace Sample

def stored : Object where
  data := ⟨#[7, 8]⟩
  attributes := (∅ : Std.ExtTreeMap String ByteArray).insert "color" ⟨#[1]⟩

def farWrite : Job where
  pool := 1
  oid := "object"
  action := .command (.edit (.write ⟨#[7]⟩ 0xffffffffffffffff))
  completion := 0

def keeper : InMemory where
  store := (Store.ofPools ["data"]).putObject (1, "object") stored
  queue := [farWrite]

/-- The write as the worker applies it. -/
def application : Application where
  job := farWrite
  found := keeper.store
  result := (InMemory.applyJob keeper.now farWrite keeper.store {}).1

def lent : Lent := { buffer := ⟨Bytes.zeros 3⟩, size := 11, modified := 12 }

theorem eq_stored {key : ObjectKey} {o : Object} (ho : keeper.store.objects[key]? = some o) :
    o = stored := by
  rw [keeper, Store.getElem?_objects_putObject, Store.objects_ofPools] at ho
  split at ho
  · exact (Option.some.inj ho).symm
  · rw [Std.ExtTreeMap.getElem?_empty] at ho
    cases ho

theorem modest_keeper : keeper.store.Modest where
  objects key o ho := by
    obtain rfl := eq_stored ho
    decide
  attributes key o name value ho ha := by
    obtain rfl := eq_stored ho
    rw [stored, Std.ExtTreeMap.getElem?_insert] at ha
    split at ha
    · cases ha
      decide
    · rw [Std.ExtTreeMap.getElem?_empty] at ha
      cases ha
  list := by decide +kernel

end Sample

theorem InMemory.refused_unchanged_write_and_stat :
    Sample.keeper.store.Modest ∧
      Sample.keeper.step? {} = some (Sample.keeper.applyNext Sample.farWrite [] {}) ∧
      Sample.application.result = .tooBig ∧
      (Sample.keeper.applyNext Sample.farWrite [] {}).1.store = Sample.keeper.store ∧
      ((DirectCall.stat (1, "other")).run Sample.lent Sample.keeper).1 = .noEntry ∧
      ((DirectCall.stat (1, "other")).run Sample.lent Sample.keeper).2 =
        (Sample.lent, Sample.keeper) ∧
      (DirectCall.listPools.run Sample.lent Sample.keeper).1 = .ofSize 6 ∧
      (DirectCall.listPools.run Sample.lent Sample.keeper).2 = (Sample.lent, Sample.keeper) := by
  obtain ⟨hwork, hcall, hlist⟩ := refused_unchanged Sample.modest_keeper
  have happlied : Sample.keeper.application? {} = some Sample.application := rfl
  have hresult : Sample.application.result = .tooBig := by decide +kernel
  have hstore := (hwork happlied rfl (by rw [hresult]; rfl)).2.1
  have hstat : ((DirectCall.stat (1, "other")).run Sample.lent Sample.keeper).1 = .noEntry := by
    decide +kernel
  have hsize : (DirectCall.listPools.run Sample.lent Sample.keeper).1 = .ofSize 6 := by
    decide +kernel
  exact ⟨Sample.modest_keeper, rfl, hresult, hstore, hstat, hcall _ _ (by rw [hstat]; rfl), hsize,
    hlist _ (by rw [hsize]; decide)⟩

end Milepost
