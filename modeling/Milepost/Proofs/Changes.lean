import Milepost.Proofs.Reference

/-!
# What an access does to a store

`Access.run` says by computation what an access makes of a store and what it answers. `Access.Done`
says the same by cases: an access is refused and leaves the store, or it makes its one change, with
the guard under which it does.

* `Access.done_run`: nothing else is done.
* `Access.refusals`: what an access can be refused with.
* `Access.store_of_isError`: what is answered by a refusal leaves the store.
* `Access.size_of_run`: where the size of an object comes from.
-/

namespace Milepost

/-! ## The cases of an access -/

/-- The pool that a call names by its number. -/
def StoreCall.pool? : StoreCall → Option PoolId
  | createPool _ | deletePool _ => none
  | setAttribute key .. | removeAttribute key _ => some key.1

namespace Access

/-- The pool that an access names by its number. -/
def pool? : Access → Option PoolId
  | call k => k.pool?
  | edit key _ | read key .. => some key.1
  | flush pool => some pool

/-- What an access can be refused with. -/
def refusals : Access → List Status
  | call (.createPool _) => [.inUse]
  | call (.deletePool _) => [.noEntry]
  | call (.setAttribute ..) => [.noEntry]
  | call (.removeAttribute ..) => [.noEntry, .noData]
  | edit _ (.write ..) => [.noEntry, .tooBig]
  | edit _ (.append _) => [.noEntry, .tooBig]
  | edit _ (.writeFull _) => [.noEntry]
  | edit _ .remove => [.noEntry]
  | read .. => [.noEntry, .ioError]
  | flush _ => [.noEntry]

theorem isError_of_mem_refusals {x : Access} {status : Status} (h : status ∈ x.refusals) :
    status.isError = true := by
  have hall : x.refusals.all Status.isError = true := by
    unfold refusals
    split <;> rfl
  exact List.all_eq_true.mp hall status h

/-- What an access does to a store, and its answer. -/
inductive Done (now : Int) (s : Store) : Access → Status × Store → Prop
  | refused {x : Access} {status : Status} (h : status ∈ x.refusals) : Done now s x (status, s)
  | created {name : String} (h : s.pools[name]? = none) :
    Done now s (call (.createPool name))
      (0, { s with lastPool := s.lastPool + 1, pools := s.pools.insert name (s.lastPool + 1) })
  | deleted {name : String} {pool : PoolId} (h : s.pools[name]? = some pool) :
    Done now s (call (.deletePool name))
      (0, { s with
        pools := s.pools.erase name
        objects := s.objects.filter fun key _ => key.1 != pool })
  | attributeSet {key : ObjectKey} {name : String} {value : ByteArray}
      (hp : s.hasPool key.1 = true) :
    Done now s (call (.setAttribute key name value))
      (0, s.putObject key ((s.objectOrNew key).setAttribute now name value))
  | attributeRemoved {key : ObjectKey} {name : String} {o : Object}
      (ho : s.objects[key]? = some o) (ha : o.attributes.contains name = true) :
    Done now s (call (.removeAttribute key name))
      (0, s.putObject key (o.removeAttribute now name))
  | written {key : ObjectKey} {data : ByteArray} {offset : Nat} (hp : s.hasPool key.1 = true)
      (hle : offset + data.size ≤ Object.maxSize) :
    Done now s (edit key (.write data offset))
      (0, s.putObject key ((s.objectOrNew key).writeAt now offset data))
  | replaced {key : ObjectKey} {data : ByteArray} (hp : s.hasPool key.1 = true) :
    Done now s (edit key (.writeFull data))
      (0, s.putObject key ((s.objectOrNew key).replace now data))
  | appended {key : ObjectKey} {data : ByteArray} (hp : s.hasPool key.1 = true)
      (hle : (s.objectOrNew key).data.size + data.size ≤ Object.maxSize) :
    Done now s (edit key (.append data))
      (0, s.putObject key
        ((s.objectOrNew key).writeAt now (s.objectOrNew key).data.size data))
  | removed {key : ObjectKey} {o : Object} (hp : s.hasPool key.1 = true)
      (ho : s.objects[key]? = some o) :
    Done now s (edit key .remove) (0, { s with objects := s.objects.erase key })
  /-- A read answers how many bytes it copies. -/
  | copied {key : ObjectKey} {offset : Nat} {buffer : SharedBuffer} {o : Object}
      (hp : s.hasPool key.1 = true) (ho : s.objects[key]? = some o)
      (hb : buffer.poisoned = false) :
    Done now s (read key offset buffer) (.ofSize (o.slice offset buffer.content.capacity).size, s)
  | flushed {pool : PoolId} (hp : s.hasPool pool = true) : Done now s (flush pool) (0, s)

variable {now : Int} {s : Store} {key : ObjectKey}

theorem done_call (k : StoreCall) : Done now s (call k) (k.onStore now s) := by
  cases k with
  | createPool name =>
    rw [StoreCall.onStore, Store.createPool, Store.addPool,
      Std.ExtTreeMap.contains_eq_isSome_getElem?]
    cases h : s.pools[name]? with
    | none => exact .created h
    | some pool => exact .refused List.mem_cons_self
  | deletePool name =>
    rw [StoreCall.onStore, Store.deletePool]
    cases h : s.pools[name]? with
    | none => exact .refused List.mem_cons_self
    | some pool => exact .deleted h
  | setAttribute key name value =>
    rw [StoreCall.onStore, Store.setAttribute]
    split
    · rename_i hp
      exact .attributeSet hp
    · exact .refused List.mem_cons_self
  | removeAttribute key name =>
    rw [StoreCall.onStore, Store.removeAttribute]
    cases ho : s.objects[key]? with
    | none => exact .refused List.mem_cons_self
    | some o =>
      simp only
      split
      · rename_i ha
        exact .attributeRemoved ho ha
      · exact .refused (List.mem_cons_of_mem _ List.mem_cons_self)

theorem done_edit (e : Edit) : Done now s (edit key e) (s.edit now key e) := by
  cases hp : s.hasPool key.1 with
  | false =>
    rw [Store.edit_of_not_hasPool hp]
    refine .refused ?_
    cases e <;> exact List.mem_cons_self
  | true =>
    rw [Store.edit_of_hasPool hp]
    cases e with
    | write data offset =>
      rw [Store.editObject, Store.write, Object.writeEnd?]
      by_cases hle : offset + data.size ≤ Object.maxSize
      · rw [if_pos hle]
        exact .written hp hle
      · rw [if_neg hle]
        exact .refused (List.mem_cons_of_mem _ List.mem_cons_self)
    | writeFull data => exact .replaced hp
    | append data =>
      rw [Store.editObject, Store.write, Object.writeEnd?]
      by_cases hle : (s.objectOrNew key).data.size + data.size ≤ Object.maxSize
      · rw [if_pos hle]
        exact .appended hp hle
      · rw [if_neg hle]
        exact .refused (List.mem_cons_of_mem _ List.mem_cons_self)
    | remove =>
      rw [Store.editObject, Std.ExtTreeMap.contains_eq_isSome_getElem?]
      cases ho : s.objects[key]? with
      | none => exact .refused List.mem_cons_self
      | some o => exact .removed hp ho

theorem done_read (offset : Nat) (buffer : SharedBuffer) :
    Done now s (read key offset buffer) (s.readAnswer key offset buffer, s) := by
  rw [Store.readAnswer, Store.find]
  cases hp : s.hasPool key.1 with
  | false => exact .refused List.mem_cons_self
  | true =>
    cases ho : s.objects[key]? with
    | none => exact .refused List.mem_cons_self
    | some o =>
      rw [SharedBuffer.capacity, SharedBuffer.access]
      cases hb : buffer.poisoned with
      | true => exact .refused (List.mem_cons_of_mem _ List.mem_cons_self)
      | false => exact .copied hp ho hb

/-- **Nothing else is done.** -/
theorem done_run (now : Int) (x : Access) (s : Store) : Done now s x (x.run now s) := by
  cases x with
  | call k => exact done_call k
  | edit key e => exact done_edit e
  | read key offset buffer => exact done_read offset buffer
  | flush pool =>
    rw [run]
    split
    · rename_i hp
      exact .flushed hp
    · exact .refused List.mem_cons_self

/-- What is answered by a refusal leaves the store. -/
theorem store_of_isError {x : Access} (h : (x.run now s).1.isError = true) :
    (x.run now s).2 = s := by
  have hdone := done_run now x s
  generalize x.run now s = r at hdone h
  cases hdone with
  | refused | copied | flushed => rfl
  | created | deleted | attributeSet | attributeRemoved | written | replaced | appended
  | removed => cases h

/-- A write leaves an object as large as it was, or no larger than an object may be. -/
theorem size_writeAt_cases {data : ByteArray} {offset : Nat}
    (hle : offset + data.size ≤ Object.maxSize) :
    (∃ old, s.objects[key]? = some old ∧
        ((s.objectOrNew key).writeAt now offset data).data.size = old.data.size) ∨
      ((s.objectOrNew key).writeAt now offset data).data.size ≤ Object.maxSize := by
  have hsize : ((s.objectOrNew key).writeAt now offset data).data.size =
      max (s.objectOrNew key).data.size (offset + data.size) := Bytes.size_writeAt ..
  rw [hsize]
  rcases Nat.le_total (s.objectOrNew key).data.size (offset + data.size) with hend | hend
  · rw [Nat.max_eq_right hend]
    exact .inr hle
  · rw [Nat.max_eq_left hend]
    rcases s.objectOrNew_cases key with hold | hnew
    · exact .inl ⟨_, hold, rfl⟩
    · rw [hnew]
      exact .inr (Nat.zero_le _)

/-- **Where the size of an object comes from.** It was there before, or is one that an object may
have, or is that of data that replaced the whole object. -/
theorem size_of_run {x : Access} {o : Object} (h : (x.run now s).2.objects[key]? = some o) :
    (∃ old, s.objects[key]? = some old ∧ o.data.size = old.data.size) ∨
      o.data.size ≤ Object.maxSize ∨
      ∃ data, x = edit key (.writeFull data) ∧ (x.run now s).1 = 0 ∧ o.data.size = data.size := by
  have hdone := done_run now x s
  generalize x.run now s = r at hdone h
  cases hdone with
  | refused | copied | flushed | created => exact .inl ⟨o, h, rfl⟩
  | deleted => exact .inl ⟨o, (Store.getElem?_objects_filter.mp h).2, rfl⟩
  | attributeSet =>
    rcases Store.eq_or_of_putObject h with ⟨rfl, rfl⟩ | h
    · rcases s.objectOrNew_cases key with hold | hnew
      · exact .inl ⟨_, hold, rfl⟩
      · rw [hnew]
        exact .inr (.inl (Nat.zero_le _))
    · exact .inl ⟨o, h, rfl⟩
  | attributeRemoved ho =>
    rcases Store.eq_or_of_putObject h with ⟨rfl, rfl⟩ | h
    · exact .inl ⟨_, ho, rfl⟩
    · exact .inl ⟨o, h, rfl⟩
  | written _ hle | appended _ hle =>
    rcases Store.eq_or_of_putObject h with ⟨rfl, rfl⟩ | h
    · exact (size_writeAt_cases hle).imp_right .inl
    · exact .inl ⟨o, h, rfl⟩
  | replaced =>
    rcases Store.eq_or_of_putObject h with ⟨rfl, rfl⟩ | h
    · exact .inr (.inr ⟨_, rfl, rfl, rfl⟩)
    · exact .inl ⟨o, h, rfl⟩
  | removed =>
    rw [Lookup.getElem?_erase] at h
    split at h
    · cases h
    · exact .inl ⟨o, h, rfl⟩

end Access

/-- Regular accesses leave every object with a size that fits. -/
theorem Store.Fits.access {s : Store} (h : s.Fits) (now : Int) {x : Access} (hx : x.IsRegular) :
    (x.run now s).2.Fits := by
  intro key o ho
  rcases Access.size_of_run ho with ⟨old, hold, hsize⟩ | hle | ⟨data, rfl, -, hsize⟩
  · rw [hsize]
    exact h key old hold
  · exact Nat.lt_of_le_of_lt hle (by decide)
  · rw [hsize]
    exact hx

end Milepost
