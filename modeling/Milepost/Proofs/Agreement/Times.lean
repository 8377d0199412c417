import Milepost.Proofs.Changes
import Milepost.Proofs.Shelving

/-!
# Stores that differ in times

The clock stamps every object that is changed, and nothing but a look at the stamp tells two stores
apart that differ in the stamps alone. Such stores answer every access in the same way, whatever
the clock shows, and differ in nothing but stamps after it. A change of one object needs less: its
answer and what it leaves under its key follow from what is there under that key alone, and from
whether there is such a pool.

* `Access.sameBut_run`: a change of an object leaves all other objects.
* `Store.SameAt.run`: it has the same answer on two stores that differ elsewhere.
* `Store.SameButTimes.run`: an access has the same answer on stores that differ in times.
* `Store.SameButTimes.readResult`, `Store.SameButTimes.readContent`: so does a read into a buffer
  of its own.
-/

namespace Milepost

/-- The object without the time of its last change. -/
def Object.undated (o : Object) : Object := { o with modified := 0 }

/-- The object that an access changes, if it changes one. -/
def Access.changed? : Access → Option ObjectKey
  | edit key _ | call (.setAttribute key ..) | call (.removeAttribute key _) => some key
  | call (.createPool _) | call (.deletePool _) | read .. | flush _ => none

namespace Store

/-- The second store differs from the first under the key at most. -/
structure SameBut (key : ObjectKey) (s s' : Store) : Prop where
  pools : s'.pools = s.pools
  lastPool : s'.lastPool = s.lastPool
  objects : ∀ k : ObjectKey, k ≠ key → s'.objects[k]? = s.objects[k]?

/-- The second store has the pool of the key if the first has it, and the same under the key but
for the time of the last change. -/
structure SameAt (key : ObjectKey) (s s' : Store) : Prop where
  hasPool : s'.hasPool key.1 = s.hasPool key.1
  object : s'.objects[key]?.map Object.undated = s.objects[key]?.map Object.undated

/-- The second store has the pools of the first, and its objects but for the times of their last
changes. -/
structure SameButTimes (s s' : Store) : Prop where
  pools : s'.pools = s.pools
  lastPool : s'.lastPool = s.lastPool
  objects : ∀ key : ObjectKey,
    s'.objects[key]?.map Object.undated = s.objects[key]?.map Object.undated

/-- Two accesses had the same answer and left stores so related. -/
structure SameOutcome (R : Store → Store → Prop) (x x' : Status × Store) : Prop where
  answer : x'.1 = x.1
  store : R x.2 x'.2

end Store

namespace Object

variable {o o' : Object} {now now' : Int}

theorem data_eq (h : o'.undated = o.undated) : o'.data = o.data := (Object.mk.inj h).1

theorem attributes_eq (h : o'.undated = o.undated) : o'.attributes = o.attributes :=
  (Object.mk.inj h).2.1

theorem undated_writeAt {data : ByteArray} {offset : Nat} (h : o'.undated = o.undated) :
    (o'.writeAt now' offset data).undated = (o.writeAt now offset data).undated := by
  simp only [undated, writeAt, data_eq h, attributes_eq h]

theorem undated_replace {data : ByteArray} (h : o'.undated = o.undated) :
    (o'.replace now' data).undated = (o.replace now data).undated := by
  simp only [undated, replace, attributes_eq h]

theorem undated_setAttribute {name : String} {value : ByteArray} (h : o'.undated = o.undated) :
    (o'.setAttribute now' name value).undated = (o.setAttribute now name value).undated := by
  simp only [undated, setAttribute, data_eq h, attributes_eq h]

theorem undated_removeAttribute {name : String} (h : o'.undated = o.undated) :
    (o'.removeAttribute now' name).undated = (o.removeAttribute now name).undated := by
  simp only [undated, removeAttribute, data_eq h, attributes_eq h]

theorem slice_eq {offset capacity : Nat} (h : o'.undated = o.undated) :
    o'.slice offset capacity = o.slice offset capacity := by
  simp only [slice, data_eq h]

end Object

/-! ## Changes of one object -/

/-- **A change of an object leaves all other objects**, and the pools. -/
theorem Access.sameBut_run {x : Access} {key : ObjectKey} (hx : x.changed? = some key) (now : Int)
    (s : Store) : s.SameBut key (x.run now s).2 := by
  have hput : ∀ o, s.SameBut key (s.putObject key o) := fun o =>
    ⟨rfl, rfl, fun k hk => Store.getElem?_objects_putObject.trans (if_neg hk)⟩
  have hdone := done_run now x s
  generalize x.run now s = r at hdone
  cases hdone with
  | refused => exact ⟨rfl, rfl, fun _ _ => rfl⟩
  | attributeSet | attributeRemoved | written | replaced | appended =>
    cases hx
    exact hput _
  | removed =>
    cases hx
    exact ⟨rfl, rfl, fun k hk => Lookup.getElem?_erase.trans (if_neg hk)⟩
  | created | deleted | copied | flushed => cases hx

namespace Store

variable {s s' t t' : Store} {key : ObjectKey} {o o' : Object} {now now' : Int} {pool : PoolId}

namespace SameBut

theorem trans {u : Store} (h : SameBut key s t) (h' : SameBut key t u) : SameBut key s u where
  pools := h'.pools.trans h.pools
  lastPool := h'.lastPool.trans h.lastPool
  objects k hk := (h'.objects k hk).trans (h.objects k hk)

theorem hasPool (h : SameBut key s t) : t.hasPool pool = s.hasPool pool := hasPool_congr h.pools

end SameBut

namespace SameAt

/-- What is stored under the key, in both stores or in neither. -/
theorem cases (h : SameAt key s s') :
    s.objects[key]? = none ∧ s'.objects[key]? = none ∨
      ∃ o o', s.objects[key]? = some o ∧ s'.objects[key]? = some o' ∧ o'.undated = o.undated := by
  have hkey := h.object
  cases ho : s.objects[key]? with
  | none =>
    rw [ho, Option.map_none, Option.map_eq_none_iff] at hkey
    exact .inl ⟨rfl, hkey⟩
  | some o =>
    rw [ho, Option.map_some] at hkey
    obtain ⟨o', ho', hu⟩ := Option.map_eq_some_iff.mp hkey
    exact .inr ⟨o, o', rfl, ho', hu⟩

theorem isSome (h : SameAt key s s') : s'.objects[key]?.isSome = s.objects[key]?.isSome := by
  have hmap := congrArg Option.isSome h.object
  rwa [Option.isSome_map, Option.isSome_map] at hmap

theorem objectOrNew (h : SameAt key s s') :
    (s'.objectOrNew key).undated = (s.objectOrNew key).undated := by
  unfold Store.objectOrNew
  rcases h.cases with ⟨ho, ho'⟩ | ⟨o, o', ho, ho', hu⟩
  · rw [ho, ho']
  · rw [ho, ho']
    exact hu

theorem putObject (h : SameAt key s s') (hu : o'.undated = o.undated) :
    SameAt key (s.putObject key o) (s'.putObject key o') where
  hasPool := h.hasPool
  object := by
    rw [getElem?_objects_putObject, getElem?_objects_putObject, if_pos rfl, if_pos rfl,
      Option.map_some, Option.map_some, hu]

theorem eraseObject (h : SameAt key s s') :
    SameAt key { s with objects := s.objects.erase key }
      { s' with objects := s'.objects.erase key } where
  hasPool := h.hasPool
  object := by simp only [Lookup.getElem?_erase, if_pos]

theorem setAttribute (h : SameAt key s s') (name : String) (value : ByteArray) :
    SameOutcome (SameAt key) (s.setAttribute now key name value)
      (s'.setAttribute now' key name value) := by
  unfold Store.setAttribute
  rw [h.hasPool]
  split
  · exact ⟨rfl, h.putObject (Object.undated_setAttribute h.objectOrNew)⟩
  · exact ⟨rfl, h⟩

theorem removeAttribute (h : SameAt key s s') (name : String) :
    SameOutcome (SameAt key) (s.removeAttribute now key name)
      (s'.removeAttribute now' key name) := by
  unfold Store.removeAttribute
  rcases h.cases with ⟨ho, ho'⟩ | ⟨o, o', ho, ho', hu⟩
  · rw [ho, ho']
    exact ⟨rfl, h⟩
  · simp only [ho, ho', Object.attributes_eq hu]
    split
    · exact ⟨rfl, h.putObject (Object.undated_removeAttribute hu)⟩
    · exact ⟨rfl, h⟩

theorem write (h : SameAt key s s') (data : ByteArray) (offset : Nat) :
    SameOutcome (SameAt key) (s.write now key data offset) (s'.write now' key data offset) := by
  unfold Store.write
  split
  · exact ⟨rfl, h⟩
  · exact ⟨rfl, h.putObject (Object.undated_writeAt h.objectOrNew)⟩

theorem edit (h : SameAt key s s') (e : Edit) :
    SameOutcome (SameAt key) (s.edit now key e) (s'.edit now' key e) := by
  unfold Store.edit
  rw [h.hasPool]
  split
  · cases e with
    | write data offset => exact h.write data offset
    | writeFull data => exact ⟨rfl, h.putObject (Object.undated_replace h.objectOrNew)⟩
    | append data =>
      simp only [editObject, Object.data_eq h.objectOrNew]
      exact h.write data _
    | remove =>
      simp only [editObject, Std.ExtTreeMap.contains_eq_isSome_getElem?, h.isSome]
      split
      · exact ⟨rfl, h.eraseObject⟩
      · exact ⟨rfl, h⟩
  · exact ⟨rfl, h⟩

/-- **A change of an object has the same answer on both stores**, and leaves the same under its
key. -/
theorem run (h : SameAt key s s') {x : Access} (hx : x.changed? = some key) :
    SameOutcome (SameAt key) (x.run now s) (x.run now' s') := by
  cases x with
  | call k =>
    cases k with
    | setAttribute _ name value =>
      cases hx
      exact h.setAttribute name value
    | removeAttribute _ name =>
      cases hx
      exact h.removeAttribute name
    | createPool | deletePool => cases hx
  | edit _ e =>
    cases hx
    exact h.edit e
  | read | flush => cases hx

/-- The object is found in both stores or in neither, with the same refusal. -/
theorem find (h : SameAt key s s') :
    (∃ status, s.find key = .error status ∧ s'.find key = .error status) ∨
      ∃ o o', s.find key = .ok o ∧ s'.find key = .ok o' ∧ o'.undated = o.undated := by
  unfold Store.find
  rw [h.hasPool]
  cases s.hasPool key.1 with
  | false => exact .inl ⟨.noEntry, rfl, rfl⟩
  | true =>
    rcases h.cases with ⟨ho, ho'⟩ | ⟨o, o', ho, ho', hu⟩
    · rw [ho, ho']
      exact .inl ⟨.noEntry, rfl, rfl⟩
    · rw [ho, ho']
      exact .inr ⟨o, o', rfl, rfl, hu⟩

end SameAt

/-! ## All objects -/

namespace SameButTimes

theorem refl (s : Store) : SameButTimes s s := ⟨rfl, rfl, fun _ => rfl⟩

theorem hasPool (h : SameButTimes s s') : s'.hasPool pool = s.hasPool pool :=
  hasPool_congr h.pools

theorem sameAt (h : SameButTimes s s') (key : ObjectKey) : SameAt key s s' :=
  ⟨h.hasPool, h.objects key⟩

/-- Changes under one key leave stores that differ in times if they leave the same there. -/
theorem change (h : SameButTimes s s') (hs : SameBut key s t) (hs' : SameBut key s' t')
    (hkey : SameAt key t t') : SameButTimes t t' where
  pools := by rw [hs'.pools, hs.pools, h.pools]
  lastPool := by rw [hs'.lastPool, hs.lastPool, h.lastPool]
  objects k := by
    by_cases hk : k = key
    · subst hk
      exact hkey.object
    · rw [hs'.objects k hk, hs.objects k hk, h.objects k]

theorem createPool (h : SameButTimes s s') (name : String) :
    SameOutcome SameButTimes (s.createPool name) (s'.createPool name) := by
  unfold Store.createPool Store.addPool
  rw [h.pools, h.lastPool]
  split
  · exact ⟨rfl, h⟩
  · exact ⟨rfl, rfl, rfl, h.objects⟩

theorem erasePool (h : SameButTimes s s') (name : String) (pool : PoolId) :
    SameButTimes
      { s with
        pools := s.pools.erase name
        objects := s.objects.filter fun key _ => key.1 != pool }
      { s' with
        pools := s'.pools.erase name
        objects := s'.objects.filter fun key _ => key.1 != pool } where
  pools := by rw [h.pools]
  lastPool := h.lastPool
  objects k := by
    simp only [Std.ExtTreeMap.getElem?_filter']
    rcases (h.sameAt k).cases with ⟨ho, ho'⟩ | ⟨o, o', ho, ho', hu⟩
    · rw [ho, ho']
    · rw [ho, ho', Option.filter_some, Option.filter_some]
      split
      · exact congrArg some hu
      · rfl

theorem deletePool (h : SameButTimes s s') (name : String) :
    SameOutcome SameButTimes (s.deletePool name) (s'.deletePool name) := by
  have herase := h.erasePool name
  simp only [Store.deletePool, h.pools] at herase ⊢
  split
  · exact ⟨rfl, h⟩
  · exact ⟨rfl, herase _⟩

/-! ### Reads -/

theorem readResult (h : SameButTimes s s') (key : ObjectKey) (length offset : Nat) :
    s'.readResult key length offset = s.readResult key length offset := by
  unfold Store.readResult
  rcases (h.sameAt key).find with ⟨status, hs, hs'⟩ | ⟨o, o', hs, hs', hu⟩
  · rw [hs, hs']
  · simp only [hs, hs', Object.slice_eq hu]

theorem readContent (h : SameButTimes s s') (key : ObjectKey) (length offset : Nat) :
    s'.readContent key length offset = s.readContent key length offset := by
  unfold Store.readContent
  rcases (h.sameAt key).find with ⟨status, hs, hs'⟩ | ⟨o, o', hs, hs', hu⟩
  · rw [hs, hs']
  · simp only [hs, hs', Object.slice_eq hu]

theorem readAnswer (h : SameButTimes s s') (key : ObjectKey) (offset : Nat)
    (buffer : SharedBuffer) : s'.readAnswer key offset buffer = s.readAnswer key offset buffer := by
  unfold Store.readAnswer
  rcases (h.sameAt key).find with ⟨status, hs, hs'⟩ | ⟨o, o', hs, hs', hu⟩
  · rw [hs, hs']
  · simp only [hs, hs', Object.slice_eq hu]

/-- **An access has the same answer on both stores**, and leaves stores that differ in times. -/
theorem run (h : SameButTimes s s') (x : Access) :
    SameOutcome SameButTimes (x.run now s) (x.run now' s') := by
  cases hx : x.changed? with
  | some key =>
    have hkey : SameOutcome (SameAt key) (x.run now s) (x.run now' s') := (h.sameAt key).run hx
    exact ⟨hkey.answer, h.change (x.sameBut_run hx now s) (x.sameBut_run hx now' s') hkey.store⟩
  | none =>
    cases x with
    | call k =>
      cases k with
      | createPool name => exact h.createPool name
      | deletePool name => exact h.deletePool name
      | setAttribute | removeAttribute => cases hx
    | edit => cases hx
    | read key offset buffer => exact ⟨h.readAnswer key offset buffer, h⟩
    | flush pool =>
      refine ⟨?_, h⟩
      simp only [Access.run, h.hasPool]

end SameButTimes

end Store

end Milepost
