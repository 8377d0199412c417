import Milepost.Proofs.Contents
import Milepost.Proofs.Lookups
import Milepost.Proofs.Schedule

/-!
# A reference for the store

What the store of the backend in memory means, told without its maps and byte strings. A
`Reference` knows its pools by name and number, and under some keys it has an object, which is a
length, a byte for each position below it, and a value for each attribute that is there.
`Reference.access` says what one access makes of it and which number it answers.

* `Object.view_writeAt`: a write to an object seen as the reference sees it.
* `Store.Mirrors.access`: on a store that mirrors a reference every access answers what it answers
  on the reference, and what it leaves mirrors what it leaves there.
-/

namespace Milepost

/-! ## Accesses -/

/-- What is done to a store while nobody else has it. -/
inductive Access
  | call (k : StoreCall)
  | edit (key : ObjectKey) (e : Edit)
  /-- A read copies into the buffer as it is at that moment. -/
  | read (key : ObjectKey) (offset : Nat) (buffer : SharedBuffer)
  | flush (pool : PoolId)
deriving DecidableEq

/-- The result of a read into a buffer. -/
def Store.readAnswer (s : Store) (key : ObjectKey) (offset : Nat) (buffer : SharedBuffer) :
    Status :=
  match s.find key with
  | .error status => status
  | .ok o =>
    match buffer.capacity with
    | .ok n => .ofSize (o.slice offset n).size
    | .error _ => .ioError

/-- The answer of a call that changes the store, and the store after it. -/
def StoreCall.onStore (now : Int) : StoreCall → Store → Status × Store
  | createPool name => Store.createPool name
  | deletePool name => Store.deletePool name
  | setAttribute key name value => Store.setAttribute now key name value
  | removeAttribute key name => Store.removeAttribute now key name

namespace Access

/-- The answer of an access, and the store after it. -/
def run (now : Int) (x : Access) (s : Store) : Status × Store :=
  match x with
  | call k => k.onStore now s
  | edit key e => s.edit now key e
  | read key offset buffer => (s.readAnswer key offset buffer, s)
  | flush pool => (if s.hasPool pool then 0 else .noEntry, s)

/-- Data that is written has a size that fits into a status, and nobody spoiled a buffer that is
read into. -/
def IsRegular : Access → Prop
  | edit _ (.write data _) | edit _ (.writeFull data) | edit _ (.append data) =>
    data.size < 0x80000000
  | read _ _ buffer => buffer.poisoned = false
  | call _ | edit _ .remove | flush _ => True

instance : DecidablePred IsRegular
  | edit _ (.write data _) | edit _ (.writeFull data) | edit _ (.append data) =>
    inferInstanceAs (Decidable (data.size < 0x80000000))
  | read _ _ buffer => inferInstanceAs (Decidable (buffer.poisoned = false))
  | call _ | edit _ .remove | flush _ => inferInstanceAs (Decidable True)

end Access

/-! ## The reference -/

/-- An object as a length, a byte for each position below it, and its attributes. -/
structure Reference.Object where
  length : Nat
  byte : Fin length → UInt8
  attributes : String → Option ByteArray

/-- Pools and objects. -/
structure Reference where
  /-- The name and the number of each pool. -/
  pools : List (String × PoolId) := []
  /-- The number given last. -/
  lastPool : PoolId := 0
  objects : ObjectKey → Option Reference.Object := fun _ => none

namespace Reference

namespace Object

/-- An object without bytes and attributes. -/
def empty : Object := ⟨0, fun i => i.elim0, fun _ => none⟩

/-- The object with data at an offset: the positions of the data have its bytes, those before
keep theirs, and positions that were not there are zero. -/
def write (o : Object) (offset : Nat) (data : ByteArray) : Object where
  length := max o.length (offset + data.size)
  byte i :=
    if h : offset ≤ i.val ∧ i.val - offset < data.size then data.get (i.val - offset) h.2
    else if h : i.val < o.length then o.byte ⟨i.val, h⟩
    else 0
  attributes := o.attributes

/-- The object with data in place of all its bytes. -/
def replace (o : Object) (data : ByteArray) : Object where
  length := data.size
  byte i := data.get i.val i.isLt
  attributes := o.attributes

/-- The object with a value for an attribute, or without one. -/
def setAttribute (o : Object) (name : String) (value : Option ByteArray) : Object :=
  { o with attributes := fun n => if n = name then value else o.attributes n }

end Object

variable (r : Reference)

/-- The number of the pool of the name. -/
def number? (name : String) : Option PoolId := (r.pools.find? (·.1 == name)).map (·.2)

/-- Whether a pool has the number. -/
def hasPool (pool : PoolId) : Bool := r.pools.any (·.2 == pool)

/-- The object of the key, or an empty one. -/
def objectOrNew (key : ObjectKey) : Object := (r.objects key).getD .empty

/-- The reference with an object under the key, or without one. -/
def put (key : ObjectKey) (o : Option Object) : Reference :=
  { r with objects := fun k => if k = key then o else r.objects k }

/-- The reference with one pool more. -/
def addPool (name : String) : Reference :=
  if (r.number? name).isSome then r
  else { r with pools := r.pools ++ [(name, r.lastPool + 1)], lastPool := r.lastPool + 1 }

/-- A reference with pools of the names. -/
def ofPools (names : List String) : Reference := names.foldl addPool {}

/-! ### What is answered

The numbers are those of the errors: 2 for a pool or an object that is not there, 17 for a name in
use, 27 for an object that would be too large, 61 for an attribute that is not there. -/

/-- Puts data at an offset, if it ends within the size that an object may have. -/
def write (key : ObjectKey) (data : ByteArray) (offset : Nat) : Int × Reference :=
  if offset + data.size ≤ Milepost.Object.maxSize then
    (0, r.put key (some ((r.objectOrNew key).write offset data)))
  else (-27, r)

/-- Changes an object of an existing pool. -/
def edit (key : ObjectKey) : Edit → Int × Reference
  | .write data offset => r.write key data offset
  | .writeFull data => (0, r.put key (some ((r.objectOrNew key).replace data)))
  | .append data => r.write key data (r.objectOrNew key).length
  | .remove => if (r.objects key).isSome then (0, r.put key none) else (-2, r)

/-- How many bytes a read finds. -/
def read (key : ObjectKey) (offset capacity : Nat) : Int :=
  match r.objects key with
  | some o => (min capacity (o.length - offset) : Nat)
  | none => -2

/-- Makes or removes a pool or an attribute. -/
def call : StoreCall → Int × Reference
  | .createPool name =>
    if (r.number? name).isSome then (-17, r) else (0, r.addPool name)
  | .deletePool name =>
    match r.number? name with
    | some pool =>
      (0, { r with
        pools := r.pools.filter (·.1 != name)
        objects := fun key => if key.1 = pool then none else r.objects key })
    | none => (-2, r)
  | .setAttribute key name value =>
    if r.hasPool key.1 then
      (0, r.put key (some ((r.objectOrNew key).setAttribute name (some value))))
    else (-2, r)
  | .removeAttribute key name =>
    match r.objects key with
    | some o =>
      if (o.attributes name).isSome then (0, r.put key (some (o.setAttribute name none)))
      else (-61, r)
    | none => (-2, r)

/-- **What an access answers, and what it leaves.** -/
def access : Access → Int × Reference
  | .call k => r.call k
  | .edit key e => if r.hasPool key.1 then r.edit key e else (-2, r)
  | .read key offset buffer =>
    (if r.hasPool key.1 then r.read key offset buffer.content.capacity else -2, r)
  | .flush pool => (if r.hasPool pool then 0 else -2, r)

theorem Object.ext_byte {a b : Object} (hl : a.length = b.length)
    (hb : ∀ i (ha : i < a.length) (hb : i < b.length), a.byte ⟨i, ha⟩ = b.byte ⟨i, hb⟩)
    (ha : a.attributes = b.attributes) : a = b := by
  obtain ⟨length, byte, attributes⟩ := a
  obtain ⟨length', byte', attributes'⟩ := b
  cases hl
  cases ha
  have hbyte : byte = byte' := funext fun i => hb i.val i.isLt i.isLt
  rw [hbyte]

end Reference

/-! ## Objects as the reference sees them -/

namespace Object

variable {o : Object} {now : Int} {offset capacity : Nat} {data : ByteArray} {name : String}

/-- An object as the reference sees it. When it was changed is left out. -/
def view (o : Object) : Reference.Object where
  length := o.data.size
  byte i := o.data.get i.val i.isLt
  attributes name := o.attributes[name]?

theorem view_empty : ({} : Object).view = .empty :=
  Reference.Object.ext_byte rfl (fun i h => absurd h (Nat.not_lt_zero i))
    (funext fun _ => Std.ExtTreeMap.getElem?_empty)

theorem byte_view {i : Nat} (h : i < o.view.length) : o.view.byte ⟨i, h⟩ = Bytes.byteAt o.data i :=
  (Bytes.byteAt_eq_get h).symm

/-- **A write as the reference sees it.** -/
theorem view_writeAt : (o.writeAt now offset data).view = o.view.write offset data := by
  have hsize : (o.writeAt now offset data).data.size = max o.data.size (offset + data.size) :=
    Bytes.size_writeAt ..
  refine Reference.Object.ext_byte hsize (fun i hi hi' => ?_) rfl
  rw [byte_view, writeAt, Bytes.byteAt_writeAt]
  dsimp only [Reference.Object.write]
  by_cases h : offset ≤ i ∧ i < offset + data.size
  · have hlt : i - offset < data.size := by omega
    rw [if_pos h, dif_pos ⟨h.1, hlt⟩, Bytes.byteAt_eq_get hlt]
  · rw [if_neg h, dif_neg (by omega)]
    by_cases hold : i < o.view.length
    · rw [dif_pos hold, byte_view]
    · rw [dif_neg hold]
      exact Bytes.byteAt_of_size_le (Nat.le_of_not_lt hold)

theorem view_replace : (o.replace now data).view = o.view.replace data := rfl

theorem view_setAttribute {value : ByteArray} :
    (o.setAttribute now name value).view = o.view.setAttribute name (some value) := by
  refine Reference.Object.ext_byte rfl (fun _ _ _ => rfl) (funext fun n => ?_)
  change (o.attributes.insert name value)[n]? = if n = name then some value else o.attributes[n]?
  exact Lookup.getElem?_insert

theorem view_removeAttribute :
    (o.removeAttribute now name).view = o.view.setAttribute name none := by
  refine Reference.Object.ext_byte rfl (fun _ _ _ => rfl) (funext fun n => ?_)
  change (o.attributes.erase name)[n]? = if n = name then none else o.attributes[n]?
  exact Lookup.getElem?_erase

end Object

/-! ## Stores that mirror a reference -/

namespace Store

/-- The store has the pools and the objects of the reference. -/
structure Mirrors (s : Store) (r : Reference) : Prop where
  pools : ∀ name pool, (name, pool) ∈ r.pools ↔ s.pools[name]? = some pool
  lastPool : r.lastPool = s.lastPool
  objects : ∀ key, r.objects key = s.objects[key]?.map Object.view

/-- What was done to a store and to a reference had the same answer and left the one mirroring
the other. -/
structure Agrees (x : Status × Store) (y : Int × Reference) : Prop where
  answer : x.1.toInt = y.1
  mirrors : x.2.Mirrors y.2

/-- Every object has a size that fits into a status. -/
def Fits (s : Store) : Prop :=
  ∀ (key : ObjectKey) (o : Object), s.objects[key]? = some o → o.data.size < 0x80000000

variable {s : Store} {r : Reference} {key : ObjectKey} {o : Object} {name : String}
  {pool : PoolId} {now : Int} {data : ByteArray} {offset : Nat}

namespace Mirrors

theorem empty : Mirrors {} {} where
  pools name pool := by simp
  lastPool := rfl
  objects key := by simp

theorem number? (h : s.Mirrors r) : r.number? name = s.pools[name]? := by
  cases hf : r.pools.find? (·.1 == name) with
  | none =>
    rw [Reference.number?, hf, Option.map_none, eq_comm, Option.eq_none_iff_forall_ne_some]
    intro pool hp
    have hno := List.find?_eq_none.mp hf _ ((h.pools name pool).mpr hp)
    exact hno (beq_iff_eq.mpr rfl)
  | some x =>
    have hname : x.1 = name := by simpa using List.find?_some hf
    rw [Reference.number?, hf, ← hname, Option.map_some]
    exact ((h.pools x.1 x.2).mp (List.mem_of_find?_eq_some hf)).symm

theorem isSome_number? (h : s.Mirrors r) :
    (r.number? name).isSome = s.pools.contains name := by
  rw [h.number?, Std.ExtTreeMap.contains_eq_isSome_getElem?]

theorem hasPool (h : s.Mirrors r) : s.hasPool pool = r.hasPool pool := by
  rw [Bool.eq_iff_iff, Store.hasPool, Reference.hasPool, List.any_eq_true, List.any_eq_true]
  refine exists_congr fun x => and_congr_left fun _ => ?_
  rw [Std.ExtTreeMap.mem_toList_iff_getElem?_eq_some, h.pools x.1 x.2]

theorem objectOrNew (h : s.Mirrors r) : r.objectOrNew key = (s.objectOrNew key).view := by
  rw [Reference.objectOrNew, h.objects, Store.objectOrNew]
  cases s.objects[key]? with
  | none => exact Object.view_empty.symm
  | some o => rfl

theorem put (h : s.Mirrors r) : (s.putObject key o).Mirrors (r.put key (some o.view)) where
  pools := h.pools
  lastPool := h.lastPool
  objects k := by
    change (if k = key then _ else r.objects k) = (s.objects.insert key o)[k]?.map _
    rw [Lookup.getElem?_insert, h.objects]
    split
    · rfl
    · rfl

theorem remove (h : s.Mirrors r) :
    Mirrors { s with objects := s.objects.erase key } (r.put key none) where
  pools := h.pools
  lastPool := h.lastPool
  objects k := by
    change (if k = key then _ else r.objects k) = (s.objects.erase key)[k]?.map _
    rw [Lookup.getElem?_erase, h.objects]
    split
    · rfl
    · rfl

theorem addPool (h : s.Mirrors r) : (s.addPool name).Mirrors (r.addPool name) := by
  rw [Store.addPool, Reference.addPool, h.isSome_number?]
  cases hc : s.pools.contains name with
  | true => exact h
  | false =>
    have hnone : s.pools[name]? = none := by
      rw [Std.ExtTreeMap.contains_eq_isSome_getElem?] at hc
      exact Option.not_isSome_iff_eq_none.mp (Bool.eq_false_iff.mp hc)
    refine ⟨fun n pool => ?_, congrArg (· + 1) h.lastPool, h.objects⟩
    change (n, pool) ∈ r.pools ++ [(name, r.lastPool + 1)] ↔
      (s.pools.insert name (s.lastPool + 1))[n]? = some pool
    rw [List.mem_append, List.mem_singleton, h.pools, h.lastPool, Lookup.getElem?_insert,
      Prod.mk.injEq]
    by_cases hn : n = name
    · subst hn
      rw [hnone, if_pos rfl, Option.some.injEq]
      constructor
      · intro h
        exact (h.resolve_left nofun).2.symm
      · intro h
        exact .inr ⟨rfl, h.symm⟩
    · rw [if_neg hn]
      exact or_iff_left fun h => hn h.1

theorem ofPools (names : List String) : (Store.ofPools names).Mirrors (.ofPools names) := by
  have extend : ∀ {s : Store} {r : Reference}, s.Mirrors r →
      (names.foldl Store.addPool s).Mirrors (names.foldl Reference.addPool r) := by
    induction names with
    | nil => exact id
    | cons name names ih => exact fun h => ih h.addPool
  exact extend .empty

end Mirrors

/-! ### One access -/

namespace Agrees

/-- What is refused leaves store and reference as they were. -/
theorem refused {status : Status} {answer : Int} (h : s.Mirrors r)
    (ha : status.toInt = answer) : Agrees (status, s) (answer, r) := ⟨ha, h⟩

theorem write (h : s.Mirrors r) :
    Agrees (s.write now key data offset) (r.write key data offset) := by
  unfold Store.write Object.writeEnd? Reference.write
  by_cases hle : offset + data.size ≤ Object.maxSize
  · rw [if_pos hle, if_pos hle, h.objectOrNew, ← Object.view_writeAt]
    exact ⟨rfl, h.put⟩
  · rw [if_neg hle, if_neg hle]
    exact refused h rfl

theorem editObject (h : s.Mirrors r) (e : Edit) :
    Agrees (s.editObject now key e) (r.edit key e) := by
  cases e with
  | write data offset => exact write h
  | writeFull data =>
    rw [Reference.edit, h.objectOrNew, ← Object.view_replace]
    exact ⟨rfl, h.put⟩
  | append data =>
    rw [Reference.edit, h.objectOrNew]
    exact write h
  | remove =>
    rw [Store.editObject, Reference.edit, h.objects, Option.isSome_map,
      ← Std.ExtTreeMap.contains_eq_isSome_getElem?]
    cases s.objects.contains key with
    | true => exact ⟨rfl, h.remove⟩
    | false => exact refused h rfl

theorem edit (h : s.Mirrors r) (e : Edit) :
    Agrees (s.edit now key e) (r.access (.edit key e)) := by
  rw [Store.edit, Reference.access, h.hasPool]
  cases r.hasPool key.1 with
  | true => exact editObject h e
  | false => exact refused h rfl

theorem deletePool (h : s.Mirrors r) : Agrees (s.deletePool name) (r.call (.deletePool name)) := by
  rw [Store.deletePool, Reference.call, h.number?]
  cases s.pools[name]? with
  | none => exact refused h rfl
  | some pool =>
    refine ⟨rfl, fun n p => ?_, h.lastPool, fun key => ?_⟩
    · change (n, p) ∈ r.pools.filter (·.1 != name) ↔ (s.pools.erase name)[n]? = some p
      rw [List.mem_filter, h.pools, Lookup.getElem?_erase, bne_iff_ne]
      by_cases hn : n = name
      · rw [if_pos hn]
        exact iff_of_false (fun h => h.2 hn) nofun
      · rw [if_neg hn]
        exact and_iff_left hn
    · change (if key.1 = pool then none else r.objects key) =
        (s.objects.filter fun key _ => key.1 != pool)[key]?.map _
      rw [Std.ExtTreeMap.getElem?_filter', h.objects]
      by_cases hk : key.1 = pool
      · rw [if_pos hk]
        cases s.objects[key]? <;> simp [hk]
      · rw [if_neg hk]
        cases s.objects[key]? with
        | none => rfl
        | some o =>
          refine congrArg _ (Eq.symm ?_)
          exact Option.filter_some_pos (bne_iff_ne.mpr hk)

theorem setAttribute (h : s.Mirrors r) {value : ByteArray} :
    Agrees (s.setAttribute now key name value) (r.call (.setAttribute key name value)) := by
  rw [Store.setAttribute, Reference.call, h.hasPool]
  cases r.hasPool key.1 with
  | true =>
    have hview : ((s.objectOrNew key).setAttribute now name value).view = _ :=
      Object.view_setAttribute
    simp only [if_true, h.objectOrNew, ← hview]
    exact ⟨rfl, h.put⟩
  | false => exact refused h rfl

theorem removeAttribute (h : s.Mirrors r) :
    Agrees (s.removeAttribute now key name) (r.call (.removeAttribute key name)) := by
  rw [Store.removeAttribute, Reference.call, h.objects]
  cases s.objects[key]? with
  | none => exact refused h rfl
  | some o =>
    have hattribute : (o.view.attributes name).isSome = o.attributes.contains name :=
      Std.ExtTreeMap.contains_eq_isSome_getElem?.symm
    simp only [Option.map_some, hattribute]
    cases o.attributes.contains name with
    | true =>
      have hview : (o.removeAttribute now name).view = _ := Object.view_removeAttribute
      simp only [if_true, ← hview]
      exact ⟨rfl, h.put⟩
    | false => exact refused h rfl

theorem call (h : s.Mirrors r) (k : StoreCall) : Agrees (k.onStore now s) (r.call k) := by
  cases k with
  | createPool name =>
    rw [StoreCall.onStore, Store.createPool, Reference.call, h.isSome_number?]
    cases s.pools.contains name with
    | true => exact refused h rfl
    | false => exact ⟨rfl, h.addPool⟩
  | deletePool name => exact deletePool h
  | setAttribute key name value => exact setAttribute h
  | removeAttribute key name => exact removeAttribute h

/-- Objects whose sizes fit are read without loss. -/
theorem read (h : s.Mirrors r) (hfits : s.Fits) {buffer : SharedBuffer}
    (hb : buffer.poisoned = false) :
    Agrees (s.readAnswer key offset buffer, s) (r.access (.read key offset buffer)) := by
  refine ⟨?_, h⟩
  have hcapacity := SharedBuffer.capacity_of_not_poisoned hb
  rw [Reference.access, ← h.hasPool, readAnswer, find]
  cases s.hasPool key.1 with
  | false => rfl
  | true =>
    simp only [if_true, Reference.read, h.objects]
    cases hobject : s.objects[key]? with
    | none => rfl
    | some o =>
      have hlt := hfits key o hobject
      have hsize : (o.slice offset buffer.content.capacity).size =
          min buffer.content.capacity (o.data.size - offset) :=
        Object.size_slice.trans Object.length_part
      simp only [hcapacity, hsize, Option.map_some]
      exact Int32.toInt_ofNat_of_lt (by omega)

end Agrees

/-- **A store that mirrors a reference answers every access as the reference does.** -/
theorem Mirrors.access (h : s.Mirrors r) (now : Int) (hfits : s.Fits) {x : Access}
    (hx : x.IsRegular) : Agrees (x.run now s) (r.access x) := by
  cases x with
  | call k => exact .call h k
  | edit key e => exact .edit h e
  | read key offset buffer => exact .read h hfits hx
  | flush pool =>
    refine ⟨?_, h⟩
    rw [Access.run, Reference.access, h.hasPool]
    cases r.hasPool pool <;> rfl

/-! ### Sizes -/

/-- A new pool has no objects. -/
theorem objects_addPool : (s.addPool name).objects = s.objects := by
  unfold addPool
  split
  · rfl
  · rfl

theorem objects_ofPools (names : List String) : (ofPools names).objects = ∅ := by
  have extend : ∀ {s : Store}, s.objects = ∅ → (names.foldl addPool s).objects = ∅ := by
    induction names with
    | nil => exact id
    | cons name names ih => exact fun hs => ih (objects_addPool.trans hs)
  exact extend rfl

theorem Fits.ofPools (names : List String) : (Store.ofPools names).Fits := by
  intro key o ho
  rw [objects_ofPools, Std.ExtTreeMap.getElem?_empty] at ho
  cases ho

end Store

end Milepost
