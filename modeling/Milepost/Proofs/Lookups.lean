import Milepost.Store

/-!
# Lookups in a store

What is found in a map after something was put there or taken out, and what the lookups of a store
say about its pools and objects.

* `Lookup.getElem?_insert`, `Lookup.getElem?_erase`: only the entry of the key is another one.
* `Store.hasPool_iff`, `Store.mem_poolNames`: a pool is there when its name leads to it.
* `Store.getElem?_objects_putObject`: an object that is put somewhere is found there.
-/

namespace Milepost

namespace Lookup

variable {α β : Type} {cmp : α → α → Ordering} [Std.TransCmp cmp] [Std.LawfulEqCmp cmp]
  [DecidableEq α] {t : Std.ExtTreeMap α β cmp} {a k : α} {v : β}

theorem getElem?_insert : (t.insert a v)[k]? = if k = a then some v else t[k]? := by
  rw [Std.ExtTreeMap.getElem?_insert]
  by_cases h : k = a
  · rw [if_pos h, if_pos (Std.LawfulEqCmp.compare_eq_iff_eq.mpr h.symm)]
  · rw [if_neg h, if_neg (mt Std.LawfulEqCmp.compare_eq_iff_eq.mp (Ne.symm h))]

theorem getElem?_erase : (t.erase a)[k]? = if k = a then none else t[k]? := by
  rw [Std.ExtTreeMap.getElem?_erase]
  by_cases h : k = a
  · rw [if_pos h, if_pos (Std.LawfulEqCmp.compare_eq_iff_eq.mpr h.symm)]
  · rw [if_neg h, if_neg (mt Std.LawfulEqCmp.compare_eq_iff_eq.mp (Ne.symm h))]

end Lookup

namespace Store

variable {s : Store} {key k : ObjectKey} {o o' : Object} {name n : String} {pool : PoolId}

theorem hasPool_iff : s.hasPool pool = true ↔ ∃ name : String, s.pools[name]? = some pool := by
  rw [hasPool, List.any_eq_true]
  constructor
  · rintro ⟨⟨name, p⟩, hm, hp⟩
    obtain rfl : p = pool := beq_iff_eq.mp hp
    exact ⟨name, Std.ExtTreeMap.mem_toList_iff_getElem?_eq_some.mp hm⟩
  · rintro ⟨name, h⟩
    exact ⟨(name, pool), Std.ExtTreeMap.mem_toList_iff_getElem?_eq_some.mpr h,
      beq_self_eq_true pool⟩

theorem hasPool_of_getElem? (h : s.pools[name]? = some pool) : s.hasPool pool = true :=
  hasPool_iff.mpr ⟨name, h⟩

theorem hasPool_congr {t : Store} (h : t.pools = s.pools) : t.hasPool pool = s.hasPool pool := by
  rw [hasPool, hasPool, h]

theorem pools_ne_of_not_hasPool (h : s.hasPool pool = false) : s.pools[name]? ≠ some pool :=
  fun hn => Bool.eq_false_iff.mp h (hasPool_of_getElem? hn)

theorem getElem?_of_poolName? (h : s.poolName? pool = some name) :
    s.pools[name]? = some pool := by
  obtain ⟨⟨n, p⟩, hfind, rfl⟩ := Option.map_eq_some_iff.mp h
  obtain rfl : p = pool := beq_iff_eq.mp (List.find?_some hfind :)
  exact Std.ExtTreeMap.mem_toList_iff_getElem?_eq_some.mp (List.mem_of_find?_eq_some hfind)

theorem mem_poolNames : name ∈ s.poolNames ↔ ∃ pool : PoolId, s.pools[name]? = some pool := by
  rw [poolNames, Std.ExtTreeMap.mem_keys, Std.ExtTreeMap.mem_iff_isSome_getElem?,
    Option.isSome_iff_exists]

theorem getElem?_of_find (h : s.find key = .ok o) : s.objects[key]? = some o := by
  unfold find at h
  split at h
  · split at h
    · cases h
    · rename_i o' ho
      cases h
      exact ho
  · cases h

theorem exists_of_getAttribute {value : ByteArray} (h : s.getAttribute key name = .ok value) :
    ∃ o : Object, s.objects[key]? = some o ∧ o.attributes[name]? = some value := by
  unfold getAttribute at h
  split at h
  · cases h
  · rename_i o ho
    split at h
    · cases h
    · rename_i v hv
      cases h
      exact ⟨o, ho, hv⟩

theorem getElem?_objects_putObject :
    (s.putObject key o).objects[k]? = if k = key then some o else s.objects[k]? :=
  Lookup.getElem?_insert

theorem eq_or_of_putObject (h : (s.putObject key o).objects[k]? = some o') :
    k = key ∧ o' = o ∨ s.objects[k]? = some o' := by
  rw [getElem?_objects_putObject] at h
  split at h
  · rename_i hk
    exact .inl ⟨hk, (Option.some.inj h).symm⟩
  · exact .inr h

/-- What is left of the objects without those of a pool. -/
theorem getElem?_objects_filter :
    (s.objects.filter fun key _ => key.1 != pool)[k]? = some o ↔
      k.1 ≠ pool ∧ s.objects[k]? = some o := by
  rw [Std.ExtTreeMap.getElem?_filter', Option.filter_eq_some_iff, bne_iff_ne, and_comm]

theorem objectOrNew_cases (s : Store) (key : ObjectKey) :
    s.objects[key]? = some (s.objectOrNew key) ∨ s.objectOrNew key = {} := by
  rw [objectOrNew]
  cases s.objects[key]? with
  | none => exact .inr rfl
  | some o => exact .inl rfl

end Store

end Milepost
