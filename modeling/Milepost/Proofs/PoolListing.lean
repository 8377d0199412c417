import Milepost.Proofs.Growing
import Milepost.Proofs.NameList
import Milepost.Proofs.Numbers

/-!
# Listing the pools of a cluster

Pools are made and removed one after the other. Which of them stand afterwards is known from the
calls: those made and not removed since. Each is found by its name, and the list has all of them in
the order of their bytes. The one exception is the empty name: a pool may have it, and then the
list ends before it begins.

* `Cluster.lookupPool_eq`: what a name is looked up as.
* `Cluster.listPools_eq`: what is listed.
* `Cluster.pools_after`: both, after any calls.
-/

namespace Milepost

/-! ## Names in a store -/

namespace Store

variable {s : Store} {name n : String}

/-- Whether a pool is made on request or from the start makes no difference. -/
theorem snd_createPool : (s.createPool n).2 = s.addPool n := by
  unfold createPool addPool
  split <;> rfl

theorem mem_poolNames_createPool :
    name ∈ (s.createPool n).2.poolNames ↔ name = n ∨ name ∈ s.poolNames := by
  rw [snd_createPool, addPool, Std.ExtTreeMap.contains_eq_isSome_getElem?]
  cases hn : s.pools[n]? with
  | some pool =>
    have hmem : n ∈ s.poolNames := mem_poolNames.mpr ⟨pool, hn⟩
    exact ⟨.inr, fun h => h.elim (fun he => he ▸ hmem) id⟩
  | none =>
    have hpools : (s.pools.insert n (s.lastPool + 1))[name]? =
        if name = n then some (s.lastPool + 1) else s.pools[name]? := Lookup.getElem?_insert
    rw [Option.isSome_none, if_neg Bool.false_ne_true, mem_poolNames, mem_poolNames, hpools]
    by_cases hname : name = n
    · rw [if_pos hname]
      exact iff_of_true ⟨_, rfl⟩ (.inl hname)
    · rw [if_neg hname]
      exact (or_iff_right hname).symm

theorem mem_poolNames_deletePool :
    name ∈ (s.deletePool n).2.poolNames ↔ name ≠ n ∧ name ∈ s.poolNames := by
  rw [deletePool]
  cases hn : s.pools[n]? with
  | none =>
    refine ⟨fun h => ⟨?_, h⟩, And.right⟩
    rintro rfl
    obtain ⟨pool, hp⟩ := mem_poolNames.mp h
    cases hn.symm.trans hp
  | some pool =>
    rw [mem_poolNames, mem_poolNames]
    dsimp only
    rw [Lookup.getElem?_erase]
    by_cases hname : name = n
    · rw [if_pos hname]
      refine iff_of_false ?_ fun h => h.1 hname
      rintro ⟨p, hp⟩
      cases hp
    · rw [if_neg hname]
      exact (and_iff_right hname).symm

/-- The names are in order, and none is there twice. -/
theorem pairwise_poolNames (s : Store) : s.poolNames.Pairwise (· < ·) :=
  (Std.ExtTreeMap.ordered_keys (t := s.pools)).imp compareOfLessAndEq_eq_lt.mp

end Store

/-! ## Calls that change a cluster -/

section Calls

variable {β : Type} {c : Cluster} {w : World β} {name message : String} {note : Note}
  {call : β → Status × β}

/-- A call fails exactly when it is answered by a refusal. -/
theorem World.callStatus_eq_ok_iff :
    (w.callStatus note call).1 = .ok () ↔ (call w.backend).1.isError = false := by
  simp only [callStatus, onBackend]
  cases hstatus : (call w.backend).1.isError with
  | false =>
    rw [check_eq_ok_iff.mpr ⟨hstatus, rfl⟩]
    exact iff_of_true rfl rfl
  | true =>
    rw [check, if_pos hstatus]
    constructor <;> (intro h; cases h)

theorem Cluster.managePool_of_hasNul (h : Text.hasNul name = true) :
    c.managePool name note message call w =
      (.error (.of .invalidInput (.nameHasNul name)), w) := by
  rw [managePool, checkName, if_pos h]

/-- A call about a pool is passed on if its name holds no NUL. -/
theorem Cluster.managePool_of_not_hasNul (h : Text.hasNul name = false) :
    (c.managePool name note message call w).2.backend = (call w.backend).2 ∧
      ((c.managePool name note message call w).1 = .ok () ↔
        (call w.backend).1.isError = false) := by
  have hbackend : (w.callStatus note call).2.backend = (call w.backend).2 := rfl
  have hstatus : (w.callStatus note call).1 = .ok () ↔ (call w.backend).1.isError = false :=
    World.callStatus_eq_ok_iff
  rw [managePool, (checkName_eq_ok_iff name).mpr h]
  generalize w.callStatus note call = r at hbackend hstatus ⊢
  obtain ⟨_ | _, w'⟩ := r
  · exact ⟨hbackend, iff_of_false nofun fun hok => nomatch hstatus.mpr hok⟩
  · exact ⟨hbackend, hstatus⟩

end Calls

/-! ## Runs of calls -/

/-- A call of a cluster that makes or removes a pool. -/
inductive PoolCall
  | create (name : String)
  | delete (name : String)
deriving DecidableEq

namespace PoolCall

/-- The name that the call is about. -/
def name : PoolCall → String
  | create name | delete name => name

/-- What the call does to the store unless its name is refused. -/
def change : PoolCall → StoreCall
  | create name => .createPool name
  | delete name => .deletePool name

/-- What the call makes of the world, be it refused or not. -/
def run (c : Cluster) (w : World InMemory) : PoolCall → World InMemory
  | create name => (c.createPool name w).2
  | delete name => (c.deletePool name w).2

/-- What calls make of the world, one after the other. -/
def runAll (c : Cluster) (w : World InMemory) (calls : List PoolCall) : World InMemory :=
  calls.foldl (run c) w

/-- A pool of the name was made and not removed since. -/
def Stands (calls : List PoolCall) (name : String) : Prop :=
  ∃ before after, calls = before ++ create name :: after ∧ delete name ∉ after

variable {calls : List PoolCall} {name n : String} {k : PoolCall}

theorem not_stands_nil : ¬ Stands [] name := by
  rintro ⟨before, after, h, -⟩
  cases before <;> cases h

theorem stands_concat :
    Stands (calls ++ [k]) name ↔ k = create name ∨ Stands calls name ∧ k ≠ delete name := by
  constructor
  · rintro ⟨before, after, h, hafter⟩
    rcases List.eq_nil_or_concat after with rfl | ⟨rest, last, rfl⟩
    · exact .inl (List.singleton_inj.mp (List.append_inj_right' h rfl))
    · rw [List.concat_eq_append] at h hafter
      rw [← List.cons_append, ← List.append_assoc] at h
      obtain ⟨hcalls, hlast⟩ := List.append_inj' h rfl
      obtain rfl := List.singleton_inj.mp hlast
      rw [List.mem_append, not_or] at hafter
      exact .inr ⟨⟨before, rest, hcalls, hafter.1⟩, fun hk => hafter.2 (hk ▸ List.mem_cons_self)⟩
  · rintro (rfl | ⟨⟨before, after, rfl, hafter⟩, hk⟩)
    · exact ⟨calls, [], rfl, List.not_mem_nil⟩
    · refine ⟨before, after ++ [k], by simp, fun hmem => ?_⟩
      rcases List.mem_append.mp hmem with hmem | hmem
      · exact hafter hmem
      · exact hk (List.mem_singleton.mp hmem).symm

/-- A call whose name holds a NUL is not passed on. -/
theorem backend_run {k : PoolCall} {c : Cluster} {w : World InMemory} :
    (k.run c w).backend =
      if Text.hasNul k.name then w.backend else (k.change.run w.backend).2 := by
  have hmanage : ∀ {note : Note} {message : String} {call : InMemory → Status × InMemory},
      (c.managePool k.name note message call w).2.backend =
        if Text.hasNul k.name then w.backend else (call w.backend).2 := by
    intro note message call
    by_cases hnul : Text.hasNul k.name = true
    · rw [if_pos hnul, Cluster.managePool_of_hasNul hnul]
    · rw [if_neg hnul, (Cluster.managePool_of_not_hasNul (Bool.eq_false_iff.mpr hnul)).1]
  cases k with
  | create | delete => exact hmanage

/-- The pools of the store are those that stand after the calls. -/
structure Reflected (calls : List PoolCall) (s : Store) : Prop where
  numbered : s.Numbered
  names : ∀ name, name ∈ s.poolNames ↔ Text.hasNul name = false ∧ Stands calls name

namespace Reflected

variable {c : Cluster} {w : World InMemory} {s : Store}

theorem start : Reflected [] (.ofPools []) where
  numbered := .ofPools []
  names name := by
    refine iff_of_false (fun h => ?_) fun h => not_stands_nil h.2
    obtain ⟨pool, hp⟩ := Store.mem_poolNames.mp h
    simp [Store.ofPools] at hp

/-- A call that is not passed on leaves the pools that stand. -/
theorem refused (h : Reflected calls s) (hnul : Text.hasNul k.name = true) :
    Reflected (calls ++ [k]) s where
  numbered := h.numbered
  names name := by
    rw [h.names, stands_concat]
    refine and_congr_right fun hname => ?_
    have hcreate : k ≠ create name := by
      rintro rfl
      cases hnul.symm.trans hname
    have hdelete : k ≠ delete name := by
      rintro rfl
      cases hnul.symm.trans hname
    rw [or_iff_right hcreate, and_iff_left hdelete]

theorem created (h : Reflected calls s) (hnul : Text.hasNul n = false) :
    Reflected (calls ++ [create n]) (s.createPool n).2 where
  numbered := h.numbered.run 0 (.call (.createPool n))
  names name := by
    have hkept : create n ≠ delete name := nofun
    rw [Store.mem_poolNames_createPool, h.names, stands_concat, and_iff_left hkept, create.injEq]
    constructor
    · rintro (rfl | ⟨hname, hstands⟩)
      · exact ⟨hnul, .inl rfl⟩
      · exact ⟨hname, .inr hstands⟩
    · rintro ⟨hname, rfl | hstands⟩
      · exact .inl rfl
      · exact .inr ⟨hname, hstands⟩

theorem deleted (h : Reflected calls s) : Reflected (calls ++ [delete n]) (s.deletePool n).2 where
  numbered := h.numbered.run 0 (.call (.deletePool n))
  names name := by
    have hmade : delete n ≠ create name := nofun
    rw [Store.mem_poolNames_deletePool, h.names, stands_concat, or_iff_right hmade, ne_eq, ne_eq,
      delete.injEq, @eq_comm _ n name]
    constructor
    · rintro ⟨hne, hname, hstands⟩
      exact ⟨hname, hstands, hne⟩
    · rintro ⟨hname, hstands, hne⟩
      exact ⟨hne, hname, hstands⟩

/-- **What stands after one more call.** -/
theorem run (h : Reflected calls w.backend.store) (k : PoolCall) :
    Reflected (calls ++ [k]) (k.run c w).backend.store := by
  rw [backend_run]
  by_cases hnul : Text.hasNul k.name = true
  · rw [if_pos hnul]
    exact h.refused hnul
  · rw [if_neg hnul]
    cases k with
    | create name => exact h.created (Bool.eq_false_iff.mpr hnul)
    | delete name => exact h.deleted

/-- **What stands after any calls.** -/
theorem runAll (h : Reflected calls w.backend.store) (more : List PoolCall) :
    Reflected (calls ++ more) (PoolCall.runAll c w more).backend.store := by
  induction more generalizing calls w with
  | nil =>
    rw [List.append_nil]
    exact h
  | cons k ks ih =>
    have hrest := ih (h.run (c := c) k)
    rwa [List.append_assoc, List.singleton_append] at hrest

end Reflected

end PoolCall

/-! ## Looking up and listing -/

namespace Cluster

variable {c : Cluster} {w : World InMemory} {name : String}

/-- **A name is looked up as the number of its pool.** -/
theorem lookupPool_eq (hn : w.backend.store.Numbered) (hnul : Text.hasNul name = false) :
    (c.lookupPool name w).1 = .ok w.backend.store.pools[name]? := by
  have hname : checkName name = .ok () := (checkName_eq_ok_iff name).mpr hnul
  have hcall : w.onBackend (ObjectBackend.lookupPool name) =
      (w.backend.store.pools[name]?.getD Status.noEntry.toInt, w) := rfl
  rw [lookupPool, hname]
  dsimp only
  rw [hcall]
  cases hp : w.backend.store.pools[name]? with
  | none => rfl
  | some pool =>
    have hpos := (hn.bounds hp).1
    have hne : pool ≠ Status.noEntry.toInt := by
      rintro rfl
      exact absurd hpos (by decide)
    have hpool : checkPool pool = .ok pool :=
      checkPool_eq_ok_iff.mpr ⟨Int.le_trans (by decide) hpos, rfl⟩
    rw [Option.getD_some, if_neg hne, hpool]
    rfl

/-- **What is listed are all names, or none if one of them is empty.** -/
theorem listPools_eq (hnul : ∀ name ∈ w.backend.store.poolNames, Text.hasNul name = false)
    (hsize : (InMemory.encodeNames w.backend.store.poolNames).size < 0x80000000) :
    (c.listPools w).1 =
      .ok (if "" ∈ w.backend.store.poolNames then [] else w.backend.store.poolNames) := by
  have hcall : BufferCall.Delivers ObjectBackend.listPools
      (InMemory.encodeNames w.backend.store.poolNames) w.backend := fun b => rfl
  have hlend : (w.lend c.account poolListSize ObjectBackend.listPools).1 =
      .ok (InMemory.encodeNames w.backend.store.poolNames) :=
    (World.lend_of_delivers hcall hsize (by decide)).1
  rw [listPools]
  dsimp only
  rw [hlend, ← takeWhile_ne_empty w.backend.store.pairwise_poolNames]
  change Delivered.ofResult (decodeNames _) = _
  rw [decodeNames_encodeNames hnul]
  rfl

/-- **The pools of a cluster that began without any.** After any calls that make and remove pools
there are names, in the order of their bytes, of exactly those that were made and not removed
since. Looking up a name finds a pool exactly if it is one of them. The list has all of them, as
long as its bytes can be reported by a status, unless one of the names is empty; then it has
none. -/
theorem pools_after {w : World InMemory} (hw : w.backend.store = .ofPools []) (c : Cluster)
    (calls : List PoolCall) :
    ∃ names : List String, (PoolCall.runAll c w calls).backend.store.poolNames = names ∧
      names.Pairwise (fun a b => a.toUTF8.toList < b.toUTF8.toList) ∧
      (∀ name, name ∈ names ↔ Text.hasNul name = false ∧ PoolCall.Stands calls name) ∧
      (∀ name, Text.hasNul name = false →
        ∃ found, (c.lookupPool name (PoolCall.runAll c w calls)).1 = .ok found ∧
          (found.isSome ↔ name ∈ names)) ∧
      ((InMemory.encodeNames names).size < 0x80000000 →
        (c.listPools (PoolCall.runAll c w calls)).1 = .ok (if "" ∈ names then [] else names)) := by
  have hstart : PoolCall.Reflected [] w.backend.store := by
    rw [hw]
    exact .start
  have hreflected : PoolCall.Reflected calls (PoolCall.runAll c w calls).backend.store :=
    hstart.runAll calls
  refine ⟨_, rfl, (Store.pairwise_poolNames _).imp Text.toUTF8_lt, hreflected.names, ?_, ?_⟩
  · intro name hnul
    refine ⟨_, lookupPool_eq hreflected.numbered hnul, ?_⟩
    rw [Store.mem_poolNames, Option.isSome_iff_exists]
  · exact listPools_eq fun name hn => ((hreflected.names name).mp hn).1

end Cluster

/-! ## Two runs

A pool is made, removed and others made beside it; and one is made whose name is empty. -/

namespace Sample

def cluster : Cluster := { context := [] }

/-- A world without pools. -/
def poolless : World InMemory := { backend := .ofConfig {} }

def poolCalls : List PoolCall := [.create "b", .create "c", .delete "b", .create "a"]

theorem poolNames_poolCalls :
    (PoolCall.runAll cluster poolless poolCalls).backend.store.poolNames = ["a", "c"] := by
  decide +kernel

def namelessCalls : List PoolCall := [.create "", .create "a"]

/-- What is left of them. -/
def nameless : World InMemory := PoolCall.runAll cluster poolless namelessCalls

theorem poolNames_nameless : nameless.backend.store.poolNames = ["", "a"] := by decide +kernel

end Sample

namespace Cluster

theorem pools_after_four_calls :
    Sample.poolless.backend.store = .ofPools [] ∧
      (Sample.cluster.listPools
        (PoolCall.runAll Sample.cluster Sample.poolless Sample.poolCalls)).1 = .ok ["a", "c"] ∧
      PoolCall.Stands Sample.poolCalls "a" ∧ ¬ PoolCall.Stands Sample.poolCalls "b" := by
  have hstart : Sample.poolless.backend.store = .ofPools [] := rfl
  obtain ⟨names, hnames, -, hstands, -, hlist⟩ :=
    pools_after hstart Sample.cluster Sample.poolCalls
  obtain rfl := Sample.poolNames_poolCalls.symm.trans hnames
  have ha : "a" ∈ ["a", "c"] := by decide
  have hb : "b" ∉ ["a", "c"] := by decide
  exact ⟨hstart, hlist (by decide +kernel), ((hstands "a").mp ha).2,
    fun h => hb ((hstands "b").mpr ⟨by decide +kernel, h⟩)⟩

/-- A pool whose name is empty hides all pools from the list. -/
theorem listPools_nameless :
    (Sample.cluster.listPools Sample.nameless).1 = .ok [] ∧
      (Sample.cluster.lookupPool "" Sample.nameless).1 = .ok (some 1) ∧
      (Sample.cluster.lookupPool "a" Sample.nameless).1 = .ok (some 2) := by
  refine ⟨?_, rfl, rfl⟩
  have hlist := listPools_eq (c := Sample.cluster) (w := Sample.nameless)
  rw [Sample.poolNames_nameless] at hlist
  exact hlist (by decide +kernel) (by decide +kernel)

end Cluster

end Milepost
