import Mathlib.Data.List.Induction
import Mathlib.Data.List.Nodup
import Mathlib.Data.List.Perm.Subperm
import Milepost.Proofs.Changes
import Milepost.Proofs.DirectCalls

/-!
# Numbers of pools

Pools are told apart by numbers that are given in order. An object is known by the number of its
pool, so that a number given twice would let the objects of a removed pool reappear in another.
That never happens: objects have pools in every state, and once a pool is removed its number is as
good as one that was never given.

* `Store.Numbered.run`: numbers stay in order and objects in pools, whatever is done.
* `Store.counts_ofPools`: the pools there are from the start.
* `Session.numbered`: so it is in every session, and what is removed stays removed.
-/

namespace Milepost

/-! ## Numbers in a store -/

namespace Store

/-- Pools have numbers of their own among those given so far, and objects have pools. -/
structure Numbered (s : Store) : Prop where
  lastPool : 0 ≤ s.lastPool
  bounds : ∀ {name : String} {pool : PoolId}, s.pools[name]? = some pool →
    1 ≤ pool ∧ pool ≤ s.lastPool
  distinct : ∀ {name other : String} {pool : PoolId}, s.pools[name]? = some pool →
    s.pools[other]? = some pool → name = other
  objects : ∀ {key : ObjectKey} {o : Object}, s.objects[key]? = some o → s.hasPool key.1 = true

/-- The number was given, and no pool has it any more. -/
structure Retired (s : Store) (pool : PoolId) : Prop where
  given : pool ≤ s.lastPool
  unused : s.hasPool pool = false

variable {s : Store} {key : ObjectKey} {o : Object} {name : String} {pool p : PoolId}

namespace Numbered

theorem empty : Numbered {} where
  lastPool := Int.le_refl 0
  bounds h := by simp at h
  distinct h := by simp at h
  objects h := by simp at h

theorem insertPool (h : s.Numbered) (hn : s.pools[name]? = none) :
    Numbered { s with
      lastPool := s.lastPool + 1
      pools := s.pools.insert name (s.lastPool + 1) } where
  lastPool := Int.le_add_one h.lastPool
  bounds hp := by
    rw [Lookup.getElem?_insert] at hp
    split at hp
    · cases hp
      exact ⟨Int.le_add_of_nonneg_left h.lastPool, Int.le_refl _⟩
    · exact ⟨(h.bounds hp).1, Int.le_add_one (h.bounds hp).2⟩
  distinct hp hp' := by
    -- A number given before is not the next one.
    have hnext : ∀ {n : String}, s.pools[n]? ≠ some (s.lastPool + 1) := fun hn =>
      Int.not_le.mpr (Int.lt_succ s.lastPool) (h.bounds hn).2
    rw [Lookup.getElem?_insert] at hp hp'
    split at hp
    · cases hp
      split at hp'
      · simp_all
      · exact absurd hp' hnext
    · split at hp'
      · cases hp'
        exact absurd hp hnext
      · exact h.distinct hp hp'
  objects ho := by
    obtain ⟨n, hp⟩ := hasPool_iff.mp (h.objects ho)
    have hne : n ≠ name := by
      rintro rfl
      cases hn.symm.trans hp
    refine hasPool_iff.mpr ⟨n, ?_⟩
    rw [Lookup.getElem?_insert, if_neg hne]
    exact hp

theorem addPool (h : s.Numbered) : (s.addPool name).Numbered := by
  unfold Store.addPool
  split
  · exact h
  · rename_i hc
    refine h.insertPool ?_
    rw [Std.ExtTreeMap.contains_eq_isSome_getElem?] at hc
    exact Option.not_isSome_iff_eq_none.mp hc

theorem ofPools (names : List String) : (Store.ofPools names).Numbered := by
  have extend : ∀ {s : Store}, s.Numbered → (names.foldl Store.addPool s).Numbered := by
    induction names with
    | nil => exact id
    | cons name names ih => exact fun h => ih h.addPool
  exact extend empty

theorem erasePool (h : s.Numbered) (hn : s.pools[name]? = some pool) :
    Numbered { s with
      pools := s.pools.erase name
      objects := s.objects.filter fun key _ => key.1 != pool } where
  lastPool := h.lastPool
  bounds hp := by
    rw [Lookup.getElem?_erase] at hp
    split at hp
    · cases hp
    · exact h.bounds hp
  distinct hp hp' := by
    rw [Lookup.getElem?_erase] at hp hp'
    split at hp
    · cases hp
    · split at hp'
      · cases hp'
      · exact h.distinct hp hp'
  objects ho := by
    obtain ⟨hne, ho⟩ := getElem?_objects_filter.mp ho
    obtain ⟨n, hp⟩ := hasPool_iff.mp (h.objects ho)
    have hname : n ≠ name := by
      rintro rfl
      exact hne (Option.some.inj (hp.symm.trans hn))
    refine hasPool_iff.mpr ⟨n, ?_⟩
    rw [Lookup.getElem?_erase, if_neg hname]
    exact hp

theorem putObject (h : s.Numbered) (hp : s.hasPool key.1 = true) :
    (s.putObject key o).Numbered where
  lastPool := h.lastPool
  bounds := h.bounds
  distinct := h.distinct
  objects ho := by
    rw [getElem?_objects_putObject] at ho
    split at ho
    · rename_i hk
      rw [hk]
      exact hp
    · exact h.objects ho

theorem eraseObject (h : s.Numbered) : Numbered { s with objects := s.objects.erase key } where
  lastPool := h.lastPool
  bounds := h.bounds
  distinct := h.distinct
  objects ho := by
    rw [Lookup.getElem?_erase] at ho
    split at ho
    · cases ho
    · exact h.objects ho

/-- **Whatever is done, numbers stay in order and objects in pools.** -/
theorem run (h : s.Numbered) (now : Int) (x : Access) : (x.run now s).2.Numbered := by
  have hdone := Access.done_run now x s
  generalize x.run now s = r at hdone
  cases hdone with
  | refused | copied | flushed => exact h
  | created hn => exact h.insertPool hn
  | deleted hn => exact h.erasePool hn
  | attributeSet hp | written hp | replaced hp | appended hp => exact h.putObject hp
  | attributeRemoved ho => exact h.putObject (h.objects ho)
  | removed => exact h.eraseObject

/-- Without a pool there is no object. -/
theorem getElem?_of_not_hasPool (h : s.Numbered) (hp : s.hasPool key.1 = false) :
    s.objects[key]? = none := by
  refine Option.eq_none_iff_forall_ne_some.mpr fun o ho => ?_
  rw [h.objects ho] at hp
  cases hp

/-- A pool that is removed leaves its number behind. -/
theorem retired_erasePool (h : s.Numbered) (hn : s.pools[name]? = some pool) {objects} :
    Retired { s with pools := s.pools.erase name, objects } pool where
  given := (h.bounds hn).2
  unused := by
    refine Bool.eq_false_iff.mpr fun hp => ?_
    obtain ⟨n, hp⟩ := hasPool_iff.mp hp
    rw [Lookup.getElem?_erase] at hp
    split at hp
    · cases hp
    · rename_i hne
      exact hne (h.distinct hp hn)

end Numbered

/-- **A number that is retired is never given again.** -/
theorem Retired.run (h : s.Retired pool) (now : Int) (x : Access) :
    (x.run now s).2.Retired pool := by
  have hdone := Access.done_run now x s
  generalize x.run now s = r at hdone
  cases hdone with
  | refused | copied | flushed | attributeSet | attributeRemoved | written | replaced | appended
  | removed => exact ⟨h.given, h.unused⟩
  | created =>
    refine ⟨Int.le_add_one h.given, Bool.eq_false_iff.mpr fun hp => ?_⟩
    obtain ⟨n, hp⟩ := hasPool_iff.mp hp
    rw [Lookup.getElem?_insert] at hp
    split at hp
    · cases hp
      exact Int.not_le.mpr (Int.lt_succ s.lastPool) h.given
    · exact pools_ne_of_not_hasPool h.unused hp
  | deleted =>
    refine ⟨h.given, Bool.eq_false_iff.mpr fun hp => ?_⟩
    obtain ⟨n, hp⟩ := hasPool_iff.mp hp
    rw [Lookup.getElem?_erase] at hp
    split at hp
    · cases hp
    · exact pools_ne_of_not_hasPool h.unused hp

/-! ### Pools made from the start -/

section Start

variable {names : List String} {n : String}

/-- The pools are those of the names, each made once. They have the numbers 1, 2, ... in order. -/
structure Counts (s : Store) (names : List String) : Prop where
  nodup : names.Nodup
  number : ∀ {name : String} {pool : PoolId}, s.pools[name]? = some pool ↔
    ∃ i : Nat, names[i]? = some name ∧ pool = i + 1
  last : s.lastPool = names.length

namespace Counts

theorem mem_poolNames (h : s.Counts names) : name ∈ s.poolNames ↔ name ∈ names := by
  rw [Store.mem_poolNames, List.mem_iff_getElem?]
  constructor
  · rintro ⟨pool, hp⟩
    obtain ⟨i, hi, -⟩ := h.number.mp hp
    exact ⟨i, hi⟩
  · rintro ⟨i, hi⟩
    exact ⟨_, h.number.mpr ⟨i, hi, rfl⟩⟩

/-- A pool that is there is not made again. -/
theorem addPool_of_mem (h : s.Counts names) (hn : n ∈ names) : (s.addPool n).Counts names := by
  obtain ⟨pool, hp⟩ := Store.mem_poolNames.mp (h.mem_poolNames.mpr hn)
  rwa [addPool, Std.ExtTreeMap.contains_eq_isSome_getElem?, hp, if_pos Option.isSome_some]

/-- A new pool has the next number. -/
theorem addPool_of_not_mem (h : s.Counts names) (hn : n ∉ names) :
    (s.addPool n).Counts (names ++ [n]) := by
  have hnone : s.pools[n]? = none :=
    Option.eq_none_iff_forall_ne_some.mpr fun pool hp =>
      hn (h.mem_poolNames.mp (Store.mem_poolNames.mpr ⟨pool, hp⟩))
  have hadd : s.addPool n =
      { s with lastPool := s.lastPool + 1, pools := s.pools.insert n (s.lastPool + 1) } := by
    rw [addPool, Std.ExtTreeMap.contains_eq_isSome_getElem?, hnone]
    rfl
  rw [hadd]
  constructor
  case nodup =>
    rw [List.nodup_append_comm]
    exact List.nodup_cons.mpr ⟨hn, h.nodup⟩
  case number =>
    intro name pool
    change (s.pools.insert n (s.lastPool + 1))[name]? = some pool ↔ _
    rw [Lookup.getElem?_insert]
    constructor
    · intro hp
      split at hp
      · rename_i hname
        cases hp
        exact ⟨names.length, by rw [hname]; exact List.getElem?_concat_length, by rw [h.last]⟩
      · obtain ⟨i, hi, hpool⟩ := h.number.mp hp
        obtain ⟨hlt, -⟩ := List.getElem?_eq_some_iff.mp hi
        exact ⟨i, (List.getElem?_append_left hlt).trans hi, hpool⟩
    · rintro ⟨i, hi, rfl⟩
      by_cases hlast : i < names.length
      · rw [List.getElem?_append_left hlast] at hi
        have hne : name ≠ n := fun he => hn (he ▸ List.mem_of_getElem? hi)
        rw [if_neg hne]
        exact h.number.mpr ⟨i, hi, rfl⟩
      · rw [List.getElem?_append_right (Nat.le_of_not_lt hlast)] at hi
        obtain ⟨hlt, -⟩ := List.getElem?_eq_some_iff.mp hi
        obtain rfl := List.mem_singleton.mp (List.mem_of_getElem? hi)
        obtain rfl : i = names.length := by
          rw [List.length_singleton] at hlt
          omega
        rw [if_pos rfl, h.last]
  case last =>
    change s.lastPool + 1 = _
    rw [h.last, List.length_append]
    rfl

end Counts

/-- **The pools there are at first.** A name that comes again makes no further pool. -/
theorem counts_ofPools (names : List String) : (ofPools names).Counts names.eraseDups := by
  induction names using List.reverseRecOn with
  | nil =>
    constructor
    case nodup => exact List.nodup_nil
    case number => simp [ofPools]
    case last => rfl
  | append_singleton names n ih =>
    have hadd : ofPools (names ++ [n]) = (ofPools names).addPool n := List.foldl_concat ..
    rw [hadd, List.eraseDups_append, List.cons_removeAll, List.nil_removeAll]
    by_cases hn : n ∈ names
    · rw [List.contains_iff_mem.mpr hn]
      simpa using ih.addPool_of_mem (List.mem_eraseDups.mpr hn)
    · rw [Bool.eq_false_iff.mpr (mt List.contains_iff_mem.mp hn)]
      exact ih.addPool_of_not_mem (mt List.mem_eraseDups.mp hn)

/-- There are no pools at first but those asked for. -/
theorem mem_poolNames_ofPools {names : List String} :
    name ∈ (ofPools names).poolNames ↔ name ∈ names := by
  rw [(counts_ofPools names).mem_poolNames, List.mem_eraseDups]

theorem lastPool_ofPools_le (names : List String) :
    (ofPools names).lastPool ≤ (names.length : Int) := by
  have hcounts := counts_ofPools names
  have hsubset : names.eraseDups ⊆ names := fun n hn => List.mem_eraseDups.mp hn
  rw [hcounts.last]
  exact Int.ofNat_le.mpr (hcounts.nodup.subperm hsubset).length_le

end Start

end Store

namespace Access

variable {x : Access} {s : Store} {pool : PoolId} {now : Int}

/-- Whether the access is a call that makes a pool. -/
def createsPool : Access → Bool
  | call (.createPool _) => true
  | _ => false

theorem lastPool_run_le (now : Int) (x : Access) (s : Store) :
    (x.run now s).2.lastPool ≤ s.lastPool + (if x.createsPool then 1 else 0 : Nat) := by
  have hkeep : s.lastPool ≤ s.lastPool + (if x.createsPool then 1 else 0 : Nat) :=
    Int.le_add_of_nonneg_right (Int.natCast_nonneg _)
  have hdone := done_run now x s
  generalize x.run now s = r at hdone
  cases hdone with
  | created => exact Int.le_refl _
  | refused | deleted | attributeSet | attributeRemoved | written | replaced | appended | removed
  | copied | flushed => exact hkeep

/-- **What is done with the number of no pool is refused.** -/
theorem run_of_not_hasPool (hn : s.Numbered) (hp : s.hasPool pool = false)
    (hx : x.pool? = some pool) : x.run now s = (.noEntry, s) := by
  cases x with
  | call k =>
    cases k with
    | createPool | deletePool => cases hx
    | setAttribute key name value =>
      cases hx
      rw [run, StoreCall.onStore, Store.setAttribute, hp]
      rfl
    | removeAttribute key name =>
      cases hx
      rw [run, StoreCall.onStore, Store.removeAttribute, hn.getElem?_of_not_hasPool hp]
  | edit key e =>
    cases hx
    exact Store.edit_of_not_hasPool hp
  | read key offset buffer =>
    cases hx
    rw [run, Store.readAnswer, Store.find, hp]
    rfl
  | flush p =>
    cases hx
    rw [run, hp]
    rfl

end Access

/-! ## Numbers in a backend -/

/-- The backend has nothing to do with the number: no pool has it, and whatever is done with it is
answered by there being no such entry, and leaves the store. Operations may be refused for other
reasons before. -/
structure InMemory.Forgets (b : InMemory) (pool : PoolId) : Prop where
  unused : ∀ name : String, b.store.pools[name]? ≠ some pool
  applied : ∀ {shelf : Shelf} {a : Application} {t : InMemory × Shelf},
    b.application? shelf = some a → a.job.pool = pool → b.step? shelf = some t →
      a.result = .noEntry ∧ t.1.store = b.store
  issued : ∀ (oid : String) (c : CompletionId) (command : Command) (shelf : Shelf),
    b.isShutdown = false → b.config.issueFaults[oid]? = none →
      (issue pool oid c command (b, shelf)).1 = .noEntry ∧
        (issue pool oid c command (b, shelf)).2.1 = b
  flushed : b.isShutdown = false → b.config.issueFaults[""]? = none →
    (b.beginFlush pool).1 = .done .noEntry ∧ (b.beginFlush pool).2.store = b.store
  called : ∀ (c : DirectCall) (l : Lent), c.pool? = some pool → c.run l b = (.noEntry, l, b)

namespace InMemory

variable {b : InMemory} {pool : PoolId}

theorem submit_of_not_hasPool {job : Job} (hp : b.store.hasPool job.pool = false)
    (hs : b.isShutdown = false) (hf : b.config.issueFaults[job.oid]? = none) :
    b.submit job = (.noEntry, b) := by
  simp [submit, hs, hf, hp]

theorem pool?_access {j : Job} {shelf : Shelf} : (j.access shelf).pool? = some j.pool := by
  unfold Job.access
  split <;> rfl

theorem called_of_not_hasPool (hn : b.store.Numbered) (hp : b.store.hasPool pool = false)
    {c : DirectCall} {l : Lent} (hc : c.pool? = some pool) : c.run l b = (.noEntry, l, b) := by
  cases c with
  | change k =>
    have hrun : k.onStore b.now b.store = (.noEntry, b.store) :=
      Access.run_of_not_hasPool (x := .call k) hn hp hc
    rw [DirectCall.run_change, hrun]
  | listPools => cases hc
  | poolName p =>
    cases hc
    refine DirectCall.run_poolName_of_none (Option.eq_none_iff_forall_ne_some.mpr fun n hname => ?_)
    exact Store.pools_ne_of_not_hasPool hp (Store.getElem?_of_poolName? hname)
  | getAttribute key name =>
    cases hc
    refine DirectCall.run_getAttribute_of_error ?_
    rw [Store.getAttribute, hn.getElem?_of_not_hasPool hp]
  | stat key =>
    cases hc
    exact DirectCall.run_stat_of_none (hn.getElem?_of_not_hasPool hp)

/-- **The number of no pool is forgotten.** -/
theorem Forgets.of_not_hasPool (hn : b.store.Numbered) (hp : b.store.hasPool pool = false) :
    b.Forgets pool where
  unused _ := Store.pools_ne_of_not_hasPool hp
  applied {shelf a t} ha hpool hs := by
    have hrun := run_of_step? ha hs
    rw [Access.run_of_not_hasPool hn hp (pool?_access.trans (congrArg some hpool))] at hrun
    obtain ⟨hresult, hstore⟩ := Prod.mk.inj hrun
    exact ⟨hresult.symm, hstore.symm⟩
  issued oid c command shelf hs hf := by
    have hsubmit : b.submit { pool, oid, action := .command command, completion := c } =
        (.noEntry, b) := submit_of_not_hasPool hp hs hf
    exact ⟨congrArg Prod.fst hsubmit, congrArg Prod.snd hsubmit⟩
  flushed hs hf := by
    have hsubmit : b.newCompletion.2.submit
        { pool, oid := "", action := .flush, completion := b.newCompletion.1 } =
          (.noEntry, b.newCompletion.2) := submit_of_not_hasPool hp hs hf
    have hflush : b.beginFlush pool = (.done .noEntry, b.newCompletion.2) := by
      simp only [beginFlush]
      rw [hsubmit]
      rfl
    rw [hflush]
    exact ⟨rfl, rfl⟩
  called _ _ hc := called_of_not_hasPool hn hp hc

end InMemory

/-! ## Sessions -/

namespace Session

variable {config : InMemoryConfig} {turns : List Turn} {s : InMemory × Shelf}

/-- **Numbers of pools in a session.** Pools have numbers of their own, which start at one and go
up to the number given last, and objects have pools. There are no more numbers than names laid down
and calls that make a pool. Once a pool is removed its number is forgotten, whatever is done
afterwards, be it that a pool of the same name is made again. -/
theorem numbered (hs : Session config turns s) :
    s.1.store.Numbered ∧
    s.1.store.lastPool ≤ (config.pools.length + turns.countP (·.access.createsPool) : Nat) ∧
    ∀ {name : String} {pool : PoolId} {uses : List Use} {turns' : List Turn}
      {t : InMemory × Shelf}, s.1.store.pools[name]? = some pool →
      Use.replay turns s (.call (.deletePool name) :: uses) = some (turns', t) →
      t.1.Forgets pool := by
  have hnumbered : s.1.store.Numbered :=
    hs.preserved (P := fun _ store => store.Numbered) (.ofPools config.pools)
      fun h _ => h.run _ _
  refine ⟨hnumbered, ?_, ?_⟩
  · refine hs.preserved (P := fun turns store => store.lastPool ≤
        (config.pools.length + turns.countP (·.access.createsPool) : Nat)) ?_ ?_
    · exact Store.lastPool_ofPools_le config.pools
    · intro turns store now x h _
      have hle := Access.lastPool_run_le now x.access store
      rw [List.countP_append, List.countP_singleton, ← Nat.add_assoc, Int.natCast_add]
      exact Int.le_trans hle (Int.add_le_add_right h _)
  · intro name pool uses turns' t hname hreplay
    have hretired : (s.1.store.deletePool name).2.Retired pool := by
      rw [Store.deletePool, hname]
      exact hnumbered.retired_erasePool hname
    have hrest : Use.replay (turns ++ (Use.turn? s (.call (.deletePool name))).toList)
      ((StoreCall.run (.deletePool name) s.1).2, s.2) uses = some (turns', t) := hreplay
    obtain ⟨hn, hr⟩ := Use.replay_preserved hrest
      (P := fun _ store => store.Numbered ∧ store.Retired pool)
      ⟨hnumbered.run s.1.now (.call (.deletePool name)), hretired⟩
      fun h _ => ⟨h.1.run _ _, h.2.run _ _⟩
    exact .of_not_hasPool hn hr.unused

end Session

/-! ## One session

A write is queued, its pool is removed and made again under the same name, and then the worker gets
to the write. -/

namespace Sample

def queueing : List Use :=
  [.createCompletion, .issue 1 "object" 0 (.edit (.writeFull ⟨#[7]⟩))]

def renewing : List Use := [.call (.deletePool "data"), .call (.createPool "data"), .work]

theorem isSome_replay_queueing :
    (Use.replay [] (.ofConfig config, {}) queueing).isSome = true := by decide +kernel

/-- The turns and the state when the write is queued. -/
@[irreducible]
def queued : List Turn × InMemory × Shelf :=
  (Use.replay [] (.ofConfig config, {}) queueing).get isSome_replay_queueing

theorem isSession_queued : Session config queued.1 queued.2 := by
  unfold queued
  exact Session.replay_get isSome_replay_queueing

theorem isSome_replay_renewing : (Use.replay queued.1 queued.2 renewing).isSome = true := by
  decide +kernel

/-- The turns and the state when the worker got to the write. -/
@[irreducible]
def renewed : List Turn × InMemory × Shelf :=
  (Use.replay queued.1 queued.2 renewing).get isSome_replay_renewing

theorem replay_renewing : Use.replay queued.1 queued.2 renewing = some renewed := by
  unfold renewed
  exact (Option.some_get isSome_replay_renewing).symm

end Sample

namespace Session

theorem numbered_write_to_renewed :
    Session Sample.config Sample.queued.1 Sample.queued.2 ∧
      Sample.queued.2.1.store.pools["data"]? = some 1 ∧
      Use.replay Sample.queued.1 Sample.queued.2 Sample.renewing = some Sample.renewed ∧
      Sample.renewed.1.map (·.answer) = [0, 0, .noEntry] ∧
      Sample.renewed.2.1.store.pools["data"]? = some 2 ∧ Sample.renewed.2.1.Forgets 1 := by
  have hname : Sample.queued.2.1.store.pools["data"]? = some 1 := by decide +kernel
  have hanswers : Sample.renewed.1.map (·.answer) = [0, 0, .noEntry] := by decide +kernel
  have hagain : Sample.renewed.2.1.store.pools["data"]? = some 2 := by decide +kernel
  exact ⟨Sample.isSession_queued, hname, Sample.replay_renewing, hanswers, hagain,
    (numbered Sample.isSession_queued).2.2 hname Sample.replay_renewing⟩

end Session

end Milepost
