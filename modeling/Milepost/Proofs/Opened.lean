import Milepost.Proofs.Growing.Fitting
import Milepost.Proofs.Names

/-!
# Pools that were opened

A pool is opened by its name and known by its number from then on. Its name is looked up whenever
it is asked for, in a buffer that has to hold one byte more than the name. Others may make and
remove pools meanwhile. As long as nobody removes the one of this name, it is there under its
number; once it is removed, its number leads nowhere, even if there is a pool of the name again.

* `InMemory.deliversFrom_poolName`: which buffers the name of a pool fits into.
* `System.Opened.next?`: what becomes of an opened pool.
* `Pool.name_after_opening`: what its name is.
-/

namespace Milepost

/-! ## The name of a number -/

theorem Store.Numbered.poolName?_eq {s : Store} {name : String} {pool : PoolId} (h : s.Numbered)
    (hname : s.pools[name]? = some pool) : s.poolName? pool = some name := by
  cases hfound : s.poolName? pool with
  | some n => rw [h.distinct (getElem?_of_poolName? hfound) hname]
  | none =>
    have hnone := List.find?_eq_none.mp (Option.map_eq_none_iff.mp hfound) (name, pool)
      (Std.ExtTreeMap.mem_toList_iff_getElem?_eq_some.mpr hname)
    exact absurd (beq_self_eq_true pool) hnone

theorem Store.Retired.poolName?_eq {s : Store} {pool : PoolId} (h : s.Retired pool) :
    s.poolName? pool = none :=
  Option.eq_none_iff_forall_ne_some.mpr fun _ hname =>
    pools_ne_of_not_hasPool h.unused (getElem?_of_poolName? hname)

namespace InMemory

variable {b : InMemory} {name : String} {pool : PoolId}

/-- **The name of a pool fits where there is room for a NUL after it.** -/
theorem deliversFrom_poolName (h : b.store.poolName? pool = some name) :
    BufferCall.DeliversFrom (ObjectBackend.poolName pool) (name.toUTF8.size + 1) name.toUTF8 b where
  short buffer hlt := by
    change InMemory.poolName pool buffer b = _
    rw [InMemory.poolName, h]
    exact if_pos (Nat.le_of_lt_succ hlt)
  enough buffer hle := by
    have hnul : name.toUTF8.push 0 = name.toUTF8 ++ ByteArray.empty.push 0 := by
      ext1
      simp
    refine ⟨ByteArray.empty.push 0, ?_, ?_⟩
    · rw [← hnul, ByteArray.size_push]
    · change InMemory.poolName pool buffer b = _
      rw [InMemory.poolName, h, ← hnul]
      exact if_neg (Nat.not_le.mpr hle)

theorem poolName_of_none (h : b.store.poolName? pool = none) (buffer : Buffer) :
    ObjectBackend.poolName pool buffer b = ({ status := .noEntry }, b) := by
  change InMemory.poolName pool buffer b = _
  rw [InMemory.poolName, h]

end InMemory

/-! ## Asking for the name -/

namespace Pool

variable {p : Pool} {w : World InMemory} {name : String}

/-- The run that lends the buffers when the name of a pool is asked for. -/
def nameRun (p : Pool) (w : World InMemory) : GrowRetry.Run InMemory :=
  w.lendRun p.account nameSize (ObjectBackend.poolName p.id)

/-- The name is delivered from the first doubling of 64 bytes on that has more bytes than it. -/
theorem name_of_some (h : w.backend.store.poolName? p.id = some name)
    (hnul : Text.hasNul name = false) (hsize : name.toUTF8.size < 0x80000000) :
    (p.name w).1 = .ok name ∧
      GrowRetry.DoublesTo 64 (name.toUTF8.size + 1) (p.nameRun w).capacities := by
  have hpos : 0 < nameSize := by decide
  have hinitial : nameSize ≤ Buffer.maxAllocation := by decide
  obtain ⟨hlend, hdoubles⟩ := World.lend_of_deliversFrom (InMemory.deliversFrom_poolName h) hsize
    (by omega) p.account hpos hinitial
  refine ⟨?_, hdoubles⟩
  rw [Pool.name]
  dsimp only
  rw [hlend]
  change Delivered.ofResult (decodeName _) = _
  rw [decodeName_toUTF8 hnul]
  rfl

theorem name_of_none (h : w.backend.store.poolName? p.id = none) :
    (p.name w).1 = .error (.failed (.ofStatus .other .noEntry)) ∧
      (p.nameRun w).capacities = [64] := by
  have hinitial : nameSize ≤ Buffer.maxAllocation := by decide
  obtain ⟨hlend, hcapacities⟩ := World.lend_of_refused (InMemory.poolName_of_none h) rfl
    (by decide) p.account hinitial
  refine ⟨?_, hcapacities⟩
  rw [Pool.name]
  dsimp only
  rw [hlend]
  rfl

end Pool

/-- A pool that is opened has the number of its name, which holds no NUL. -/
theorem Cluster.getElem?_of_openPool {c : Cluster} {w : World InMemory} {name : String} {p : Pool}
    (h : (c.openPool name w).1 = .ok p) :
    w.backend.store.pools[name]? = some p.id ∧ Text.hasNul name = false := by
  have hnul : Text.hasNul name = false := by
    by_contra hnul
    rw [openPool, ClientCall.checkName_of_hasNul (Bool.not_eq_false _ ▸ hnul)] at h
    cases h
  refine ⟨?_, hnul⟩
  rw [openPool, (checkName_eq_ok_iff name).mpr hnul] at h
  have hcall : w.onBackend (ObjectBackend.lookupPool name) =
      (w.backend.store.pools[name]?.getD Status.noEntry.toInt, w) := rfl
  dsimp only at h
  rw [hcall] at h
  obtain ⟨id, hid, rfl⟩ := exists_of_map_eq_ok h
  cases hpool : w.backend.store.pools[name]? with
  | none =>
    rw [hpool] at hid
    cases hid
  | some pool =>
    rw [hpool, Option.getD_some, checkPool] at hid
    split at hid <;> cases hid
    rfl

/-! ## What becomes of an opened pool -/

/-- A pool is there until it is removed. -/
theorem Access.getElem?_pools_run {x : Access} {s : Store} {name : String} {pool : PoolId}
    (now : Int) (hx : x ≠ call (.deletePool name)) (h : s.pools[name]? = some pool) :
    (x.run now s).2.pools[name]? = some pool := by
  have hdone := done_run now x s
  generalize x.run now s = r at hdone
  cases hdone with
  | refused | copied | flushed | attributeSet | attributeRemoved | written | replaced | appended
  | removed => exact h
  | created hnone =>
    dsimp only
    rw [Lookup.getElem?_insert, if_neg, h]
    rintro rfl
    cases hnone.symm.trans h
  | deleted =>
    dsimp only
    rw [Lookup.getElem?_erase, if_neg, h]
    rintro rfl
    exact hx rfl

namespace ClientEvent

variable {config : InMemoryConfig} {s t : System InMemory} {e : ClientEvent} {name : String}

/-- Whether the event asks for the pool of the name to be removed. -/
def deletes (name : String) : ClientEvent → Bool
  | call (.deletePool _ n) | use (.call (.deletePool n)) => n == name
  | _ => false

/-- Such an event has its way, unless the name holds a NUL. -/
theorem store_of_deletes (he : e.deletes name = true) (hnul : Text.hasNul name = false)
    (hn : e.next? s = some t) :
    t.world.backend.store = (s.world.backend.store.deletePool name).2 := by
  unfold deletes at he
  split at he
  · rename_i c n
    obtain rfl := beq_iff_eq.mp he
    cases hn
    have hchange : (ClientCall.deletePool c n).change? = some (.deletePool n) := rfl
    have hnames : ∀ name ∈ [n], Text.hasNul name = false := List.forall_mem_singleton.mpr hnul
    exact congrArg InMemory.store (ClientCall.run_change hchange hnames).1
  · obtain rfl := beq_iff_eq.mp he
    cases hn
    rfl
  · cases he

/-- Every other event leaves the store, or makes another access to it. -/
theorem store_next? (hs : s.Sound config) (he : e.deletes name = false)
    (hn : e.next? s = some t) :
    t.world.backend.store = s.world.backend.store ∨
      ∃ x : Access, x ≠ .call (.deletePool name) ∧
        t.world.backend.store = (x.run s.world.backend.now s.world.backend.store).2 := by
  obtain ⟨u, hmakes, shelf, hu⟩ := makes_next? hs hn
  rcases u.store_cases hu with hsame | ⟨k, rfl, hcall⟩ | ⟨-, job, -, -, hjob⟩
  · exact .inl hsame
  · refine .inr ⟨.call k, ?_, hcall⟩
    rintro ⟨⟩
    cases hmakes with
    | @change k _ hk =>
      cases k <;> cases hk
      cases (beq_self_eq_true name).symm.trans he
    | use => cases (beq_self_eq_true name).symm.trans he
  · exact .inr ⟨job.access _, Job.access_ne_call, hjob⟩

end ClientEvent

/-- What became of the pool that had the name at first: it is there as long as nobody asked for it
to be removed, and then it is gone for good. -/
structure System.Opened (name : String) (pool : PoolId) (events : List ClientEvent)
    (s : System InMemory) : Prop where
  numbered : s.world.backend.store.Numbered
  stands : (∀ e ∈ events, e.deletes name = false) →
    s.world.backend.store.pools[name]? = some pool
  retired : (∃ e ∈ events, e.deletes name = true) → s.world.backend.store.Retired pool

/-- **Whatever happens next, it is one of the two.** -/
theorem System.Opened.next? {config : InMemoryConfig} {events : List ClientEvent}
    {s t : System InMemory} {e : ClientEvent} {name : String} {pool : PoolId}
    (ho : s.Opened name pool events) (hnul : Text.hasNul name = false) (hs : s.Sound config)
    (hn : e.next? s = some t) : t.Opened name pool (events ++ [e]) := by
  cases he : e.deletes name with
  | true =>
    have hstore := ClientEvent.store_of_deletes he hnul hn
    constructor
    case numbered =>
      rw [hstore]
      exact ho.numbered.run 0 (.call (.deletePool name))
    case stands =>
      intro hall
      cases (hall e (by simp)).symm.trans he
    case retired =>
      intro _
      rw [hstore]
      by_cases hgone : ∃ e ∈ events, e.deletes name = true
      · exact (ho.retired hgone).run 0 (.call (.deletePool name))
      · have hpool := ho.stands fun e he =>
          Bool.eq_false_iff.mpr fun hdeletes => hgone ⟨e, he, hdeletes⟩
        rw [Store.deletePool, hpool]
        exact ho.numbered.retired_erasePool hpool
  | false =>
    have hbefore : (∃ e' ∈ events ++ [e], e'.deletes name = true) →
        ∃ e' ∈ events, e'.deletes name = true := by
      simp [he]
    have hstays : (∀ e' ∈ events ++ [e], e'.deletes name = false) →
        ∀ e' ∈ events, e'.deletes name = false := fun hall e' he' =>
      hall e' (List.mem_append_left _ he')
    rcases ClientEvent.store_next? hs he hn with hsame | ⟨x, hx, hrun⟩
    · constructor
      case numbered => exact hsame ▸ ho.numbered
      case stands => exact fun hall => hsame ▸ ho.stands (hstays hall)
      case retired => exact fun hgone => hsame ▸ ho.retired (hbefore hgone)
    · constructor
      case numbered => exact hrun ▸ ho.numbered.run _ x
      case stands =>
        exact fun hall => hrun ▸ Access.getElem?_pools_run _ hx (ho.stands (hstays hall))
      case retired => exact fun hgone => hrun ▸ (ho.retired (hbefore hgone)).run _ x

/-! ## The name of an opened pool -/

section Clients

variable {config : ConnectionConfig} {make : ConnectionConfig → Except Failure InMemory}
  {before later : List ClientEvent} {s t : System InMemory} {c : Cluster} {p : Pool}
  {name : String}

/-- The pools of a client have numbers of their own, if its backend was made for it afresh. -/
theorem Client.store_numbered (hmake : ∀ b, make config = .ok b → ∃ laid, b = .ofConfig laid)
    (hc : Client config make before s) : s.world.backend.store.Numbered := by
  obtain @⟨c, w, hconnect, hpath⟩ := hc
  obtain ⟨laid, hlaid⟩ := hmake _ (made_of_connect hconnect)
  refine hpath.preserved (P := fun _ s => s.world.backend.store.Numbered) (sound_start w) ?_ ?_
  · change w.backend.store.Numbered
    rw [hlaid]
    exact .ofPools laid.pools
  · intro events s t e hs hnumbered hn
    obtain ⟨u, -, shelf, hu⟩ := ClientEvent.makes_next? hs hn
    rcases u.store_cases hu with hstore | ⟨k, -, hstore⟩ | ⟨-, job, -, -, hstore⟩
    · exact hstore ▸ hnumbered
    · exact hstore ▸ hnumbered.run _ _
    · exact hstore ▸ hnumbered.run _ _

/-- **The name of a pool that was opened.** A client opens a pool by a name whose bytes a status can
count, and then whatever may happen happens: it and others make and remove pools, operations are
submitted and applied, the cluster is shut down. As long as nobody asked for the pool of the name to
be removed, its name is that by which it was opened. It takes buffers of 64, 128, ... bytes up to
the first with more bytes than the name. Once somebody did, there is no such entry any more, which
the first buffer is enough to learn. That remains so if a pool of the name is made again. -/
theorem Pool.name_after_opening (hmake : ∀ b, make config = .ok b → ∃ laid, b = .ofConfig laid)
    (hc : Client config make before s) (hopen : (c.openPool name s.world).1 = .ok p)
    (hsize : name.toUTF8.size < 0x80000000) (hp : ClientPath s later t) :
    ((∀ e ∈ later, e.deletes name = false) →
      (p.name t.world).1 = .ok name ∧
        GrowRetry.DoublesTo 64 (name.toUTF8.size + 1) (p.nameRun t.world).capacities) ∧
    ((∃ e ∈ later, e.deletes name = true) →
      (p.name t.world).1 = .error (.failed (.ofStatus .other .noEntry)) ∧
        (p.nameRun t.world).capacities = [64]) := by
  obtain ⟨hpool, hnul⟩ := Cluster.getElem?_of_openPool hopen
  obtain ⟨laid, hsound⟩ := hc.sound
  have hstart : s.Opened name p.id [] := ⟨Client.store_numbered hmake hc, fun _ => hpool, by simp⟩
  have hopened : t.Opened name p.id later :=
    hp.preserved (P := fun events s => s.Opened name p.id events) hsound hstart
      fun hs ho hn => ho.next? hnul hs hn
  constructor
  · intro hall
    exact name_of_some (hopened.numbered.poolName?_eq (hopened.stands hall)) hnul hsize
  · intro hgone
    exact name_of_none (hopened.retired hgone).poolName?_eq

end Clients

/-! ## One pool

Its name has as many bytes as the first buffer. Another pool is made beside it; then it is removed
and made again. -/

namespace Sample

def longName : String := "a name that is so long that the first buffer has no room for NUL"

theorem isSome_naming : (Client.replay (connection longName) make []).isSome = true := by
  decide +kernel

/-- The system of a client that just connected. -/
@[irreducible]
def naming : System InMemory := (Client.replay (connection longName) make []).get isSome_naming

theorem client_naming : Client (connection longName) make [] naming := by
  unfold naming
  exact Client.replay_get isSome_naming

def longNamed : Pool := { id := 1, context := cluster.context ++ [("pool", longName)] }

def besides : List ClientEvent := [.call (.createPool cluster "more")]

def again : List ClientEvent :=
  [.call (.deletePool cluster longName), .call (.createPool cluster longName)]

theorem isSome_besides : (ClientEvent.replay naming besides).isSome = true := by decide +kernel

theorem isSome_again : (ClientEvent.replay naming again).isSome = true := by decide +kernel

/-- The system with another pool. -/
@[irreducible]
def accompanied : System InMemory := (ClientEvent.replay naming besides).get isSome_besides

/-- The system with another pool of the same name. -/
@[irreducible]
def remade : System InMemory := (ClientEvent.replay naming again).get isSome_again

theorem path_accompanied : ClientPath naming besides accompanied := by
  unfold accompanied
  exact ClientPath.refl.of_replay (Option.some_get isSome_besides).symm

theorem path_remade : ClientPath naming again remade := by
  unfold remade
  exact ClientPath.refl.of_replay (Option.some_get isSome_again).symm

end Sample

namespace Pool

theorem name_after_opening_longName :
    Client (Sample.connection Sample.longName) Sample.make [] Sample.naming ∧
      (Sample.cluster.openPool Sample.longName Sample.naming.world).1 = .ok Sample.longNamed ∧
      ClientPath Sample.naming Sample.besides Sample.accompanied ∧
      (Sample.longNamed.name Sample.accompanied.world).1 = .ok Sample.longName ∧
      GrowRetry.DoublesTo 64 65 (Sample.longNamed.nameRun Sample.accompanied.world).capacities ∧
      ClientPath Sample.naming Sample.again Sample.remade ∧
      Sample.remade.world.backend.store.poolNames = [Sample.longName] ∧
      (Sample.longNamed.name Sample.remade.world).1 =
        .error (.failed (.ofStatus .other .noEntry)) := by
  have hmake : ∀ b, Sample.make (Sample.connection Sample.longName) = .ok b →
      ∃ laid, b = .ofConfig laid := fun b hb => by
    obtain ⟨laid, -, hb⟩ := InMemoryConfig.laid_of_connect hb
    exact ⟨laid, hb⟩
  have hopen : (Sample.cluster.openPool Sample.longName Sample.naming.world).1 =
      .ok Sample.longNamed := by decide +kernel
  have hsize : Sample.longName.toUTF8.size = 64 := by decide +kernel
  obtain ⟨hname, hcapacities⟩ := (name_after_opening hmake Sample.client_naming hopen
    (by rw [hsize]; decide) Sample.path_accompanied).1 (by decide +kernel)
  obtain ⟨hgone, -⟩ := (name_after_opening hmake Sample.client_naming hopen
    (by rw [hsize]; decide) Sample.path_remade).2 (by decide +kernel)
  rw [hsize] at hcapacities
  exact ⟨Sample.client_naming, hopen, Sample.path_accompanied, hname, hcapacities,
    Sample.path_remade, by decide +kernel, hgone⟩

end Pool

end Milepost
