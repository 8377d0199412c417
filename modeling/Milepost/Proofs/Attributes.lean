import Milepost.Proofs.Client
import Milepost.Proofs.Growing.Fitting

/-!
# Attributes of objects

An attribute has the value that it was given last, unless it was taken away since, or the object
was. Calls that give and take attributes are made at once, and operations on the object are applied
in between; whatever writes to an object keeps its attributes. What there is can be told from the
turns of a session: what the last of them says that was not refused and says anything about it.

* `Store.Records.concat`: one more turn, and what it leaves.
* `Session.records`: the objects and attributes in a pool, as the turns tell of them.
* `Pool.getAttribute_after`: what a client gets who asks for an attribute.
-/

namespace Milepost

/-! ## What turns tell -/

namespace Turn

variable {α : Type} {f : Access → Option α} {turns : List Turn} {x : Turn} {a : α}

/-- What the turn tells of something; a turn that is refused tells nothing. -/
def tells? (f : Access → Option α) (x : Turn) : Option α :=
  if x.answer.isError then none else f x.access

/-- The last turn that tells of something tells this of it. -/
def LastTells (f : Access → Option α) (turns : List Turn) (a : α) : Prop :=
  ∃ before x after, turns = before ++ x :: after ∧ x.tells? f = some a ∧
    ∀ y ∈ after, y.tells? f = none

/-- What the last turn that tells of something tells, if there is one. -/
def last (f : Access → Option α) (turns : List Turn) : Option α :=
  turns.reverse.findSome? (tells? f)

theorem last_concat : last f (turns ++ [x]) = (x.tells? f).or (last f turns) := by
  rw [last, List.reverse_concat, List.findSome?_cons]
  cases x.tells? f <;> rfl

theorem lastTells_iff : LastTells f turns a ↔ last f turns = some a := by
  rw [last, List.findSome?_eq_some_iff]
  constructor
  · rintro ⟨before, x, after, rfl, hx, hafter⟩
    exact ⟨after.reverse, x, before.reverse, by simp, hx,
      fun y hy => hafter y (List.mem_reverse.mp hy)⟩
  · rintro ⟨after, x, before, hturns, hx, hafter⟩
    refine ⟨before.reverse, x, after.reverse, ?_, hx, fun y hy => hafter y (List.mem_reverse.mp hy)⟩
    rw [← List.reverse_reverse turns, hturns]
    simp

end Turn

namespace Access

/-- Whether the object is there after the access, if that follows from the access. -/
def presence? (key : ObjectKey) : Access → Option Bool
  | call (.setAttribute k _ _) => if k = key then some true else none
  | edit k e => if k = key then some (e ≠ .remove) else none
  | _ => none

/-- The value of the attribute after the access, or that there is none, if either follows from the
access. -/
def attribute? (key : ObjectKey) (name : String) : Access → Option (Option ByteArray)
  | call (.setAttribute k n value) => if k = key ∧ n = name then some (some value) else none
  | call (.removeAttribute k n) => if k = key ∧ n = name then some none else none
  | edit k .remove => if k = key then some none else none
  | _ => none

end Access

/-! ## What a store has -/

namespace Store

variable {s : Store} {key : ObjectKey} {name : String} {value : ByteArray}

/-- The value of an attribute, if the object is there and has it. -/
def attribute? (s : Store) (key : ObjectKey) (name : String) : Option ByteArray :=
  s.objects[key]?.bind (·.attributes[name]?)

theorem attributes_objectOrNew :
    (s.objectOrNew key).attributes[name]? = s.attribute? key name := by
  unfold objectOrNew attribute?
  cases s.objects[key]? <;> simp

theorem getAttribute_of_none (h : s.objects[key]? = none) :
    s.getAttribute key name = .error .noEntry := by
  rw [getAttribute, h]

theorem getAttribute_of_missing {o : Object} (ho : s.objects[key]? = some o)
    (h : s.attribute? key name = none) : s.getAttribute key name = .error .noData := by
  rw [attribute?, ho, Option.bind_some] at h
  simp only [getAttribute, ho, h]

theorem getAttribute_of_some (h : s.attribute? key name = some value) :
    s.getAttribute key name = .ok value := by
  obtain ⟨o, ho, ha⟩ := Option.bind_eq_some_iff.mp h
  simp only [getAttribute, ho, ha]

end Store

namespace Access

variable {x : Access} {s s' : Store} {now : Int} {status : Status} {key : ObjectKey}
  {name : String}

/-- The object and its attribute are as the access says, and otherwise as before. -/
structure Leaves (x : Access) (key : ObjectKey) (name : String) (s s' : Store) : Prop where
  object : s'.objects[key]?.isSome = (x.presence? key).getD s.objects[key]?.isSome
  value : s'.attribute? key name = (x.attribute? key name).getD (s.attribute? key name)

theorem Leaves.of_same (hobject : s'.objects[key]? = s.objects[key]?)
    (hp : x.presence? key = none) (ha : x.attribute? key name = none) :
    x.Leaves key name s s' where
  object := by rw [hp, hobject, Option.getD_none]
  value := by rw [ha, Store.attribute?, hobject, Option.getD_none, Store.attribute?]

/-- An access that puts an object somewhere says so of it, and nothing of others. -/
theorem Leaves.of_putObject {k : ObjectKey} {o : Object}
    (hp : (x.presence? key).getD s.objects[key]?.isSome = (k = key || s.objects[key]?.isSome))
    (ha : (x.attribute? key name).getD (s.attribute? key name) =
      if k = key then o.attributes[name]? else s.attribute? key name) :
    x.Leaves key name s (s.putObject k o) where
  object := by
    rw [hp, Store.getElem?_objects_putObject]
    by_cases hk : key = k
    · rw [if_pos hk, decide_eq_true hk.symm]
      rfl
    · rw [if_neg hk, decide_eq_false (Ne.symm hk)]
      rfl
  value := by
    rw [ha, Store.attribute?, Store.getElem?_objects_putObject]
    by_cases hk : key = k
    · rw [if_pos hk, if_pos hk.symm]
      rfl
    · rw [if_neg hk, if_neg (Ne.symm hk)]
      rfl

/-- **What an access leaves that is not refused,** unless it removes the pool of the object. -/
theorem Done.leaves (hd : Done now s x (status, s')) (hok : status.isError = false)
    (key : ObjectKey) (name : String) :
    x.Leaves key name s s' ∨ ∃ n, x = call (.deletePool n) ∧ s.pools[n]? = some key.1 := by
  cases hd with
  | refused h => cases (isError_of_mem_refusals h).symm.trans hok
  | created | copied | flushed => exact .inl (.of_same rfl rfl rfl)
  | @deleted n pool hn =>
    by_cases hpool : key.1 = pool
    · exact .inr ⟨n, rfl, hpool ▸ hn⟩
    · refine .inl (.of_same (Option.ext fun o => ?_) rfl rfl)
      rw [Store.getElem?_objects_filter]
      exact and_iff_right hpool
  | @attributeSet k n value =>
    refine .inl (.of_putObject ?_ ?_)
    · by_cases hk : k = key <;> simp [presence?, hk]
    · by_cases hk : k = key
      · subst hk
        rw [if_pos rfl]
        change _ = ((s.objectOrNew k).attributes.insert n value)[name]?
        rw [Lookup.getElem?_insert, Store.attributes_objectOrNew]
        by_cases hn : n = name
        · simp [attribute?, hn]
        · simp [attribute?, hn, Ne.symm hn]
      · simp [attribute?, hk]
  | @attributeRemoved k n o ho =>
    refine .inl (.of_putObject ?_ ?_)
    · by_cases hk : k = key
      · subst hk
        simp [presence?, ho]
      · simp [presence?, hk]
    · by_cases hk : k = key
      · subst hk
        rw [if_pos rfl]
        change _ = (o.attributes.erase n)[name]?
        rw [Lookup.getElem?_erase, Store.attribute?, ho, Option.bind_some]
        by_cases hn : n = name
        · simp [attribute?, hn]
        · simp [attribute?, hn, Ne.symm hn]
      · simp [attribute?, hk]
  | @written k | @replaced k | @appended k =>
    refine .inl (.of_putObject ?_ ?_)
    · by_cases hk : k = key <;> simp [presence?, hk]
    · by_cases hk : k = key
      · subst hk
        rw [if_pos rfl]
        exact Store.attributes_objectOrNew.symm
      · rw [if_neg hk]
        rfl
  | @removed k =>
    by_cases hk : k = key
    · subst hk
      refine .inl ⟨?_, ?_⟩
      · simp [presence?]
      · simp [attribute?, Store.attribute?]
    · have hsame : (s.objects.erase k)[key]? = s.objects[key]? := by
        rw [Lookup.getElem?_erase, if_neg (Ne.symm hk)]
      refine .inl (.of_same hsame ?_ ?_)
      · exact if_neg hk
      · exact if_neg hk

end Access

/-! ## What the turns of a session tell -/

/-- The object and its attribute are as the turns tell. -/
structure Store.Records (s : Store) (turns : List Turn) (key : ObjectKey) (name : String) :
    Prop where
  object : s.objects[key]?.isSome = (Turn.last (Access.presence? key) turns).getD false
  value : s.attribute? key name = (Turn.last (Access.attribute? key name) turns).join

namespace Store.Records

variable {s : Store} {turns : List Turn} {x : Turn} {key : ObjectKey} {name : String} {now : Int}

theorem ofPools (names : List String) : (ofPools names).Records [] key name where
  object := by
    rw [objects_ofPools]
    simp [Turn.last]
  value := by
    rw [attribute?, objects_ofPools]
    simp [Turn.last]

/-- **One more turn,** and what it leaves. -/
theorem concat (h : s.Records turns key name) (hx : x.answer = (x.access.run now s).1) :
    (x.access.run now s).2.Records (turns ++ [x]) key name ∨
      ∃ n, x.access = .call (.deletePool n) ∧ s.pools[n]? = some key.1 := by
  cases herror : x.answer.isError with
  | true =>
    have htells : ∀ {α : Type} {f : Access → Option α}, x.tells? f = none := if_pos herror
    refine .inl ⟨?_, ?_⟩
    · rw [Turn.last_concat, htells, Option.none_or, Access.store_of_isError (hx ▸ herror), h.object]
    · rw [Turn.last_concat, htells, Option.none_or, Access.store_of_isError (hx ▸ herror), h.value]
  | false =>
    have htells : ∀ {α : Type} {f : Access → Option α}, x.tells? f = f x.access :=
      if_neg (Bool.eq_false_iff.mp herror)
    have hdone : Access.Done now s x.access
        ((x.access.run now s).1, (x.access.run now s).2) := Access.done_run now x.access s
    refine (hdone.leaves (hx ▸ herror) key name).imp_left fun hleaves => ⟨?_, ?_⟩
    · rw [hleaves.object, h.object, Turn.last_concat, htells, Option.getD_or]
    · rw [hleaves.value, h.value, Turn.last_concat, htells]
      cases x.access.attribute? key name <;> rfl

theorem lastTells_of_some {o : Object} (h : s.Records turns key name)
    (ho : s.objects[key]? = some o) : Turn.LastTells (Access.presence? key) turns true := by
  have hobject := h.object
  rw [ho, Option.isSome_some] at hobject
  rw [Turn.lastTells_iff]
  cases hlast : Turn.last (Access.presence? key) turns <;> simp_all

theorem exists_of_lastTells (h : s.Records turns key name)
    (hlast : Turn.LastTells (Access.presence? key) turns true) :
    ∃ o, s.objects[key]? = some o := by
  rw [← Option.isSome_iff_exists, h.object, Turn.lastTells_iff.mp hlast]
  rfl

theorem lastTells_iff {value : ByteArray} (h : s.Records turns key name) :
    Turn.LastTells (Access.attribute? key name) turns (some value) ↔
      s.attribute? key name = some value := by
  rw [Turn.lastTells_iff, h.value, Option.join_eq_some_iff]

end Store.Records

namespace Session

variable {config : InMemoryConfig} {turns : List Turn} {s : InMemory × Shelf} {key : ObjectKey}

/-- **The objects in a pool are as the turns tell,** while the pool is there. The objects of a pool
that was removed went with it, which no turn tells of them. -/
theorem records (hs : Session config turns s) (hpool : s.1.store.hasPool key.1 = true)
    (name : String) : s.1.store.Records turns key name := by
  obtain ⟨-, hkept⟩ := hs.preserved (P := fun turns store => store.Numbered ∧
      (store.Records turns key name ∨ store.Retired key.1))
    ⟨.ofPools config.pools, .inl (.ofPools config.pools)⟩ <| by
      rintro turns store now x ⟨hnumbered, hkept⟩ hx
      refine ⟨hnumbered.run now x.access, ?_⟩
      rcases hkept with hrecords | hretired
      · refine (hrecords.concat hx).imp_right ?_
        rintro ⟨n, haccess, hn⟩
        rw [haccess, Access.run, StoreCall.onStore, Store.deletePool, hn]
        exact hnumbered.retired_erasePool hn
      · exact .inr (hretired.run now x.access)
  refine hkept.resolve_right fun hretired => ?_
  cases hretired.unused.symm.trans hpool

end Session

/-! ## Asking for an attribute -/

namespace InMemory

variable {b : InMemory} {key : ObjectKey} {name : String} {value : ByteArray} {status : Status}

/-- **The value of an attribute fits where there is room for it.** -/
theorem deliversFrom_getAttribute (h : b.store.getAttribute key name = .ok value) :
    BufferCall.DeliversFrom (ObjectBackend.getAttribute key name) value.size value b where
  short buffer hlt := by
    change InMemory.getAttribute key name buffer b = _
    rw [InMemory.getAttribute, h]
    exact if_pos hlt
  enough buffer hle := by
    refine ⟨.empty, by simp, ?_⟩
    change InMemory.getAttribute key name buffer b = _
    rw [InMemory.getAttribute, h, ByteArray.append_empty]
    exact if_neg (Nat.not_lt.mpr hle)

theorem getAttribute_of_error (h : b.store.getAttribute key name = .error status)
    (buffer : Buffer) : ObjectBackend.getAttribute key name buffer b = ({ status }, b) := by
  change InMemory.getAttribute key name buffer b = _
  rw [InMemory.getAttribute, h]

end InMemory

namespace Pool

variable {p : Pool} {w : World InMemory} {oid name : String} {value : ByteArray}
  {status : Status}

/-- The run that lends the buffers when an attribute is asked for. -/
def attributeRun (p : Pool) (oid name : String) (w : World InMemory) : GrowRetry.Run InMemory :=
  w.lendRun p.account attributeSize (ObjectBackend.getAttribute (p.id, oid) name)

theorem checkNames_of_not_hasNul (hoid : Text.hasNul oid = false)
    (hname : Text.hasNul name = false) : checkNames oid name = .ok () := by
  rw [checkNames, (checkName_eq_ok_iff oid).mpr hoid]
  exact (checkName_eq_ok_iff name).mpr hname

theorem fst_getAttribute (hcheck : checkNames oid name = .ok ()) :
    (p.getAttribute oid name w).1 =
      (w.lend p.account attributeSize (ObjectBackend.getAttribute (p.id, oid) name)).1.noted
        (.getAttribute name oid) := by
  rw [getAttribute, hcheck]

/-- A value is delivered from the first doubling of 2048 bytes on that it fits into. -/
theorem getAttribute_of_ok (hcheck : checkNames oid name = .ok ())
    (h : w.backend.store.getAttribute (p.id, oid) name = .ok value)
    (hsize : value.size < 0x80000000) :
    (p.getAttribute oid name w).1 = .ok value ∧
      GrowRetry.DoublesTo 2048 value.size (p.attributeRun oid name w).capacities := by
  have hpos : 0 < attributeSize := by decide
  have hinitial : attributeSize ≤ Buffer.maxAllocation := by decide
  obtain ⟨hlend, hdoubles⟩ := World.lend_of_deliversFrom (InMemory.deliversFrom_getAttribute h)
    hsize (by omega) p.account hpos hinitial
  refine ⟨?_, hdoubles⟩
  rw [fst_getAttribute hcheck, hlend]
  rfl

theorem getAttribute_of_error (hcheck : checkNames oid name = .ok ())
    (h : w.backend.store.getAttribute (p.id, oid) name = .error status)
    (herror : status.isError = true) (hrange : status ≠ .outOfRange) :
    (p.getAttribute oid name w).1 =
        .error (.failed ((Failure.ofStatus .other status).noted (.getAttribute name oid))) ∧
      (p.attributeRun oid name w).capacities = [2048] := by
  have hinitial : attributeSize ≤ Buffer.maxAllocation := by decide
  obtain ⟨hlend, hcapacities⟩ := World.lend_of_refused (InMemory.getAttribute_of_error h) herror
    hrange p.account hinitial
  refine ⟨?_, hcapacities⟩
  rw [fst_getAttribute hcheck, hlend]
  rfl

end Pool

/-- A call of a client that asks for a change has a turn, if it is given no name with a NUL, and
fails if the turn is refused. -/
theorem ClientCall.session_run {laid : InMemoryConfig} {turns : List Turn} {w : World InMemory}
    (hs : Session laid turns (w.backend, w.shelf)) {k : ClientCall} {sc : StoreCall}
    (hk : k.change? = some sc) (hnames : ∀ n ∈ k.names, Text.hasNul n = false) :
    ∃ answer, Session laid (turns ++ [⟨.call sc, answer, none⟩]) ((k.run w).2.backend, w.shelf) ∧
      ((k.run w).1 = none ↔ answer.isError = false) := by
  obtain ⟨hbackend, hended⟩ := ClientCall.run_change (w := w) hk hnames
  rw [hbackend]
  exact ⟨_, hs.use (.call sc) rfl, hended⟩

/-- **What a client gets who asks for an attribute** of an object in a pool that is there. The turns
so far are the calls that changed the store, be they the client's own or not, and the operations
that were applied. If the last of them that tells whether the object is there does not say so, there
is no such entry. If the object is there, but the last turn that tells of the attribute does not say
what its value is, there is no data. Otherwise the value is the one that the attribute was given
last. It takes buffers of 2048, 4096, ... bytes up to the first that the value fits into, be it just
so; a refusal takes one. Every call of a client that gives or takes an attribute is itself a
turn. -/
theorem Pool.getAttribute_after {laid : InMemoryConfig} {turns : List Turn} {w : World InMemory}
    (hs : Session laid turns (w.backend, w.shelf)) {p : Pool}
    (hpool : w.backend.store.hasPool p.id = true) (oid name : String)
    (hoid : Text.hasNul oid = false) (hname : Text.hasNul name = false) :
    (¬ Turn.LastTells (Access.presence? (p.id, oid)) turns true →
      (p.getAttribute oid name w).1 =
          .error (.failed ((Failure.ofStatus .other .noEntry).noted (.getAttribute name oid))) ∧
        (p.attributeRun oid name w).capacities = [2048]) ∧
    (Turn.LastTells (Access.presence? (p.id, oid)) turns true →
      (∀ value, ¬ Turn.LastTells (Access.attribute? (p.id, oid) name) turns (some value)) →
      (p.getAttribute oid name w).1 =
          .error (.failed ((Failure.ofStatus .other .noData).noted (.getAttribute name oid))) ∧
        (p.attributeRun oid name w).capacities = [2048]) ∧
    (∀ value, Turn.LastTells (Access.attribute? (p.id, oid) name) turns (some value) →
      value.size < 0x80000000 →
      (p.getAttribute oid name w).1 = .ok value ∧
        GrowRetry.DoublesTo 2048 value.size (p.attributeRun oid name w).capacities) ∧
    ∀ (k : ClientCall) (sc : StoreCall), k.change? = some sc →
      (∀ n ∈ k.names, Text.hasNul n = false) →
      ∃ answer,
        Session laid (turns ++ [⟨.call sc, answer, none⟩]) ((k.run w).2.backend, w.shelf) ∧
          ((k.run w).1 = none ↔ answer.isError = false) := by
  have hrecords : w.backend.store.Records turns (p.id, oid) name := hs.records hpool name
  have hcheck := checkNames_of_not_hasNul hoid hname
  refine ⟨fun habsent => ?absent, fun hpresent hmissing => ?missing,
    fun value hvalue hsize => ?found, fun k sc hk hnames => ClientCall.session_run hs hk hnames⟩
  case absent =>
    have hnone : w.backend.store.objects[((p.id, oid) : ObjectKey)]? = none := by
      by_contra hne
      obtain ⟨o, ho⟩ := Option.ne_none_iff_exists'.mp hne
      exact habsent (hrecords.lastTells_of_some ho)
    exact getAttribute_of_error hcheck (Store.getAttribute_of_none hnone) rfl (by decide)
  case missing =>
    obtain ⟨o, ho⟩ := hrecords.exists_of_lastTells hpresent
    have hnone : w.backend.store.attribute? (p.id, oid) name = none := by
      rw [Option.eq_none_iff_forall_ne_some]
      exact fun value hvalue => hmissing value (hrecords.lastTells_iff.mpr hvalue)
    exact getAttribute_of_error hcheck (Store.getAttribute_of_missing ho hnone) rfl (by decide)
  case found =>
    have hfound := hrecords.lastTells_iff.mp hvalue
    exact getAttribute_of_ok hcheck (Store.getAttribute_of_some hfound) hsize

/-! ## One session

An object is given an attribute, written as a whole and given another value; a second one is given
the attribute and removed. -/

namespace Sample

def painting : List Use :=
  [.call (.setAttribute (1, "wall") "color" ⟨#[1]⟩),
    .call (.setAttribute (1, "door") "color" ⟨#[3]⟩),
    .createCompletion, .issue 1 "wall" 0 (.edit (.writeFull ⟨#[7]⟩)), .work, .work, .work,
    .createCompletion, .issue 1 "door" 1 (.edit .remove), .work,
    .call (.setAttribute (1, "wall") "color" ⟨#[2, 0]⟩)]

theorem isSome_painting : (Use.replay [] (.ofConfig config, {}) painting).isSome = true := by
  decide +kernel

/-- The turns and the state after these uses. -/
@[irreducible]
def painted : List Turn × InMemory × Shelf :=
  (Use.replay [] (.ofConfig config, {}) painting).get isSome_painting

theorem isSession_painted : Session config painted.1 painted.2 := by
  unfold painted
  exact Session.replay_get isSome_painting

def paintedWorld : World InMemory := { backend := painted.2.1, shelf := painted.2.2 }

def house : Pool := { id := 1, context := [] }

end Sample

namespace Pool

theorem getAttribute_after_painting :
    Session Sample.config Sample.painted.1
        (Sample.paintedWorld.backend, Sample.paintedWorld.shelf) ∧
      Sample.paintedWorld.backend.store.hasPool Sample.house.id = true ∧
      (Sample.house.getAttribute "wall" "color" Sample.paintedWorld).1 = .ok ⟨#[2, 0]⟩ ∧
      (Sample.house.getAttribute "wall" "size" Sample.paintedWorld).1 = .error
        (.failed ((Failure.ofStatus .other .noData).noted (.getAttribute "size" "wall"))) ∧
      (Sample.house.getAttribute "door" "color" Sample.paintedWorld).1 = .error
        (.failed ((Failure.ofStatus .other .noEntry).noted (.getAttribute "color" "door"))) := by
  have hs : Session Sample.config Sample.painted.1
      (Sample.paintedWorld.backend, Sample.paintedWorld.shelf) := Sample.isSession_painted
  have hpool : Sample.paintedWorld.backend.store.hasPool Sample.house.id = true := by
    decide +kernel
  obtain ⟨-, -, hcolor, -⟩ :=
    getAttribute_after hs hpool "wall" "color" (by decide +kernel) (by decide +kernel)
  obtain ⟨-, hsize, -⟩ :=
    getAttribute_after hs hpool "wall" "size" (by decide +kernel) (by decide +kernel)
  obtain ⟨hdoor, -⟩ :=
    getAttribute_after hs hpool "door" "color" (by decide +kernel) (by decide +kernel)
  simp only [Turn.lastTells_iff] at hcolor hsize hdoor
  have hnone : Turn.last (Access.attribute? (Sample.house.id, "wall") "size") Sample.painted.1 =
      none := by decide +kernel
  exact ⟨hs, hpool, (hcolor ⟨#[2, 0]⟩ (by decide +kernel) (by decide)).1,
    (hsize (by decide +kernel) fun value => by rw [hnone]; exact nofun).1,
    (hdoor (by decide +kernel)).1⟩

end Pool

end Milepost
