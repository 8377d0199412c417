import Milepost.Proofs.Client

/-!
# Where stored names come from

Names are passed on ended by a NUL, so that a name that holds one would be cut short. Every call
that is given a name looks for a NUL first and fails if there is one. Two ways past these checks
remain: the pools that a connection asks for, and a request submitted through an object of another
name. No stored name with a NUL has come any other way.

* `Use.mem_poolNames_next?`, `Use.exists_object_next?`, `Use.mem_queue_next?`: where a use takes a
  name from.
* `Client.origins`: where the names in the store and on their way there come from.
* `Client.names_checked`: which stored names can hold a NUL.
-/

namespace Milepost

/-! ## Names in a store -/

namespace Access

variable {now : Int} {x : Access} {s : Store} {name : String} {key : ObjectKey} {o : Object}

/-- A pool is there before or is made. -/
theorem mem_poolNames_of_run (h : name ∈ (x.run now s).2.poolNames) :
    name ∈ s.poolNames ∨ x = call (.createPool name) := by
  have hdone := done_run now x s
  generalize x.run now s = r at hdone h
  cases hdone with
  | refused | copied | flushed | attributeSet | attributeRemoved | written | replaced | appended
  | removed => exact .inl h
  | @created n hn =>
    obtain ⟨pool, hp⟩ := Store.mem_poolNames.mp h
    rw [Lookup.getElem?_insert] at hp
    split at hp
    · rename_i hname
      rw [hname]
      exact .inr rfl
    · exact .inl (Store.mem_poolNames.mpr ⟨pool, hp⟩)
  | deleted hn =>
    obtain ⟨pool, hp⟩ := Store.mem_poolNames.mp h
    rw [Lookup.getElem?_erase] at hp
    split at hp
    · cases hp
    · exact .inl (Store.mem_poolNames.mpr ⟨pool, hp⟩)

/-- An object is there before, or is given an attribute or written. -/
theorem exists_object_of_run (h : (x.run now s).2.objects[key]? = some o) :
    (∃ old : Object, s.objects[key]? = some old) ∨
      (∃ n value, x = call (.setAttribute key n value)) ∨ ∃ e, x = edit key e := by
  have hdone := done_run now x s
  generalize x.run now s = r at hdone h
  cases hdone with
  | refused | copied | flushed | created => exact .inl ⟨o, h⟩
  | deleted => exact .inl ⟨o, (Store.getElem?_objects_filter.mp h).2⟩
  | attributeSet =>
    rcases Store.eq_or_of_putObject h with ⟨rfl, -⟩ | h
    · exact .inr (.inl ⟨_, _, rfl⟩)
    · exact .inl ⟨o, h⟩
  | attributeRemoved ho =>
    rcases Store.eq_or_of_putObject h with ⟨rfl, -⟩ | h
    · exact .inl ⟨_, ho⟩
    · exact .inl ⟨o, h⟩
  | written | replaced | appended =>
    rcases Store.eq_or_of_putObject h with ⟨rfl, -⟩ | h
    · exact .inr (.inr ⟨_, rfl⟩)
    · exact .inl ⟨o, h⟩
  | removed =>
    rw [Lookup.getElem?_erase] at h
    split at h
    · cases h
    · exact .inl ⟨o, h⟩

end Access

/-- A job that edits an object is about it. -/
theorem Job.key_of_access {j : Job} {shelf : Shelf} {key : ObjectKey} {e : Edit}
    (h : j.access shelf = .edit key e) : j.key = key := by
  unfold access at h
  split at h
  · cases h
  · cases h
    rfl
  · cases h

theorem Job.access_ne_call {j : Job} {shelf : Shelf} {k : StoreCall} :
    j.access shelf ≠ .call k := by
  unfold access
  split <;> exact nofun

namespace Use

variable {u : Use} {s t : InMemory × Shelf} {name : String} {key : ObjectKey} {o : Object}
  {job : Job}

theorem mem_poolNames_next? (hn : u.next? s = some t) (h : name ∈ t.1.store.poolNames) :
    name ∈ s.1.store.poolNames ∨ u = .call (.createPool name) := by
  rcases u.store_cases hn with hsame | ⟨k, rfl, hcall⟩ | ⟨-, job, rest, -, hjob⟩
  · exact .inl (hsame ▸ h)
  · rw [hcall] at h
    rcases Access.mem_poolNames_of_run h with h | h
    · exact .inl h
    · cases h
      exact .inr rfl
  · rw [hjob] at h
    exact .inl ((Access.mem_poolNames_of_run h).resolve_right Job.access_ne_call)

theorem exists_object_next? (hn : u.next? s = some t)
    (h : t.1.store.objects[key]? = some o) :
    (∃ old : Object, s.1.store.objects[key]? = some old) ∨
      (∃ n value, u = .call (.setAttribute key n value)) ∨ ∃ job ∈ s.1.queue, job.key = key := by
  rcases u.store_cases hn with hsame | ⟨k, rfl, hcall⟩ | ⟨-, job, rest, hq, hjob⟩
  · exact .inl ⟨o, hsame ▸ h⟩
  · rw [hcall] at h
    rcases Access.exists_object_of_run h with h | ⟨n, value, h⟩ | ⟨e, h⟩
    · exact .inl h
    · cases h
      exact .inr (.inl ⟨n, value, rfl⟩)
    · cases h
  · rw [hjob] at h
    rcases Access.exists_object_of_run h with h | ⟨n, value, h⟩ | ⟨e, h⟩
    · exact .inl h
    · exact absurd h Job.access_ne_call
    · exact .inr (.inr ⟨job, hq ▸ List.mem_cons_self, Job.key_of_access h⟩)

theorem mem_queue_next? (hn : u.next? s = some t) (h : job ∈ t.1.queue) :
    job ∈ s.1.queue ∨ ∃ b, u.handsOver? s.1 = some (job, b) := by
  rcases u.queue_cases hn with hsame | ⟨-, first, hfirst⟩ | ⟨new, b, hnew, -, hlast⟩
  · exact .inl (hsame ▸ h)
  · exact .inl (hfirst ▸ List.mem_cons_of_mem _ h)
  · rw [hlast] at h
    rcases List.mem_append.mp h with h | h
    · exact .inl h
    · obtain rfl := List.mem_singleton.mp h
      exact .inr ⟨b, hnew⟩

end Use

/-! ## Names of a connection -/

namespace InMemoryConfig

variable {c laid : InMemoryConfig} {key value name : String} {settings : List (String × String)}

/-- The names that a setting asks for. -/
def asked (key value : String) : List String :=
  if key = "memory_pools" then poolNames value else []

theorem pools_eq_of_applySetting (h : c.applySetting key value = .ok laid) :
    laid.pools = c.pools ++ asked key value := by
  unfold applySetting at h
  split at h
  · split at h <;> cases h
    exact (List.append_nil _).symm
  · split at h <;> cases h
    exact (List.append_nil _).symm
  · cases h
    rfl
  · rename_i hpools
    cases h
    rw [asked, if_neg hpools, List.append_nil]

theorem pools_eq_of_applySettings (h : c.applySettings settings = .ok laid) :
    laid.pools = c.pools ++ settings.flatMap fun entry => asked entry.1 entry.2 := by
  induction settings generalizing c with
  | nil =>
    cases h
    exact (List.append_nil _).symm
  | cons entry rest ih =>
    obtain ⟨key, value⟩ := entry
    obtain ⟨next, hone, h⟩ := exists_of_bind_eq_ok h
    rw [ih h, pools_eq_of_applySetting hone, List.flatMap_cons, List.append_assoc]

/-- Only one setting asks for pools. -/
theorem mem_pools_applySettings (hl : c.applySettings settings = .ok laid) (h : name ∈ laid.pools) :
    name ∈ c.pools ∨ ∃ value, ("memory_pools", value) ∈ settings ∧ name ∈ poolNames value := by
  rw [pools_eq_of_applySettings hl, List.mem_append] at h
  refine h.imp_right fun h => ?_
  obtain ⟨⟨key, value⟩, hentry, hname⟩ := List.mem_flatMap.mp h
  rw [asked] at hname
  split at hname
  · rename_i hkey
    exact ⟨value, hkey ▸ hentry, hname⟩
  · cases hname

/-- A backend that a connection asks for is the one that its settings lay down. -/
theorem laid_of_connect {around : Surroundings} {config : ConnectionConfig} {b : InMemory}
    (h : connect around config = .ok b) :
    ∃ laid, applySettings {} config.settings.toList = .ok laid ∧ b = .ofConfig laid := by
  obtain ⟨_, -, h⟩ := exists_of_bind_eq_ok h
  obtain ⟨laid, happly, h⟩ := exists_of_map_eq_ok h
  exact ⟨laid, happly, h.symm⟩

end InMemoryConfig

/-! ## Names of a client -/

/-- An operation on the object was submitted through an object of the same pool, whose own name
holds no NUL. -/
def Requested (events : List ClientEvent) (key : ObjectKey) : Prop :=
  ∃ o r, ClientEvent.submit o r ∈ events ∧ Text.hasNul o.oid = false ∧ (o.pool, r.oid) = key

theorem Requested.concat {events : List ClientEvent} {key : ObjectKey} (h : Requested events key)
    (e : ClientEvent) : Requested (events ++ [e]) key := by
  obtain ⟨o, r, hmem, hkey⟩ := h
  exact ⟨o, r, List.mem_append_left _ hmem, hkey⟩

/-- Where the names with a NUL come from that are stored or on their way to the store. -/
structure System.Originate (asked : String → Prop) (events : List ClientEvent)
    (s : System InMemory) : Prop where
  pools : ∀ {name : String}, name ∈ s.world.backend.store.poolNames →
    Text.hasNul name = true → asked name
  objects : ∀ {key : ObjectKey} {o : Object}, s.world.backend.store.objects[key]? = some o →
    Text.hasNul key.2 = true → Requested events key
  queue : ∀ {job : Job}, job ∈ s.world.backend.queue → Text.hasNul job.oid = true →
    Requested events job.key
  flights : ∀ {i : FlightId} {f : Flight}, s.flights[i]? = some f →
    Requested events (f.task.pool, f.task.request.oid)

namespace System.Originate

variable {asked : String → Prop} {events : List ClientEvent} {s t : System InMemory}
  {e : ClientEvent} {config : InMemoryConfig}

/-- **Every event of the client's own preserves it.** -/
theorem next? (ho : s.Originate asked events) (hs : s.Sound config) (hown : e.isOwn = true)
    (hn : e.next? s = some t) : t.Originate asked (events ++ [e]) := by
  obtain ⟨u, hmakes, shelf, hu⟩ := ClientEvent.makes_next? hs hn
  constructor
  case pools =>
    intro name hname hnul
    rcases Use.mem_poolNames_next? hu hname with hname | rfl
    · exact ho.pools hname hnul
    · -- The call that made the pool was given its name, and would have failed.
      cases hmakes with
      | @change k _ hk hnames =>
        have hgiven : name ∈ k.names := by
          cases k <;> cases hk
          exact List.mem_cons_self
        cases (hnames name hgiven).symm.trans hnul
      | use => cases hown
  case objects =>
    intro key o hobject hnul
    rcases Use.exists_object_next? hu hobject with ⟨old, hold⟩ | ⟨n, value, rfl⟩ | ⟨job, hq, rfl⟩
    · exact (ho.objects hold hnul).concat e
    · cases hmakes with
      | @change k _ hk hnames =>
        have hgiven : key.2 ∈ k.names := by
          cases k <;> cases hk
          exact List.mem_cons_self
        cases (hnames key.2 hgiven).symm.trans hnul
      | use => cases hown
    · exact (ho.queue hq hnul).concat e
  case queue =>
    intro job hjob hnul
    rcases Use.mem_queue_next? hu hjob with hjob | ⟨b, hover⟩
    · exact (ho.queue hjob hnul).concat e
    · cases hmakes with
      | issue hf c command =>
        cases hover
        exact (ho.flights hf).concat _
      | use =>
        cases u with
        | beginFlush pool =>
          -- A flush is queued under the empty name.
          cases hover
          cases hnul
        | issue => cases hown
        | _ => cases hover
      | nothing | change | shutdown | createCompletion | release => cases hover
  case flights =>
    intro i g hg
    cases ClientEvent.yields_next? hs hn hg with
    | submitted he hoid _ hg =>
      subst he hg
      exact ⟨_, _, List.mem_append_right _ List.mem_cons_self, hoid, rfl⟩
    | kept hg => exact (ho.flights hg).concat e
    | issuer hf hk hm =>
      rw [hm.task_eq]
      exact (ho.flights hf).concat e
    | waiter hf hk hm =>
      rw [hm.frame.1]
      exact (ho.flights hf).concat e

end System.Originate

namespace Client

variable {config : ConnectionConfig} {around : Surroundings} {events : List ClientEvent}
  {s : System InMemory}

/-- The setting of the connection asks for a pool of the name. -/
def Asked (config : ConnectionConfig) (name : String) : Prop :=
  ∃ value, config.settings["memory_pools"]? = some value ∧ name ∈ InMemoryConfig.poolNames value

/-- **Where the names of a client come from** that has its backend for itself. -/
theorem origins (hc : Client config (InMemoryConfig.connect around) events s)
    (hown : ∀ e ∈ events, e.isOwn = true) : s.Originate (Asked config) events := by
  obtain @⟨c, ⟨backend, shelf, accounts, journal⟩, hconnect, hpath⟩ := hc
  obtain ⟨laid, happly, hb⟩ := InMemoryConfig.laid_of_connect (made_of_connect hconnect)
  obtain rfl : backend = .ofConfig laid := hb
  refine hpath.preserved
    (P := fun events s => (∀ e ∈ events, e.isOwn = true) → s.Originate (Asked config) events)
    (sound_start _) (fun _ => ?_) (fun {events _ _ e} hs ho hn hall =>
      (ho fun e' he => hall e' (List.mem_append_left _ he)).next? hs
        (hall e (List.mem_append_right _ List.mem_cons_self)) hn) hown
  constructor
  case pools =>
    intro name hname _
    have hpool := Store.mem_poolNames_ofPools.mp hname
    rcases InMemoryConfig.mem_pools_applySettings happly hpool with hnone | ⟨value, hv, hn⟩
    · cases hnone
    · exact ⟨value, Std.ExtTreeMap.mem_toList_iff_getElem?_eq_some.mp hv, hn⟩
  case objects =>
    intro key o ho _
    change (Store.ofPools laid.pools).objects[key]? = some o at ho
    rw [Store.objects_ofPools, Std.ExtTreeMap.getElem?_empty] at ho
    cases ho
  case queue =>
    intro job hjob
    cases hjob
  case flights =>
    intro i f hf
    simp at hf

/-- **Where a stored name with a NUL comes from**, if nobody but the client uses the backend. The
name of a pool with a NUL is among those that the connection was told to make. The name of an object
with a NUL is that of a request which was submitted through an object of the same pool, whose own
name has none. Nothing else brings such a name in: a call that is given one fails, as an argument
that is not acceptable, and changes nothing, and there is no object of such a name to submit
operations through. -/
theorem names_checked (hc : Client config (InMemoryConfig.connect around) events s)
    (hown : ∀ e ∈ events, e.isOwn = true) :
    (∀ name ∈ s.world.backend.store.poolNames, Text.hasNul name = true →
      ∃ value, config.settings["memory_pools"]? = some value ∧
        name ∈ InMemoryConfig.poolNames value) ∧
    (∀ (key : ObjectKey) (o : Object), s.world.backend.store.objects[key]? = some o →
      Text.hasNul key.2 = true →
      ∃ object r, ClientEvent.submit object r ∈ events ∧ Text.hasNul object.oid = false ∧
        object.pool = key.1 ∧ r.oid = key.2) ∧
    (∀ (k : ClientCall), ∀ name ∈ k.names, Text.hasNul name = true →
      ∃ bad ∈ k.names, Text.hasNul bad = true ∧
        k.run s.world =
          (some (.failed (.of .invalidInput (.nameHasNul bad))), s.world)) ∧
    ∀ (p : Pool) (oid : String) (callbacks : Callbacks), Text.hasNul oid = true →
      p.asyncObject oid callbacks = .error (.of .invalidInput (.objectNameHasNul oid)) := by
  have ho := hc.origins hown
  refine ⟨fun name hname hnul => ho.pools hname hnul, ?_,
    fun k name hname hnul => ClientCall.run_of_hasNul hname hnul,
    fun p oid callbacks hnul => if_pos hnul⟩
  intro key o hobject hnul
  obtain ⟨object, r, hmem, hoid, rfl⟩ := ho.objects hobject hnul
  exact ⟨object, r, hmem, hoid, rfl, rfl⟩

end Client

/-! ## Two names that get past

A connection asks for a pool of a name with a NUL, and an operation on an object of such a name is
submitted through another object. -/

namespace Sample

/-- An object is written whose name holds a NUL. -/
def smuggled : List ClientEvent :=
  [.submit object { oid := "c\x00d", operation := .writeFull ⟨#[7]⟩ },
    .task (.issuer 0), .task (.issuer 0), .use .work]

theorem isSome_smuggled :
    (Client.replay (connection "a\x00b") make smuggled).isSome = true := by decide +kernel

/-- The system after that. -/
@[irreducible]
def smuggling : System InMemory :=
  (Client.replay (connection "a\x00b") make smuggled).get isSome_smuggled

theorem client_smuggling : Client (connection "a\x00b") make smuggled smuggling := by
  unfold smuggling
  exact Client.replay_get isSome_smuggled

theorem poolNames_smuggling : smuggling.world.backend.store.poolNames = ["a\x00b"] := by
  decide +kernel

theorem object_smuggling :
    (smuggling.world.backend.store.objects[((1, "c\x00d") : ObjectKey)]?).isSome = true := by
  decide +kernel

end Sample

namespace Client

/-- Names with a NUL are stored. -/
theorem stores_nul :
    Client (Sample.connection "a\x00b") Sample.make Sample.smuggled Sample.smuggling ∧
      (∃ name ∈ Sample.smuggling.world.backend.store.poolNames, Text.hasNul name = true) ∧
      ∃ (key : ObjectKey) (o : Object),
        Sample.smuggling.world.backend.store.objects[key]? = some o ∧
          Text.hasNul key.2 = true := by
  obtain ⟨o, ho⟩ := Option.isSome_iff_exists.mp Sample.object_smuggling
  refine ⟨Sample.client_smuggling, ⟨"a\x00b", ?_, by decide +kernel⟩, _, o, ho, by decide +kernel⟩
  rw [Sample.poolNames_smuggling]
  exact List.mem_cons_self

theorem names_checked_smuggled :
    Client (Sample.connection "a\x00b") Sample.make Sample.smuggled Sample.smuggling ∧
      (∀ e ∈ Sample.smuggled, e.isOwn = true) ∧
      (∃ value, (Sample.connection "a\x00b").settings["memory_pools"]? = some value ∧
        "a\x00b" ∈ InMemoryConfig.poolNames value) ∧
      (∃ object r, ClientEvent.submit object r ∈ Sample.smuggled ∧
        Text.hasNul object.oid = false ∧ object.pool = 1 ∧ r.oid = "c\x00d") ∧
      (ClientCall.run Sample.smuggling.world (.createPool Sample.cluster "e\x00")).1 =
        some (.failed (.of .invalidInput (.nameHasNul "e\x00"))) := by
  have hown : ∀ e ∈ Sample.smuggled, e.isOwn = true := by
    simp [Sample.smuggled, ClientEvent.isOwn]
  obtain ⟨hpools, hobjects, hcalls, -⟩ := names_checked Sample.client_smuggling hown
  obtain ⟨o, ho⟩ := Option.isSome_iff_exists.mp Sample.object_smuggling
  refine ⟨Sample.client_smuggling, hown, hpools "a\x00b" ?_ (by decide +kernel),
    hobjects _ o ho (by decide +kernel), ?_⟩
  · rw [Sample.poolNames_smuggling]
    exact List.mem_cons_self
  · obtain ⟨bad, hmem, -, hrun⟩ := hcalls (.createPool Sample.cluster "e\x00") "e\x00"
      List.mem_cons_self (by decide +kernel)
    obtain rfl := List.mem_singleton.mp hmem
    rw [hrun]

end Client

end Milepost
