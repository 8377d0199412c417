import Milepost.InMemory.Setup
import Milepost.Proofs.PoolListing
import Milepost.Proofs.Service.Ledger

/-!
# Clients of a backend in memory

A client connects with a configuration, calls its cluster and its pools, and submits operations
through its objects. Meanwhile its tasks go on, and the backend is used beside it: by its worker,
and by others who have it. `Client` tells what may have happened so far, step by step, and the
system then.

* `ClientCall.run_of_hasNul`: a call that is given a name with a NUL fails and changes nothing.
* `ClientCall.run_change`: every other call that asks for a change is passed on.
* `ClientEvent.makes_next?`: whatever happens makes at most one use of the backend.
* `ClientEvent.yields_next?`: and moves a flight at most one step.
-/

namespace Milepost

section Except

variable {ε α β : Type} {x : Except ε α} {b : β}

/-- Two steps succeed if both do. -/
theorem exists_of_bind_eq_ok {f : α → Except ε β} (h : x.bind f = .ok b) :
    ∃ a, x = .ok a ∧ f a = .ok b := by
  cases x with
  | error => cases h
  | ok a => exact ⟨a, rfl, h⟩

theorem exists_of_map_eq_ok {f : α → β} (h : x.map f = .ok b) : ∃ a, x = .ok a ∧ f a = b := by
  cases x with
  | error => cases h
  | ok a => exact ⟨a, rfl, Except.ok.inj h⟩

end Except

/-- A call of a cluster or one of its pools that is answered at once. -/
inductive ClientCall
  | openPool (c : Cluster) (name : String)
  | listPools (c : Cluster)
  | lookupPool (c : Cluster) (name : String)
  | createPool (c : Cluster) (name : String)
  | deletePool (c : Cluster) (name : String)
  | poolName (p : Pool)
  | getAttribute (p : Pool) (oid name : String)
  | setAttribute (p : Pool) (oid name : String) (value : ByteArray)
  | removeAttribute (p : Pool) (oid name : String)
  | objectStatus (p : Pool) (oid : String)
  | shutdown (c : Cluster)

namespace ClientCall

/-- Why a call did not come about, if it did not, and the world after it. -/
def ended {α : Type} (r : Delivered α × World InMemory) : Option Stop × World InMemory :=
  (match r.1 with
    | .ok _ => none
    | .error stop => some stop, r.2)

/-- The same for a call that lends no buffer. -/
def endedAtOnce {α : Type} (r : Except Failure α × World InMemory) :
    Option Stop × World InMemory :=
  ended (.ofResult r.1, r.2)

/-- Makes the call. -/
def run (w : World InMemory) : ClientCall → Option Stop × World InMemory
  | openPool c name => endedAtOnce (c.openPool name w)
  | listPools c => ended (c.listPools w)
  | lookupPool c name => endedAtOnce (c.lookupPool name w)
  | createPool c name => endedAtOnce (c.createPool name w)
  | deletePool c name => endedAtOnce (c.deletePool name w)
  | poolName p => ended (p.name w)
  | getAttribute p oid name => ended (p.getAttribute oid name w)
  | setAttribute p oid name value => endedAtOnce (p.setAttribute oid name value w)
  | removeAttribute p oid name => endedAtOnce (p.removeAttribute oid name w)
  | objectStatus p oid => endedAtOnce (p.objectStatus oid w)
  | shutdown c => (none, c.shutdown w)

/-- The names that the call is given. -/
def names : ClientCall → List String
  | openPool _ name | lookupPool _ name | createPool _ name | deletePool _ name => [name]
  | getAttribute _ oid name | setAttribute _ oid name _ | removeAttribute _ oid name => [oid, name]
  | objectStatus _ oid => [oid]
  | listPools _ | poolName _ | shutdown _ => []

/-- The change of the store that the call asks for. -/
def change? : ClientCall → Option StoreCall
  | createPool _ name => some (.createPool name)
  | deletePool _ name => some (.deletePool name)
  | setAttribute p oid name value => some (.setAttribute (p.id, oid) name value)
  | removeAttribute p oid name => some (.removeAttribute (p.id, oid) name)
  | _ => none

end ClientCall

/-- What a client does, and what goes on beside it. A flush is told in its two halves, which are
uses of the backend, since everything else goes on while its answer is awaited. -/
inductive ClientEvent
  | call (k : ClientCall)
  /-- An operation is submitted through an object. -/
  | submit (o : AsyncObject) (r : Request)
  /-- An issuer or a waiter makes a step. -/
  | task (a : Actor)
  /-- The backend is used: by its worker, for a flush, or by others. -/
  | use (u : Use)

namespace ClientEvent

/-- Whether the event needs nobody but the client and the backend. -/
def isOwn : ClientEvent → Bool
  | use (.beginFlush _) | use (.endFlush _) | use .work | use (.clock _) => true
  | use _ => false
  | call _ | submit .. | task _ => true

/-- The system after an event, if it can happen. There are no objects whose names hold a NUL. -/
def next? (s : System InMemory) : ClientEvent → Option (System InMemory)
  | call k => some { s with world := (k.run s.world).2 }
  | submit o r => if Text.hasNul o.oid then none else some (s.submit o r).2
  | task a => s.step? a
  | use u =>
    (u.next? (s.world.backend, s.world.shelf)).map fun (backend, shelf) =>
      { s with world := { s.world with backend, shelf } }

/-- What a list of events makes of a system, if they can happen in this order. -/
def replay (s : System InMemory) : List ClientEvent → Option (System InMemory)
  | [] => some s
  | e :: es => (e.next? s).bind fun t => replay t es

end ClientEvent

/-- What may happen from a state on, and the state that it leads to. -/
inductive ClientPath (s : System InMemory) : List ClientEvent → System InMemory → Prop
  | refl : ClientPath s [] s
  | step {events : List ClientEvent} {t u : System InMemory} (e : ClientEvent) :
    ClientPath s events t → e.next? t = some u → ClientPath s (events ++ [e]) u

/-- What may have happened since a client connected to the backend made for it, and the system
then. -/
inductive Client (config : ConnectionConfig) (make : ConnectionConfig → Except Failure InMemory)
    (events : List ClientEvent) (s : System InMemory) : Prop
  | connected {c : Cluster} {w : World InMemory} (hc : Cluster.connect config make = .ok (c, w))
    (hp : ClientPath { world := w } events s)

namespace ClientCall

variable {k : ClientCall} {w : World InMemory} {name : String}

/-! ## Names that are refused -/

/-- The failure of a call that is given such a name. -/
def refusal (name : String) : Failure := .of .invalidInput (.nameHasNul name)

theorem checkName_of_hasNul (h : Text.hasNul name = true) :
    checkName name = .error (refusal name) := if_pos h

/-- Of two names the first that holds a NUL is refused. -/
theorem checkNames_cases (oid name : String) :
    (Pool.checkNames oid name = .ok () ∧ Text.hasNul oid = false ∧ Text.hasNul name = false) ∨
      ∃ bad ∈ [oid, name], Text.hasNul bad = true ∧
        Pool.checkNames oid name = .error (refusal bad) := by
  unfold Pool.checkNames
  cases hoid : Text.hasNul oid with
  | true =>
    rw [checkName_of_hasNul hoid]
    exact .inr ⟨oid, List.mem_cons_self, hoid, rfl⟩
  | false =>
    rw [(checkName_eq_ok_iff oid).mpr hoid]
    cases hname : Text.hasNul name with
    | true => exact .inr ⟨name, by simp, hname, checkName_of_hasNul hname⟩
    | false => exact .inl ⟨(checkName_eq_ok_iff name).mpr hname, rfl, rfl⟩

/-- **A call that is given a name with a NUL fails and changes nothing.** -/
theorem run_of_hasNul (hname : name ∈ k.names) (h : Text.hasNul name = true) :
    ∃ bad ∈ k.names, Text.hasNul bad = true ∧ k.run w = (some (.failed (refusal bad)), w) := by
  cases k with
  | listPools | poolName | shutdown => cases hname
  | openPool c n | lookupPool c n | createPool c n | deletePool c n | objectStatus c n =>
    obtain rfl := List.mem_singleton.mp hname
    refine ⟨name, hname, h, ?_⟩
    simp only [run, Cluster.openPool, Cluster.lookupPool, Cluster.createPool, Cluster.deletePool,
      Cluster.managePool, Pool.objectStatus, checkName_of_hasNul h]
    rfl
  | getAttribute p oid n | setAttribute p oid n value | removeAttribute p oid n =>
    rcases checkNames_cases oid n with ⟨-, hoid, hn⟩ | ⟨bad, hmem, hbad, hcheck⟩
    · simp only [names, List.mem_cons, List.not_mem_nil, or_false] at hname
      rcases hname with rfl | rfl
      · cases hoid.symm.trans h
      · cases hn.symm.trans h
    · refine ⟨bad, hmem, hbad, ?_⟩
      simp only [run, Pool.getAttribute, Pool.setAttribute, Pool.removeAttribute, hcheck]
      rfl

/-! ## Calls that are passed on -/

/-- A call that asks for no change leaves the backend, unless it is the shutdown. -/
theorem backend_run (hk : k.change? = none) (hs : ∀ c, k ≠ shutdown c) :
    (k.run w).2.backend = w.backend := by
  have hread : ∀ (d : DirectCall) (l : Lent), (∀ sc, d ≠ .change sc) →
      (d.run l w.backend).2.2 = w.backend := fun d l hd => DirectCall.backend_run hd
  cases k with
  | createPool | deletePool | setAttribute | removeAttribute => cases hk
  | shutdown c => exact absurd rfl (hs c)
  | openPool c n =>
    change (c.openPool n w).2.backend = _
    unfold Cluster.openPool
    split <;> rfl
  | lookupPool c n =>
    change (c.lookupPool n w).2.backend = _
    unfold Cluster.lookupPool
    split
    · rfl
    · dsimp only
      split <;> rfl
  | listPools c =>
    change (w.lend c.account Cluster.poolListSize ObjectBackend.listPools).2.backend = _
    exact World.backend_lend fun b => hread .listPools ⟨b, 0, 0⟩ nofun
  | poolName p =>
    change (w.lend p.account Pool.nameSize (ObjectBackend.poolName p.id)).2.backend = _
    exact World.backend_lend fun b => hread (.poolName p.id) ⟨b, 0, 0⟩ nofun
  | getAttribute p oid n =>
    change (p.getAttribute oid n w).2.backend = _
    unfold Pool.getAttribute
    split
    · rfl
    · exact World.backend_lend fun b => hread (.getAttribute (p.id, oid) n) ⟨b, 0, 0⟩ nofun
  | objectStatus p oid =>
    change (p.objectStatus oid w).2.backend = _
    unfold Pool.objectStatus
    split
    · rfl
    · exact hread (.stat (p.id, oid)) ⟨⟨.empty⟩, 0, 0⟩ nofun

theorem endedAtOnce_eq_none_iff {r : Except Failure Unit × World InMemory} :
    (endedAtOnce r).1 = none ↔ r.1 = .ok () := by
  obtain ⟨_ | _, w⟩ := r
  · exact iff_of_false nofun nofun
  · exact iff_of_true rfl rfl

/-- A change of attributes is passed on if neither name holds a NUL. -/
theorem checkNames_of_names {oid n : String}
    (hnames : ∀ name ∈ [oid, n], Text.hasNul name = false) : Pool.checkNames oid n = .ok () := by
  rcases checkNames_cases oid n with ⟨hcheck, -, -⟩ | ⟨bad, hmem, hbad, -⟩
  · exact hcheck
  · cases (hnames bad hmem).symm.trans hbad

/-- A call that asks for a change is passed on, and fails exactly when it is answered by a
refusal. -/
theorem run_change {sc : StoreCall} (hk : k.change? = some sc)
    (hnames : ∀ name ∈ k.names, Text.hasNul name = false) :
    (k.run w).2.backend = (sc.run w.backend).2 ∧
      ((k.run w).1 = none ↔ (sc.run w.backend).1.isError = false) := by
  cases k with
  | openPool | listPools | lookupPool | poolName | getAttribute | objectStatus | shutdown =>
    cases hk
  | createPool c n | deletePool c n =>
    cases hk
    have hn : Text.hasNul n = false := hnames n List.mem_cons_self
    exact ⟨(Cluster.managePool_of_not_hasNul hn).1,
      endedAtOnce_eq_none_iff.trans (Cluster.managePool_of_not_hasNul hn).2⟩
  | setAttribute p oid n value =>
    cases hk
    have hcheck := checkNames_of_names hnames
    refine ⟨?_, endedAtOnce_eq_none_iff.trans ?_⟩
    · change (p.setAttribute oid n value w).2.backend = _
      rw [Pool.setAttribute, hcheck]
      rfl
    · rw [Pool.setAttribute, hcheck]
      exact World.callStatus_eq_ok_iff
  | removeAttribute p oid n =>
    cases hk
    have hcheck := checkNames_of_names hnames
    refine ⟨?_, endedAtOnce_eq_none_iff.trans ?_⟩
    · change (p.removeAttribute oid n w).2.backend = _
      rw [Pool.removeAttribute, hcheck]
      rfl
    · rw [Pool.removeAttribute, hcheck]
      exact World.callStatus_eq_ok_iff

end ClientCall

/-! ## What a client makes of the backend -/

/-- The use of the backend that an event makes. An event that leaves the backend is told as one
that leaves the buffers in some way. -/
inductive ClientEvent.Makes (s : System InMemory) : ClientEvent → Use → Prop
  | nothing {e : ClientEvent} (shelf : Shelf) : Makes s e (.buffers shelf)
  | change {k : ClientCall} {sc : StoreCall} (hk : k.change? = some sc)
      (hnames : ∀ name ∈ k.names, Text.hasNul name = false) : Makes s (.call k) (.call sc)
  | shutdown (c : Cluster) : Makes s (.call (.shutdown c)) .shutdown
  | createCompletion (a : Actor) : Makes s (.task a) .createCompletion
  | issue {a : Actor} {f : Flight} (hf : s.flights[a.flight]? = some f) (c : CompletionId)
      (command : Command) :
    Makes s (.task a) (.issue f.task.pool f.task.request.oid c command)
  | release (a : Actor) (c : CompletionId) : Makes s (.task a) (.release c)
  | use (u : Use) : Makes s (.use u) u

/-- Every use leaves what is laid down about the backend. -/
theorem Use.config_next? {u : Use} {s t : InMemory × Shelf} (hn : u.next? s = some t) :
    t.1.config = s.1.config := by
  by_cases hu : u = .work
  · subst hu
    exact InMemory.config_step? hn
  · cases u.deals hn hu with
    | leaves _ hs => exact hs.config
    | takes _ hs ha ht => rw [ht, InMemory.submit_of_accepts ha]; exact hs.config

namespace ClientEvent

variable {config : InMemoryConfig} {s t : System InMemory} {e : ClientEvent} {k : ClientCall}

/-- A call makes the use of what it asks for. -/
theorem makes_run (s : System InMemory) (k : ClientCall) :
    ∃ u, Makes s (.call k) u ∧ u.next? (s.world.backend, s.world.shelf) =
      some ((k.run s.world).2.backend, s.world.shelf) := by
  by_cases hnul : ∃ name ∈ k.names, Text.hasNul name = true
  · obtain ⟨name, hname, h⟩ := hnul
    obtain ⟨_, _, _, hrun⟩ := ClientCall.run_of_hasNul (w := s.world) hname h
    rw [hrun]
    exact ⟨_, .nothing s.world.shelf, rfl⟩
  · have hnames : ∀ name ∈ k.names, Text.hasNul name = false := fun name hname =>
      Bool.eq_false_iff.mpr fun h => hnul ⟨name, hname, h⟩
    cases hk : k.change? with
    | some sc =>
      refine ⟨_, .change hk hnames, ?_⟩
      rw [(ClientCall.run_change hk hnames).1]
      rfl
    | none =>
      by_cases hs : ∃ c, k = .shutdown c
      · obtain ⟨c, rfl⟩ := hs
        exact ⟨_, .shutdown c, rfl⟩
      · refine ⟨_, .nothing s.world.shelf, ?_⟩
        rw [ClientCall.backend_run hk fun c h => hs ⟨c, h⟩]
        rfl

/-- What a flight does makes a use of the backend. -/
theorem makes_deed {a : Actor} {f g : Flight} {w : World InMemory}
    (hf : s.flights[a.flight]? = some f) (hd : f.Deed s.world g w) :
    ∃ u, Makes s (.task a) u ∧
      ∃ shelf, u.next? (s.world.backend, s.world.shelf) = some (w.backend, shelf) := by
  cases hd with
  | quiet hb | ignore hb | refuse hb =>
    rw [hb]
    exact ⟨_, .nothing s.world.shelf, _, rfl⟩
  | make _ hb =>
    rw [hb]
    exact ⟨_, .createCompletion a, _, rfl⟩
  | @take c job hb _ _ _ hc =>
    obtain ⟨command, -, rfl⟩ := Option.map_eq_some_iff.mp hc
    rw [hb]
    exact ⟨_, .issue hf c command, _, rfl⟩
  | @release c hb =>
    rw [hb]
    exact ⟨_, .release a c, _, rfl⟩

/-- The step of a task as what happens to a system. -/
theorem happens_task {a : Actor} (hs : s.Sound config) (hn : (task a).next? s = some t) :
    Happens s (.task a) t := .of_next? hs hn

/-- **Whatever happens makes one use of the backend at most.** -/
theorem makes_next? (hs : s.Sound config) (hn : e.next? s = some t) :
    ∃ u, Makes s e u ∧
      ∃ shelf, u.next? (s.world.backend, s.world.shelf) = some (t.world.backend, shelf) := by
  cases e with
  | call k =>
    cases hn
    obtain ⟨u, hu, hnext⟩ := makes_run s k
    exact ⟨u, hu, _, hnext⟩
  | submit o r =>
    rw [next?] at hn
    split at hn
    · cases hn
    · cases hn
      exact ⟨_, .nothing s.world.shelf, _, rfl⟩
  | task a =>
    cases happens_task hs hn with
    | issuer hf hk hm => exact makes_deed hf (hm.deed hk)
    | waiter hf hk hm => exact makes_deed hf (hm.deed hk)
  | use u =>
    obtain ⟨⟨b, shelf⟩, hu, rfl⟩ := Option.map_eq_some_iff.mp hn
    exact ⟨u, .use u, shelf, hu⟩

/-- Where a flight after an event comes from. -/
inductive Yields (s : System InMemory) (e : ClientEvent) (i : FlightId) (g : Flight) : Prop
  | submitted {o : AsyncObject} {r : Request} (he : e = submit o r)
      (ho : Text.hasNul o.oid = false) (hi : i = s.flights.size) (hg : g = { task := o.task r })
  | kept (hg : s.flights[i]? = some g)
  | issuer {f : Flight} {w : World InMemory} (hf : s.flights[i]? = some f) (hk : f.Keeps)
      (hm : f.IssuerMove s.world g w)
  | waiter {m : Milestone} {f : Flight} {w : World InMemory} (hf : s.flights[i]? = some f)
      (hk : f.Keeps) (hm : f.WaiterMove m s.world g w)

/-- **A flight is new, as it was, or one move further.** -/
theorem yields_next? (hs : s.Sound config) (hn : e.next? s = some t) {i : FlightId} {g : Flight}
    (hg : t.flights[i]? = some g) : Yields s e i g := by
  cases e with
  | call =>
    cases hn
    exact .kept hg
  | submit o r =>
    rw [next?] at hn
    split at hn
    · cases hn
    · rename_i ho
      cases hn
      rcases System.flight_submit hg with ⟨hi, hg⟩ | hg
      · exact .submitted rfl (Bool.eq_false_iff.mpr ho) hi hg
      · exact .kept hg
  | task a =>
    cases happens_task hs hn with
    | issuer hf hk hm =>
      rcases System.flight_setIfInBounds hg with ⟨rfl, rfl⟩ | ⟨-, hg⟩
      · exact .issuer hf hk hm
      · exact .kept hg
    | waiter hf hk hm =>
      rcases System.flight_setIfInBounds hg with ⟨rfl, rfl⟩ | ⟨-, hg⟩
      · exact .waiter hf hk hm
      · exact .kept hg
  | use u =>
    obtain ⟨r, -, rfl⟩ := Option.map_eq_some_iff.mp hn
    exact .kept hg

/-- Every event leaves a system sound. -/
theorem sound_next? (hs : s.Sound config) (hn : e.next? s = some t) : t.Sound config where
  config := by
    obtain ⟨u, -, shelf, hu⟩ := makes_next? hs hn
    exact (Use.config_next? hu).trans hs.config
  keeps hg := by
    cases yields_next? hs hn hg with
    | submitted _ _ _ hg => exact hg ▸ Flight.keeps_start _
    | kept hg => exact hs.keeps hg
    | issuer _ hk hm => exact hk.issuerMove hm
    | waiter _ hk hm => exact hk.waiterMove hm

end ClientEvent

/-! ## Along a path -/

namespace ClientPath

variable {config : InMemoryConfig} {s t : System InMemory} {events : List ClientEvent}

/-- Events that can happen are a path. -/
theorem of_replay {before : List ClientEvent} {s₀ : System InMemory} (hp : ClientPath s₀ before s)
    (he : ClientEvent.replay s events = some t) : ClientPath s₀ (before ++ events) t := by
  induction events generalizing s before with
  | nil =>
    cases he
    rwa [List.append_nil]
  | cons e es ih =>
    obtain ⟨u, hu, he⟩ := Option.bind_eq_some_iff.mp he
    have hrest := ih (hp.step e hu) he
    rwa [List.append_assoc, List.singleton_append] at hrest

theorem sound (hp : ClientPath s events t) (hs : s.Sound config) : t.Sound config := by
  induction hp with
  | refl => exact hs
  | step e _ hn ih => exact ClientEvent.sound_next? ih hn

/-- What holds at the start of a path and outlives every event holds at its end. -/
theorem preserved {P : List ClientEvent → System InMemory → Prop} (hp : ClientPath s events t)
    (hs : s.Sound config) (start : P [] s)
    (step : ∀ {events t u e}, t.Sound config → P events t → e.next? t = some u →
      P (events ++ [e]) u) : P events t := by
  induction hp with
  | refl => exact start
  | step e hp hn ih => exact step (hp.sound hs) ih hn

end ClientPath

namespace Client

variable {config : ConnectionConfig} {make : ConnectionConfig → Except Failure InMemory}
  {events : List ClientEvent} {s : System InMemory}

/-- The backend of a client is the one made for it. -/
theorem made_of_connect {c : Cluster} {w : World InMemory}
    (hc : Cluster.connect config make = .ok (c, w)) : make config = .ok w.backend := by
  obtain ⟨_, -, hc⟩ := exists_of_bind_eq_ok hc
  obtain ⟨b, hmake, hc⟩ := exists_of_bind_eq_ok hc
  obtain ⟨_, -, hc⟩ := exists_of_map_eq_ok hc
  cases hc
  exact hmake

/-- A system without flights is sound. -/
theorem sound_start (w : World InMemory) : System.Sound w.backend.config { world := w } where
  config := rfl
  keeps hf := by simp at hf

/-- **Every state of a client is sound.** -/
theorem sound (hc : Client config make events s) : ∃ laid, s.Sound laid := by
  obtain @⟨c, w, -, hpath⟩ := hc
  exact ⟨_, hpath.sound (sound_start w)⟩

/-- What a client that connects and does this makes of its system, if all of it can happen. -/
def replay (config : ConnectionConfig) (make : ConnectionConfig → Except Failure InMemory)
    (events : List ClientEvent) : Option (System InMemory) :=
  match Cluster.connect config make with
  | .ok (_, w) => ClientEvent.replay { world := w } events
  | .error _ => none

/-- Whatever can happen is done by some client. -/
theorem of_replay (h : replay config make events = some s) : Client config make events s := by
  unfold replay at h
  split at h
  · rename_i c w hconnect
    exact .connected hconnect (ClientPath.refl.of_replay h)
  · cases h

theorem replay_get (h : (replay config make events).isSome = true) :
    Client config make events ((replay config make events).get h) :=
  of_replay (Option.some_get h).symm

end Client

/-! ## Connections that ask for pools -/

namespace Sample

/-- A connection with the setting for pools. -/
def connection (pools : String) : ConnectionConfig :=
  ConnectionConfig.addSettings {} [("memory_pools", pools)]

/-- What makes a backend from the settings of a connection. -/
def make : ConnectionConfig → Except Failure InMemory :=
  InMemoryConfig.connect { hasFile := fun _ => false, hasVariable := fun _ => false }

end Sample

end Milepost
