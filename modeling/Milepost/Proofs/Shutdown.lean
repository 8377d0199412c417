import Milepost.Proofs.Client
import Milepost.Proofs.Flight.Course

/-!
# After the shutdown

Once a backend is shut down, by its cluster or by others, it refuses every operation and every
flush. What was queued before is still applied, and nothing is queued any more. Only the calls that
change the store at once do not mind the shutdown: those that make and remove pools and attributes.

* `Flight.Barred.issuerMove`: an operation that comes too late is refused, step by step.
* `Pool.flush_of_isShutdown`: so is a flush, at once.
* `System.Late.next?`: the queue only shrinks, whatever happens.
* `Client.after_shutdown`: what a client can still do.
-/

namespace Milepost

/-- The outcome of a request that is refused after the shutdown. It is lost if the callback fails
that is to report it, or if it is a read for which there can be no buffer. -/
def Request.IsBarred (r : Request) (o : Outcome) : Prop :=
  o = .failed (r.refusal .notConnected) ∨ o = .lost

namespace InMemory

variable {b : InMemory}

theorem submit_of_isShutdown (hs : b.isShutdown = true) (job : Job) :
    b.submit job = (.notConnected, b) := if_pos hs

/-- An operation issued with a backend that is shut down is refused. -/
theorem issue_of_isShutdown (hs : b.isShutdown = true) (pool : PoolId) (oid : String)
    (c : CompletionId) (command : Command) (shelf : Shelf) :
    ∃ shelf', issue pool oid c command (b, shelf) = (.notConnected, b, shelf') := by
  unfold issue
  dsimp only
  rw [submit_of_isShutdown hs]
  exact ⟨_, rfl⟩

/-- A flush of a backend that is shut down makes a completion and leaves everything else. -/
theorem beginFlush_of_isShutdown (hs : b.isShutdown = true) (pool : PoolId) :
    b.beginFlush pool = (.done .notConnected, b.newCompletion.2) := by
  have hnew : b.newCompletion.2.isShutdown = true := hs
  rw [beginFlush]
  dsimp only
  rw [submit_of_isShutdown hnew]
  rfl

end InMemory

/-- **A flush of a backend that is shut down fails at once.** -/
theorem Pool.flush_of_isShutdown {s : System InMemory} (hs : s.world.backend.isShutdown = true)
    (p : Pool) (pace : Pace) :
    p.flush pace s =
      (some (.error ((Failure.ofStatus .other .notConnected).noted (.flush p.id))),
        s.onBackend fun b => b.newCompletion.2) := by
  have hbegin : ObjectBackend.beginFlush p.id s.world.backend =
      (.done .notConnected, s.world.backend.newCompletion.2) :=
    InMemory.beginFlush_of_isShutdown hs p.id
  simp only [flush, System.flush, World.onBackend, hbegin]
  rfl

/-! ## Operations that come too late -/

/-- Whether an issuer in the phase has answered no future and starts no waiter. -/
def IssuerPhase.answersNone : IssuerPhase → Bool
  | ready | created | refused _ | rejected _ | notified _ | crashed | lost => true
  | accepted | answered _ | finished => false

namespace Flight

/-- A flight whose operation is not taken: the issuer is on its way to report the refusal. -/
structure Barred (f : Flight) : Prop where
  idle : f.waiters = .const .idle
  not_accepted : f.issuer ≠ .accepted
  refusal : ∀ {e : Failure}, f.issuer.refusal? = some e →
    e = f.task.request.refusal .notConnected
  futures : ∀ {m : Milestone} {o : Outcome}, f.futures.get m = some o → f.task.request.IsBarred o
  first : ∀ {e : Failure}, f.issuer = .answered e → f.futures.complete ≠ none
  both : f.issuer = .finished → ∀ m, f.futures.get m ≠ none

variable {f g : Flight} {w w' : World InMemory} {m : Milestone}

theorem barred_start (t : Task) : Barred { task := t } where
  idle := rfl
  not_accepted := nofun
  refusal := nofun
  futures h := by
    rw [PerMilestone.get_const] at h
    cases h
  first := nofun
  both := nofun

/-- What the issuer does before it answers a future. -/
theorem Barred.advance (hb : f.Barred) (ht : g.task = f.task) (hw : g.waiters = f.waiters)
    (hf : g.futures = f.futures) (hp : g.issuer.answersNone = true)
    (hrefusal : ∀ {e : Failure}, g.issuer.refusal? = some e →
      e = f.task.request.refusal .notConnected) : g.Barred where
  idle := hw.trans hb.idle
  not_accepted h := by
    rw [h] at hp
    cases hp
  refusal h := by
    rw [ht]
    exact hrefusal h
  futures h := by
    rw [hf] at h
    rw [ht]
    exact hb.futures h
  first h := by
    rw [h] at hp
    cases hp
  both h := by
    rw [h] at hp
    cases hp

/-- A future that the issuer answers is barred like all others. -/
theorem Barred.futures_answer (hb : f.Barred) {n : Milestone} {o p : Outcome}
    (ho : f.task.request.IsBarred o) (h : (f.answer m o).futures.get n = some p) :
    f.task.request.IsBarred p := by
  rw [answer, PerMilestone.get_set] at h
  split at h
  · cases h
    exact ho
  · exact hb.futures h

/-- **The issuer of a barred flight reports the refusal.** -/
theorem Barred.issuerMove (hb : f.Barred) (hs : w.backend.isShutdown = true)
    (hm : IssuerMove f w g w') : g.Barred := by
  cases hm with
  | make | overflow | drop =>
    exact hb.advance rfl rfl rfl rfl nofun
  | take _ _ _ _ ha =>
    cases (InMemory.isShutdown_of_accepts ha).symm.trans hs
  | ignore _ _ _ _ _ he =>
    rw [InMemory.submit_of_isShutdown hs] at he
    cases he
  | refuse =>
    refine hb.advance rfl rfl rfl rfl fun h => ?_
    rw [InMemory.submit_of_isShutdown hs] at h
    exact (Option.some.inj h).symm
  | launch hp => exact absurd hp hb.not_accepted
  | release hp =>
    refine hb.advance rfl rfl rfl rfl fun h => ?_
    exact hb.refusal (hp ▸ h)
  | @reject e hp =>
    have he : e = f.task.request.refusal .notConnected := hb.refusal (hp ▸ rfl)
    unfold reject
    dsimp only
    split
    · exact hb.advance rfl rfl rfl rfl nofun
    · refine hb.advance rfl rfl rfl rfl fun h => ?_
      rwa [← Option.some.inj h]
  | @answerFirst e hp =>
    have he : e = f.task.request.refusal .notConnected := hb.refusal (hp ▸ rfl)
    exact {
      idle := hb.idle
      not_accepted := nofun
      refusal := fun h => (Option.some.inj h).symm.trans he
      futures := hb.futures_answer (.inl (congrArg _ he))
      first := nofun
      both := nofun }
  | @answerSecond e hp =>
    have he : e = f.task.request.refusal .notConnected := hb.refusal (hp ▸ rfl)
    exact {
      idle := hb.idle
      not_accepted := nofun
      refusal := nofun
      futures := hb.futures_answer (.inl (congrArg _ he))
      first := nofun
      both := fun _ m => by
        cases m with
        | complete => exact hb.first hp
        | safe => exact nofun }
  | lose hp =>
    exact {
      idle := hb.idle
      not_accepted := nofun
      refusal := nofun
      futures := fun {m o} h => by
        cases m <;> exact .inr (Option.some.inj h).symm
      first := nofun
      both := fun _ m => by cases m <;> exact nofun }

/-- The waiters of a barred flight do not move. -/
theorem Barred.not_waiterMove (hb : f.Barred) : ¬ WaiterMove m f w g w' := fun hm =>
  hm.started (by rw [hb.idle, PerMilestone.get_const])

theorem Deed.isShutdown (hd : f.Deed w g w') :
    w'.backend.isShutdown = w.backend.isShutdown := by
  cases hd with
  | quiet hb | ignore hb | refuse hb => rw [hb]
  | make _ hb => rw [hb]; rfl
  | take hb => rw [hb, InMemory.isShutdown_submit]
  | release hb =>
    rw [hb, InMemory.release]
    split <;> rfl

/-- **Once its issuer has run, a barred flight has answered both futures.** -/
theorem Barred.runIssuer (hb : f.Barred) (hk : f.Keeps) (hs : w.backend.isShutdown = true) :
    (Flight.runIssuer (f, w)).1.Barred ∧ (Flight.runIssuer (f, w)).1.issuer = .finished := by
  have run : ∀ (n : Nat) {f : Flight} {w : World InMemory}, f.issuer.rank ≤ n → f.Barred →
      f.Keeps → w.backend.isShutdown = true →
      (runIssuerFor n (f, w)).1.Barred ∧ (runIssuerFor n (f, w)).1.issuer = .finished := by
    intro n
    induction n with
    | zero =>
      intro f w hn hb _ _
      refine ⟨hb, ?_⟩
      change f.issuer = .finished
      cases hp : f.issuer <;> simp [hp, IssuerPhase.rank] at hn
      rfl
    | succ n ih =>
      intro f w hn hb hk hs
      rw [runIssuerFor]
      cases hstep : f.issuerStep? w with
      | none => exact ⟨hb, (issuerStep?_eq_none_iff f w).mp hstep⟩
      | some next =>
        obtain ⟨g, w'⟩ := next
        have hm := IssuerMove.of_step hk hstep
        have hrank := rank_issuerStep hstep
        exact ih (by omega) (hb.issuerMove hs hm) (hk.issuerMove hm)
          ((hm.deed hk).isShutdown.trans hs)
  exact run _ (Nat.le_refl _) hb hk hs

end Flight

/-! ## Along a path -/

/-- What holds after a shutdown that found these jobs queued and so many flights. -/
structure System.Late (queued : List Job) (flights : Nat) (t : System InMemory) : Prop where
  shut : t.world.backend.isShutdown = true
  queue : ∃ applied, queued = applied ++ t.world.backend.queue
  barred : ∀ {i : FlightId} {f : Flight}, flights ≤ i → t.flights[i]? = some f → f.Barred

namespace System.Late

variable {config : InMemoryConfig} {queued : List Job} {flights : Nat} {t u : System InMemory}
  {e : ClientEvent}

/-- **Nothing is queued any more, and no operation taken.** -/
theorem next? (hl : t.Late queued flights) (hs : t.Sound config) (hn : e.next? t = some u) :
    u.Late queued flights := by
  obtain ⟨use, -, shelf, hu⟩ := ClientEvent.makes_next? hs hn
  constructor
  case shut => exact Use.isShutdown_next? hu hl.shut
  case queue =>
    obtain ⟨applied, hqueued⟩ := hl.queue
    rcases Use.queue_cases hu with hsame | ⟨-, job, hjob⟩ | ⟨_, _, -, hopen, -⟩
    · exact ⟨applied, hsame ▸ hqueued⟩
    · refine ⟨applied ++ [job], ?_⟩
      rw [List.append_assoc, List.singleton_append]
      exact hjob ▸ hqueued
    · cases hl.shut.symm.trans hopen
  case barred =>
    intro i g hi hg
    cases ClientEvent.yields_next? hs hn hg with
    | submitted _ _ _ hg => exact hg ▸ Flight.barred_start _
    | kept hg => exact hl.barred hi hg
    | issuer hf _ hm => exact (hl.barred hi hf).issuerMove hl.shut hm
    | waiter hf _ hm => exact absurd hm (hl.barred hi hf).not_waiterMove

/-- **What changes the store is a job queued before, or one of the calls that do not mind.** -/
theorem store_next? (hl : t.Late queued flights) (hs : t.Sound config)
    (hn : e.next? t = some u) (hstore : u.world.backend.store ≠ t.world.backend.store) :
    (e = .use .work ∧ ∃ job ∈ queued, u.world.backend.store =
        ((job.access t.world.shelf).run t.world.backend.now t.world.backend.store).2) ∨
      (∃ k sc, e = .call k ∧ k.change? = some sc ∧ (k.run t.world).1 = none) ∨
      ∃ sc, e = .use (.call sc) ∧ (sc.run t.world.backend).1.isError = false := by
  obtain ⟨use, hmakes, shelf, hu⟩ := ClientEvent.makes_next? hs hn
  rcases Use.store_cases hu with hsame | ⟨sc, rfl, hcall⟩ | ⟨rfl, job, rest, hq, hjob⟩
  · exact absurd hsame hstore
  · right
    -- A refused call would have left the store.
    have hdone : (sc.run t.world.backend).1.isError = false := by
      rw [Bool.eq_false_iff]
      intro herror
      refine hstore (hcall.trans (Access.store_of_isError ?_))
      have hanswer := (Prod.mk.inj (InMemory.run_eq_onStore sc t.world.backend)).1
      exact (congrArg Status.isError hanswer).symm.trans herror
    cases hmakes with
    | @change k _ hk hnames =>
      exact .inl ⟨k, sc, rfl, hk, (ClientCall.run_change hk hnames).2.mpr hdone⟩
    | use => exact .inr ⟨sc, rfl, hdone⟩
  · left
    cases hmakes with
    | use =>
      obtain ⟨applied, hqueued⟩ := hl.queue
      refine ⟨rfl, job, ?_, hjob⟩
      rw [hqueued]
      exact List.mem_append_right _ (hq ▸ List.mem_cons_self)

end System.Late

/-- Whether a backend is shut down by the event. -/
def ClientEvent.shutsDown : ClientEvent → Bool
  | call (.shutdown _) | use .shutdown => true
  | _ => false

theorem ClientEvent.next?_of_shutsDown {s t : System InMemory} {e : ClientEvent}
    (he : e.shutsDown = true) (hn : e.next? s = some t) :
    t.world.backend = ObjectBackend.shutdown s.world.backend ∧ t.flights = s.flights := by
  unfold shutsDown at he
  split at he
  · cases hn
    exact ⟨rfl, rfl⟩
  · cases hn
    exact ⟨rfl, rfl⟩
  · cases he

/-- A backend is shut down with what it has queued, and no flight is too late yet. -/
theorem System.late_shutdown {s t : System InMemory} {e : ClientEvent} (he : e.shutsDown = true)
    (hn : e.next? s = some t) : t.Late s.world.backend.queue s.flights.size := by
  obtain ⟨hbackend, hflights⟩ := ClientEvent.next?_of_shutsDown he hn
  constructor
  case shut => rw [hbackend]; rfl
  case queue => exact ⟨[], by rw [hbackend]; rfl⟩
  case barred =>
    intro i f hi hf
    rw [hflights, Array.getElem?_eq_none hi] at hf
    cases hf

namespace Client

variable {config : ConnectionConfig} {make : ConnectionConfig → Except Failure InMemory}
  {before later : List ClientEvent} {s s' t : System InMemory} {e : ClientEvent}

/-- What holds whatever happens after the shutdown. -/
theorem late (hc : Client config make before s) (he : e.shutsDown = true)
    (hn : e.next? s = some s') (hp : ClientPath s' later t) :
    ∃ laid, t.Sound laid ∧ t.Late s.world.backend.queue s.flights.size := by
  obtain ⟨laid, hsound⟩ := hc.sound
  have hshut : s'.Sound laid := ClientEvent.sound_next? hsound hn
  refine ⟨laid, hp.sound hshut, ?_⟩
  exact hp.preserved (P := fun _ t => t.Late s.world.backend.queue s.flights.size) hshut
    (System.late_shutdown he hn) fun hs hl hn => hl.next? hs hn

/-- **After a shutdown** nothing is queued any more, whatever happens. An operation is refused when
it is issued, and leaves the backend. One that is submitted through an object has no future that is
answered but by the refusal, and both are once its issuer has run. A flush fails at once and leaves
all but the number of completions. The store changes when a job is applied that was queued before,
and otherwise by one thing only: a call that makes or removes a pool or an attribute, which does not
mind the shutdown, and which does not fail. -/
theorem after_shutdown (hc : Client config make before s) (he : e.shutsDown = true)
    (hn : e.next? s = some s') (hp : ClientPath s' later t) :
    (∃ applied, s.world.backend.queue = applied ++ t.world.backend.queue) ∧
    (∀ (pool : PoolId) (oid : String) (c : CompletionId) (command : Command) (shelf : Shelf),
      ∃ shelf', ObjectBackend.issue pool oid c command (t.world.backend, shelf) =
        (.notConnected, t.world.backend, shelf')) ∧
    (∀ (i : FlightId) (f : Flight), s.flights.size ≤ i → t.flights[i]? = some f →
      (∀ m o, f.futures.get m = some o → f.task.request.IsBarred o) ∧
      ∃ g, (t.runIssuer i).flights[i]? = some g ∧
        ∀ m, ∃ o, g.futures.get m = some o ∧ g.task.request.IsBarred o) ∧
    (∀ (p : Pool) (pace : Pace), p.flush pace t =
      (some (.error ((Failure.ofStatus .other .notConnected).noted (.flush p.id))),
        t.onBackend fun b => b.newCompletion.2)) ∧
    ∀ (e : ClientEvent) (u : System InMemory), e.next? t = some u →
      u.world.backend.store ≠ t.world.backend.store →
      (e = .use .work ∧ ∃ job ∈ s.world.backend.queue, u.world.backend.store =
          ((job.access t.world.shelf).run t.world.backend.now t.world.backend.store).2) ∨
        (∃ k sc, e = .call k ∧ k.change? = some sc ∧ (k.run t.world).1 = none) ∨
        ∃ sc, e = .use (.call sc) ∧ (sc.run t.world.backend).1.isError = false := by
  obtain ⟨laid, hsound, hlate⟩ := hc.late he hn hp
  refine ⟨hlate.queue, InMemory.issue_of_isShutdown hlate.shut, ?_,
    fun p pace => p.flush_of_isShutdown hlate.shut pace,
    fun e u hn hstore => hlate.store_next? hsound hn hstore⟩
  intro i f hi hf
  have hb := hlate.barred hi hf
  refine ⟨fun m o => hb.futures, (Flight.runIssuer (f, t.world)).1, ?_, fun m => ?_⟩
  · have hlt : i < t.flights.size := (Array.getElem?_eq_some_iff.mp hf).1
    simp only [System.runIssuer, System.onFlight, hf]
    rw [Array.getElem?_setIfInBounds_self_of_lt hlt]
  · obtain ⟨hb', hfin⟩ := hb.runIssuer (hsound.keeps hf) hlate.shut
    obtain ⟨o, ho⟩ := Option.ne_none_iff_exists'.mp (hb'.both hfin m)
    exact ⟨o, ho, hb'.futures ho⟩

end Client

/-! ## One shutdown

A write is queued, the cluster is shut down, and another write is submitted. -/

namespace Sample

def data : Pool := { id := 1, context := [] }

def timely : List ClientEvent :=
  [.submit object { oid := "object", operation := .writeFull ⟨#[7]⟩ },
    .task (.issuer 0), .task (.issuer 0)]

theorem isSome_timely : (Client.replay (connection "data") make timely).isSome = true := by
  decide +kernel

/-- The system when the cluster is shut down. -/
@[irreducible]
def closing : System InMemory :=
  (Client.replay (connection "data") make timely).get isSome_timely

theorem client_closing : Client (connection "data") make timely closing := by
  unfold closing
  exact Client.replay_get isSome_timely

def tardy : List ClientEvent :=
  [.submit object { oid := "object", operation := .append ⟨#[8]⟩ }, .task (.issuer 1), .use .work]

/-- The system with its cluster shut down. -/
def closed : System InMemory := { closing with world := cluster.shutdown closing.world }

theorem isSome_tardy : (ClientEvent.replay closed tardy).isSome = true := by decide +kernel

/-- The system after that. -/
@[irreducible]
def late : System InMemory := (ClientEvent.replay closed tardy).get isSome_tardy

theorem path_late : ClientPath closed tardy late := by
  unfold late
  exact ClientPath.refl.of_replay (Option.some_get isSome_tardy).symm

end Sample

namespace Client

theorem after_shutdown_append :
    Client (Sample.connection "data") Sample.make Sample.timely Sample.closing ∧
      (ClientEvent.call (.shutdown Sample.cluster)).next? Sample.closing = some Sample.closed ∧
      ClientPath Sample.closed Sample.tardy Sample.late ∧
      Sample.closing.world.backend.queue.length = 1 ∧
      Sample.late.world.backend.queue.length = 0 ∧
      (∃ g, (Sample.late.runIssuer 1).flights[1]? = some g ∧
        ∀ m, ∃ o, g.futures.get m = some o ∧ g.task.request.IsBarred o) ∧
      Sample.data.flush .running Sample.late =
        (some (.error ((Failure.ofStatus .other .notConnected).noted (.flush 1))),
          Sample.late.onBackend fun b => b.newCompletion.2) := by
  have hshut : (ClientEvent.call (.shutdown Sample.cluster)).next? Sample.closing =
      some Sample.closed := rfl
  obtain ⟨-, -, hflights, hflush, -⟩ :=
    after_shutdown Sample.client_closing rfl hshut Sample.path_late
  have hsize : Sample.closing.flights.size ≤ 1 := by decide +kernel
  have hlt : 1 < Sample.late.flights.size := by decide +kernel
  exact ⟨Sample.client_closing, hshut, Sample.path_late, by decide +kernel, by decide +kernel,
    (hflights 1 _ hsize (Array.getElem?_eq_getElem hlt)).2, hflush _ _⟩

end Client

namespace Sample

/-- A call made after the shutdown. -/
def unminding (k : ClientCall) : Option Stop × World InMemory := k.run closed.world

def paint : ClientCall := .setAttribute data "other" "color" ⟨#[1]⟩

def strip : ClientCall := .removeAttribute data "other" "color"

/-- The value of the attribute that these two are about. -/
def color? (w : World InMemory) : Option ByteArray :=
  w.backend.store.objects[((1, "other") : ObjectKey)]?.bind (·.attributes["color"]?)

end Sample

namespace Client

/-- The four calls that do not mind a shutdown: none of them fails, and each changes the store. -/
theorem changes_after_shutdown :
    Client (Sample.connection "data") Sample.make Sample.timely Sample.closing ∧
      Sample.closed.world = Sample.cluster.shutdown Sample.closing.world ∧
      Sample.closed.world.backend.store.poolNames = ["data"] ∧
      (Sample.unminding (.createPool Sample.cluster "x")).1 = none ∧
      (Sample.unminding (.createPool Sample.cluster "x")).2.backend.store.poolNames =
        ["data", "x"] ∧
      (Sample.unminding (.deletePool Sample.cluster "data")).1 = none ∧
      (Sample.unminding (.deletePool Sample.cluster "data")).2.backend.store.poolNames = [] ∧
      Sample.color? Sample.closed.world = none ∧
      (Sample.unminding Sample.paint).1 = none ∧
      Sample.color? (Sample.unminding Sample.paint).2 = some ⟨#[1]⟩ ∧
      (Sample.strip.run (Sample.unminding Sample.paint).2).1 = none ∧
      Sample.color? (Sample.strip.run (Sample.unminding Sample.paint).2).2 = none := by
  have hclosed : Sample.closed.world = Sample.cluster.shutdown Sample.closing.world := rfl
  refine ⟨Sample.client_closing, hclosed, ?_, ?_, ?_, ?_, ?_, ?_, ?_, ?_, ?_, ?_⟩ <;>
    decide +kernel

end Client

end Milepost
