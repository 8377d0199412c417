import Milepost.AsyncObject
import Milepost.Flight.Issuer
import Milepost.Flight.Waiter

/-!
# All operations of a client

A system is the world of a client together with the flights of all operations submitted. Its
actors are the issuers and waiters of the flights; beside them the backend works on alone. Each
actor makes one step at a time, in any order. `settle` is one such order: it lets everything under
way go as far as it gets.

Out of scope: a task that cannot be started. It is assumed that the system always has another thread
and that no name of a task holds a NUL. Otherwise the owner would be told by whoever starts the
task, or the submission would fail before there is a flight.

* `flights_submit`: an operation submitted becomes the last flight.
-/

namespace Milepost

/-- The number of a flight. -/
abbrev FlightId := Nat

/-- Who makes a step. -/
inductive Actor
  | issuer (i : FlightId)
  | waiter (i : FlightId) (m : Milestone)
deriving DecidableEq, Repr

/-- The flight that the actor takes part in. -/
def Actor.flight : Actor → FlightId
  | issuer i => i
  | waiter i _ => i

/-- The world and all flights. -/
structure System (β : Type) where
  world : World β
  flights : Array Flight := #[]

namespace System

variable {β : Type} [ObjectBackend β]

/-- Starts a flight for a request; the bytes it needs are counted at once. Its issuer can be
started. -/
def submit (o : AsyncObject) (r : Request) (s : System β) : FlightId × System β :=
  (s.flights.size,
    { world := s.world.onMeters o.account (·.onBuffers (·.lent r.length))
      flights := s.flights.push { task := o.task r } })

/-- The next step of a flight that the actor makes. -/
def actorStep? (a : Actor) (f : Flight) (w : World β) : Option (Flight × World β) :=
  match a with
  | .issuer _ => f.issuerStep? w
  | .waiter _ m => f.waiterStep? m w

/-- The system after the actor's next step, if it has one to make. -/
def step? (a : Actor) (s : System β) : Option (System β) :=
  s.flights[a.flight]?.bind fun f =>
    (actorStep? a f s.world).map fun (f, world) =>
      { world, flights := s.flights.setIfInBounds a.flight f }

/-! ### Letting everything run -/

/-- Changes a flight together with the world. -/
def onFlight (i : FlightId) (g : Flight × World β → Flight × World β) (s : System β) :
    System β :=
  match s.flights[i]? with
  | none => s
  | some f =>
    let (f, world) := g (f, s.world)
    { world, flights := s.flights.setIfInBounds i f }

/-- Lets an issuer run to its end. -/
def runIssuer (i : FlightId) (s : System β) : System β := s.onFlight i Flight.runIssuer

/-- Lets both waiters of a flight run as far as they get. -/
def runWaiters (i : FlightId) (s : System β) : System β :=
  Milestone.all.foldl (fun s m => s.onFlight i (Flight.runWaiter m)) s

/-- Lets something run for every flight. -/
def forFlights (run : FlightId → System β → System β) (s : System β) : System β :=
  (List.range s.flights.size).foldl (fun s i => run i s) s

/-- Lets everything under way go as far as it gets at the pace of the backend. -/
def settle (pace : Pace) (s : System β) : System β :=
  let s := s.forFlights runIssuer
  let s := { s with world := s.world.work pace }
  s.forFlights runWaiters

/-- Asks the backend to make everything safe that was issued for a pool, and lets everything run;
none while the answer is awaited. -/
def flush (pool : PoolId) (pace : Pace) (s : System β) : Option Status × System β :=
  match s.world.onBackend (ObjectBackend.beginFlush pool) with
  | (.done status, world) => (some status, { s with world })
  | (.pending c, world) =>
    let s := { s with world }.settle pace
    match ObjectBackend.endFlush? c s.world.backend with
    | none => (none, s)
    | some (status, backend) => (some status, { s with world := { s.world with backend } })

omit [ObjectBackend β] in
theorem flights_submit (o : AsyncObject) (r : Request) (s : System β) :
    (s.submit o r).2.flights = s.flights.push { task := o.task r } := rfl

end System

end Milepost
