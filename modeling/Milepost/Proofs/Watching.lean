import Milepost.Proofs.Flight.Issue

/-!
# What a backend is asked

How often a backend is asked something does not show in what it answers. It shows if the same
program runs over a backend that writes down what it is asked about completions: which were made,
which operation was issued with which, which were released. Such a backend is `Watched`; it answers
as the backend in it does, and a program over it does what it does over that.

* `Request.exists_issuing`: a request that is issued asks the backend once, and not at all if its
  buffer would be too large.
* `Handle.create_watched`, `Handle.release_watched`: what handles ask.
-/

namespace Milepost

/-- A call to a backend about a completion, and its answer. -/
inductive CompletionCall
  | created (result : Except Failure CompletionId)
  | issued (pool : PoolId) (oid : String) (c : CompletionId) (command : Command) (answer : Status)
  | released (c : CompletionId)

namespace CompletionCall

/-- Whether an operation was issued, refused or not. -/
def isIssue : CompletionCall → Bool
  | issued .. => true
  | created _ | released _ => false

/-- Whether an operation was issued and not refused. -/
def isTaken : CompletionCall → Bool
  | issued _ _ _ _ answer => !answer.isError
  | created _ | released _ => false

/-- Whether the completion was released. -/
def isReleaseOf (c : CompletionId) : CompletionCall → Bool
  | released d => d == c
  | created _ | issued .. => false

end CompletionCall

/-- A backend, and what it was asked about completions, oldest first. -/
structure Watched (β : Type) where
  backend : β
  calls : List CompletionCall := []

namespace Watched

variable {α β : Type}

/-- A call that is not written down. -/
def unwritten (f : β → α × β) (b : Watched β) : α × Watched β :=
  let (a, backend) := f b.backend
  (a, { b with backend })

instance [ObjectBackend β] : ObjectBackend (Watched β) where
  shutdown b := { b with backend := ObjectBackend.shutdown b.backend }
  createCompletion b :=
    let (result, backend) := ObjectBackend.createCompletion b.backend
    (result, ⟨backend, b.calls ++ [.created result]⟩)
  issue pool oid c command s :=
    let (answer, backend, shelf) :=
      ObjectBackend.issue pool oid c command (s.1.backend, s.2)
    (answer, ⟨backend, s.1.calls ++ [.issued pool oid c command answer]⟩, shelf)
  resolution? b := ObjectBackend.resolution? b.backend
  returnValue b := ObjectBackend.returnValue b.backend
  release c b := ⟨ObjectBackend.release c b.backend, b.calls ++ [.released c]⟩
  beginFlush pool := unwritten (ObjectBackend.beginFlush pool)
  endFlush? c b :=
    (ObjectBackend.endFlush? c b.backend).map fun (status, backend) =>
      (status, { b with backend })
  createPool name := unwritten (ObjectBackend.createPool name)
  deletePool name := unwritten (ObjectBackend.deletePool name)
  lookupPool name := unwritten (ObjectBackend.lookupPool name)
  listPools buffer := unwritten (ObjectBackend.listPools buffer)
  poolName pool buffer := unwritten (ObjectBackend.poolName pool buffer)
  getAttribute key name buffer := unwritten (ObjectBackend.getAttribute key name buffer)
  setAttribute key name value := unwritten (ObjectBackend.setAttribute key name value)
  removeAttribute key name := unwritten (ObjectBackend.removeAttribute key name)
  stat key := unwritten (ObjectBackend.stat key)
  work pace s :=
    let (backend, shelf) := ObjectBackend.work pace (s.1.backend, s.2)
    ({ s.1 with backend }, shelf)

end Watched

/-- The world with a backend that has written so many calls down. -/
def World.watched {β : Type} (w : World β) (calls : List CompletionCall) : World (Watched β) :=
  { w with backend := ⟨w.backend, calls⟩ }

namespace Request

variable {β : Type} [ObjectBackend β] {pool : PoolId} {r : Request} {c : CompletionId}
  {command : Command} {w w' : World β} {answer : Status}

/-- The request reached the backend, and this was the answer. Nothing is counted of that. -/
structure Sent (pool : PoolId) (r : Request) (c : CompletionId) (command : Command) (w : World β)
    (answer : Status) (w' : World β) : Prop where
  asked : ∃ shelf shelf', ObjectBackend.issue pool r.oid c command (w.backend, shelf) =
    (answer, w'.backend, shelf')
  accounts : w'.accounts = w.accounts

/-- How a request can fare that is issued with a completion, the world after it, and what the
backend was asked. -/
inductive Issuing (pool : PoolId) (r : Request) (c : CompletionId) (w : World β) :
    Issued (Option BufferId) → World β → List CompletionCall → Prop
  | overflow {length offset : Nat} (hr : r.operation = .read length offset)
      (hl : Buffer.maxAllocation < length) : Issuing pool r c w .overflow w []
  | accepted {buffer : Option BufferId} {command : Command} {answer : Status} {w' : World β}
      (hs : r.Sent pool c command w answer w') (he : answer.isError = false) :
    Issuing pool r c w (.accepted buffer) w' [.issued pool r.oid c command answer]
  | refused {command : Command} {answer : Status} {w' : World β}
      (hs : r.Sent pool c command w answer w') (he : answer.isError = true) :
    Issuing pool r c w (.failed (r.refusal answer)) w' [.issued pool r.oid c command answer]

/-- What the backend answers decides how a command fares. -/
theorem send_cases (pool : PoolId) (r : Request) (c : CompletionId) (command : Command)
    (w : World β) :
    ∃ answer, r.Sent pool c command w answer (r.send pool c command w).2 ∧
      (r.send pool c command w).1 =
        (if answer.isError then .error (r.refusal answer) else .ok answer) ∧
      ∀ before, r.send pool c command (w.watched before) =
        ((r.send pool c command w).1,
          (r.send pool c command w).2.watched
            (before ++ [.issued pool r.oid c command answer])) := by
  refine ⟨(ObjectBackend.issue pool r.oid c command (w.backend, w.shelf)).1,
    ⟨⟨w.shelf, _, rfl⟩, rfl⟩, ?_, fun before => rfl⟩
  change withNote r.note (check .issueFailed _) = _
  unfold check
  split
  · rename_i he
    exact (if_pos he).symm
  · rename_i he
    exact (if_neg he).symm

/-- What becomes of a request by the answer to its command, with the buffer it brought; if it is
refused nobody holds that any more. -/
def conclude (buffer : Option BufferId) (letGo : Shelf → Shelf) :
    Except Failure Status × World β → Issued (Option BufferId) × World β
  | (.ok _, w) => (.accepted buffer, w)
  | (.error e, w) => (.failed e, { w with shelf := letGo w.shelf })

/-- A command asks the backend once. -/
theorem exists_issuing_conclude (pool : PoolId) (r : Request) (c : CompletionId)
    (command : Command) (w : World β) (buffer : Option BufferId) (shelf : Shelf)
    (letGo : Shelf → Shelf) :
    ∃ calls,
      r.Issuing pool c w
        (conclude buffer letGo (r.send pool c command { w with shelf })).1
        (conclude buffer letGo (r.send pool c command { w with shelf })).2 calls ∧
      ∀ before,
        conclude buffer letGo (r.send pool c command { w.watched before with shelf }) =
          ((conclude buffer letGo (r.send pool c command { w with shelf })).1,
            (conclude buffer letGo (r.send pool c command { w with shelf })).2.watched
              (before ++ calls)) := by
  obtain ⟨answer, hsent, hresult, hwatched⟩ := send_cases pool r c command { w with shelf }
  refine ⟨[.issued pool r.oid c command answer], ?_, fun before => ?_⟩
  · generalize r.send pool c command { w with shelf } = s at hsent hresult
    obtain ⟨result, w'⟩ := s
    cases he : answer.isError with
    | true =>
      obtain rfl : result = _ := hresult.trans (if_pos he)
      exact .refused ⟨hsent.asked, hsent.accounts⟩ he
    | false =>
      obtain rfl : result = _ := hresult.trans (if_neg (Bool.eq_false_iff.mp he))
      exact .accepted ⟨hsent.asked, hsent.accounts⟩ he
  · have hsend := hwatched before
    change r.send pool c command { w.watched before with shelf } = _ at hsend
    rw [hsend]
    generalize r.send pool c command { w with shelf } = s
    obtain ⟨result | result, w'⟩ := s <;> rfl

theorem sendEdit_eq (e : Edit) (w : World β) :
    r.sendEdit pool c e w = conclude none id (r.send pool c (.edit e) w) := by
  unfold sendEdit
  generalize r.send pool c (.edit e) w = s
  obtain ⟨result | result, w'⟩ := s <;> rfl

theorem sendRead_eq {length offset : Nat} {b : Buffer} (hb : Buffer.allocate? length = some b)
    (w : World β) :
    r.sendRead pool c length offset w =
      conclude (some w.shelf.cells.size) (·.letGo w.shelf.cells.size)
        (r.send pool c (.read w.shelf.cells.size offset)
          { w with shelf := (w.shelf.put b).2.hold w.shelf.cells.size }) := by
  unfold sendRead
  rw [hb]
  simp only [Shelf.put]
  generalize r.send pool c (.read w.shelf.cells.size offset) (_ : World β) = s
  obtain ⟨result | result, w'⟩ := s <;> rfl

/-- **A request that is issued asks the backend once**, and not at all if its buffer would be too
large. -/
theorem exists_issuing (pool : PoolId) (r : Request) (c : CompletionId) (w : World β) :
    ∃ calls, r.Issuing pool c w (r.issue pool c w).1 (r.issue pool c w).2 calls ∧
      ∀ before, r.issue pool c (w.watched before) =
        ((r.issue pool c w).1, (r.issue pool c w).2.watched (before ++ calls)) := by
  have edit : ∀ e : Edit,
      ∃ calls, r.Issuing pool c w (r.sendEdit pool c e w).1 (r.sendEdit pool c e w).2 calls ∧
        ∀ before, r.sendEdit pool c e (w.watched before) =
          ((r.sendEdit pool c e w).1, (r.sendEdit pool c e w).2.watched (before ++ calls)) := by
    intro e
    simp only [sendEdit_eq]
    exact exists_issuing_conclude pool r c (.edit e) w none w.shelf id
  unfold issue
  cases hr : r.operation with
  | write | writeFull | append | remove => exact edit _
  | read length offset =>
    rcases Nat.lt_or_ge Buffer.maxAllocation length with hl | hl
    · have hb : Buffer.allocate? length = none := if_neg (Nat.not_le.mpr hl)
      refine ⟨[], ?_, fun before => ?_⟩
      · simp only [sendRead, hb]
        exact .overflow hr hl
      · simp only [sendRead, hb, List.append_nil]
    · have hb : Buffer.allocate? length = some ⟨Bytes.zeros length⟩ := if_pos hl
      simp only [sendRead_eq hb]
      exact exists_issuing_conclude pool r c (.read w.shelf.cells.size offset) w
        (some w.shelf.cells.size) _ _

end Request

namespace Handle

variable {β : Type} [ObjectBackend β] {pool : PoolId} {r : Request} {h : Handle} {w : World β}

theorem create_eq (a : AccountId) (context : Context) (w : World β) :
    create a context w =
      match ObjectBackend.createCompletion w.backend with
      | (.error e, backend) => (.error e, { w with backend })
      | (.ok c, backend) =>
        (.ok { native := some c, account := a, context },
          { w with backend }.count a .handleCreated) := by
  unfold create World.onBackend
  generalize ObjectBackend.createCompletion w.backend = s
  obtain ⟨result | result, backend⟩ := s <;> rfl

/-- Making a handle asks for a completion. -/
theorem create_watched (a : AccountId) (context : Context) (w : World β)
    (before : List CompletionCall) :
    create a context (w.watched before) =
      ((create a context w).1, (create a context w).2.watched
        (before ++ [.created (ObjectBackend.createCompletion w.backend).1])) := by
  rw [create_eq, create_eq]
  simp only [World.watched, ObjectBackend.createCompletion]
  generalize ObjectBackend.createCompletion w.backend = s
  obtain ⟨result | result, backend⟩ := s <;> rfl

/-- The first issue through a handle that has its completion. -/
theorem issue_of_native {c : CompletionId} (hi : h.issued = false) (hn : h.native = some c)
    (w : World β) :
    h.issue pool r w =
      match r.issue pool c w with
      | (.accepted buffer, w) => (.accepted (), { h with issued := true, buffer, latch := 2 }, w)
      | (.failed e, w) => (.failed e, { h with issued := true }, w)
      | (.overflow, w) => (.overflow, { h with issued := true }, w) := by
  obtain ⟨native, buffer, failure, observed, issued, released, latch, account, context⟩ := h
  cases hi
  cases hn
  rfl

theorem issue_of_gone (hi : h.issued = false) (hn : h.native = none) (w : World β) :
    h.issue pool r w = (.failed gone, { h with issued := true }, w) := by
  simp [issue, hi, hn]

/-- How an issue through a handle can fare, the handle and the world after it, and what the backend
was asked. -/
inductive Issuing (pool : PoolId) (r : Request) (h : Handle) (w : World β) :
    Issued Unit → Handle → World β → List CompletionCall → Prop
  | again (hi : h.issued = true) :
    Issuing pool r h w (.failed (.of .inconsistentState .alreadyIssued)) h w []
  | late (hi : h.issued = false) (hn : h.native = none) :
    Issuing pool r h w (.failed gone) { h with issued := true } w []
  | overflow {c : CompletionId} {length offset : Nat} (hi : h.issued = false)
      (hn : h.native = some c) (hr : r.operation = .read length offset)
      (hl : Buffer.maxAllocation < length) :
    Issuing pool r h w .overflow { h with issued := true } w []
  | accepted {c : CompletionId} {buffer : Option BufferId} {command : Command} {answer : Status}
      {w' : World β} (hi : h.issued = false) (hn : h.native = some c)
      (hs : r.Sent pool c command w answer w') (he : answer.isError = false) :
    Issuing pool r h w (.accepted ()) { h with issued := true, buffer, latch := 2 } w'
      [.issued pool r.oid c command answer]
  | refused {c : CompletionId} {command : Command} {answer : Status} {w' : World β}
      (hi : h.issued = false) (hn : h.native = some c)
      (hs : r.Sent pool c command w answer w') (he : answer.isError = true) :
    Issuing pool r h w (.failed (r.refusal answer)) { h with issued := true } w'
      [.issued pool r.oid c command answer]

/-- **An issue through a handle asks the backend at most once.** -/
theorem exists_issuing (pool : PoolId) (r : Request) (h : Handle) (w : World β) :
    ∃ calls, h.Issuing pool r w (h.issue pool r w).1 (h.issue pool r w).2.1
        (h.issue pool r w).2.2 calls ∧
      ∀ before, h.issue pool r (w.watched before) =
        ((h.issue pool r w).1, (h.issue pool r w).2.1,
          (h.issue pool r w).2.2.watched (before ++ calls)) := by
  cases hi : h.issued with
  | true =>
    refine ⟨[], ?_, fun before => ?_⟩
    · rw [issue_of_issued hi]
      exact .again hi
    · rw [issue_of_issued hi, issue_of_issued hi, List.append_nil]
  | false =>
    cases hn : h.native with
    | none =>
      refine ⟨[], ?_, fun before => ?_⟩
      · rw [issue_of_gone hi hn]
        exact .late hi hn
      · rw [issue_of_gone hi hn, issue_of_gone hi hn, List.append_nil]
    | some c =>
      obtain ⟨calls, hissuing, hwatched⟩ := r.exists_issuing pool c w
      refine ⟨calls, ?_, fun before => ?_⟩
      · rw [issue_of_native hi hn]
        generalize r.issue pool c w = s at hissuing
        obtain ⟨i, w'⟩ := s
        cases hissuing with
        | overflow hr hl => exact .overflow hi hn hr hl
        | accepted hs he => exact .accepted hi hn hs he
        | refused hs he => exact .refused hi hn hs he
      · rw [issue_of_native hi hn, issue_of_native hi hn, hwatched]
        generalize r.issue pool c w = s
        obtain ⟨buffer | e | _, w'⟩ := s <;> rfl

/-- What the backend is asked when a handle is released. -/
def releaseCalls (h : Handle) : List CompletionCall :=
  if h.released then [] else h.native.toList.map .released

/-- Releasing a handle releases its completion, once. -/
theorem release_watched (h : Handle) (w : World β) (before : List CompletionCall) :
    h.release (w.watched before) =
      ((h.release w).1, (h.release w).2.1,
        (h.release w).2.2.watched (before ++ h.releaseCalls)) := by
  cases hr : h.released with
  | true =>
    simp only [release, releaseCalls, hr, if_true, List.append_nil]
    rfl
  | false =>
    simp only [release, releaseCalls, surrender, hr]
    cases h.native <;> cases h.buffer <;> simp <;> rfl

end Handle

end Milepost
