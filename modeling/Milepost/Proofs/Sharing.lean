import Milepost.Proofs.Refusal
import Milepost.Proofs.Service.Flush

/-!
# Shared buffers in use

Those who share a buffer each have a hold on it. Through any of them it is changed and copied, and
a hold is multiplied, given up, or left to the backend with a read. `Sharing` is a backend in
service together with all holds, and with what happened to each buffer so far, which nothing reads.

* `BufferPast.outcome`: what the changes of a buffer make of it, up to the first that failed.
* `Sharing.Kept`: each buffer has as many holders as there are holds on it, those of queued reads
  among them, and is what its changes made of it.
* `Sharing.Kept.answer`: whoever makes a call, its answer is told from the changes alone.
* `Sharing.Sound.replay`: so it stays, whatever is done with the holds and the backend.
-/

namespace Milepost

/-! ## What happens to a buffer -/

/-- Whether the task failed. -/
def Ending.isRaised {α : Type} : Ending α → Bool
  | returned _ => false
  | raised => true

/-- What a task makes of a buffer, and whether it fails. -/
abbrev BufferUpdate := Buffer → Buffer × Bool

/-- What happened to a buffer. -/
structure BufferPast where
  origin : Buffer
  /-- What tasks did to it, oldest first. -/
  updates : List BufferUpdate := []

namespace BufferPast

/-- What the tasks made of the buffer, up to the first that failed, and whether one did. -/
def outcome (p : BufferPast) : Buffer × Bool :=
  p.updates.foldl (fun x f => if x.2 then x else f x.1) (p.origin, false)

def content (p : BufferPast) : Buffer := p.outcome.1

def isSpoiled (p : BufferPast) : Bool := p.outcome.2

/-- The past after one task more. -/
def add (f : BufferUpdate) (p : BufferPast) : BufferPast := { p with updates := p.updates ++ [f] }

/-- What is answered if no task failed. -/
def guarded {β : Type} (p : BufferPast) (a : β) : Except Failure β :=
  if p.isSpoiled then .error SharedBuffer.refusal else .ok a

theorem outcome_add (f : BufferUpdate) (p : BufferPast) :
    (p.add f).outcome = if p.isSpoiled then p.outcome else f p.content := by
  rw [outcome, add, List.foldl_concat]
  rfl

/-- Nothing happens to a buffer any more that a task has failed on. -/
theorem outcome_add_of_isSpoiled {p : BufferPast} (h : p.isSpoiled = true) (f : BufferUpdate) :
    (p.add f).outcome = p.outcome := by
  rw [outcome_add, if_pos h]

end BufferPast

namespace SharedBuffer

variable {α : Type} {b : SharedBuffer} {p : BufferPast}

/-- The buffer after a task, if no task failed before. -/
def after (f : BufferUpdate) (b : SharedBuffer) : SharedBuffer :=
  if b.poisoned then b else { b with content := (f b.content).1, poisoned := (f b.content).2 }

@[simp]
theorem holders_after (f : BufferUpdate) : (b.after f).holders = b.holders := by
  unfold after
  split <;> rfl

theorem after_of_poisoned (h : b.poisoned = true) (f : BufferUpdate) : b.after f = b := if_pos h

/-- What a task ends with is read off the content that it finds. -/
theorem update_eq (f : Buffer → Buffer × Ending α) :
    b.update f = (b.access fun c => (f c).2, b.after fun c => ((f c).1, (f c).2.isRaised)) := by
  unfold update access after
  cases hp : b.poisoned with
  | true => rfl
  | false => cases hf : (f b.content).2 <;> simp [hf, Ending.isRaised]

theorem modify_eq (f : Buffer → Buffer × α) :
    b.modify f = (b.access fun c => (f c).2, b.after fun c => ((f c).1, false)) := by
  unfold modify access after
  cases hp : b.poisoned with
  | true => rfl
  | false => simp

/-- The buffer is what happened to it. -/
def Fits (p : BufferPast) (b : SharedBuffer) : Prop := (b.content, b.poisoned) = p.outcome

namespace Fits

theorem poisoned (h : Fits p b) : b.poisoned = p.isSpoiled := congrArg Prod.snd h

theorem content (h : Fits p b) : b.content = p.content := congrArg Prod.fst h

theorem access (h : Fits p b) (f : Buffer → α) : b.access f = p.guarded (f p.content) := by
  rw [SharedBuffer.access, BufferPast.guarded, h.content, h.poisoned]

/-- What a task does to the buffer belongs to its past. -/
theorem after (h : Fits p b) (f : BufferUpdate) : Fits (p.add f) (b.after f) := by
  rw [Fits, BufferPast.outcome_add, ← h.poisoned, ← h.content, SharedBuffer.after]
  split
  · exact h
  · rfl

end Fits

end SharedBuffer

/-! ## What is done with a hold -/

/-- What one may do with a hold on a buffer. -/
inductive HoldCall (α : Type)
  | clone
  | drop
  /-- Lets a task change the content. -/
  | update (f : Buffer → Buffer × Ending α)
  /-- Copies the first bytes. -/
  | materialize (n : Nat)
  | capacity

/-- What a call is answered. -/
inductive HoldAnswer (α : Type)
  | done
  | ended (r : Except Failure (Ending α))
  | bytes (r : Except Failure ByteArray)
  | size (r : Except Failure Nat)

namespace HoldCall

variable {α : Type}

/-- Makes a call on the buffer of the number. -/
def run (i : BufferId) (s : Shelf) : HoldCall α → HoldAnswer α × Shelf
  | clone => (.done, s.hold i)
  | drop => (.done, s.letGo i)
  | update f =>
    let (r, s) := s.update i (·.update f)
    (.ended r, s)
  | materialize n => (.bytes ((s.get i).materialize n), s)
  | capacity => (.size (s.get i).capacity, s)

/-- What the call does to the content. -/
def update? : HoldCall α → Option BufferUpdate
  | update f => some fun c => ((f c).1, (f c).2.isRaised)
  | clone | drop | materialize _ | capacity => none

/-- The answer, told from what happened to the buffer. -/
def answer (p : BufferPast) : HoldCall α → HoldAnswer α
  | clone | drop => .done
  | update f => .ended (p.guarded (f p.content).2)
  | materialize n => .bytes (p.guarded (p.content.materialize n))
  | capacity => .size (p.guarded p.content.capacity)

/-- The holds after a call through one of them. -/
def holdsAfter (holds : List (Option BufferId)) (h : Nat) (i : BufferId) :
    HoldCall α → List (Option BufferId)
  | clone => holds ++ [some i]
  | drop => holds.set h none
  | update _ | materialize _ | capacity => holds

theorem run_fst {s : Shelf} {i : BufferId} {p : BufferPast} (h : SharedBuffer.Fits p (s.get i))
    (c : HoldCall α) : (c.run i s).1 = c.answer p := by
  cases c with
  | clone | drop => rfl
  | update f =>
    change HoldAnswer.ended ((s.get i).update f).1 = _
    rw [SharedBuffer.update_eq, h.access]
    rfl
  | materialize n => exact congrArg HoldAnswer.bytes (h.access _)
  | capacity => exact congrArg HoldAnswer.size (h.access _)

end HoldCall

/-! ## A backend and all holds -/

/-- The number of a hold. -/
abbrev HoldId := Nat

/-- A backend in service, and who shares which buffer. -/
structure Sharing where
  backend : InMemory
  shelf : Shelf := {}
  /-- The buffer of each hold; none for those that were given up. -/
  holds : List (Option BufferId) := []
  ledger : Ledger := {}
  /-- What happened to each buffer. -/
  pasts : List BufferPast := []

/-- What may happen to shared buffers and a backend. -/
inductive SharingEvent (α : Type)
  /-- A buffer is shared, and held once. -/
  | share (b : Buffer)
  | call (h : HoldId) (c : HoldCall α)
  /-- A read is issued, and the hold left to it. -/
  | read (h : HoldId) (pool : PoolId) (oid : String) (c : CompletionId) (offset : Nat)
  /-- What has to do with no buffer, and the steps of the worker. -/
  | use (u : Use)

/-- Whether the use is made with no buffer, unless the worker makes it. -/
def Use.isApart : Use → Bool
  | buffers _ | issue _ _ _ (.read ..) => false
  | _ => true

/-- What the worker does to the buffer of a read when it applies the read to the store. -/
def Job.filling? (j : Job) (store : Store) : Option (BufferId × BufferUpdate) :=
  match j.action with
  | .command (.read i offset) =>
    match store.find j.key with
    | .ok o => some (i, fun c => (c.fill (o.slice offset c.capacity), false))
    | .error _ => none
  | _ => none

/-- What the use does to a buffer, if it is the step of the worker that applies a read. -/
def Use.filling? (s : InMemory × Shelf) (u : Use) : Option (BufferId × BufferUpdate) :=
  (u.application? s).bind fun a => a.job.filling? a.found

/-- How many reads into the buffer are queued. -/
def InMemory.readsInto (b : InMemory) (i : BufferId) : Nat :=
  b.queue.countP (·.buffer? == some i)

namespace Sharing

/-- A backend as laid down, and no buffers. -/
def fresh (config : InMemoryConfig) : Sharing := { backend := .ofConfig config }

/-- The buffer of a hold that was not given up. -/
def buffer? (s : Sharing) (h : HoldId) : Option BufferId := s.holds[h]?.join

/-- How many holds there are on the buffer, those that were left to queued reads among them. -/
def holdsOn (s : Sharing) (i : BufferId) : Nat := s.holds.count (some i) + s.backend.readsInto i

/-- The pasts after something was done to one buffer. -/
def pastsWith (s : Sharing) : Option (BufferId × BufferUpdate) → List BufferPast
  | some (i, f) => s.pasts.modify i (·.add f)
  | none => s.pasts

end Sharing

namespace SharingEvent

variable {α : Type}

/-- What happens to the backend and the shelf, if the event can happen. -/
def use? (s : Sharing) : SharingEvent α → Option Use
  | share b => some (.buffers (s.shelf.put b).2)
  | call h c => (s.buffer? h).map fun i => .buffers (c.run i s.shelf).2
  | read h pool oid c offset => (s.buffer? h).map fun i => .issue pool oid c (.read i offset)
  | use u => if u.isApart then some u else none

def holdsAfter (s : Sharing) : SharingEvent α → List (Option BufferId)
  | share _ => s.holds ++ [some s.shelf.cells.size]
  | call h c => ((s.buffer? h).map (c.holdsAfter s.holds h)).getD s.holds
  | read h .. => s.holds.set h none
  | use _ => s.holds

def pastsAfter (s : Sharing) : SharingEvent α → List BufferPast
  | share b => s.pasts ++ [{ origin := b }]
  | call h c => s.pastsWith ((s.buffer? h).bind fun i => c.update?.map (i, ·))
  | read .. => s.pasts
  | use u => s.pastsWith (u.filling? (s.backend, s.shelf))

end SharingEvent

namespace Sharing

variable {α : Type}

/-- The sharing after an event, if it can happen and is fair. -/
def next? (s : Sharing) (e : SharingEvent α) : Option Sharing :=
  (e.use? s).bind fun u =>
    if u.isFair s.ledger then
      (u.next? (s.backend, s.shelf)).map fun t =>
        { backend := t.1
          shelf := t.2
          holds := e.holdsAfter s
          ledger := s.ledger.after (s.backend, s.shelf) u
          pasts := e.pastsAfter s }
    else none

/-- The sharing after events. -/
def replay (s : Sharing) : List (SharingEvent α) → Option Sharing
  | [] => some s
  | e :: es => (s.next? e).bind (replay · es)

variable {s t : Sharing} {e : SharingEvent α}

theorem next?_eq {u : Use} {x : InMemory × Shelf} (hu : e.use? s = some u)
    (hfair : u.isFair s.ledger = true) (hx : u.next? (s.backend, s.shelf) = some x) :
    s.next? e = some
      { backend := x.1
        shelf := x.2
        holds := e.holdsAfter s
        ledger := s.ledger.after (s.backend, s.shelf) u
        pasts := e.pastsAfter s } := by
  rw [next?, hu, Option.bind_some, if_pos hfair, hx]
  rfl

/-- What an event makes of a sharing. -/
theorem of_next? (hn : s.next? e = some t) :
    ∃ u, e.use? s = some u ∧ u.isFair s.ledger = true ∧
      u.next? (s.backend, s.shelf) = some (t.backend, t.shelf) ∧ t.holds = e.holdsAfter s ∧
      t.ledger = s.ledger.after (s.backend, s.shelf) u ∧ t.pasts = e.pastsAfter s := by
  obtain ⟨u, hu, hn⟩ := Option.bind_eq_some_iff.mp hn
  split at hn
  · rename_i hfair
    obtain ⟨⟨b, shelf⟩, hb, rfl⟩ := Option.map_eq_some_iff.mp hn
    exact ⟨u, hu, hfair, hb, rfl, rfl, rfl⟩
  · cases hn

end Sharing

/-! ## What happens to the shelf -/

/-- The buffer when a hold on it was given up. -/
def SharedBuffer.dropped (b : SharedBuffer) : SharedBuffer :=
  if b.holders ≤ 1 then { b.letGo with content := .empty } else b.letGo

namespace SharedBuffer

variable {b : SharedBuffer} {p : BufferPast}

@[simp]
theorem holders_dropped : b.dropped.holders = b.holders - 1 := by
  unfold dropped
  split <;> rfl

@[simp]
theorem poisoned_dropped : b.dropped.poisoned = b.poisoned := by
  unfold dropped
  split <;> rfl

/-- As long as it is held a buffer keeps its content. -/
theorem Fits.dropped (h : Fits p b) (hpos : 0 < b.dropped.holders) : Fits p b.dropped := by
  rw [holders_dropped] at hpos
  rw [SharedBuffer.dropped, if_neg (by omega)]
  exact h

@[simp]
theorem poisoned_after_of_poisoned (h : b.poisoned = true) (f : BufferUpdate) :
    (b.after f).poisoned = true := by
  rw [after_of_poisoned h, h]

end SharedBuffer

namespace Shelf

variable {s : Shelf} {i j : BufferId}

theorem get_of_size_le (h : s.cells.size ≤ i) : s.get i = nobodys := by
  rw [get, Array.getElem?_eq_none h]
  rfl

/-- A buffer that is held is on the shelf. -/
theorem lt_size_of_holders (h : 0 < (s.get i).holders) : i < s.cells.size := by
  by_contra hle
  rw [get_of_size_le (Nat.not_lt.mp hle)] at h
  exact Nat.lt_irrefl 0 h

/-- One buffer more leaves all other places as they are. -/
theorem get_put_of_ne {b : Buffer} (h : s.cells.size ≠ j) : (s.put b).2.get j = s.get j := by
  rcases Nat.lt_or_ge j s.cells.size with hlt | hge
  · exact get_put_of_lt hlt
  · rw [get_of_size_le hge, get_of_size_le (by rw [size_put]; omega)]

theorem get_letGo (h : i < s.cells.size) : (s.letGo i).get i = (s.get i).dropped :=
  get_modify_self h _

theorem get_hold (h : i < s.cells.size) : (s.hold i).get i = (s.get i).hold :=
  get_modify_self h _

end Shelf

namespace HoldCall

variable {α : Type} {c : HoldCall α} {s : Shelf} {i j : BufferId}

theorem size_run : (c.run i s).2.cells.size = s.cells.size := by
  cases c with
  | clone | drop | update => exact Shelf.size_modify _
  | materialize | capacity => rfl

theorem get_run_of_ne (h : i ≠ j) : (c.run i s).2.get j = s.get j := by
  cases c with
  | clone => exact Shelf.get_hold_of_ne h
  | drop => exact Shelf.get_letGo_of_ne h
  | update => exact Shelf.get_modify_of_ne h _
  | materialize | capacity => rfl

/-- What a call makes of its own buffer. -/
def effect : HoldCall α → SharedBuffer → SharedBuffer
  | clone, b => b.hold
  | drop, b => b.dropped
  | update f, b => b.after fun c => ((f c).1, (f c).2.isRaised)
  | materialize _, b | capacity, b => b

/-- No call undoes the failure of a task. -/
theorem poisoned_effect {b : SharedBuffer} (h : b.poisoned = true) :
    (c.effect b).poisoned = true := by
  cases c with
  | clone | materialize | capacity => exact h
  | drop => rw [effect, SharedBuffer.poisoned_dropped, h]
  | update f => exact SharedBuffer.poisoned_after_of_poisoned h _

theorem get_run_self (h : i < s.cells.size) : (c.run i s).2.get i = c.effect (s.get i) := by
  cases c with
  | clone => exact Shelf.get_hold h
  | drop => exact Shelf.get_letGo h
  | update f =>
    exact (Shelf.get_modify_self h _).trans (congrArg Prod.snd (SharedBuffer.update_eq f))
  | materialize | capacity => rfl

end HoldCall

/-! ## What the worker does to the shelf -/

namespace InMemory

variable {job : Job} {store : Store} {shelf : Shelf} {now : Int} {i n : BufferId} {offset : Nat}

/-- What a read answers that found the object, or not. -/
theorem applyJob_read_fst (ha : job.action = .command (.read n offset)) :
    (applyJob now job store shelf).1 =
      match store.find job.key with
      | .error status => status
      | .ok o =>
        if (shelf.get n).poisoned then .ioError
        else .ofSize (o.slice offset (shelf.get n).content.capacity).size := by
  unfold applyJob
  rw [ha]
  simp only [readInto]
  cases store.find job.key with
  | error status => rfl
  | ok o =>
    simp only [Shelf.update, SharedBuffer.modify]
    cases (shelf.get n).poisoned <;> rfl

/-- What a read that found the object does to the shelf. -/
theorem readInto_snd {key : ObjectKey} {o : Object} (h : store.find key = .ok o) :
    (readInto store key offset n shelf).2 =
      shelf.modify n fun _ =>
        (shelf.get n).after fun c => (c.fill (o.slice offset c.capacity), false) := by
  unfold readInto
  rw [h]
  simp only [Shelf.update, SharedBuffer.modify_eq]
  cases (shelf.get n).access _ <;> rfl

/-- What a read does to its own buffer. -/
theorem get_applyJob_read (now : Int) (store : Store) (ha : job.action = .command (.read n offset))
    (hn : n < shelf.cells.size) :
    (applyJob now job store shelf).2.2.get n =
      ((job.filling? store).elim (shelf.get n) fun x => (shelf.get n).after x.2).dropped := by
  have happly : (applyJob now job store shelf).2.2 =
      (readInto store job.key offset n shelf).2.letGo n := by
    rw [applyJob, ha]
  rw [happly, Job.filling?, ha]
  cases hf : store.find job.key with
  | error status =>
    rw [readInto, hf]
    exact Shelf.get_letGo hn
  | ok o =>
    rw [readInto_snd hf, Shelf.get_letGo (by rw [Shelf.size_modify]; exact hn),
      Shelf.get_modify_self hn]
    rfl

end InMemory

/-! ## What holds on the way -/

/-- Apart from the worker, such a use leaves the buffers and the reads in the queue. -/
theorem Use.shelf_of_isApart {u : Use} {s t : InMemory × Shelf} (ha : u.isApart = true)
    (hw : u ≠ .work) (hn : u.next? s = some t) :
    t.2 = s.2 ∧ ∀ i, t.1.readsInto i = s.1.readsInto i := by
  constructor
  · cases u with
    | createCompletion | release | beginFlush | call | shutdown | clock =>
      cases hn
      rfl
    | issue pool oid c command =>
      cases hn
      cases command with
      | edit e => rfl
      | read => cases ha
    | endFlush c =>
      obtain ⟨_, -, rfl⟩ := Option.map_eq_some_iff.mp hn
      rfl
    | buffers => cases ha
    | work => exact absurd rfl hw
  · intro i
    rcases u.queue_cases hn with hq | ⟨rfl, -⟩ | ⟨job, b, hj, -, hq⟩
    · rw [InMemory.readsInto, hq, InMemory.readsInto]
    · exact absurd rfl hw
    · have hb : job.buffer? = none := by
        cases u with
        | issue pool oid c command =>
          cases hj
          cases command with
          | edit e => rfl
          | read => cases ha
        | beginFlush =>
          cases hj
          rfl
        | createCompletion | release | endFlush | call | shutdown | clock | buffers | work =>
          cases hj
      rw [InMemory.readsInto, hq, List.countP_append, List.countP_singleton, hb]
      rfl

/-- A read undoes no failure of a task. -/
theorem Job.poisoned_filled (j : Job) (store : Store) {b : SharedBuffer} (h : b.poisoned = true) :
    ((j.filling? store).elim b fun x => b.after x.2).poisoned = true := by
  cases j.filling? store with
  | none => exact h
  | some x => exact SharedBuffer.poisoned_after_of_poisoned h x.2

/-- What a job fills is the buffer of its read. -/
theorem Job.buffer?_of_filling? {j : Job} {store : Store} {i : BufferId} {f : BufferUpdate}
    (h : j.filling? store = some (i, f)) : j.buffer? = some i := by
  unfold filling? at h
  unfold buffer?
  split at h
  · split at h
    · cases h
      simp_all
    · cases h
  · cases h

namespace Sharing

variable {s t : Sharing} {h : HoldId} {i j : BufferId} {p : BufferPast} {f : BufferUpdate}

theorem getElem?_holds (hb : s.buffer? h = some i) : s.holds[h]? = some (some i) :=
  Option.join_eq_some_iff.mp hb

/-- A hold that is given up is one hold less on its own buffer. -/
theorem count_set_none (hb : s.buffer? h = some i) :
    (s.holds.set h none).count (some j) + (if i = j then 1 else 0) = s.holds.count (some j) := by
  obtain ⟨hlt, hget⟩ := List.getElem?_eq_some_iff.mp (getElem?_holds hb)
  have hset := List.count_set (a := none) (b := some j) hlt
  rw [hget] at hset
  by_cases hij : i = j
  · subst hij
    have hpos : 0 < s.holds.count (some i) :=
      List.count_pos_iff.mpr (List.mem_of_getElem? (getElem?_holds hb))
    simp at hset
    simp
    omega
  · simp [hij] at hset
    simp [hij, hset]

theorem getElem?_pastsWith_of_ne {o : Option (BufferId × BufferUpdate)}
    (ho : ∀ x, o = some x → x.1 ≠ j) : (s.pastsWith o)[j]? = s.pasts[j]? := by
  cases o with
  | none => rfl
  | some x => simp [pastsWith, ho x rfl]

theorem getElem?_pastsWith_self (hp : s.pasts[i]? = some p) :
    (s.pastsWith (some (i, f)))[i]? = some (p.add f) := by
  simp [pastsWith, hp]

theorem length_pastsWith {o : Option (BufferId × BufferUpdate)} :
    (s.pastsWith o).length = s.pasts.length := by
  cases o with
  | none => rfl
  | some x => exact List.length_modify ..

/-- The buffers have as many holders as there are holds on them, and are what happened to them. -/
structure Kept (s : Sharing) : Prop where
  size : s.pasts.length = s.shelf.cells.size
  holders : ∀ i, (s.shelf.get i).holders = s.holdsOn i
  fits : ∀ {i p}, s.pasts[i]? = some p → 0 < (s.shelf.get i).holders → (s.shelf.get i).Fits p

namespace Kept

theorem fresh (config : InMemoryConfig) : (Sharing.fresh config).Kept where
  size := rfl
  holders _ := rfl
  fits hp := by simp [Sharing.fresh] at hp

theorem holders_pos (hk : s.Kept) (hb : s.buffer? h = some i) : 0 < (s.shelf.get i).holders := by
  rw [hk.holders]
  exact Nat.add_pos_left (List.count_pos_iff.mpr (List.mem_of_getElem? (getElem?_holds hb))) _

theorem holders_pos_of_mem (hk : s.Kept) {job : Job} (hj : job ∈ s.backend.queue)
    (hb : job.buffer? = some i) : 0 < (s.shelf.get i).holders := by
  rw [hk.holders]
  exact Nat.add_pos_right _ (List.countP_pos_iff.mpr ⟨job, hj, beq_iff_eq.mpr hb⟩)

theorem exists_past (hk : s.Kept) (hpos : 0 < (s.shelf.get i).holders) :
    ∃ p, s.pasts[i]? = some p ∧ (s.shelf.get i).Fits p := by
  have hlt : i < s.pasts.length := hk.size ▸ Shelf.lt_size_of_holders hpos
  exact ⟨_, List.getElem?_eq_getElem hlt, hk.fits (List.getElem?_eq_getElem hlt) hpos⟩

/-- **Whoever makes a call, its answer is told from the changes alone.** -/
theorem answer {α : Type} (hk : s.Kept) (hb : s.buffer? h = some i) :
    ∃ p, s.pasts[i]? = some p ∧ ∀ c : HoldCall α, (c.run i s.shelf).1 = c.answer p := by
  obtain ⟨p, hp, hfits⟩ := hk.exists_past (hk.holders_pos hb)
  exact ⟨p, hp, fun c => c.run_fst hfits⟩

/-! ### What preserves it -/

theorem congr (hk : s.Kept) (hshelf : t.shelf = s.shelf) (hpasts : t.pasts = s.pasts)
    (hholds : ∀ i, t.holdsOn i = s.holdsOn i) : t.Kept where
  size := by rw [hshelf, hpasts]; exact hk.size
  holders i := by rw [hshelf, hholds]; exact hk.holders i
  fits := by rw [hshelf, hpasts]; exact hk.fits

/-- What is done to one buffer that is held. -/
theorem touch {o : Option (BufferId × BufferUpdate)} (hk : s.Kept)
    (hi : 0 < (s.shelf.get i).holders)
    (hsize : t.shelf.cells.size = s.shelf.cells.size)
    (hpasts : t.pasts = s.pastsWith o) (ho : ∀ x, o = some x → x.1 = i)
    (hne : ∀ j, i ≠ j → t.shelf.get j = s.shelf.get j ∧ t.holdsOn j = s.holdsOn j)
    (hholders : (t.shelf.get i).holders = t.holdsOn i)
    (hfits : ∀ p, (s.shelf.get i).Fits p → 0 < (t.shelf.get i).holders →
      (t.shelf.get i).Fits (o.elim p fun x => p.add x.2)) : t.Kept := by
  constructor
  case size => rw [hpasts, length_pastsWith, hsize, hk.size]
  case holders =>
    intro j
    by_cases hij : i = j
    · exact hij ▸ hholders
    · rw [(hne j hij).1, (hne j hij).2]
      exact hk.holders j
  case fits =>
    intro j p hp hpos
    rw [hpasts] at hp
    by_cases hij : i = j
    · subst hij
      obtain ⟨p', hp', hfit⟩ := hk.exists_past hi
      have hfit := hfits p' hfit hpos
      cases o with
      | none =>
        obtain rfl := Option.some.inj (hp'.symm.trans hp)
        exact hfit
      | some x =>
        obtain ⟨k, f⟩ := x
        obtain rfl := ho _ rfl
        rw [getElem?_pastsWith_self hp'] at hp
        obtain rfl := Option.some.inj hp
        exact hfit
    · rw [(hne j hij).1] at hpos ⊢
      rw [getElem?_pastsWith_of_ne fun x hx hxj => hij ((ho x hx).symm.trans hxj)] at hp
      exact hk.fits hp hpos

/-- A buffer more is shared. -/
theorem share (hk : s.Kept) {b : Buffer} (hshelf : t.shelf = (s.shelf.put b).2)
    (hholds : t.holds = s.holds ++ [some s.shelf.cells.size])
    (hpasts : t.pasts = s.pasts ++ [{ origin := b }]) (hbackend : t.backend = s.backend) :
    t.Kept := by
  have hself : t.shelf.get s.shelf.cells.size = { content := b } := by
    rw [hshelf]
    exact s.shelf.get_put_self b
  have hnone : s.holdsOn s.shelf.cells.size = 0 := by
    rw [← hk.holders, Shelf.get_of_size_le (Nat.le_refl _)]
    rfl
  have hold : ∀ j, t.holdsOn j = s.holdsOn j + if s.shelf.cells.size = j then 1 else 0 := by
    intro j
    rw [holdsOn, holdsOn, hholds, hbackend, List.count_append, List.count_singleton]
    simp only [beq_iff_eq, Option.some.injEq]
    omega
  have hother : ∀ j, s.shelf.cells.size ≠ j → t.shelf.get j = s.shelf.get j := fun j hj =>
    hshelf ▸ Shelf.get_put_of_ne hj
  constructor
  case size => rw [hpasts, hshelf, Shelf.size_put, List.length_append, hk.size]; rfl
  case holders =>
    intro j
    rw [hold]
    by_cases hj : s.shelf.cells.size = j
    · rw [← hj, hself, hnone, if_pos rfl]
    · rw [hother j hj, if_neg hj, Nat.add_zero]
      exact hk.holders j
  case fits =>
    intro j p hp hpos
    rw [hpasts] at hp
    by_cases hj : s.shelf.cells.size = j
    · rw [← hj, ← hk.size, List.getElem?_concat_length] at hp
      rw [← hj, hself, ← Option.some.inj hp]
      rfl
    · rw [hother j hj] at hpos ⊢
      refine hk.fits ?_ hpos
      rwa [List.getElem?_append_left] at hp
      have hlt := (List.getElem?_eq_some_iff.mp hp).1
      rw [List.length_append, List.length_singleton] at hlt
      have := hk.size
      omega

/-- A call is made through a hold. -/
theorem call {α : Type} (hk : s.Kept) (hb : s.buffer? h = some i) {c : HoldCall α}
    (hshelf : t.shelf = (c.run i s.shelf).2) (hholds : t.holds = c.holdsAfter s.holds h i)
    (hpasts : t.pasts = s.pastsWith (c.update?.map (i, ·))) (hbackend : t.backend = s.backend) :
    t.Kept := by
  have hpos := hk.holders_pos hb
  have hself : t.shelf.get i = c.effect (s.shelf.get i) := by
    rw [hshelf]
    exact HoldCall.get_run_self (Shelf.lt_size_of_holders hpos)
  have hcount : ∀ j, t.holdsOn j = t.holds.count (some j) + s.backend.readsInto j := by
    intro j
    rw [holdsOn, hbackend]
  refine hk.touch (o := c.update?.map (i, ·)) hpos (hshelf ▸ HoldCall.size_run) hpasts ?_ ?_ ?_ ?_
  · intro x hx
    obtain ⟨f, -, rfl⟩ := Option.map_eq_some_iff.mp hx
    rfl
  · intro j hj
    refine ⟨hshelf ▸ HoldCall.get_run_of_ne hj, ?_⟩
    rw [hcount, holdsOn, hholds]
    cases c with
    | clone => simp [HoldCall.holdsAfter, List.count_append, hj]
    | drop =>
      have hset := count_set_none (j := j) hb
      rw [if_neg hj] at hset
      rw [HoldCall.holdsAfter, ← hset, Nat.add_zero]
    | update | materialize | capacity => rfl
  · have hheld := hk.holders i
    rw [hself, hcount, hholds]
    rw [holdsOn] at hheld
    cases c with
    | clone =>
      simp only [HoldCall.effect, SharedBuffer.hold, HoldCall.holdsAfter, List.count_append,
        List.count_singleton_self]
      omega
    | drop =>
      have hset := count_set_none (j := i) hb
      rw [if_pos rfl] at hset
      simp only [HoldCall.effect, SharedBuffer.holders_dropped, HoldCall.holdsAfter]
      omega
    | update f => exact (SharedBuffer.holders_after _).trans hheld
    | materialize | capacity => exact hheld
  · intro p hfits hpos'
    rw [hself] at hpos' ⊢
    cases c with
    | clone | materialize | capacity => exact hfits
    | drop => exact hfits.dropped hpos'
    | update f => exact hfits.after _

/-- A hold is left to a read, or given up when the read is refused. -/
theorem read (hk : s.Kept) (hb : s.buffer? h = some i) {pool : PoolId} {oid : String}
    {c : CompletionId} {offset : Nat}
    (hn : (InMemory.issue pool oid c (.read i offset) (s.backend, s.shelf)).2 =
      (t.backend, t.shelf))
    (hholds : t.holds = s.holds.set h none) (hpasts : t.pasts = s.pasts) : t.Kept := by
  have hset := fun j => count_set_none (j := j) hb
  rw [InMemory.issue] at hn
  obtain ⟨hbackend, hshelf⟩ := Prod.mk.inj hn
  cases ha : s.backend.accepts ⟨pool, oid, .command (.read i offset), c⟩ with
  | true =>
    simp only [ha, if_true] at hshelf
    refine hk.congr hshelf.symm hpasts fun j => ?_
    rw [holdsOn, holdsOn, InMemory.readsInto, ← hbackend, InMemory.queue_submit ha,
      List.countP_append, List.countP_singleton, hholds, ← hset j, InMemory.readsInto, Job.buffer?]
    simp only [beq_iff_eq, Option.some.injEq]
    omega
  | false =>
    simp only [ha, Bool.false_eq_true, if_false] at hshelf
    rw [InMemory.submit_of_not_accepts ha] at hbackend
    have hpos := hk.holders_pos hb
    have hself : t.shelf.get i = (s.shelf.get i).dropped := by
      rw [← hshelf]
      exact Shelf.get_letGo (Shelf.lt_size_of_holders hpos)
    have hcount : ∀ j, t.holdsOn j + (if i = j then 1 else 0) = s.holdsOn j := by
      intro j
      rw [holdsOn, holdsOn, ← hbackend, hholds, ← hset j]
      omega
    refine hk.touch (o := none) hpos (by rw [← hshelf]; exact Shelf.size_modify _) hpasts
      (fun x hx => by cases hx) (fun j hj => ⟨?_, ?_⟩) ?_ fun p hfits hpos' => ?_
    · rw [← hshelf]
      exact Shelf.get_letGo_of_ne hj
    · rw [← hcount j, if_neg hj, Nat.add_zero]
    · rw [hself, SharedBuffer.holders_dropped, hk.holders, ← hcount i, if_pos rfl,
        Nat.add_sub_cancel]
    · rw [hself] at hpos' ⊢
      exact hfits.dropped hpos'

/-- A job is applied, and with a read the hold ends that was left to it. -/
theorem apply (hk : s.Kept) {job : Job} {store : Store} {now : Int}
    (hqueue : s.backend.queue = job :: t.backend.queue)
    (hshelf : t.shelf = (InMemory.applyJob now job store s.shelf).2.2)
    (hholds : t.holds = s.holds) (hpasts : t.pasts = s.pastsWith (job.filling? store)) :
    t.Kept := by
  have hcount : ∀ j, t.holdsOn j + (if job.buffer? = some j then 1 else 0) = s.holdsOn j := by
    intro j
    rw [holdsOn, holdsOn, hholds, InMemory.readsInto, InMemory.readsInto, hqueue,
      List.countP_cons, ← Nat.add_assoc]
    simp only [beq_iff_eq]
  have happly : (∃ i offset, job.action = .command (.read i offset)) ∨
      job.buffer? = none ∧ t.shelf = s.shelf ∧ job.filling? store = none := by
    rw [hshelf, InMemory.applyJob, Job.buffer?, Job.filling?]
    cases job.action with
    | flush => exact .inr ⟨rfl, rfl, rfl⟩
    | command k =>
      cases k with
      | edit e => exact .inr ⟨rfl, rfl, rfl⟩
      | read i offset => exact .inl ⟨i, offset, rfl⟩
  rcases happly with ⟨i, offset, haction⟩ | ⟨hb, hsame, hf⟩
  · have hb : job.buffer? = some i := Job.buffer?_eq haction
    have hpos := hk.holders_pos_of_mem (hqueue ▸ List.mem_cons_self) hb
    have hself := InMemory.get_applyJob_read now store haction
      (Shelf.lt_size_of_holders hpos)
    rw [← hshelf] at hself
    refine hk.touch hpos (hshelf ▸ InMemory.size_applyJob) hpasts ?_ ?_ ?_ ?_
    · intro x hx
      exact Option.some.inj ((Job.buffer?_of_filling? hx).symm.trans hb)
    · intro j hj
      have hne : job.buffer? ≠ some j := fun h => hj (Option.some.inj (hb.symm.trans h))
      refine ⟨hshelf ▸ InMemory.get_applyJob_of_ne hne, ?_⟩
      rw [← hcount j, if_neg hne, Nat.add_zero]
    · rw [hself, SharedBuffer.holders_dropped, ← Nat.add_sub_cancel (t.holdsOn i) 1]
      have hheld := hcount i
      rw [if_pos hb, ← hk.holders] at hheld
      rw [hheld]
      cases job.filling? store with
      | none => rfl
      | some x => exact congrArg (· - 1) (SharedBuffer.holders_after x.2)
    · intro p hfits hpos'
      rw [hself] at hpos' ⊢
      cases hf : job.filling? store with
      | none => exact hfits.dropped (by rwa [hf] at hpos')
      | some x => exact (hfits.after x.2).dropped (by rwa [hf] at hpos')
  · rw [hf] at hpasts
    refine hk.congr hsame hpasts fun j => ?_
    rw [← hcount j, hb, if_neg (Option.some_ne_none j).symm, Nat.add_zero]

/-- The worker makes a step. -/
theorem work (hk : s.Kept) (hn : s.backend.step? s.shelf = some (t.backend, t.shelf))
    (hholds : t.holds = s.holds)
    (hpasts : t.pasts =
      s.pastsWith ((s.backend.application? s.shelf).bind fun a => a.job.filling? a.found)) :
    t.Kept := by
  unfold InMemory.step? at hn
  unfold InMemory.application? at hpasts
  cases hw : s.backend.worker with
  | applied job status | halfway job status =>
    simp only [hw, Option.some.injEq] at hn hpasts
    obtain ⟨hbackend, hshelf⟩ := Prod.mk.inj hn
    refine hk.congr hshelf.symm hpasts fun j => ?_
    rw [holdsOn, hholds, ← hbackend]
    rfl
  | idle =>
    cases hq : s.backend.queue with
    | nil => simp [hw, hq] at hn
    | cons job rest =>
      simp only [hw, hq, Option.some.injEq, Option.bind_some] at hn hpasts
      obtain ⟨hbackend, hshelf⟩ := Prod.mk.inj hn
      refine hk.apply ?_ hshelf.symm hholds hpasts
      rw [hq, ← hbackend]

/-- **Whatever happens preserves it.** -/
theorem next? {α : Type} {e : SharingEvent α} (hk : s.Kept) (hn : s.next? e = some t) :
    t.Kept := by
  obtain ⟨u, hu, -, hn, hholds, -, hpasts⟩ := of_next? hn
  cases e with
  | share b =>
    cases hu
    obtain ⟨hbackend, hshelf⟩ := Prod.mk.inj (Option.some.inj hn)
    exact hk.share hshelf.symm hholds hpasts hbackend.symm
  | call h c =>
    obtain ⟨i, hb, rfl⟩ := Option.map_eq_some_iff.mp hu
    obtain ⟨hbackend, hshelf⟩ := Prod.mk.inj (Option.some.inj hn)
    simp only [SharingEvent.holdsAfter, SharingEvent.pastsAfter, hb, Option.map_some,
      Option.getD_some, Option.bind_some] at hholds hpasts
    exact hk.call hb hshelf.symm hholds hpasts hbackend.symm
  | read h pool oid c offset =>
    obtain ⟨i, hb, rfl⟩ := Option.map_eq_some_iff.mp hu
    exact hk.read hb (Option.some.inj hn) hholds hpasts
  | use u' =>
    obtain ⟨ha, hu⟩ := Option.ite_none_right_eq_some.mp hu
    obtain rfl := Option.some.inj hu
    by_cases hw : u' = .work
    · subst hw
      exact hk.work hn hholds hpasts
    · obtain ⟨hshelf, hreads⟩ := u'.shelf_of_isApart ha hw hn
      refine hk.congr hshelf ?_ fun j => ?_
      · rw [hpasts, SharingEvent.pastsAfter, Use.filling?, (u'.application?_eq_none hw).1]
        rfl
      · rw [holdsOn, holdsOn, hholds, hreads]
        rfl

end Kept

/-- The backend is in service, and the buffers are kept. -/
structure Sound (config : InMemoryConfig) (s : Sharing) : Prop where
  service : Service config s.ledger (s.backend, s.shelf)
  kept : s.Kept

namespace Sound

variable {α : Type} {config : InMemoryConfig} {e : SharingEvent α} {es : List (SharingEvent α)}

theorem fresh (config : InMemoryConfig) : Sound config (.fresh config) := ⟨.start {}, .fresh config⟩

theorem next? (hs : Sound config s) (hn : s.next? e = some t) :
    Sound config t ∧ s.ledger.Extends t.ledger := by
  obtain ⟨u, -, hfair, hx, -, hledger, -⟩ := of_next? hn
  rw [hledger]
  refine ⟨⟨?_, hs.kept.next? hn⟩, .after ..⟩
  rw [hledger]
  exact hs.service.use u hfair hx

/-- **So it stays, whatever is done with the holds and the backend.** -/
theorem replay (hs : Sound config s) (hn : s.replay es = some t) :
    Sound config t ∧ s.ledger.Extends t.ledger := by
  induction es generalizing s with
  | nil =>
    cases hn
    exact ⟨hs, .refl _⟩
  | cons e es ih =>
    obtain ⟨s', hs', hn⟩ := Option.bind_eq_some_iff.mp hn
    obtain ⟨hsound, hextends⟩ := hs.next? hs'
    obtain ⟨ht, hextends'⟩ := ih hsound hn
    exact ⟨ht, hextends.trans hextends'⟩

end Sound

end Sharing

end Milepost
