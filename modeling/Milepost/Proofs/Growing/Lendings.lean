import Mathlib.Data.List.Chain
import Milepost.Proofs.Growing

/-!
# What is lent to a call

A call that is repeated with larger buffers may answer whatever it likes, out of a state of its
own. What it is lent shows when it keeps a log: each buffer that it was lent, with the answer. A
run of a call that keeps a log is the run of the call itself.

* `GrowRetry.Proceeds`: which calls may follow each other, and how they may end.
* `GrowRetry.proceeds_run`: every run proceeds in that way.
* `GrowRetry.lends_in_turn`: which buffers a run lends, and which answer it ends with.
-/

namespace Milepost

variable {σ : Type}

/-- One call: the buffer that it was lent, and its answer. -/
structure Lending where
  buffer : Buffer
  reply : BufferReply
deriving DecidableEq

namespace Lending

/-- The capacity of the buffer. -/
def capacity (x : Lending) : Nat := x.buffer.capacity

/-- The status that was answered. -/
def status (x : Lending) : Status := x.reply.status

/-- The buffer as the call left it. -/
def returned (x : Lending) : Buffer := x.buffer.fill x.reply.written

/-- The answer is a size, and so many bytes are in the buffer. -/
def Fits (x : Lending) : Prop := x.status.isError = false ∧ x.status.toSize ≤ x.capacity

/-- The answer is a refusal, and no larger buffer would help. -/
def IsRefused (x : Lending) : Prop := x.status.isError = true ∧ x.status ≠ .outOfRange

/-- The answer asks for a larger buffer: the one lent is too small, or less than the size. -/
def Asks (x : Lending) : Prop := x.status = .outOfRange ∨ x.capacity < x.status.toSize

/-- The capacity that a call is lent after this one asked for more. -/
def next (x : Lending) : Nat := max (max 1 (2 * x.capacity)) x.status.toSize

variable {x : Lending}

theorem Fits.not_asks (h : x.Fits) : ¬ x.Asks := by
  rintro (hrange | hlt)
  · have herror := h.1
    rw [hrange] at herror
    cases herror
  · exact absurd h.2 (Nat.not_le.mpr hlt)

theorem IsRefused.not_asks (h : x.IsRefused) : ¬ x.Asks := by
  rintro (hrange | hlt)
  · exact h.2 hrange
  · rw [Status.toSize_of_isError h.1] at hlt
    cases hlt

theorem Fits.not_isRefused (h : x.Fits) : ¬ x.IsRefused := fun hrefused => by
  cases h.1.symm.trans hrefused.1

theorem next_of_outOfRange (h : x.status = .outOfRange) : x.next = max 1 (2 * x.capacity) := by
  rw [next, h]
  exact Nat.max_eq_left (Nat.zero_le _)

/-- What is lent next, by the two ways to ask. -/
theorem Asks.next_cases (h : x.Asks) :
    x.status = .outOfRange ∧ x.next = max 1 (2 * x.capacity) ∨
      x.capacity < x.status.toSize ∧
        x.next = max (max 1 (2 * x.capacity)) x.status.toSize :=
  h.imp (fun hrange => ⟨hrange, next_of_outOfRange hrange⟩) (fun hlt => ⟨hlt, rfl⟩)

end Lending

/-- The call, keeping a log of what it is lent and what it answers. -/
def BufferCall.logged (call : BufferCall σ) : BufferCall (σ × List Lending) := fun b s =>
  ((call b s.1).1, (call b s.1).2, s.2 ++ [⟨b, (call b s.1).1⟩])

namespace GrowRetry

variable {p : GrowRetry} {call : BufferCall σ} {tried : List Nat} {needed : Nat}
  {m : BufferMeters} {s : σ} {x : Lending} {log : List Lending} {o : Outcome}

/-- The calls of a run, in order. -/
def lendings (p : GrowRetry) (call : BufferCall σ) (m : BufferMeters) (s : σ) : List Lending :=
  (p.run call.logged m (s, [])).state.2

/-- The call was made after calls with buffers of the capacities `tried`: it was allowed, it was
lent zero bytes, as many as were needed, and it gave its own answer. -/
structure Lent (p : GrowRetry) (call : BufferCall σ) (tried : List Nat) (needed : Nat)
    (x : Lending) : Prop where
  fits : needed ≤ Buffer.maxAllocation
  allowed : p.exhaustedAfter tried = false
  zeros : x.buffer = ⟨Bytes.zeros needed⟩
  answered : ∃ s, x.reply = (call x.buffer s).1

/-- The calls that follow when a buffer is needed after calls with buffers of the capacities
`tried`, and how they end. -/
inductive Proceeds (p : GrowRetry) (call : BufferCall σ) :
    (tried : List Nat) → (needed : Nat) → List Lending → Outcome → Prop
  | overflow {tried : List Nat} {needed : Nat} : Buffer.maxAllocation < needed →
    Proceeds p call tried needed [] .overflow
  | gaveUp {tried : List Nat} {needed : Nat} : needed ≤ Buffer.maxAllocation →
    p.exhaustedAfter tried = true → Proceeds p call tried needed [] (.failed (gaveUp tried))
  | filled {tried : List Nat} {needed : Nat} {x : Lending} : p.Lent call tried needed x → x.Fits →
    Proceeds p call tried needed [x] (.filled (x.returned.materialize x.status.toSize))
  | refused {tried : List Nat} {needed : Nat} {x : Lending} : p.Lent call tried needed x →
    x.IsRefused → Proceeds p call tried needed [x] (.failed (.ofStatus .other x.status))
  | larger {tried : List Nat} {needed : Nat} {x : Lending} {log : List Lending} {o : Outcome} :
    p.Lent call tried needed x → x.Asks →
    Proceeds p call (tried ++ [needed]) x.next log o → Proceeds p call tried needed (x :: log) o

/-- The capacity that is needed after the calls. -/
def neededAfter (needed : Nat) (log : List Lending) : Nat := log.getLast?.elim needed Lending.next

/-- How the calls of a run end: all of them ask for more but the last, which is content or refused;
or all of them do, and a buffer cannot be as large or no further call is allowed. -/
inductive Ends (p : GrowRetry) (tried : List Nat) (needed : Nat) : List Lending → Outcome → Prop
  | filled (asked : List Lending) {x : Lending} (hasked : ∀ y ∈ asked, y.Asks) (hx : x.Fits) :
    Ends p tried needed (asked ++ [x]) (.filled (x.returned.materialize x.status.toSize))
  | refused (asked : List Lending) {x : Lending} (hasked : ∀ y ∈ asked, y.Asks)
    (hx : x.IsRefused) : Ends p tried needed (asked ++ [x]) (.failed (.ofStatus .other x.status))
  | overflow {log : List Lending} (hasked : ∀ y ∈ log, y.Asks)
    (hmax : Buffer.maxAllocation < neededAfter needed log) : Ends p tried needed log .overflow
  | gaveUp {log : List Lending} {all : List Nat} (hasked : ∀ y ∈ log, y.Asks)
    (hall : all = tried ++ log.map Lending.capacity) (hexhausted : p.exhaustedAfter all = true) :
    Ends p tried needed log (.failed (gaveUp all))

theorem neededAfter_cons : neededAfter needed (x :: log) = neededAfter x.next log := by
  rw [neededAfter, neededAfter, List.getLast?_cons]
  cases log.getLast? <;> rfl

theorem exhaustedAfter_iff :
    p.exhaustedAfter tried = true ↔ ∃ k, p.maxAttempts = some k ∧ k ≤ tried.length := by
  simp [exhaustedAfter, Option.any_eq_true]

theorem length_lt_of_allowed {k : Nat} (hk : p.maxAttempts = some k)
    (hallowed : p.exhaustedAfter tried = false) : tried.length < k := by
  by_contra hle
  have hexhausted := exhaustedAfter_iff.mpr ⟨k, hk, Nat.not_lt.mp hle⟩
  cases hexhausted.symm.trans hallowed

theorem Lent.capacity_eq (h : p.Lent call tried needed x) : x.capacity = needed := by
  rw [Lending.capacity, h.zeros]
  exact Bytes.size_zeros needed

theorem lent_of_allocate? {b : Buffer} (hb : Buffer.allocate? needed = some b)
    (hallowed : p.exhaustedAfter tried = false) :
    p.Lent call tried needed ⟨b, (call b s).1⟩ where
  fits := (Buffer.capacity_of_allocate? hb).2
  allowed := hallowed
  zeros := congrArg Buffer.mk (Buffer.bytes_of_allocate? hb)
  answered := ⟨s, rfl⟩

theorem attempt_of_exhausted {b : Buffer} (hb : Buffer.allocate? needed = some b)
    (hexhausted : p.exhaustedAfter tried = true) :
    p.attempt call tried needed m s = ⟨.failed (gaveUp tried), tried, m.gaveUp, s⟩ := by
  rw [attempt]
  split
  · rename_i hnone
    cases hnone.symm.trans hb
  · rw [if_pos hexhausted]

/-- **Whatever is answered, a run proceeds as it may.** The calls are those that a log has of them,
and keeping it changes nothing else. -/
theorem exists_proceeds (p : GrowRetry) (call : BufferCall σ) (tried : List Nat) (needed : Nat)
    (m : BufferMeters) (s : σ) :
    ∃ log, p.Proceeds call tried needed log (p.attempt call tried needed m s).outcome ∧
      (p.attempt call tried needed m s).capacities = tried ++ log.map Lending.capacity ∧
      ∀ before, p.attempt call.logged tried needed m (s, before) =
        ⟨(p.attempt call tried needed m s).outcome, (p.attempt call tried needed m s).capacities,
          (p.attempt call tried needed m s).meters,
          ((p.attempt call tried needed m s).state, before ++ log)⟩ := by
  fun_induction attempt p call tried needed m s with
  | case1 tried needed m s hnone =>
    have hmax : Buffer.maxAllocation < needed := by
      by_contra hle
      cases hnone.symm.trans (allocate?_of_le (Nat.not_lt.mp hle))
    refine ⟨[], .overflow hmax, (List.append_nil _).symm, fun before => ?_⟩
    rw [attempt_of_overflow _ _ _ _ _ hmax, List.append_nil]
  | case2 tried needed m s b hb hexhausted =>
    have hfits := (Buffer.capacity_of_allocate? hb).2
    refine ⟨[], .gaveUp hfits hexhausted, (List.append_nil _).symm, fun before => ?_⟩
    rw [attempt_of_exhausted hb hexhausted, List.append_nil]
  | case3 tried needed m s b hb hallowed m' answer tried' bytes hv =>
    have hallowed := Bool.eq_false_iff.mpr hallowed
    have hlent : p.Lent call tried needed ⟨b, answer.1⟩ := lent_of_allocate? hb hallowed
    obtain ⟨hfits, rfl⟩ := verdict_eq_filled_iff.mp hv
    refine ⟨[⟨b, answer.1⟩], .filled hlent hfits, ?_, fun before => ?_⟩
    · rw [List.map_singleton, hlent.capacity_eq]
    · rw [attempt_eq hb hallowed]
      simp only [BufferCall.logged]
      rw [hv]
  | case4 tried needed m s b hb hallowed m' answer tried' e hv =>
    have hallowed := Bool.eq_false_iff.mpr hallowed
    have hlent : p.Lent call tried needed ⟨b, answer.1⟩ := lent_of_allocate? hb hallowed
    obtain ⟨hrefused, rfl⟩ := verdict_eq_failed_iff.mp hv
    refine ⟨[⟨b, answer.1⟩], .refused hlent hrefused, ?_, fun before => ?_⟩
    · rw [List.map_singleton, hlent.capacity_eq]
    · rw [attempt_eq hb hallowed]
      simp only [BufferCall.logged]
      rw [hv]
  | case5 tried needed m s b hb hallowed m' answer tried' c hv ih =>
    have hallowed := Bool.eq_false_iff.mpr hallowed
    have hlent : p.Lent call tried needed ⟨b, answer.1⟩ := lent_of_allocate? hb hallowed
    obtain ⟨hasks, hc⟩ := verdict_eq_larger_iff.mp hv
    obtain ⟨log, hproceeds, hcapacities, hlogged⟩ := ih
    have hnext : c = Lending.next ⟨b, answer.1⟩ := by
      rw [hc, Lending.next, hlent.capacity_eq, ← Buffer.doubled_of_le hlent.fits,
        (Buffer.capacity_of_allocate? hb).1]
      rfl
    refine ⟨⟨b, answer.1⟩ :: log, .larger hlent hasks (hnext ▸ hproceeds), ?_, fun before => ?_⟩
    · rw [hcapacities, List.map_cons, hlent.capacity_eq, List.append_assoc]
      rfl
    · rw [attempt_eq hb hallowed]
      simp only [BufferCall.logged]
      rw [hv]
      dsimp only
      rw [hlogged, List.append_assoc]
      rfl

/-- A run proceeds with the calls of its log, whose capacities it shows, and a call that keeps a log
runs as the call does. -/
theorem run_spec (p : GrowRetry) (call : BufferCall σ) (m : BufferMeters) (s : σ) :
    p.Proceeds call [] p.initialSize (p.lendings call m s) (p.run call m s).outcome ∧
      (p.run call m s).capacities = (p.lendings call m s).map Lending.capacity ∧
      p.run call.logged m (s, []) =
        ⟨(p.run call m s).outcome, (p.run call m s).capacities, (p.run call m s).meters,
          ((p.run call m s).state, p.lendings call m s)⟩ := by
  obtain ⟨log, hproceeds, hcapacities, hlogged⟩ := exists_proceeds p call [] p.initialSize m s
  have hlog : p.lendings call m s = log := congrArg (·.state.2) (hlogged [])
  rw [hlog]
  exact ⟨hproceeds, hcapacities, hlogged []⟩

theorem proceeds_run (p : GrowRetry) (call : BufferCall σ) (m : BufferMeters) (s : σ) :
    p.Proceeds call [] p.initialSize (p.lendings call m s) (p.run call m s).outcome :=
  (run_spec p call m s).1

theorem capacities_run (p : GrowRetry) (call : BufferCall σ) (m : BufferMeters) (s : σ) :
    (p.run call m s).capacities = (p.lendings call m s).map Lending.capacity :=
  (run_spec p call m s).2.1

/-! ## The calls of a run -/

namespace Proceeds

theorem lent (h : p.Proceeds call tried needed log o) (hx : x ∈ log) :
    ∃ tried, p.Lent call tried x.capacity x := by
  induction h with
  | overflow | gaveUp => cases hx
  | @filled tried needed y hy _ | @refused tried needed y hy _ =>
    obtain rfl := List.mem_singleton.mp hx
    exact ⟨tried, hy.capacity_eq ▸ hy⟩
  | @larger tried needed y log o hy _ _ ih =>
    rcases List.mem_cons.mp hx with rfl | hx
    · exact ⟨tried, hy.capacity_eq ▸ hy⟩
    · exact ih hx

/-- The first call is lent what was needed. -/
theorem capacity_head (h : p.Proceeds call tried needed log o) (hx : x ∈ log.head?) :
    x.capacity = needed := by
  cases h with
  | overflow | gaveUp => cases hx
  | filled hy | refused hy | larger hy =>
    obtain rfl := Option.some.inj hx
    exact hy.capacity_eq

/-- There is a first call if a buffer may have the capacity and a call is allowed. -/
theorem ne_nil (h : p.Proceeds call tried needed log o) (hfits : needed ≤ Buffer.maxAllocation)
    (hallowed : p.exhaustedAfter tried = false) : log ≠ [] := by
  rintro rfl
  cases h with
  | overflow hmax => exact absurd hfits (Nat.not_le.mpr hmax)
  | gaveUp _ hexhausted => cases hexhausted.symm.trans hallowed

/-- **Each call is followed by one with the larger buffer that it asked for.** -/
theorem isChain (h : p.Proceeds call tried needed log o) :
    log.IsChain fun x y => x.Asks ∧ y.capacity = x.next := by
  induction h with
  | overflow | gaveUp => exact .nil
  | filled | refused => exact .singleton _
  | larger _ hasks hrest ih =>
    exact List.isChain_cons.mpr ⟨fun y hy => ⟨hasks, hrest.capacity_head hy⟩, ih⟩

/-- Every buffer is larger than those before. -/
theorem pairwise_lt (h : p.Proceeds call tried needed log o) :
    (log.map Lending.capacity).Pairwise (· < ·) := by
  refine List.isChain_iff_pairwise.mp ((List.isChain_map _).mpr (h.isChain.imp fun x y hxy => ?_))
  rw [hxy.2, Lending.next]
  omega

/-- There are no more calls than allowed. -/
theorem length_le {k : Nat} (h : p.Proceeds call tried needed log o) (hk : p.maxAttempts = some k)
    (htried : tried.length ≤ k) : tried.length + log.length ≤ k := by
  induction h with
  | overflow | gaveUp => exact htried
  | filled hx | refused hx => exact length_lt_of_allowed hk hx.allowed
  | larger hx _ _ ih =>
    have hlt := length_lt_of_allowed hk hx.allowed
    rw [List.length_append, List.length_singleton] at ih
    have hle := ih hlt
    rw [List.length_cons]
    omega

/-- **How a run ends.** -/
theorem ends (h : p.Proceeds call tried needed log o) : p.Ends tried needed log o := by
  induction h with
  | overflow hmax => exact .overflow nofun hmax
  | gaveUp _ hexhausted => exact .gaveUp nofun (List.append_nil _).symm hexhausted
  | filled _ hfits => exact .filled [] nofun hfits
  | refused _ hrefused => exact .refused [] nofun hrefused
  | larger hx hasks hrest ih =>
    cases ih with
    | filled asked hasked hfits =>
      exact .filled (_ :: asked) (List.forall_mem_cons.mpr ⟨hasks, hasked⟩) hfits
    | refused asked hasked hrefused =>
      exact .refused (_ :: asked) (List.forall_mem_cons.mpr ⟨hasks, hasked⟩) hrefused
    | overflow hasked hmax =>
      refine .overflow (List.forall_mem_cons.mpr ⟨hasks, hasked⟩) ?_
      rwa [neededAfter_cons]
    | gaveUp hasked hall hexhausted =>
      refine .gaveUp (List.forall_mem_cons.mpr ⟨hasks, hasked⟩) ?_ hexhausted
      rw [hall, List.map_cons, hx.capacity_eq, List.append_assoc]
      rfl

end Proceeds

namespace Ends

variable {bytes : ByteArray}

/-- A call that did not ask for more was the last, and the run ended with its answer. -/
theorem of_not_asks (h : p.Ends tried needed log o) (hx : x ∈ log) (hnot : ¬ x.Asks) :
    log.getLast? = some x ∧
      (x.Fits ∧ o = .filled (x.returned.materialize x.status.toSize) ∨
        x.IsRefused ∧ o = .failed (.ofStatus .other x.status)) := by
  cases h with
  | overflow hasked | gaveUp hasked => exact absurd (hasked x hx) hnot
  | filled asked hasked hfits =>
    rcases List.mem_append.mp hx with hx | hx
    · exact absurd (hasked x hx) hnot
    · obtain rfl := List.mem_singleton.mp hx
      exact ⟨List.getLast?_concat, .inl ⟨hfits, rfl⟩⟩
  | refused asked hasked hrefused =>
    rcases List.mem_append.mp hx with hx | hx
    · exact absurd (hasked x hx) hnot
    · obtain rfl := List.mem_singleton.mp hx
      exact ⟨List.getLast?_concat, .inr ⟨hrefused, rfl⟩⟩

/-- **A run delivers bytes exactly if the answer to a call fits,** and they are the leading bytes of
its buffer. -/
theorem filled_iff (h : p.Ends tried needed log o) :
    o = .filled bytes ↔
      ∃ x ∈ log, x.Fits ∧ bytes = x.returned.materialize x.status.toSize := by
  constructor
  · rintro rfl
    cases h with
    | filled _ _ hfits => exact ⟨_, List.mem_append_right _ List.mem_cons_self, hfits, rfl⟩
  · rintro ⟨x, hx, hfits, rfl⟩
    rcases (h.of_not_asks hx hfits.not_asks).2 with ⟨-, ho⟩ | ⟨hrefused, -⟩
    · exact ho
    · exact absurd hrefused hfits.not_isRefused

/-- A refusal that is no request for more is the last answer, and what the run fails with. -/
theorem of_isRefused (h : p.Ends tried needed log o) (hx : x ∈ log) (hrefused : x.IsRefused) :
    log.getLast? = some x ∧ o = .failed (.ofStatus .other x.status) := by
  obtain ⟨hlast, ⟨hfits, -⟩ | ⟨-, ho⟩⟩ := h.of_not_asks hx hrefused.not_asks
  · exact absurd hrefused hfits.not_isRefused
  · exact ⟨hlast, ho⟩

end Ends

/-- **A run lends in turn and ends with an answer.** Its capacities are those of the buffers that
the call was lent, all of them zero: the initial one first, if any call is allowed, and after every
call that asks for more at least twice as many bytes, and as many as it asks for. So every buffer is
larger than those before. The run delivers bytes exactly if the answer to one of the calls is a size
that fits its buffer, namely so many leading bytes as the call left there; a refusal that asks for
nothing ends the run at once, and is what it fails with. Who asks for the bytes alone is told the
same. -/
theorem lends_in_turn (p : GrowRetry) (hinitial : p.initialSize ≤ Buffer.maxAllocation)
    (call : BufferCall σ) (m : BufferMeters) (s : σ) :
    p.run call.logged m (s, []) =
      ⟨(p.run call m s).outcome, (p.run call m s).capacities, (p.run call m s).meters,
        ((p.run call m s).state, p.lendings call m s)⟩ ∧
    (p.run call m s).capacities = (p.lendings call m s).map Lending.capacity ∧
    (∀ x ∈ p.lendings call m s,
      x.buffer.bytes.data.toList = List.replicate x.capacity 0) ∧
    (p.run call m s).capacities.head? =
      (if p.maxAttempts = some 0 then none else some p.initialSize) ∧
    ((p.lendings call m s).IsChain fun x y =>
      x.status = .outOfRange ∧ y.capacity = max 1 (2 * x.capacity) ∨
        x.capacity < x.status.toSize ∧
          y.capacity = max (max 1 (2 * x.capacity)) x.status.toSize) ∧
    (p.run call m s).capacities.Pairwise (· < ·) ∧
    (∀ bytes, (p.run call m s).outcome = .filled bytes ↔
      ∃ x ∈ p.lendings call m s, x.Fits ∧
        bytes.data.toList = x.returned.bytes.data.toList.take x.status.toSize) ∧
    (∀ x ∈ p.lendings call m s, x.IsRefused →
      (p.lendings call m s).getLast? = some x ∧
        (p.run call m s).outcome = .failed (.ofStatus .other x.status)) ∧
    p.deliver call m s =
      ((p.run call m s).outcome, (p.run call m s).meters, (p.run call m s).state) := by
  obtain ⟨hproceeds, hcapacities, hlogged⟩ := run_spec p call m s
  refine ⟨hlogged, hcapacities, ?zeros, ?first, ?chain, ?larger, ?filled,
    fun x hx hrefused => hproceeds.ends.of_isRefused hx hrefused, rfl⟩
  case zeros =>
    intro x hx
    obtain ⟨tried, hlent⟩ := hproceeds.lent hx
    rw [hlent.zeros]
    exact Bytes.toList_zeros _
  case first =>
    rw [hcapacities, List.head?_map]
    split
    · rename_i hnone
      have hlength := hproceeds.length_le hnone (Nat.le_refl 0)
      rw [List.length_nil, Nat.zero_add, Nat.le_zero, List.length_eq_zero_iff] at hlength
      rw [hlength]
      rfl
    · rename_i hsome
      have hallowed : p.exhaustedAfter [] = false := by
        refine Bool.eq_false_iff.mpr fun hexhausted => ?_
        obtain ⟨k, hk, hle⟩ := exhaustedAfter_iff.mp hexhausted
        exact hsome (Nat.le_zero.mp hle ▸ hk)
      obtain ⟨x, rest, hlog⟩ := List.exists_cons_of_ne_nil (hproceeds.ne_nil hinitial hallowed)
      have hhead : x ∈ (p.lendings call m s).head? := by rw [hlog]; rfl
      rw [hlog, List.head?_cons, Option.map_some, hproceeds.capacity_head hhead]
  case chain =>
    refine hproceeds.isChain.imp fun x y hxy => ?_
    rw [hxy.2]
    exact hxy.1.next_cases
  case larger =>
    rw [hcapacities]
    exact hproceeds.pairwise_lt
  case filled =>
    intro bytes
    rw [hproceeds.ends.filled_iff]
    refine exists_congr fun x => and_congr_right fun _ => and_congr_right fun _ => ?_
    rw [← Buffer.toList_materialize]
    exact ⟨fun hbytes => by rw [hbytes], fun hbytes => ByteArray.ext (Array.ext' hbytes)⟩

end GrowRetry

namespace Sample

/-- Gives one reply after the other. -/
def replying : BufferCall (List BufferReply) := fun _ replies =>
  (replies.headD { status := 0 }, replies.tail)

/-- Asks for more, then for nine bytes, leaving bytes behind each time; then two of three bytes. -/
def replies : List BufferReply :=
  [⟨.outOfRange, ⟨#[7, 7]⟩⟩, ⟨9, ⟨#[8, 8, 8]⟩⟩, ⟨3, ⟨#[1, 2]⟩⟩]

/-- Begins with two bytes. -/
def twoBytes : GrowRetry := { initialSize := 2 }

/-- The last of the calls. -/
def lastLending : Lending := ⟨⟨Bytes.zeros 9⟩, ⟨3, ⟨#[1, 2]⟩⟩⟩

end Sample

/-- What was left in the first two buffers is not in the third. -/
theorem GrowRetry.lends_in_turn_three_replies :
    Sample.twoBytes.initialSize ≤ Buffer.maxAllocation ∧
      (Sample.twoBytes.run Sample.replying {} Sample.replies).capacities = [2, 4, 9] ∧
      (Sample.twoBytes.lendings Sample.replying {} Sample.replies).getLast? =
        some Sample.lastLending ∧
      Sample.lastLending.buffer.bytes.data.toList = List.replicate 9 0 ∧
      (Sample.twoBytes.run Sample.replying {} Sample.replies).outcome =
        .filled ⟨#[1, 2, 0]⟩ := by
  have hinitial : Sample.twoBytes.initialSize ≤ Buffer.maxAllocation := by decide
  obtain ⟨-, -, hzeros, -, -, -, hfilled, -⟩ :=
    GrowRetry.lends_in_turn Sample.twoBytes hinitial Sample.replying {} Sample.replies
  have hlast : Sample.lastLending ∈
      Sample.twoBytes.lendings Sample.replying {} Sample.replies := by decide +kernel
  have hfits : Sample.lastLending.Fits := ⟨by decide, by decide +kernel⟩
  exact ⟨hinitial, by decide +kernel, by decide +kernel, hzeros _ hlast,
    (hfilled _).mpr ⟨_, hlast, hfits, by decide +kernel⟩⟩

end Milepost
