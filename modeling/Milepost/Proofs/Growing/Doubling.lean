import Mathlib.Data.Nat.Size
import Mathlib.Order.Monotone.Basic
import Milepost.Proofs.Growing.Accounts

/-!
# How far doubling goes

Each buffer has at least twice the bytes of the one before it, so that its capacity has one more
binary digit. No buffer has a capacity of more than 63 digits, and so the calls of a run end by
themselves, whatever they answer. A call that is content with some number of bytes gets them before
twice as many are lent.

* `GrowRetry.ends_within_64`: a run without a limit makes at most 64 calls.
* `GrowRetry.grows_enough`: with which capacity a run ends that asks for a number of bytes.
-/

namespace Milepost

variable {σ : Type}

namespace GrowRetry

variable {p : GrowRetry} {call : BufferCall σ} {tried : List Nat} {needed n : Nat}
  {x : Lending} {log : List Lending} {o : Outcome}

/-! ## The capacities of doubling alone -/

/-- The capacity after so many doublings of `s`, where zero doubles to one. -/
def doubling (s i : Nat) : Nat := (fun c => max 1 (2 * c))^[i] s

theorem doubling_succ (s i : Nat) : doubling s (i + 1) = max 1 (2 * doubling s i) :=
  Function.iterate_succ_apply' ..

theorem strictMono_doubling (s : Nat) : StrictMono (doubling s) :=
  strictMono_nat_of_lt_succ fun i => by rw [doubling_succ]; omega

/-- The first doubling that is large enough is less than twice as large as needed, if it is not the
first of all. -/
theorem doubling_first {s n j : Nat} (hbefore : ∀ i < j, doubling s i < n) (hj : n ≤ doubling s j) :
    (n ≤ s → doubling s j = s) ∧ (s < n → n ≤ doubling s j ∧ doubling s j < 2 * n) := by
  cases j with
  | zero => exact ⟨fun _ => rfl, fun hlt => absurd hj (Nat.not_le.mpr hlt)⟩
  | succ j =>
    have hs : s < n := hbefore 0 (Nat.succ_pos j)
    have hlast := hbefore j (Nat.lt_succ_self j)
    refine ⟨fun hle => absurd hs (Nat.not_lt.mpr hle), fun _ => ⟨hj, ?_⟩⟩
    rw [doubling_succ]
    omega

/-- A call that only ever says that its buffer is too small is lent these capacities. -/
theorem Proceeds.capacities_eq (h : p.Proceeds call tried needed log o)
    (hshort : ∀ x ∈ log, x.Asks → x.status = .outOfRange) :
    log.map Lending.capacity = (List.range log.length).map (doubling needed) := by
  induction h with
  | overflow | gaveUp => rfl
  | filled hx | refused hx => exact congrArg (fun c => [c]) hx.capacity_eq
  | @larger tried needed x log o hx hasks _ ih =>
    have hnext : x.next = max 1 (2 * needed) := by
      rw [Lending.next_of_outOfRange (hshort x List.mem_cons_self hasks), hx.capacity_eq]
    rw [List.map_cons, List.length_cons, List.range_succ_eq_map, List.map_cons, List.map_map,
      ih fun y hy => hshort y (List.mem_cons_of_mem _ hy), hx.capacity_eq, hnext]
    rfl

theorem Proceeds.capacity_last (h : p.Proceeds call tried needed log o)
    (hshort : ∀ x ∈ log, x.Asks → x.status = .outOfRange) (hx : log.getLast? = some x) :
    x.capacity = doubling needed (log.length - 1) := by
  have hlast := congrArg List.getLast? (h.capacities_eq hshort)
  rw [List.getLast?_map, hx, List.getLast?_map, List.getLast?_range] at hlast
  split at hlast
  · cases hlast
  · exact Option.some.inj hlast

/-! ## Runs without a limit -/

/-- The capacity that is lent next has a digit more. -/
theorem size_lt_size_next (x : Lending) : x.capacity.size < x.next.size := by
  rw [Nat.lt_size, Lending.next]
  cases hsize : x.capacity.size with
  | zero => omega
  | succ k =>
    have hle : 2 ^ k ≤ x.capacity := Nat.lt_size.mp (by omega)
    rw [Nat.pow_succ]
    omega

/-- **Every call takes a digit,** of 64 that there are if the first capacity is zero. -/
theorem Proceeds.length_le_size (h : p.Proceeds call tried needed log o) :
    log.length ≤ 64 - needed.size := by
  have hdigits : ∀ {c : Nat}, c ≤ Buffer.maxAllocation → c.size ≤ 63 := fun hc =>
    Nat.size_le.mpr (Nat.lt_succ_of_le hc)
  induction h with
  | overflow | gaveUp => exact Nat.zero_le _
  | filled hx | refused hx =>
    have := hdigits hx.fits
    rw [List.length_singleton]
    omega
  | @larger _ _ x _ _ hx _ _ ih =>
    have := hdigits hx.fits
    have hlt := size_lt_size_next x
    rw [hx.capacity_eq] at hlt
    rw [List.length_cons]
    omega

/-- A run without a limit that began ends with an answer, or for want of memory. -/
theorem Ends.of_unlimited (h : p.Ends [] needed log o) (hunlimited : p.maxAttempts = none)
    (hneeded : needed ≤ Buffer.maxAllocation) :
    (∃ bytes, o = .filled bytes) ∨
      (∃ x, log.getLast? = some x ∧ x.IsRefused ∧ o = .failed (.ofStatus .other x.status)) ∨
      (∃ x, log.getLast? = some x ∧ x.Asks ∧ Buffer.maxAllocation < x.next ∧ o = .overflow) := by
  cases h with
  | filled => exact .inl ⟨_, rfl⟩
  | refused _ _ hx => exact .inr (.inl ⟨_, List.getLast?_concat, hx, rfl⟩)
  | overflow hasked hmax =>
    cases hlast : log.getLast? with
    | none =>
      rw [neededAfter, hlast] at hmax
      exact absurd hneeded (Nat.not_le.mpr hmax)
    | some x =>
      rw [neededAfter, hlast] at hmax
      exact .inr (.inr ⟨x, rfl, hasked x (List.mem_of_getLast? hlast), hmax, rfl⟩)
  | gaveUp _ _ hexhausted =>
    cases hexhausted.symm.trans (exhaustedAfter_of_unlimited hunlimited)

/-- **A run without a limit ends, whatever the call answers.** The call is made 64 times at most,
and no two of its buffers are of the same capacity, as none is so large that a word could not hold
twice as many bytes. Then its answer fits, or it is refused for another reason than the size of the
buffer, or it asks for more bytes than a buffer may have. -/
theorem ends_within_64 (p : GrowRetry) (hunlimited : p.maxAttempts = none)
    (hinitial : p.initialSize ≤ Buffer.maxAllocation) (call : BufferCall σ) (m : BufferMeters)
    (s : σ) :
    (p.lendings call m s).length ≤ 64 ∧
    (p.run call m s).capacities.Nodup ∧
    (∀ c ∈ (p.run call m s).capacities, Buffer.doubled c = max 1 (2 * c)) ∧
    ((∃ bytes, (p.run call m s).outcome = .filled bytes) ∨
      (∃ x, (p.lendings call m s).getLast? = some x ∧ x.IsRefused ∧
        (p.run call m s).outcome = .failed (.ofStatus .other x.status)) ∨
      (∃ x, (p.lendings call m s).getLast? = some x ∧ x.Asks ∧ Buffer.maxAllocation < x.next ∧
        (p.run call m s).outcome = .overflow)) := by
  have hproceeds := proceeds_run p call m s
  refine ⟨?count, ?distinct, ?doubled, hproceeds.ends.of_unlimited hunlimited hinitial⟩
  case count => exact Nat.le_trans hproceeds.length_le_size (Nat.sub_le _ _)
  case distinct =>
    rw [capacities_run]
    exact hproceeds.pairwise_lt.imp Nat.ne_of_lt
  case doubled =>
    intro c hc
    rw [capacities_run] at hc
    obtain ⟨x, hx, rfl⟩ := List.mem_map.mp hc
    obtain ⟨tried, hlent⟩ := hproceeds.lent hx
    exact Buffer.doubled_of_le hlent.fits

end GrowRetry

namespace Sample

/-- Asks for more, whatever it is lent. -/
def hungry : BufferCall Unit := fun _ s => ({ status := .outOfRange }, s)

/-- Begins without a byte. -/
def fromZero (maxAttempts : Option Nat) : GrowRetry := { initialSize := 0, maxAttempts }

end Sample

/-- A call that is never content is made 64 times, from a buffer without a byte on. -/
theorem GrowRetry.ends_within_64_hungry :
    (Sample.fromZero none).maxAttempts = none ∧
      (Sample.fromZero none).initialSize ≤ Buffer.maxAllocation ∧
      ((Sample.fromZero none).lendings Sample.hungry {} ()).length = 64 ∧
      ((Sample.fromZero none).run Sample.hungry {} ()).outcome = .overflow := by
  have hinitial : (Sample.fromZero none).initialSize ≤ Buffer.maxAllocation := Nat.zero_le _
  have hproceeds := GrowRetry.proceeds_run (Sample.fromZero none) Sample.hungry {} ()
  have hstatus : ∀ x ∈ (Sample.fromZero none).lendings Sample.hungry {} (),
      x.status = .outOfRange := by
    intro x hx
    obtain ⟨tried, hlent⟩ := hproceeds.lent hx
    obtain ⟨s, hs⟩ := hlent.answered
    rw [Lending.status, hs]
    rfl
  have hasks : ∀ x ∈ (Sample.fromZero none).lendings Sample.hungry {} (), x.Asks :=
    fun x hx => .inl (hstatus x hx)
  obtain ⟨hlength, -, -, ⟨bytes, hfilled⟩ | ⟨x, hlast, hrefused, -⟩ | ⟨x, hlast, -, hnext, hout⟩⟩ :=
    GrowRetry.ends_within_64 (Sample.fromZero none) rfl hinitial Sample.hungry {} ()
  · obtain ⟨x, hx, hfits, -⟩ := hproceeds.ends.filled_iff.mp hfilled
    exact absurd (hasks x hx) hfits.not_asks
  · exact absurd (hasks x (List.mem_of_getLast? hlast)) hrefused.not_asks
  · refine ⟨rfl, hinitial, Nat.le_antisymm hlength ?_, hout⟩
    have hcapacity := hproceeds.capacity_last (fun x hx _ => hstatus x hx) hlast
    rw [Lending.next_of_outOfRange (hstatus x (List.mem_of_getLast? hlast)), hcapacity,
      ← doubling_succ] at hnext
    -- the 63rd doubling of zero is still a capacity
    have hlargest : doubling 0 63 ≤ Buffer.maxAllocation := by decide +kernel
    have hmore := (strictMono_doubling 0).lt_iff_lt.mp (Nat.lt_of_le_of_lt hlargest hnext)
    omega

/-! ## Calls that need a number of bytes -/

/-- The call is content with a buffer of `n` bytes and reports at most so many; to a smaller one it
answers `short`. -/
structure BufferCall.Wants (call : BufferCall σ) (n : Nat) (short : Status) : Prop where
  short : ∀ b s, b.capacity < n → (call b s).1.status = short
  enough : ∀ b s, n ≤ b.capacity →
    (call b s).1.status.isError = false ∧ (call b s).1.status.toSize ≤ n

namespace BufferCall.Wants

open GrowRetry

variable {p : GrowRetry} {call : BufferCall σ} {tried : List Nat} {needed n : Nat} {short : Status}
  {x : Lending} {log : List Lending} {o : GrowRetry.Outcome}

theorem fits (hw : call.Wants n short) (hx : p.Lent call tried needed x) (hn : n ≤ x.capacity) :
    x.Fits := by
  obtain ⟨s, hs⟩ := hx.answered
  obtain ⟨herror, hsize⟩ := hw.enough x.buffer s hn
  rw [← hs] at herror hsize
  exact ⟨herror, Nat.le_trans hsize hn⟩

theorem status_eq (hw : call.Wants n short) (hx : p.Lent call tried needed x)
    (hn : x.capacity < n) : x.status = short := by
  obtain ⟨s, hs⟩ := hx.answered
  rw [Lending.status, hs]
  exact hw.short x.buffer s hn

/-- What is answered to a small buffer asks for more: it says so, or is the size. -/
theorem asks_iff (hw : call.Wants n short) (hshort : short = .outOfRange ∨ short.toSize = n)
    (hx : p.Lent call tried needed x) : x.Asks ↔ x.capacity < n := by
  constructor
  · intro hasks
    by_contra hle
    exact (hw.fits hx (Nat.not_lt.mp hle)).not_asks hasks
  · intro hlt
    rw [Lending.Asks, hw.status_eq hx hlt]
    rcases hshort with hrange | hsize
    · exact .inl hrange
    · exact .inr (by rw [hsize]; exact hlt)

theorem not_isRefused (hw : call.Wants n short) (hshort : short = .outOfRange ∨ short.toSize = n)
    (hx : p.Lent call tried needed x) : ¬ x.IsRefused := by
  intro hrefused
  have hnot := hrefused.not_asks
  rw [hw.asks_iff hshort hx, Nat.not_lt] at hnot
  exact (hw.fits hx hnot).not_isRefused hrefused

/-- After a call that asked for more, a buffer may still have the capacity that it is lent next. -/
theorem next_le (hw : call.Wants n short) (hshort : short = .outOfRange ∨ short.toSize = n)
    (hn : n ≤ 0x4000000000000000) (hx : p.Lent call tried needed x) (hasks : x.Asks) :
    x.next ≤ Buffer.maxAllocation := by
  have hlt := (hw.asks_iff hshort hx).mp hasks
  have hsize : x.status.toSize ≤ n := by
    rw [hw.status_eq hx hlt]
    rcases hshort with rfl | hsize
    · exact Nat.zero_le n
    · exact Nat.le_of_eq hsize
  rw [Lending.next, Buffer.maxAllocation]
  omega

/-- **The run ends with the first buffer that is large enough,** unless it is given up before. -/
theorem ends_cases (hw : call.Wants n short) (hshort : short = .outOfRange ∨ short.toSize = n)
    (hn : n ≤ 0x4000000000000000) (hneeded : needed ≤ Buffer.maxAllocation)
    (h : p.Proceeds call tried needed log o) :
    (∃ before c, log.map Lending.capacity = before ++ [c] ∧ (∀ b ∈ before, b < n) ∧ n ≤ c ∧
      ∃ bytes, o = .filled bytes) ∨
    ((∀ c ∈ log.map Lending.capacity, c < n) ∧ o.isExhausted = true ∧
      p.exhaustedAfter (tried ++ log.map Lending.capacity) = true) := by
  induction h with
  | overflow hmax => exact absurd hneeded (Nat.not_le.mpr hmax)
  | gaveUp _ hexhausted => exact .inr ⟨nofun, rfl, (List.append_nil _).symm ▸ hexhausted⟩
  | @filled _ _ x hx hfits =>
    have hle := Nat.not_lt.mp fun hlt => hfits.not_asks ((hw.asks_iff hshort hx).mpr hlt)
    exact .inl ⟨[], x.capacity, rfl, nofun, hle, _, rfl⟩
  | refused hx hrefused => exact absurd hrefused (hw.not_isRefused hshort hx)
  | @larger tried needed x log o hx hasks _ ih =>
    have hlt := (hw.asks_iff hshort hx).mp hasks
    rcases ih (hw.next_le hshort hn hx hasks) with
      ⟨before, c, hlog, hbefore, hc, ho⟩ | ⟨hlog, ho, hexhausted⟩
    · refine .inl ⟨x.capacity :: before, c, ?_, List.forall_mem_cons.mpr ⟨hlt, hbefore⟩, hc, ho⟩
      rw [List.map_cons, hlog, List.cons_append]
    · refine .inr ⟨List.forall_mem_cons.mpr ⟨hlt, hlog⟩, ho, ?_⟩
      rwa [List.append_assoc, ← hx.capacity_eq] at hexhausted

/-- A call that only ever says that its buffer is too small is lent one doubling after the other, up
to the first that is large enough, unless the run is given up before. -/
theorem doubles (hw : call.Wants n .outOfRange) (hn : n ≤ 0x4000000000000000)
    (hneeded : needed ≤ Buffer.maxAllocation) (h : p.Proceeds call [] needed log o) :
    log.map Lending.capacity = (List.range log.length).map (doubling needed) ∧
    ((∃ j, log.length = j + 1 ∧ (∀ i < j, doubling needed i < n) ∧ n ≤ doubling needed j ∧
      ∃ bytes, o = .filled bytes) ∨
    ((∀ i < log.length, doubling needed i < n) ∧ o.isExhausted = true ∧
      ∃ k, p.maxAttempts = some k ∧ k ≤ log.length)) := by
  have hcapacities : log.map Lending.capacity = (List.range log.length).map (doubling needed) := by
    refine h.capacities_eq fun x hx hasks => ?_
    obtain ⟨tried, hlent⟩ := h.lent hx
    exact hw.status_eq hlent ((hw.asks_iff (.inl rfl) hlent).mp hasks)
  refine ⟨hcapacities, (hw.ends_cases (.inl rfl) hn hneeded h).imp ?_ ?_⟩
  · rintro ⟨before, c, hlog, hbefore, hc, ho⟩
    have hlength : log.length = before.length + 1 := by
      rw [← List.length_map Lending.capacity, hlog, List.length_append, List.length_singleton]
    rw [hlog, hlength, List.range_succ, List.map_append] at hcapacities
    obtain ⟨hdoublings, hlast⟩ := List.append_inj' hcapacities rfl
    refine ⟨before.length, hlength, fun i hi => hbefore _ ?_, ?_, ho⟩
    · rw [hdoublings]
      exact List.mem_map_of_mem (List.mem_range.mpr hi)
    · rwa [List.singleton_inj.mp hlast] at hc
  · rintro ⟨hlog, ho, hexhausted⟩
    rw [hcapacities] at hlog
    obtain ⟨k, hk, hle⟩ := exhaustedAfter_iff.mp hexhausted
    rw [List.nil_append, List.length_map] at hle
    exact ⟨fun i hi => hlog _ (List.mem_map_of_mem (List.mem_range.mpr hi)), ho, k, hk, hle⟩

/-- Without a limit the bytes are delivered, with little more than needed. -/
theorem finds (hw : call.Wants n .outOfRange) (hn : n ≤ 0x4000000000000000)
    (hneeded : needed ≤ Buffer.maxAllocation) (hunlimited : p.maxAttempts = none)
    (h : p.Proceeds call [] needed log o) :
    (∃ bytes, o = .filled bytes) ∧
      ∃ c, (log.map Lending.capacity).getLast? = some c ∧
        (n ≤ needed → c = needed) ∧ (needed < n → n ≤ c ∧ c < 2 * n) := by
  obtain ⟨hcapacities, ⟨j, hlength, hbefore, hj, hfilled⟩ | ⟨-, -, k, hk, -⟩⟩ :=
    hw.doubles hn hneeded h
  · refine ⟨hfilled, doubling needed j, ?_, doubling_first hbefore hj⟩
    rw [hcapacities, hlength, List.range_succ, List.map_append]
    exact List.getLast?_concat
  · cases hunlimited.symm.trans hk

/-- With a limit they are delivered if the last doubling allowed is large enough. -/
theorem limited {k : Nat} (hw : call.Wants n .outOfRange) (hn : n ≤ 0x4000000000000000)
    (hneeded : needed ≤ Buffer.maxAllocation) (hk : p.maxAttempts = some k)
    (h : p.Proceeds call [] needed log o) :
    ((∃ bytes, o = .filled bytes) ↔ 1 ≤ k ∧ n ≤ doubling needed (k - 1)) ∧
      (¬ (1 ≤ k ∧ n ≤ doubling needed (k - 1)) → o.isExhausted = true ∧ log.length = k) := by
  have hle := h.length_le hk (Nat.zero_le k)
  rw [List.length_nil, Nat.zero_add] at hle
  obtain ⟨-, ⟨j, hlength, -, hj, hfilled⟩ | ⟨hsmall, hexhausted, k', hk', hle'⟩⟩ :=
    hw.doubles hn hneeded h
  · have hlast : doubling needed j ≤ doubling needed (k - 1) :=
      (strictMono_doubling needed).monotone (by omega)
    have henough : 1 ≤ k ∧ n ≤ doubling needed (k - 1) := ⟨by omega, Nat.le_trans hj hlast⟩
    exact ⟨iff_of_true hfilled henough, fun hnot => absurd henough hnot⟩
  · obtain rfl := Option.some.inj (hk.symm.trans hk')
    refine ⟨iff_of_false ?_ ?_, fun _ => ⟨hexhausted, Nat.le_antisymm hle hle'⟩⟩
    · rintro ⟨bytes, rfl⟩
      cases hexhausted
    · rintro ⟨hone, henough⟩
      exact absurd henough (Nat.not_le.mpr (hsmall (k - 1) (by omega)))

/-- A buffer that is large enough is the last. -/
theorem capacities_of_le (hw : call.Wants n short) (hneeded : needed ≤ Buffer.maxAllocation)
    (hallowed : p.exhaustedAfter tried = false) (hn : n ≤ needed)
    (h : p.Proceeds call tried needed log o) :
    log.map Lending.capacity = [needed] ∧ ∃ bytes, o = .filled bytes := by
  have hfits : ∀ {x}, p.Lent call tried needed x → x.Fits := fun hx =>
    hw.fits hx (hx.capacity_eq.symm ▸ hn)
  cases h with
  | overflow hmax => exact absurd hneeded (Nat.not_le.mpr hmax)
  | gaveUp _ hexhausted => cases hexhausted.symm.trans hallowed
  | filled hx => exact ⟨congrArg (fun c => [c]) hx.capacity_eq, _, rfl⟩
  | refused hx hrefused => exact absurd hrefused (hfits hx).not_isRefused
  | larger hx hasks => exact absurd hasks (hfits hx).not_asks

/-- A call that reports the size that it needs gets it with its second buffer, if not before. -/
theorem capacities_of_size (hw : call.Wants n short) (hsize : short.toSize = n)
    (hn : n ≤ 0x4000000000000000) (hneeded : needed ≤ Buffer.maxAllocation)
    (hunlimited : p.maxAttempts = none) (h : p.Proceeds call [] needed log o) :
    log.map Lending.capacity =
        (if n ≤ needed then [needed] else [needed, max (max 1 (2 * needed)) n]) ∧
      ∃ bytes, o = .filled bytes := by
  have hallowed : ∀ tried, p.exhaustedAfter tried = false := fun _ =>
    exhaustedAfter_of_unlimited hunlimited
  split
  · next hle => exact hw.capacities_of_le hneeded (hallowed _) hle h
  · next hlt =>
    have hnot : ∀ {x}, p.Lent call [] needed x → x.Asks := fun hx =>
      (hw.asks_iff (.inr hsize) hx).mpr (hx.capacity_eq.symm ▸ Nat.not_le.mp hlt)
    cases h with
    | overflow hmax => exact absurd hneeded (Nat.not_le.mpr hmax)
    | gaveUp _ hexhausted => cases hexhausted.symm.trans (hallowed _)
    | filled hx hfits => exact absurd (hnot hx) hfits.not_asks
    | refused hx hrefused => exact absurd (hnot hx) hrefused.not_asks
    | @larger _ _ x log _ hx hasks hrest =>
      have hstatus := hw.status_eq hx (hx.capacity_eq.symm ▸ Nat.not_le.mp hlt)
      have hnext : x.next = max (max 1 (2 * needed)) n := by
        rw [Lending.next, hstatus, hsize, hx.capacity_eq]
      rw [← hnext, List.map_cons, hx.capacity_eq]
      obtain ⟨hlog, ho⟩ := hw.capacities_of_le (hw.next_le (.inr hsize) hn hx hasks) (hallowed _)
        (hnext ▸ Nat.le_max_right ..) hrest
      exact ⟨congrArg (needed :: ·) hlog, ho⟩

end BufferCall.Wants

namespace GrowRetry

/-- **Growing finds a buffer that is large enough.** A call that needs `n` bytes and says only that
its buffer is too small is lent one doubling after the other. Without a limit the run delivers, with
the first buffer if it is large enough and otherwise with less than twice as many bytes as needed;
with a limit it delivers exactly if the last doubling allowed is large enough, and is given up after
as many calls as allowed if not. A call that says how many bytes it needs is made twice at most. -/
theorem grows_enough {n : Nat} (hn : n ≤ 0x4000000000000000) (p : GrowRetry)
    (hinitial : p.initialSize ≤ Buffer.maxAllocation) (call : BufferCall σ) (m : BufferMeters)
    (s : σ) :
    (call.Wants n .outOfRange →
      (p.run call m s).capacities =
        (List.range (p.lendings call m s).length).map (doubling p.initialSize) ∧
      (p.maxAttempts = none →
        (∃ bytes, (p.run call m s).outcome = .filled bytes) ∧
        ∃ c, (p.run call m s).capacities.getLast? = some c ∧
          (n ≤ p.initialSize → c = p.initialSize) ∧
          (p.initialSize < n → n ≤ c ∧ c < 2 * n)) ∧
      ∀ k, p.maxAttempts = some k →
        ((∃ bytes, (p.run call m s).outcome = .filled bytes) ↔
          1 ≤ k ∧ n ≤ doubling p.initialSize (k - 1)) ∧
        (¬ (1 ≤ k ∧ n ≤ doubling p.initialSize (k - 1)) →
          (p.run call m s).outcome.isExhausted = true ∧ (p.lendings call m s).length = k)) ∧
    (n < 0x80000000 → call.Wants n (.ofSize n) → p.maxAttempts = none →
      (∃ bytes, (p.run call m s).outcome = .filled bytes) ∧
      (p.run call m s).capacities =
        if n ≤ p.initialSize then [p.initialSize]
        else [p.initialSize, max (max 1 (2 * p.initialSize)) n]) := by
  have hproceeds := proceeds_run p call m s
  rw [capacities_run]
  refine ⟨fun hw => ?doubling, fun hsmall hw hunlimited => ?size⟩
  case size =>
    have hsize := Status.toSize_ofSize hsmall
    exact (hw.capacities_of_size hsize hn hinitial hunlimited hproceeds).symm
  case doubling =>
    exact ⟨(hw.doubles hn hinitial hproceeds).1,
      fun hunlimited => hw.finds hn hinitial hunlimited hproceeds,
      fun k hk => hw.limited hn hinitial hk hproceeds⟩

end GrowRetry

namespace Sample

/-- Is content with `n` bytes, and fills them all; answers `short` to a smaller buffer. -/
def needing (n : Nat) (short : Status) : BufferCall Unit := fun b s =>
  (if b.capacity < n then { status := short } else ⟨.ofSize n, Bytes.zeros n⟩, s)

theorem wants_needing {n : Nat} (hn : n < 0x80000000) (short : Status) :
    (needing n short).Wants n short where
  short b s hlt := by rw [needing, if_pos hlt]
  enough b s hle := by
    rw [needing, if_neg (Nat.not_lt.mpr hle)]
    exact ⟨Status.isError_ofSize hn, Nat.le_of_eq (Status.toSize_ofSize hn)⟩

end Sample

/-- Five bytes are delivered with a buffer of eight, which is the fifth, so that four calls do not
do. Three hundred bytes that are asked for are lent at once. -/
theorem GrowRetry.grows_enough_five_bytes :
    (Sample.needing 5 .outOfRange).Wants 5 .outOfRange ∧
      ((Sample.fromZero none).run (Sample.needing 5 .outOfRange) {} ()).capacities =
        [0, 1, 2, 4, 8] ∧
      (∃ bytes, ((Sample.fromZero none).run (Sample.needing 5 .outOfRange) {} ()).outcome =
        .filled bytes) ∧
      (∃ bytes, ((Sample.fromZero (some 5)).run (Sample.needing 5 .outOfRange) {} ()).outcome =
        .filled bytes) ∧
      ((Sample.fromZero (some 4)).run (Sample.needing 5 .outOfRange) {} ()).outcome.isExhausted =
        true ∧
      ((Sample.fromZero (some 4)).lendings (Sample.needing 5 .outOfRange) {} ()).length = 4 ∧
      (Sample.needing 300 (.ofSize 300)).Wants 300 (.ofSize 300) ∧
      ((Sample.fromZero none).run (Sample.needing 300 (.ofSize 300)) {} ()).capacities =
        [0, 300] := by
  have hwants : (Sample.needing 5 .outOfRange).Wants 5 .outOfRange :=
    Sample.wants_needing (by decide) _
  have hasks : (Sample.needing 300 (.ofSize 300)).Wants 300 (.ofSize 300) :=
    Sample.wants_needing (by decide) _
  have hinitial : ∀ limit, (Sample.fromZero limit).initialSize ≤ Buffer.maxAllocation :=
    fun _ => Nat.zero_le _
  have hfive := fun limit =>
    (GrowRetry.grows_enough (n := 5) (by decide) (Sample.fromZero limit) (hinitial limit)
      (Sample.needing 5 .outOfRange) {} ()).1 hwants
  have hhundreds :=
    (GrowRetry.grows_enough (n := 300) (by decide) (Sample.fromZero none) (hinitial none)
      (Sample.needing 300 (.ofSize 300)) {} ()).2 (by decide) hasks rfl
  obtain ⟨hexhausted, hfour⟩ := ((hfive (some 4)).2.2 4 rfl).2 (by decide)
  exact ⟨hwants, by decide +kernel, ((hfive none).2.1 rfl).1, ((hfive (some 5)).2.2 5 rfl).1.mpr
    (by decide), hexhausted, hfour, hasks, hhundreds.2⟩

end Milepost
