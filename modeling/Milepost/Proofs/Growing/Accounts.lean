import Mathlib.Algebra.Ring.Nat
import Milepost.Proofs.Growing.Lendings

/-!
# What a run counts

The meters of buffers count at the head of every attempt, and once more when a run is given up.
Whatever the call answers, they have then counted the bytes of the buffers that were lent, the calls
after the first, and whether the run was given up.

* `GrowRetry.counted_attempt`: what any part of a run counts.
* `GrowRetry.accounted`: what a run counts, and when it is given up.
-/

namespace Milepost

variable {σ : Type}

/-- The counter counted `n` more, and shows it as long as it is exact. -/
def Counter.Gains (before after : Counter) (n : Nat) : Prop :=
  after.total = before.total + n ∧
    (after.total < exactLimit → after.value = before.value + n)

theorem Counter.Gains.of_total {before after : Counter} {n : Nat}
    (h : after.total = before.total + n) : before.Gains after n := by
  refine ⟨h, fun hlt => ?_⟩
  rw [value_of_small hlt, value_of_small (by omega), h]

namespace GrowRetry

variable {p : GrowRetry} {call : BufferCall σ} {tried : List Nat} {needed capacity : Nat}
  {m : BufferMeters} {s : σ} {log : List Lending} {o : Outcome}

/-- Whether the call was repeated too often. -/
def Outcome.isExhausted : Outcome → Bool
  | .failed e => e.kind == .bufferExhausted
  | _ => false

/-! ## What an attempt counts -/

/-- Between two points of a run the meters counted what was lent: `tried` are the capacities of all
buffers lent up to the first point, `all` up to the second; `givenUp` is how often the run was given
up in between. -/
structure Counted (tried all : List Nat) (givenUp : Nat) (m m' : BufferMeters) : Prop where
  allocated : m'.allocated.total + tried.sum = m.allocated.total + all.sum
  retries : m'.retries.total + (tried.length - 1) = m.retries.total + (all.length - 1)
  exhausted : m'.exhausted.total = m.exhausted.total + givenUp

namespace Counted

variable {all between : List Nat} {givenUp : Nat} {m' m'' : BufferMeters}

theorem refl : Counted tried tried 0 m m := ⟨rfl, rfl, rfl⟩

theorem trans (h : Counted tried between 0 m m') (h' : Counted between all givenUp m' m'') :
    Counted tried all givenUp m m'' where
  allocated := by have := h.allocated; have := h'.allocated; omega
  retries := by have := h.retries; have := h'.retries; omega
  exhausted := by have := h.exhausted; have := h'.exhausted; omega

/-- One more call is counted, as a repetition if it is not the first. -/
theorem countLent : Counted tried (tried ++ [capacity]) 0 m (countLent tried capacity m) := by
  have hsum : (tried ++ [capacity]).sum = tried.sum + capacity := by simp
  have hlength : (tried ++ [capacity]).length = tried.length + 1 := List.length_append
  cases tried with
  | nil =>
    have hallocated : (GrowRetry.countLent [] capacity m).allocated.total =
        m.allocated.total + capacity := rfl
    exact ⟨by rw [hsum, hallocated]; omega, rfl, rfl⟩
  | cons first rest =>
    have hallocated : (GrowRetry.countLent (first :: rest) capacity m).allocated.total =
        m.allocated.total + capacity := rfl
    have hretries : (GrowRetry.countLent (first :: rest) capacity m).retries.total =
        m.retries.total + 1 := rfl
    exact ⟨by rw [hsum, hallocated]; omega,
      by rw [hlength, hretries, List.length_cons]; omega, rfl⟩

end Counted

/-- **What is counted from an attempt on** are the bytes of the buffers lent from then on, the calls
from then on that are not the first, and whether the run was given up. -/
theorem counted_attempt (p : GrowRetry) (call : BufferCall σ) (tried : List Nat) (needed : Nat)
    (m : BufferMeters) (s : σ) :
    Counted tried (p.attempt call tried needed m s).capacities
      (p.attempt call tried needed m s).outcome.isExhausted.toNat m
      (p.attempt call tried needed m s).meters := by
  fun_induction attempt p call tried needed m s with
  | case1 => exact .refl
  | case2 => exact ⟨rfl, rfl, rfl⟩
  | case3 => exact .countLent
  | case4 tried needed m s b hb hallowed m' answer tried' e hv =>
    obtain ⟨-, rfl⟩ := verdict_eq_failed_iff.mp hv
    exact .countLent
  | case5 tried needed m s b hb hallowed m' answer tried' c hv ih =>
    exact Counted.countLent.trans ih

/-! ## What a run counts -/

/-- A run that does not fail for want of memory was given up exactly if as many calls were made as
allowed and all of them asked for more. -/
theorem Ends.isExhausted_iff (h : p.Ends [] needed log o) (ho : o ≠ .overflow)
    (hle : ∀ k, p.maxAttempts = some k → log.length ≤ k) :
    o.isExhausted = true ↔ p.maxAttempts = some log.length ∧ ∀ x ∈ log, x.Asks := by
  cases h with
  | overflow => exact absurd rfl ho
  | filled _ _ hx | refused _ _ hx =>
    refine iff_of_false nofun fun ⟨_, hasks⟩ => hx.not_asks (hasks _ ?_)
    exact List.mem_append_right _ List.mem_cons_self
  | gaveUp hasked hall hexhausted =>
    refine iff_of_true rfl ⟨?_, hasked⟩
    obtain ⟨k, hk, hlength⟩ := exhaustedAfter_iff.mp hexhausted
    rw [hall, List.nil_append, List.length_map] at hlength
    rw [hk, Nat.le_antisymm hlength (hle k hk)]

/-- **What a run counts.** Unless a buffer would have been larger than a buffer may be, the meters
count the bytes of all buffers that the call was lent, its repetitions, and whether the run was
given up. The call is made at most as often as allowed. The run is given up exactly if it was made
as often as allowed and asked for more each time: not if the last answer allowed fits, nor if it is
a refusal. -/
theorem accounted (p : GrowRetry) (call : BufferCall σ) (m : BufferMeters) (s : σ)
    (hover : (p.run call m s).outcome ≠ .overflow) :
    m.allocated.Gains (p.run call m s).meters.allocated
      ((p.lendings call m s).map Lending.capacity).sum ∧
    m.retries.Gains (p.run call m s).meters.retries ((p.lendings call m s).length - 1) ∧
    m.exhausted.Gains (p.run call m s).meters.exhausted
      (if (p.run call m s).outcome.isExhausted then 1 else 0) ∧
    (∀ k, p.maxAttempts = some k → (p.lendings call m s).length ≤ k) ∧
    ((p.run call m s).outcome.isExhausted = true ↔
      p.maxAttempts = some (p.lendings call m s).length ∧
        ∀ x ∈ p.lendings call m s, x.Asks) ∧
    ∀ x ∈ p.lendings call m s, x.Fits ∨ x.IsRefused →
      (p.run call m s).outcome.isExhausted = false := by
  have hproceeds := proceeds_run p call m s
  have hcounted := counted_attempt p call [] p.initialSize m s
  rw [← run_eq_attempt, capacities_run] at hcounted
  have hallowed : ∀ k, p.maxAttempts = some k → (p.lendings call m s).length ≤ k := by
    intro k hk
    have hle := hproceeds.length_le hk (Nat.zero_le k)
    rwa [List.length_nil, Nat.zero_add] at hle
  have hgivenUp := hproceeds.ends.isExhausted_iff hover hallowed
  refine ⟨.of_total hcounted.allocated, .of_total ?_, .of_total ?_, hallowed, hgivenUp, ?_⟩
  · have hretries := hcounted.retries
    rwa [List.length_map] at hretries
  · rw [hcounted.exhausted]
    cases (p.run call m s).outcome.isExhausted <;> rfl
  · intro x hx hends
    refine Bool.eq_false_iff.mpr fun hexhausted => ?_
    have hasks := (hgivenUp.mp hexhausted).2 x hx
    exact hends.elim (·.not_asks hasks) (·.not_asks hasks)

end GrowRetry

namespace Sample

/-- Asks for more each time. -/
def insatiable : List BufferReply := .replicate 3 { status := .outOfRange }

/-- Begins with one byte and gives up after three calls. -/
def threeCalls : GrowRetry := { initialSize := 1, maxAttempts := some 3 }

end Sample

/-- Three calls were lent one, two and four bytes, and no fourth was made. -/
theorem GrowRetry.accounted_three_calls :
    (Sample.threeCalls.run Sample.replying {} Sample.insatiable).outcome ≠ .overflow ∧
      (Sample.threeCalls.run Sample.replying {} Sample.insatiable).meters.allocated.value = 7 ∧
      (Sample.threeCalls.run Sample.replying {} Sample.insatiable).meters.retries.value = 2 ∧
      (Sample.threeCalls.run Sample.replying {} Sample.insatiable).meters.exhausted.value = 1 ∧
      (Sample.threeCalls.run Sample.replying {} Sample.insatiable).outcome.isExhausted = true := by
  have hover : (Sample.threeCalls.run Sample.replying {} Sample.insatiable).outcome ≠
      .overflow := by decide +kernel
  have hlent : (Sample.threeCalls.lendings Sample.replying {} Sample.insatiable).map
      Lending.capacity = [1, 2, 4] := by decide +kernel
  have hlength : (Sample.threeCalls.lendings Sample.replying {} Sample.insatiable).length = 3 := by
    rw [← List.length_map Lending.capacity, hlent]
    rfl
  have hasks : ∀ x ∈ Sample.threeCalls.lendings Sample.replying {} Sample.insatiable,
      x.status = .outOfRange := by decide +kernel
  obtain ⟨hallocated, hretries, hexhausted, -, hgivenUp, -⟩ :=
    GrowRetry.accounted Sample.threeCalls Sample.replying {} Sample.insatiable hover
  have hout := hgivenUp.mpr ⟨by rw [hlength]; rfl, fun x hx => .inl (hasks x hx)⟩
  rw [hlent] at hallocated
  rw [hlength] at hretries
  rw [hout] at hexhausted
  exact ⟨hover, hallocated.2 (by rw [hallocated.1]; decide),
    hretries.2 (by rw [hretries.1]; decide), hexhausted.2 (by rw [hexhausted.1]; decide), hout⟩

end Milepost
