import Milepost.Cluster
import Milepost.Proofs.Contents

/-!
# Calls that report what they deliver

A call that reports the size of its data in any case, and delivers the data whenever they fit, is
repeated at most once: if the first buffer is too small, the second has the size that was reported.

* `GrowRetry.run_of_delivers`: such a call ends with its data.
* `World.lend_of_delivers`: and so a client gets them, the backend staying as it is.
* `World.backend_lend`: the backend stays as it is whenever every call of it leaves it so.
-/

namespace Milepost

/-- The call reports the size of the data and delivers them if they fit. -/
def BufferCall.Delivers {σ : Type} (call : BufferCall σ) (data : ByteArray) (s : σ) : Prop :=
  ∀ b, call b s =
    ({ status := .ofSize data.size, written := if data.size ≤ b.capacity then data else .empty }, s)

namespace GrowRetry

variable {σ : Type} {call : BufferCall σ} {data : ByteArray} {s : σ} {p : GrowRetry} {b : Buffer}
  {capacities : List Nat} {capacity : Nat} {m : BufferMeters}

/-- Data that fit are taken from the buffer. -/
theorem verdict_of_le (hsize : data.size < 0x80000000) (hle : data.size ≤ b.capacity) :
    verdict b { status := .ofSize data.size, written := data } = .filled data := by
  rw [verdict_eq_filled_iff, Status.toSize_ofSize hsize, Buffer.materialize_fill hle]
  exact ⟨⟨Status.isError_ofSize hsize, hle⟩, rfl⟩

/-- For data that do not fit the next buffer has at least their size. -/
theorem verdict_of_lt {written : ByteArray} (hsize : data.size < 0x80000000)
    (hlt : b.capacity < data.size) :
    verdict b { status := .ofSize data.size, written } =
      .larger (max (Buffer.doubled b.capacity) data.size) := by
  rw [verdict_eq_larger_iff, Status.toSize_ofSize hsize]
  exact ⟨.inr hlt, rfl⟩

/-- One attempt: what follows from the answer to the call. -/
theorem attempt_eq (hb : Buffer.allocate? capacity = some b)
    (hallowed : p.exhaustedAfter capacities = false) :
    p.attempt call capacities capacity m s =
      match verdict b (call b s).1 with
      | .filled bytes =>
        ⟨.filled bytes, capacities ++ [capacity], countLent capacities capacity m, (call b s).2⟩
      | .failed e =>
        ⟨.failed e, capacities ++ [capacity], countLent capacities capacity m, (call b s).2⟩
      | .larger c =>
        p.attempt call (capacities ++ [capacity]) c (countLent capacities capacity m)
          (call b s).2 := by
  rw [attempt]
  split
  · rename_i hnone
    cases hnone.symm.trans hb
  · rename_i b' hb'
    obtain rfl := Option.some.inj (hb'.symm.trans hb)
    rw [hallowed, if_neg Bool.false_ne_true]
    dsimp only
    split
    · rename_i hv
      rw [hv]
    · rename_i hv
      rw [hv]
    · rename_i hv
      rw [hv]

theorem allocate?_of_le (h : capacity ≤ Buffer.maxAllocation) :
    Buffer.allocate? capacity = some ⟨Bytes.zeros capacity⟩ := if_pos h

/-- A further call is allowed as long as there were fewer than the policy allows. -/
theorem exhaustedAfter_of_lt (h : ∀ k, p.maxAttempts = some k → capacities.length < k) :
    p.exhaustedAfter capacities = false := by
  rw [exhaustedAfter]
  cases hk : p.maxAttempts with
  | none => rfl
  | some k => exact decide_eq_false (Nat.not_le.mpr (h k hk))

theorem exhaustedAfter_of_unlimited (h : p.maxAttempts = none) :
    p.exhaustedAfter capacities = false :=
  exhaustedAfter_of_lt fun _ hk => nomatch h.symm.trans hk

/-- An attempt with a buffer that is large enough is the last. -/
theorem attempt_of_le (hcall : call.Delivers data s) (hsize : data.size < 0x80000000)
    (hallowed : p.exhaustedAfter capacities = false) (hmax : capacity ≤ Buffer.maxAllocation)
    (hle : data.size ≤ capacity) :
    p.attempt call capacities capacity m s =
      ⟨.filled data, capacities ++ [capacity], countLent capacities capacity m, s⟩ := by
  have hfits : data.size ≤ (Buffer.mk (Bytes.zeros capacity)).capacity := by
    rwa [Buffer.capacity, Bytes.size_zeros]
  rw [attempt_eq (allocate?_of_le hmax) hallowed, hcall]
  simp only [if_pos hfits, verdict_of_le hsize hfits]

/-- An attempt with a buffer that is too small is followed by one with a buffer of the size. -/
theorem attempt_of_lt (hcall : call.Delivers data s) (hsize : data.size < 0x80000000)
    (hallowed : p.exhaustedAfter capacities = false) (hlt : capacity < data.size) :
    p.attempt call capacities capacity m s =
      p.attempt call (capacities ++ [capacity]) (max (Buffer.doubled capacity) data.size)
        (countLent capacities capacity m) s := by
  have hmax : capacity ≤ Buffer.maxAllocation := by
    rw [Buffer.maxAllocation]
    omega
  have hcapacity : (Buffer.mk (Bytes.zeros capacity)).capacity = capacity := Bytes.size_zeros _
  rw [attempt_eq (allocate?_of_le hmax) hallowed, hcall]
  simp only [verdict_of_lt hsize (hcapacity ▸ hlt), hcapacity]

/-- **A call that delivers data ends with them.** One attempt is enough if the first buffer is, and
otherwise two. -/
theorem run_of_delivers (hcall : call.Delivers data s) (hsize : data.size < 0x80000000)
    (hattempts : ∀ k, p.maxAttempts = some k → 2 ≤ k)
    (hinitial : p.initialSize ≤ Buffer.maxAllocation) :
    (p.run call m s).outcome = .filled data ∧ (p.run call m s).state = s ∧
      (p.run call m s).capacities =
        if data.size ≤ p.initialSize then [p.initialSize]
        else [p.initialSize, max (max 1 (2 * p.initialSize)) data.size] := by
  have hfirst : p.exhaustedAfter [] = false :=
    exhaustedAfter_of_lt fun k hk => Nat.lt_of_lt_of_le Nat.two_pos (hattempts k hk)
  rw [run_eq_attempt]
  split
  · rename_i hle
    rw [attempt_of_le hcall hsize hfirst hinitial hle]
    exact ⟨rfl, rfl, rfl⟩
  · rename_i hlt
    have hsecond : p.exhaustedAfter [p.initialSize] = false :=
      exhaustedAfter_of_lt fun k hk => hattempts k hk
    have hmax : max (max 1 (2 * p.initialSize)) data.size ≤ Buffer.maxAllocation := by
      rw [Buffer.maxAllocation]
      omega
    rw [attempt_of_lt hcall hsize hfirst (Nat.not_le.mp hlt), Buffer.doubled_of_le hinitial,
      List.nil_append, attempt_of_le hcall hsize hsecond hmax (Nat.le_max_right ..)]
    exact ⟨rfl, rfl, rfl⟩

/-- A call that leaves the state leaves it however often it is made. -/
theorem state_attempt (hcall : ∀ b, (call b s).2 = s) :
    (p.attempt call capacities capacity m s).state = s := by
  fun_induction attempt p call capacities capacity m s with
  | case1 | case2 => rfl
  | case3 | case4 => exact hcall _
  | case5 _ _ _ s b _ _ _ answer _ _ _ ih =>
    have hstate : answer.2 = s := hcall b
    rw [ih (hstate.symm ▸ hcall), hstate]

end GrowRetry

/-- A call that leaves the backend leaves it also when a client makes it. -/
theorem World.backend_lend {β : Type} [ObjectBackend β] {w : World β} {account : AccountId}
    {initialSize : Nat} {call : BufferCall β} (hcall : ∀ b, (call b w.backend).2 = w.backend) :
    (w.lend account initialSize call).2.backend = w.backend := by
  have hstate : (GrowRetry.run { initialSize } call (w.getMeters account).buffers
      w.backend).state = w.backend := GrowRetry.state_attempt hcall
  unfold lend
  dsimp only
  split <;> exact hstate

/-- **A client gets the data that a call delivers.** -/
theorem World.lend_of_delivers {β : Type} [ObjectBackend β] {w : World β} {account : AccountId}
    {initialSize : Nat} {call : BufferCall β} {data : ByteArray}
    (hcall : call.Delivers data w.backend) (hsize : data.size < 0x80000000)
    (hinitial : initialSize ≤ Buffer.maxAllocation) :
    (w.lend account initialSize call).1 = .ok data ∧
      (w.lend account initialSize call).2.backend = w.backend := by
  obtain ⟨houtcome, hstate, -⟩ := GrowRetry.run_of_delivers (p := { initialSize })
    (m := (w.getMeters account).buffers) hcall hsize nofun hinitial
  constructor
  · simp only [lend, GrowRetry.deliver, houtcome]
  · simp only [lend, GrowRetry.deliver, houtcome, hstate, onMeters]

end Milepost
