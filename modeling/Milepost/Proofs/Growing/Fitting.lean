import Mathlib.Data.Nat.Find
import Mathlib.Order.WellFounded
import Milepost.Proofs.Growing.Doubling

/-!
# Calls that deliver what fits

A call that says only that its buffer is too small is repeated with doubled buffers, until the data
fit. A client that makes such a call gets the data, and was lent no more buffers than it takes to
get there; if the call is refused for another reason, that is the end of it.

* `BufferCall.DeliversFrom`: from which capacity on a call delivers its data.
* `GrowRetry.exists_doubling`: some doubling is large enough, and a first one.
* `World.lend_of_deliversFrom`, `World.lend_of_refused`: what a client gets, and what was lent.
-/

namespace Milepost

variable {σ : Type}

/-- In the state, the call puts the data at the front of a buffer of `n` bytes or more. To a smaller
one it says only that it is too small. The state stays as it is. -/
structure BufferCall.DeliversFrom (call : BufferCall σ) (n : Nat) (data : ByteArray) (s : σ) :
    Prop where
  short : ∀ b, b.capacity < n → call b s = ({ status := .outOfRange }, s)
  enough : ∀ b, n ≤ b.capacity → ∃ more : ByteArray, (data ++ more).size ≤ n ∧
    call b s = ({ status := .ofSize data.size, written := data ++ more }, s)

/-- What was filled into a buffer first is read back from its front, if all of it fits. -/
theorem Buffer.materialize_fill_append {b : Buffer} {data more : ByteArray}
    (h : (data ++ more).size ≤ b.capacity) :
    (b.fill (data ++ more)).materialize data.size = data := by
  rw [materialize, fill, Bytes.front_of_size_le h, Bytes.writeAt_zero, ByteArray.append_assoc,
    Bytes.front_append]

namespace GrowRetry

variable {p : GrowRetry} {call : BufferCall σ} {data : ByteArray} {status : Status} {s : σ}
  {n c i : Nat} {tried : List Nat} {m : BufferMeters}

/-! ## The first doubling that is large enough -/

theorem doubling_eq (hc : 0 < c) : doubling c i = c * 2 ^ i := by
  induction i with
  | zero => exact (Nat.mul_one c).symm
  | succ i ih =>
    have hpos : 0 < c * 2 ^ i := Nat.mul_pos hc (Nat.two_pow_pos i)
    rw [doubling_succ, ih, Nat.pow_succ', Nat.mul_left_comm c 2]
    omega

theorem doubling_next : doubling (max 1 (2 * c)) i = doubling c (i + 1) :=
  (Function.iterate_succ_apply ..).symm

theorem exists_doubling (c n : Nat) :
    ∃ j, (∀ i < j, doubling c i < n) ∧ n ≤ doubling c j := by
  have h : ∃ j, n ≤ doubling c j := ⟨n, (strictMono_doubling c).le_apply⟩
  exact ⟨Nat.find h, fun i hi => Nat.not_le.mp (Nat.find_min h hi), Nat.find_spec h⟩

/-- The capacities are those of doubling `c`, up to the first that has `n` bytes. -/
def DoublesTo (c n : Nat) (capacities : List Nat) : Prop :=
  ∃ j, capacities = (List.range (j + 1)).map (c * 2 ^ ·) ∧
    (∀ i < j, c * 2 ^ i < n) ∧ n ≤ c * 2 ^ j

/-! ## Runs of such calls -/

/-- **A call that delivers its data from `n` bytes on is lent doublings up to the first with as
many.** -/
theorem attempt_of_deliversFrom (hcall : call.DeliversFrom n data s)
    (hsize : data.size < 0x80000000) (hn : n ≤ 0x4000000000000000)
    (hunlimited : p.maxAttempts = none) (tried : List Nat) (m : BufferMeters) {j : Nat}
    (hc : c ≤ Buffer.maxAllocation) (hbefore : ∀ i < j, doubling c i < n)
    (hj : n ≤ doubling c j) :
    ∃ m', p.attempt call tried c m s =
      ⟨.filled data, tried ++ (List.range (j + 1)).map (doubling c), m', s⟩ := by
  have hcapacity : ∀ c, (Buffer.mk (Bytes.zeros c)).capacity = c := Bytes.size_zeros
  induction j generalizing c tried m with
  | zero =>
    obtain ⟨more, hfits, henough⟩ := hcall.enough ⟨Bytes.zeros c⟩ ((hcapacity c).symm ▸ hj)
    have hle : (data ++ more).size ≤ c := Nat.le_trans hfits hj
    have hverdict : verdict ⟨Bytes.zeros c⟩
        { status := .ofSize data.size, written := data ++ more } = .filled data := by
      rw [verdict_eq_filled_iff, Status.toSize_ofSize hsize, hcapacity,
        Buffer.materialize_fill_append ((hcapacity c).symm ▸ hle)]
      rw [ByteArray.size_append] at hle
      exact ⟨⟨Status.isError_ofSize hsize, by omega⟩, rfl⟩
    rw [attempt_eq (allocate?_of_le hc) (exhaustedAfter_of_unlimited hunlimited), henough]
    simp only [hverdict]
    exact ⟨_, rfl⟩
  | succ j ih =>
    have hlt : c < n := hbefore 0 (Nat.succ_pos j)
    have hverdict : verdict ⟨Bytes.zeros c⟩ { status := .outOfRange } =
        .larger (max 1 (2 * c)) := by
      rw [verdict, if_pos rfl, hcapacity, Buffer.doubled_of_le hc]
    have hnext : max 1 (2 * c) ≤ Buffer.maxAllocation := by
      rw [Buffer.maxAllocation]
      omega
    obtain ⟨m', hrest⟩ := ih (tried ++ [c]) (countLent tried c m) hnext
      (fun i hi => doubling_next ▸ hbefore (i + 1) (Nat.succ_lt_succ hi)) (doubling_next ▸ hj)
    have htail : doubling (max 1 (2 * c)) = doubling c ∘ Nat.succ := funext fun i => doubling_next
    refine ⟨m', ?_⟩
    rw [attempt_eq (allocate?_of_le hc) (exhaustedAfter_of_unlimited hunlimited),
      hcall.short _ ((hcapacity c).symm ▸ hlt)]
    simp only [hverdict]
    rw [hrest, htail, List.append_assoc, List.range_succ_eq_map (n := j + 1), List.map_cons,
      List.map_map]
    rfl

/-- A call that is refused, other than for the size of its buffer, is not repeated. -/
theorem attempt_of_refused (hcall : ∀ b, call b s = ({ status }, s))
    (herror : status.isError = true) (hrange : status ≠ .outOfRange)
    (hallowed : p.exhaustedAfter tried = false) (hc : c ≤ Buffer.maxAllocation) :
    p.attempt call tried c m s =
      ⟨.failed (.ofStatus .other status), tried ++ [c], countLent tried c m, s⟩ := by
  have hverdict : verdict ⟨Bytes.zeros c⟩ { status } = .failed (.ofStatus .other status) :=
    verdict_eq_failed_iff.mpr ⟨⟨herror, hrange⟩, rfl⟩
  rw [attempt_eq (allocate?_of_le hc) hallowed, hcall]
  simp only [hverdict]

end GrowRetry

/-! ## Calls of a client -/

namespace World

variable {β : Type} {w : World β} {initialSize n : Nat} {call : BufferCall β}
  {data : ByteArray} {status : Status}

/-- The run that lends the call its buffers when a client makes it. -/
def lendRun (w : World β) (account : AccountId) (initialSize : Nat) (call : BufferCall β) :
    GrowRetry.Run β :=
  GrowRetry.run { initialSize } call (w.getMeters account).buffers w.backend

theorem fst_lend (account : AccountId) : (w.lend account initialSize call).1 =
    match (w.lendRun account initialSize call).outcome with
    | .filled bytes => .ok bytes
    | .failed e => .error (.failed e)
    | .overflow => .error .overflow := by
  rw [lend, lendRun, GrowRetry.deliver]
  dsimp only
  split <;> simp_all only

/-- **A client gets the data that a call delivers when they fit,** with the first doubling that is
large enough. -/
theorem lend_of_deliversFrom (hcall : call.DeliversFrom n data w.backend)
    (hsize : data.size < 0x80000000) (hn : n ≤ 0x4000000000000000) (account : AccountId)
    (hpos : 0 < initialSize) (hinitial : initialSize ≤ Buffer.maxAllocation) :
    (w.lend account initialSize call).1 = .ok data ∧
      GrowRetry.DoublesTo initialSize n (w.lendRun account initialSize call).capacities := by
  obtain ⟨j, hbefore, hj⟩ := GrowRetry.exists_doubling initialSize n
  obtain ⟨m', hrun⟩ := GrowRetry.attempt_of_deliversFrom (p := { initialSize }) hcall hsize hn rfl
    [] (w.getMeters account).buffers hinitial hbefore hj
  have hlend : w.lendRun account initialSize call = _ := hrun
  rw [fst_lend, hlend]
  refine ⟨rfl, j, ?_, ?_, ?_⟩
  · exact List.map_congr_left fun i _ => GrowRetry.doubling_eq hpos
  · intro i hi
    exact GrowRetry.doubling_eq hpos ▸ hbefore i hi
  · exact GrowRetry.doubling_eq hpos ▸ hj

/-- A client whose call is refused is told so at once. -/
theorem lend_of_refused (hcall : ∀ b, call b w.backend = ({ status }, w.backend))
    (herror : status.isError = true) (hrange : status ≠ .outOfRange) (account : AccountId)
    (hinitial : initialSize ≤ Buffer.maxAllocation) :
    (w.lend account initialSize call).1 = .error (.failed (.ofStatus .other status)) ∧
      (w.lendRun account initialSize call).capacities = [initialSize] := by
  have hlend : w.lendRun account initialSize call = _ :=
    GrowRetry.attempt_of_refused (p := { initialSize }) hcall herror hrange rfl hinitial
  rw [fst_lend, hlend]
  exact ⟨rfl, rfl⟩

end World

end Milepost
