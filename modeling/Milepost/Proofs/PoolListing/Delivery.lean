import Milepost.Proofs.PoolListing

/-!
# How the names of all pools are delivered

The list of names is delivered like any data of unknown size: whatever buffer it is lent, the
backend reports how many bytes the list has, and delivers them if they fit. So the first buffer is
enough if it is large enough, and otherwise the second is. Cut at the NULs, what was delivered
holds the names in the order of their bytes up to the first piece that is empty. The size of the
first buffer must be one that a buffer can have: with any other the run ends before the backend is
called.

* `InMemory.delivers_listPools`: the backend reports the size in any case.
* `InMemory.names_delivered`: which buffers it is lent, and what is found in the last.
* `InMemory.not_called_past_limit`: it is not called with a first buffer past the limit.
-/

namespace Milepost

namespace InMemory

variable {b : InMemory} {p : GrowRetry} {m : BufferMeters}

/-- Whatever buffer it is lent, the backend reports the size of the list. -/
theorem delivers_listPools (b : InMemory) :
    BufferCall.Delivers listPools (encodeNames b.store.poolNames) b := fun _ => rfl

/-- The pieces of the list up to the first that is empty are the bytes of the names, if none of the
names is empty or holds a NUL. -/
theorem takeWhile_splitAtNul_encodeNames {names : List String}
    (h : ∀ name ∈ names, name ≠ "" ∧ Text.hasNul name = false) :
    (Bytes.splitAtNul (encodeNames names).toList).takeWhile (!·.isEmpty) =
        names.map (·.toUTF8.toList) ∧
      decodeNames (encodeNames names).toList = .ok names := by
  have hnul : ∀ name ∈ names, Text.hasNul name = false := fun name hn => (h name hn).2
  have hall : names.takeWhile (· ≠ "") = names :=
    List.takeWhile_eq_self_iff.mpr fun name hn => decide_eq_true (h name hn).1
  constructor
  · rw [splitAtNul_encodeNames hnul, takeWhile_toUTF8, hall]
  · rw [decodeNames_encodeNames hnul, hall]

/-- **How the names of all pools are delivered.** No name is empty or holds a NUL, and a status can
report the size of the list. Whatever buffer the backend is lent, it reports that size. With a
first buffer of a size that a buffer can have and two calls allowed, it is called once if the list
fits, and otherwise twice. What is delivered, cut at the NULs up to the first empty piece, holds
exactly the names of the pools, in the order of their bytes and as text that can be read; and the
backend stays as it is. With a first buffer past the limit it is not called. -/
theorem names_delivered
    (hnames : ∀ (name : String) (pool : PoolId), b.store.pools[name]? = some pool →
      name ≠ "" ∧ Text.hasNul name = false)
    (hsize : (encodeNames b.store.poolNames).size < 0x80000000)
    (hattempts : ∀ k, p.maxAttempts = some k → 2 ≤ k) :
    (∀ buffer, (listPools buffer b).1.status.toInt = (encodeNames b.store.poolNames).size) ∧
    (p.initialSize ≤ Buffer.maxAllocation →
      (p.run listPools m b).capacities =
          (if (encodeNames b.store.poolNames).size ≤ p.initialSize then [p.initialSize]
          else [p.initialSize,
            max (max 1 (2 * p.initialSize)) (encodeNames b.store.poolNames).size]) ∧
        (p.run listPools m b).state = b ∧
        ∃ bytes names, (p.run listPools m b).outcome = .filled bytes ∧
          (Bytes.splitAtNul bytes.toList).takeWhile (!·.isEmpty) =
            names.map (·.toUTF8.toList) ∧
          decodeNames bytes.toList = .ok names ∧
          names.Pairwise (fun x y => x.toUTF8.toList < y.toUTF8.toList) ∧
          ∀ name, name ∈ names ↔ ∃ pool, b.store.pools[name]? = some pool) ∧
    (Buffer.maxAllocation < p.initialSize →
      p.run listPools m b = ⟨.overflow, [], m, b⟩) := by
  have hmem : ∀ name ∈ b.store.poolNames, name ≠ "" ∧ Text.hasNul name = false := by
    intro name hn
    obtain ⟨pool, hp⟩ := Store.mem_poolNames.mp hn
    exact hnames name pool hp
  refine ⟨fun buffer => ?_, fun hinitial => ?_, p.attempt_of_overflow listPools [] m b⟩
  · rw [delivers_listPools b buffer]
    exact Int32.toInt_ofNat_of_lt hsize
  · obtain ⟨houtcome, hstate, hcapacities⟩ := GrowRetry.run_of_delivers (m := m)
      (delivers_listPools b) hsize hattempts hinitial
    obtain ⟨hpieces, hdecoded⟩ := takeWhile_splitAtNul_encodeNames hmem
    exact ⟨hcapacities, hstate, _, _, houtcome, hpieces, hdecoded,
      b.store.pairwise_poolNames.imp Text.toUTF8_lt, fun _ => Store.mem_poolNames⟩

end InMemory

/-! ## Two pools

One of them has a name of characters that take three bytes each. -/

namespace Sample

def twoPools : InMemory := .ofConfig { pools := ["データ", "a"] }

theorem poolNames_twoPools : twoPools.store.poolNames = ["a", "データ"] := by decide +kernel

theorem readable_twoPools (name : String) (pool : PoolId)
    (h : twoPools.store.pools[name]? = some pool) : name ≠ "" ∧ Text.hasNul name = false := by
  have hmem : name ∈ twoPools.store.poolNames := Store.mem_poolNames.mpr ⟨pool, h⟩
  have hall : ∀ n ∈ ["a", "データ"], n ≠ "" ∧ Text.hasNul n = false := by decide +kernel
  rw [poolNames_twoPools] at hmem
  exact hall name hmem

end Sample

namespace InMemory

/-- The list does not fit into three bytes, and is delivered with the second buffer. -/
theorem names_delivered_of_two_pools :
    (∀ (name : String) (pool : PoolId), Sample.twoPools.store.pools[name]? = some pool →
      name ≠ "" ∧ Text.hasNul name = false) ∧
    (encodeNames Sample.twoPools.store.poolNames).size = 13 ∧
    (GrowRetry.run { initialSize := 3, maxAttempts := some 2 } listPools {}
      Sample.twoPools).capacities = [3, 13] ∧
    ∃ bytes names, (GrowRetry.run { initialSize := 3, maxAttempts := some 2 } listPools {}
        Sample.twoPools).outcome = .filled bytes ∧
      decodeNames bytes.toList = .ok names ∧ ∀ name, name ∈ names ↔ name = "a" ∨ name = "データ" := by
  have hsize : (encodeNames Sample.twoPools.store.poolNames).size = 13 := by decide +kernel
  obtain ⟨-, hrun, -⟩ := names_delivered (m := {})
    (p := { initialSize := 3, maxAttempts := some 2 }) Sample.readable_twoPools
    (by rw [hsize]; decide) fun _ hk => Nat.le_of_eq (Option.some.inj hk)
  obtain ⟨hcapacities, -, bytes, names, houtcome, -, hdecoded, -, hnames⟩ := hrun (by decide)
  rw [hsize] at hcapacities
  refine ⟨Sample.readable_twoPools, hsize, hcapacities, bytes, names, houtcome, hdecoded, ?_⟩
  intro name
  rw [hnames, ← Store.mem_poolNames, Sample.poolNames_twoPools]
  simp

/-- **With a first buffer past the limit the backend is not called.** The list would fit, but the
run ends without an attempt. -/
theorem not_called_past_limit :
    (∀ (name : String) (pool : PoolId), Sample.twoPools.store.pools[name]? = some pool →
      name ≠ "" ∧ Text.hasNul name = false) ∧
    (encodeNames Sample.twoPools.store.poolNames).size = 13 ∧ 13 ≤ 0x8000000000000000 ∧
    (GrowRetry.run { initialSize := 0x8000000000000000 } listPools {}
      Sample.twoPools).capacities.length ≠ 1 ∧
    GrowRetry.run { initialSize := 0x8000000000000000 } listPools {} Sample.twoPools =
      ⟨.overflow, [], {}, Sample.twoPools⟩ := by
  have hrun : GrowRetry.run { initialSize := 0x8000000000000000 } listPools {} Sample.twoPools =
      ⟨.overflow, [], {}, Sample.twoPools⟩ :=
    GrowRetry.attempt_of_overflow _ _ _ _ _ (by decide)
  refine ⟨Sample.readable_twoPools, by decide +kernel, by decide, ?_, hrun⟩
  rw [hrun]
  exact Nat.zero_ne_one

end InMemory

end Milepost
