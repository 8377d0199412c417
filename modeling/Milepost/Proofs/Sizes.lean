import Milepost.Proofs.Session

/-!
# Sizes of objects

An object may have `Object.maxSize` bytes. A write at an offset and an append are refused when the
object would have more. A write of a whole object is never asked how much it writes, and only by
such a write an object gets larger than it may be.

* `Session.bounded_or_oversized`: an object that is too large comes from such a write.
* `Session.bounded`: what holds as long as there is none.
-/

namespace Milepost

/-- How many bytes an object of so many bytes has after an edit. -/
def Edit.sizeAfter (old : Nat) : Edit → Nat
  | write data offset => max old (offset + data.size)
  | writeFull data => data.size
  | append data => old + data.size
  | remove => 0

/-- No object is larger than an object may be. -/
def Store.Bounded (s : Store) : Prop :=
  ∀ (key : ObjectKey) (o : Object), s.objects[key]? = some o → o.data.size ≤ Object.maxSize

/-- How many bytes are written as a whole object. -/
def Access.wholeSize : Access → Nat
  | edit _ (.writeFull data) => data.size
  | _ => 0

/-- An object was written as a whole that is larger than an object may be. -/
def Turn.Oversized (x : Turn) : Prop := x.answer = 0 ∧ Object.maxSize < x.access.wholeSize

instance : DecidablePred Turn.Oversized := fun x =>
  inferInstanceAs (Decidable (x.answer = 0 ∧ Object.maxSize < x.access.wholeSize))

namespace Store

variable {s : Store} {key : ObjectKey} {o : Object} {now : Int}

theorem Bounded.ofPools (names : List String) : (Store.ofPools names).Bounded := by
  intro key o ho
  rw [objects_ofPools, Std.ExtTreeMap.getElem?_empty] at ho
  cases ho

theorem Bounded.objectOrNew (h : s.Bounded) : (s.objectOrNew key).data.size ≤ Object.maxSize := by
  rcases s.objectOrNew_cases key with hold | hnew
  · exact h key _ hold
  · rw [hnew]
    exact Nat.zero_le _

/-- An access leaves no object too large, unless it is an oversized turn. -/
theorem Bounded.run_or_oversized (h : s.Bounded) {x : Turn}
    (hx : x.answer = (x.access.run now s).1) : x.Oversized ∨ (x.access.run now s).2.Bounded := by
  by_cases hover : x.Oversized
  · exact .inl hover
  · refine .inr fun key o ho => ?_
    rcases Access.size_of_run ho with ⟨old, hold, hsize⟩ | hle | ⟨data, haccess, hzero, hsize⟩
    · rw [hsize]
      exact h key old hold
    · exact hle
    · refine Nat.le_of_not_lt fun hlt => hover ⟨hx.trans hzero, ?_⟩
      rwa [haccess, Access.wholeSize, ← hsize]

/-- **An edit of a part of an object is refused if the object would get too large.** -/
theorem Bounded.edit_eq_tooBig (h : s.Bounded) (hp : s.hasPool key.1 = true) {e : Edit}
    (he : ∀ data, e ≠ .writeFull data)
    (hsize : Object.maxSize < e.sizeAfter (s.objectOrNew key).data.size) :
    s.edit now key e = (.tooBig, s) := by
  have hold : (s.objectOrNew key).data.size ≤ Object.maxSize := h.objectOrNew
  rw [edit_of_hasPool hp]
  cases e with
  | write data offset =>
    have hend : ¬ offset + data.size ≤ Object.maxSize := by
      rw [Edit.sizeAfter] at hsize
      omega
    rw [editObject, write, Object.writeEnd?, if_neg hend]
  | append data =>
    have hend : ¬ (s.objectOrNew key).data.size + data.size ≤ Object.maxSize :=
      Nat.not_le.mpr hsize
    rw [editObject, write, Object.writeEnd?, if_neg hend]
  | writeFull data => exact absurd rfl (he data)
  | remove => exact absurd hsize (Nat.not_lt_zero _)

/-- **A read answers how many bytes it copied.** -/
theorem Bounded.toInt_read (h : s.Bounded) {offset : Nat} {buffer : SharedBuffer}
    (ho : s.find key = .ok o) (hb : buffer.poisoned = false) :
    (s.readAnswer key offset buffer).toInt = (o.slice offset buffer.content.capacity).size := by
  have hle : o.data.size < 0x80000000 :=
    Nat.lt_of_le_of_lt (h key o (getElem?_of_find ho)) (by decide)
  rw [readAnswer, ho]
  simp only [SharedBuffer.capacity_of_not_poisoned hb]
  exact Int32.toInt_ofNat_of_lt (o.size_slice_lt hle)

end Store

namespace Session

variable {config : InMemoryConfig} {turns : List Turn} {s : InMemory × Shelf}

/-- **An object that is too large comes from a write of the whole object.** -/
theorem bounded_or_oversized (hs : Session config turns s) :
    (∃ x ∈ turns, x.Oversized) ∨ s.1.store.Bounded := by
  refine hs.preserved (P := fun turns store => (∃ x ∈ turns, x.Oversized) ∨ store.Bounded)
    (.inr (.ofPools config.pools)) ?_
  intro turns store now x h hx
  rcases h with ⟨y, hy, hover⟩ | hbounded
  · exact .inl ⟨y, List.mem_append_left _ hy, hover⟩
  · refine (hbounded.run_or_oversized hx).imp_left fun hover => ⟨x, ?_, hover⟩
    exact List.mem_append_right _ List.mem_cons_self

/-- **Sizes in a session.** As long as nobody writes a whole object that is larger than an object
may be, no object is larger. Then a write at an offset or an append by which an object would get
larger is refused and leaves the store, and a read answers how many bytes it copies. -/
theorem bounded (hs : Session config turns s) (hsizes : ∀ x ∈ turns, ¬ x.Oversized) :
    s.1.store.Bounded ∧
    (∀ (now : Int) (key : ObjectKey) (e : Edit), s.1.store.hasPool key.1 = true →
      (∀ data, e ≠ .writeFull data) →
      Object.maxSize < e.sizeAfter (s.1.store.objectOrNew key).data.size →
        (Access.edit key e).run now s.1.store = (.tooBig, s.1.store)) ∧
    ∀ (now : Int) (key : ObjectKey) (offset : Nat) (buffer : SharedBuffer) (o : Object),
      s.1.store.find key = .ok o → buffer.poisoned = false →
        ((Access.read key offset buffer).run now s.1.store).1.toInt =
          (o.slice offset buffer.content.capacity).size := by
  have hbounded : s.1.store.Bounded :=
    hs.bounded_or_oversized.resolve_left fun ⟨x, hx, hover⟩ => hsizes x hx hover
  exact ⟨hbounded, fun now key e hp he hsize => hbounded.edit_eq_tooBig hp he hsize,
    fun now key offset buffer o ho hb => hbounded.toInt_read ho hb⟩

end Session

/-! ## Two sessions

A small object is written as a whole, and then one that is too large. -/

namespace Sample

/-- An object is written as a whole. -/
def filling (data : ByteArray) : List Use :=
  [.createCompletion, .issue 1 "object" 0 (.edit (.writeFull data)), .work]

theorem isSome_replay_filling :
    (Use.replay [] (.ofConfig config, {}) (filling ⟨#[1, 2, 3]⟩)).isSome = true := by
  decide +kernel

/-- The turns and the state after three bytes were written. -/
@[irreducible]
def filled : List Turn × InMemory × Shelf :=
  (Use.replay [] (.ofConfig config, {}) (filling ⟨#[1, 2, 3]⟩)).get isSome_replay_filling

theorem isSession_filled : Session config filled.1 filled.2 := by
  unfold filled
  exact Session.replay_get isSome_replay_filling

def oversized : ByteArray := Bytes.zeros (Object.maxSize + 1)

theorem isSome_replay_flooding :
    (Use.replay [] (.ofConfig config, {}) (filling oversized)).isSome = true := by
  decide +kernel

/-- The turns and the state after one byte too much was written. -/
@[irreducible]
def flooded : List Turn × InMemory × Shelf :=
  (Use.replay [] (.ofConfig config, {}) (filling oversized)).get isSome_replay_flooding

theorem isSession_flooded : Session config flooded.1 flooded.2 := by
  unfold flooded
  exact Session.replay_get isSome_replay_flooding

theorem data_flooded : flooded.2.1.objectData? (1, "object") = some oversized := by
  with_unfolding_all rfl

end Sample

namespace Session

theorem bounded_after_three_bytes :
    Session Sample.config Sample.filled.1 Sample.filled.2 ∧
      (∀ x ∈ Sample.filled.1, ¬ x.Oversized) ∧
      Sample.filled.2.1.store.Bounded ∧
      (Access.edit (1, "object") (.write ⟨#[7]⟩ Object.maxSize)).run 1 Sample.filled.2.1.store =
        (.tooBig, Sample.filled.2.1.store) := by
  have hsizes : ∀ x ∈ Sample.filled.1, ¬ x.Oversized := by decide +kernel
  obtain ⟨hbounded, hedit, -⟩ := bounded Sample.isSession_filled hsizes
  have hpool : Sample.filled.2.1.store.hasPool 1 = true := by decide +kernel
  refine ⟨Sample.isSession_filled, hsizes, hbounded, hedit 1 (1, "object") _ hpool nofun ?_⟩
  exact Nat.lt_of_lt_of_le (by decide) (Nat.le_max_right _ _)

/-- A write of a whole object that is too large is not refused. -/
theorem not_always_bounded :
    Session Sample.config Sample.flooded.1 Sample.flooded.2 ∧
      Sample.flooded.1.map (·.answer) = [0] ∧ ¬ Sample.flooded.2.1.store.Bounded := by
  have hanswers : Sample.flooded.1.map (·.answer) = [0] := by decide +kernel
  refine ⟨Sample.isSession_flooded, hanswers, fun hbounded => ?_⟩
  obtain ⟨o, ho, hdata⟩ := Option.map_eq_some_iff.mp Sample.data_flooded
  have hle := hbounded _ o ho
  rw [hdata, Sample.oversized, Bytes.size_zeros] at hle
  exact Nat.not_succ_le_self _ hle

end Session

end Milepost
