import Milepost.Proofs.Agreement.Times
import Milepost.Proofs.Contents

/-!
# Writes of one object

Writes of one object, made one after the other, can be told by what they make of its bytes. Two
writes end to end are one write of all the data; writes that do not overlap can change places; a
write hides what was written before where it writes itself. All this holds wherever the writes are
made, inside the object, across its end or past it, where the gap is filled with zeros, and whether
there is an object already or not.

* `Bytes.writeAt_append`, `Bytes.writeAt_comm`, `Bytes.writeAt_hides`: the laws for byte strings.
* `Store.rewrites_editAll`: what accepted writes make of a store.
* `Store.write_laws`: the laws for objects.
-/

namespace Milepost

/-! ## Byte strings -/

namespace Bytes

variable {b data data' : ByteArray} {offset offset' : Nat}

/-- **Two writes end to end are one.** -/
theorem writeAt_append : writeAt (writeAt b offset data) (offset + data.size) data' =
    writeAt b offset (data ++ data') := by
  refine ext_byteAt ?_ fun i => ?_
  · simp only [size_writeAt, ByteArray.size_append]
    omega
  · simp only [byteAt_writeAt, byteAt_append, ByteArray.size_append]
    by_cases hfirst : offset ≤ i ∧ i < offset + data.size
    · rw [if_neg (by omega), if_pos hfirst, if_pos (by omega), if_pos (by omega)]
    · by_cases hlast : offset + data.size ≤ i ∧ i < offset + data.size + data'.size
      · rw [if_pos hlast, if_pos (by omega), if_neg (by omega), Nat.sub_add_eq]
      · rw [if_neg hlast, if_neg hfirst, if_neg (by omega)]

/-- **Writes that do not overlap can change places.** -/
theorem writeAt_comm (h : ∀ i, ¬ ((offset ≤ i ∧ i < offset + data.size) ∧
      offset' ≤ i ∧ i < offset' + data'.size)) :
    writeAt (writeAt b offset data) offset' data' =
      writeAt (writeAt b offset' data') offset data := by
  refine ext_byteAt ?_ fun i => ?_
  · simp only [size_writeAt]
    omega
  · simp only [byteAt_writeAt]
    by_cases hi : offset ≤ i ∧ i < offset + data.size
    · rw [if_neg fun hi' => h i ⟨hi, hi'⟩, if_pos hi, if_pos hi]
    · by_cases hi' : offset' ≤ i ∧ i < offset' + data'.size
      · rw [if_pos hi', if_neg hi, if_pos hi']
      · rw [if_neg hi', if_neg hi, if_neg hi, if_neg hi']

/-- **A write hides an earlier one** at the same offset, unless that one was of more data. -/
theorem writeAt_hides (h : data.size ≤ data'.size) :
    writeAt (writeAt b offset data) offset data' = writeAt b offset data' := by
  refine ext_byteAt ?_ fun i => ?_
  · simp only [size_writeAt]
    omega
  · simp only [byteAt_writeAt]
    by_cases hi : offset ≤ i ∧ i < offset + data'.size
    · rw [if_pos hi, if_pos hi]
    · rw [if_neg hi, if_neg (by omega), if_neg hi]

/-- The bytes after writes of data at offsets, one after the other. -/
def writeAll (b : ByteArray) (writes : List (ByteArray × Nat)) : ByteArray :=
  writes.foldl (fun b w => writeAt b w.2 w.1) b

end Bytes

/-! ## Objects -/

/-- Writes data at an offset. -/
def Edit.ofWrite (w : ByteArray × Nat) : Edit := .write w.1 w.2

namespace Store

/-- The answers to edits of an object made one after the other, each when the clock shows the time
of its number, and the store after them. -/
def editAll (key : ObjectKey) (clock : Nat → Int) : List Edit → Store → List Status × Store
  | [], s => ([], s)
  | e :: es, s =>
    let (status, t) := s.edit (clock 0) key e
    let (statuses, u) := editAll key (fun n => clock (n + 1)) es t
    (status :: statuses, u)

/-- Whatever the clock shows, the edits of both lists are all accepted, and both lists lead to the
same store but for the time of the last change. -/
structure Interchangeable (s : Store) (key : ObjectKey) (es es' : List Edit) : Prop where
  answers : ∀ clock, (s.editAll key clock es).1 = es.map fun _ => 0
  answers' : ∀ clock, (s.editAll key clock es').1 = es'.map fun _ => 0
  stores : ∀ clock clock', (s.editAll key clock es).2.SameButTimes (s.editAll key clock' es').2

/-- The second store is the first with an object of the bytes under the key. Its attributes are
those that were there. -/
structure Rewrites (key : ObjectKey) (data : ByteArray) (s t : Store) : Prop
    extends SameBut key s t where
  object : t.objects[key]?.map Object.undated = some { (s.objectOrNew key).undated with data }

variable {s t t' : Store} {key : ObjectKey} {now : Int} {data : ByteArray} {offset : Nat}

namespace Rewrites

/-- Stores with the same bytes in place of those of one object differ in times. -/
theorem sameButTimes (h : Rewrites key data s t) (h' : Rewrites key data s t') :
    SameButTimes t t' :=
  (SameButTimes.refl s).change h.toSameBut h'.toSameBut
    ⟨h'.hasPool.trans h.hasPool.symm, h'.object.trans h.object.symm⟩

theorem objectOrNew (h : Rewrites key data s t) :
    (t.objectOrNew key).undated = { (s.objectOrNew key).undated with data } := by
  obtain ⟨o, ho, hu⟩ := Option.map_eq_some_iff.mp h.object
  rw [Store.objectOrNew, ho]
  exact hu

theorem data_eq (h : Rewrites key data s t) : (t.objectOrNew key).data = data :=
  congrArg Object.data h.objectOrNew

theorem trans {data' : ByteArray} {u : Store} (h : Rewrites key data s t)
    (h' : Rewrites key data' t u) : Rewrites key data' s u where
  toSameBut := h.toSameBut.trans h'.toSameBut
  object := by rw [h'.object, h.objectOrNew]

/-- An accepted write. -/
theorem of_write (hp : s.hasPool key.1 = true) (hend : offset + data.size ≤ Object.maxSize)
    (now : Int) :
    (s.edit now key (.write data offset)).1 = 0 ∧
      Rewrites key (Bytes.writeAt (s.objectOrNew key).data offset data) s
        (s.edit now key (.write data offset)).2 := by
  rw [edit_of_hasPool hp, editObject, write, Object.writeEnd?, if_pos hend]
  refine ⟨rfl, ⟨rfl, rfl, fun k hk => ?_⟩, ?_⟩
  · exact getElem?_objects_putObject.trans (if_neg hk)
  · rw [getElem?_objects_putObject, if_pos rfl]
    rfl

/-- Writes go on from what earlier ones left. -/
theorem editAll (h : Rewrites key data s t) (hp : t.hasPool key.1 = true)
    {ws : List (ByteArray × Nat)} (hends : ∀ w ∈ ws, w.2 + w.1.size ≤ Object.maxSize)
    (clock : Nat → Int) :
    (t.editAll key clock (ws.map .ofWrite)).1 = (ws.map Edit.ofWrite).map (fun _ => 0) ∧
      Rewrites key (Bytes.writeAll data ws) s (t.editAll key clock (ws.map .ofWrite)).2 := by
  induction ws generalizing t data clock with
  | nil => exact ⟨rfl, h⟩
  | cons w ws ih =>
    obtain ⟨hanswer, hfirst⟩ := of_write hp (hends w List.mem_cons_self) (clock 0)
    rw [h.data_eq] at hfirst
    obtain ⟨hanswers, hrest⟩ := ih (h.trans hfirst) (hfirst.hasPool.trans hp)
      (fun v hv => hends v (List.mem_cons_of_mem w hv)) fun n => clock (n + 1)
    exact ⟨congrArg₂ List.cons hanswer hanswers, hrest⟩

end Rewrites

/-- **What accepted writes make of a store**, if there is one at least. -/
theorem rewrites_editAll {w : ByteArray × Nat} {ws : List (ByteArray × Nat)}
    (hp : s.hasPool key.1 = true) (hends : ∀ v ∈ w :: ws, v.2 + v.1.size ≤ Object.maxSize)
    (clock : Nat → Int) :
    (s.editAll key clock ((w :: ws).map .ofWrite)).1 =
        ((w :: ws).map Edit.ofWrite).map (fun _ => 0) ∧
      Rewrites key (Bytes.writeAll (s.objectOrNew key).data (w :: ws)) s
        (s.editAll key clock ((w :: ws).map .ofWrite)).2 := by
  -- The first write stands apart: before it there may be no object whose bytes are replaced.
  obtain ⟨hanswer, hfirst⟩ := Rewrites.of_write hp (hends w List.mem_cons_self) (clock 0)
  obtain ⟨hanswers, hrest⟩ := hfirst.editAll (hfirst.hasPool.trans hp)
    (fun v hv => hends v (List.mem_cons_of_mem w hv)) fun n => clock (n + 1)
  exact ⟨congrArg₂ List.cons hanswer hanswers, hrest⟩

/-- Writes that make the same of the bytes of an object are interchangeable. -/
theorem Interchangeable.of_writeAll {w w' : ByteArray × Nat} {ws ws' : List (ByteArray × Nat)}
    (hp : s.hasPool key.1 = true) (hends : ∀ v ∈ w :: ws, v.2 + v.1.size ≤ Object.maxSize)
    (hends' : ∀ v ∈ w' :: ws', v.2 + v.1.size ≤ Object.maxSize)
    (hdata : Bytes.writeAll (s.objectOrNew key).data (w :: ws) =
      Bytes.writeAll (s.objectOrNew key).data (w' :: ws')) :
    s.Interchangeable key ((w :: ws).map .ofWrite) ((w' :: ws').map .ofWrite) where
  answers clock := (rewrites_editAll hp hends clock).1
  answers' clock := (rewrites_editAll hp hends' clock).1
  stores clock clock' := by
    have h := (rewrites_editAll hp hends clock).2
    rw [hdata] at h
    exact h.sameButTimes (rewrites_editAll hp hends' clock').2

theorem size_objectOrNew :
    (s.objectOrNew key).data.size = (s.objects[key]?.map (·.data.size)).getD 0 := by
  rw [objectOrNew]
  cases s.objects[key]? <;> rfl

/-- An append is a write at the end of the object. -/
theorem edit_append : s.edit now key (.append data) =
    s.edit now key (.write data (s.objectOrNew key).data.size) := rfl

/-- Two appends are two writes end to end. -/
theorem editAll_append {data' : ByteArray} (hp : s.hasPool key.1 = true)
    (hend : (s.objectOrNew key).data.size + data.size ≤ Object.maxSize) (clock : Nat → Int) :
    s.editAll key clock [.append data, .append data'] =
      s.editAll key clock [.write data (s.objectOrNew key).data.size,
        .write data' ((s.objectOrNew key).data.size + data.size)] := by
  have hfirst := (Rewrites.of_write hp hend (clock 0)).2.data_eq
  have hsize := congrArg ByteArray.size hfirst
  rw [Bytes.size_writeAt, Nat.max_eq_right (Nat.le_add_right ..)] at hsize
  simp only [editAll, edit_append, hsize]

/-- **How writes of one object go together.** In every store and for every object of a pool that is
there, wherever the data ends no further than an object may reach: a write and another one at its
end are one write of all the data. Two appends are one append of all the data. An append is a write
at the end of the object, which is where it starts if there is none. Two writes that have no
position in common can change places. A write that is repeated changes nothing more. A write is
hidden by a later one at the same offset of no less data. -/
theorem write_laws (hp : s.hasPool key.1 = true) :
    (∀ (d₁ d₂ : ByteArray) (o : Nat), o + d₁.size + d₂.size ≤ Object.maxSize →
      s.Interchangeable key [.write d₁ o, .write d₂ (o + d₁.size)] [.write (d₁ ++ d₂) o]) ∧
    (∀ d₁ d₂ : ByteArray,
      (s.objects[key]?.map (·.data.size)).getD 0 + d₁.size + d₂.size ≤ Object.maxSize →
      s.Interchangeable key [.append d₁, .append d₂] [.append (d₁ ++ d₂)]) ∧
    (∀ (now : Int) (d : ByteArray), s.edit now key (.append d) =
      s.edit now key (.write d ((s.objects[key]?.map (·.data.size)).getD 0))) ∧
    (∀ (d₁ d₂ : ByteArray) (o₁ o₂ : Nat),
      o₁ + d₁.size ≤ Object.maxSize → o₂ + d₂.size ≤ Object.maxSize →
      (∀ i, ¬ ((o₁ ≤ i ∧ i < o₁ + d₁.size) ∧ o₂ ≤ i ∧ i < o₂ + d₂.size)) →
      s.Interchangeable key [.write d₁ o₁, .write d₂ o₂] [.write d₂ o₂, .write d₁ o₁]) ∧
    (∀ (d : ByteArray) (o : Nat), o + d.size ≤ Object.maxSize →
      s.Interchangeable key [.write d o, .write d o] [.write d o]) ∧
    ∀ (d₁ d₂ : ByteArray) (o : Nat), d₁.size ≤ d₂.size → o + d₂.size ≤ Object.maxSize →
      s.Interchangeable key [.write d₁ o, .write d₂ o] [.write d₂ o] := by
  have hends : ∀ {d₁ d₂ : ByteArray} {o₁ o₂ : Nat}, o₁ + d₁.size ≤ Object.maxSize →
      o₂ + d₂.size ≤ Object.maxSize →
      ∀ v ∈ [(d₁, o₁), (d₂, o₂)], v.2 + v.1.size ≤ Object.maxSize := by
    intro d₁ d₂ o₁ o₂ h₁ h₂ v hv
    rcases List.mem_cons.mp hv with rfl | hv
    · exact h₁
    · exact List.mem_singleton.mp hv ▸ h₂
  have hend : ∀ {d : ByteArray} {o : Nat}, o + d.size ≤ Object.maxSize →
      ∀ v ∈ [(d, o)], v.2 + v.1.size ≤ Object.maxSize :=
    fun h v hv => List.mem_singleton.mp hv ▸ h
  have hjoin : ∀ (d₁ d₂ : ByteArray) (o : Nat), o + d₁.size + d₂.size ≤ Object.maxSize →
      s.Interchangeable key [.write d₁ o, .write d₂ (o + d₁.size)] [.write (d₁ ++ d₂) o] := by
    intro d₁ d₂ o h
    refine .of_writeAll hp (hends (by omega) h) (hend ?_) Bytes.writeAt_append
    rw [ByteArray.size_append]
    omega
  have hhide : ∀ (d₁ d₂ : ByteArray) (o : Nat), d₁.size ≤ d₂.size →
      o + d₂.size ≤ Object.maxSize →
      s.Interchangeable key [.write d₁ o, .write d₂ o] [.write d₂ o] := fun d₁ d₂ o hle h =>
    .of_writeAll hp (hends (by omega) h) (hend h) (Bytes.writeAt_hides hle)
  rw [← size_objectOrNew]
  refine ⟨hjoin, fun d₁ d₂ h => ?_, fun _ _ => edit_append, fun d₁ d₂ o₁ o₂ h₁ h₂ hdisjoint => ?_,
    fun d o h => hhide d d o (Nat.le_refl _) h, hhide⟩
  · have hwrites := hjoin d₁ d₂ _ h
    refine ⟨fun clock => ?_, hwrites.answers', fun clock clock' => ?_⟩
    · rw [editAll_append hp (by omega)]
      exact hwrites.answers clock
    · rw [editAll_append hp (by omega)]
      exact hwrites.stores clock clock'
  · exact .of_writeAll hp (hends h₁ h₂) (hends h₂ h₁) (Bytes.writeAt_comm hdisjoint)

/-- Two writes past the end of an object that is not there, and the zeros between them. -/
theorem write_laws_of_gap :
    (ofPools ["data"]).hasPool ((1, "foo") : ObjectKey).1 = true ∧
      (∀ i, ¬ ((3 ≤ i ∧ i < 3 + (⟨#[7, 8]⟩ : ByteArray).size) ∧
        1 ≤ i ∧ i < 1 + (⟨#[9]⟩ : ByteArray).size)) ∧
      (ofPools ["data"]).Interchangeable (1, "foo")
        [.write ⟨#[7, 8]⟩ 3, .write ⟨#[9]⟩ 1] [.write ⟨#[9]⟩ 1, .write ⟨#[7, 8]⟩ 3] ∧
      (((ofPools ["data"]).editAll (1, "foo") (fun _ => 0)
        [.write ⟨#[7, 8]⟩ 3, .write ⟨#[9]⟩ 1]).2.objects[((1, "foo") : ObjectKey)]?.map (·.data)) =
          some ⟨#[0, 9, 0, 7, 8]⟩ := by
  have hpool : (ofPools ["data"]).hasPool ((1, "foo") : ObjectKey).1 = true := by decide +kernel
  have hdisjoint : ∀ i, ¬ ((3 ≤ i ∧ i < 3 + (⟨#[7, 8]⟩ : ByteArray).size) ∧
      1 ≤ i ∧ i < 1 + (⟨#[9]⟩ : ByteArray).size) := by
    intro i
    change ¬ ((3 ≤ i ∧ i < 3 + 2) ∧ 1 ≤ i ∧ i < 1 + 1)
    omega
  exact ⟨hpool, hdisjoint, (write_laws hpool).2.2.2.1 _ _ _ _ (by decide) (by decide) hdisjoint,
    by decide +kernel⟩

end Store

end Milepost
