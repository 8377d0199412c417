import Mathlib.Data.List.TakeWhile
import Milepost.Cluster
import Milepost.InMemory.Calls
import Milepost.Proofs.Utf8

/-!
# The list of the names of pools

The backend delivers the names of its pools as one string of bytes, in which each name is ended by
a NUL and a NUL follows the last; a cluster cuts these bytes at the NULs and takes the names up to
the first that is empty. A name that holds no NUL is found again, unless the empty name comes
before it.

* `decodeNames_encodeNames`: the names that are read from the bytes of a list of names.
* `takeWhile_ne_empty`: of names in order, these are all, or none if one of them is empty.
-/

namespace Milepost

/-! ## Bytes of the list -/

namespace InMemory

variable {name : String} {names : List String}

theorem toList_encodeNames_cons :
    (encodeNames (name :: names)).toList =
      name.toUTF8.toList ++ 0 :: (encodeNames names).toList := by
  rw [encodeNames, Bytes.toList_append, Bytes.toList_push, List.append_assoc,
    List.singleton_append]

/-- A name takes fewer bytes than a list in which it is. -/
theorem size_lt_encodeNames (h : name ∈ names) :
    name.toUTF8.size < (encodeNames names).size := by
  induction names with
  | nil => cases h
  | cons first rest ih =>
    rw [encodeNames, ByteArray.size_append, ByteArray.size_push]
    rcases List.mem_cons.mp h with rfl | h
    · omega
    · have := ih h
      omega

/-- Cut at the NULs, the bytes are those of the names and two pieces without bytes. -/
theorem splitAtNul_encodeNames (h : ∀ name ∈ names, Text.hasNul name = false) :
    Bytes.splitAtNul (encodeNames names).toList = names.map (·.toUTF8.toList) ++ [[], []] := by
  induction names with
  | nil =>
    rw [encodeNames, Bytes.toList_push, Bytes.toList_eq]
    rfl
  | cons name rest ih =>
    have hname := (Text.hasNul_eq_false_iff name).mp (h name List.mem_cons_self)
    rw [toList_encodeNames_cons, Bytes.splitAtNul,
      List.splitOnP_append_cons_of_forall_mem hname 0 rfl, List.map_cons, List.cons_append]
    exact congrArg _ (ih fun n hn => h n (List.mem_cons_of_mem _ hn))

end InMemory

/-! ## Reading the list -/

theorem Text.toUTF8_eq_nil_iff (s : String) : s.toUTF8.toList = [] ↔ s = "" := by
  rw [toList_toUTF8, List.flatMap_eq_nil_iff, ← String.toList_eq_nil_iff]
  constructor
  · intro h
    refine List.eq_nil_iff_forall_not_mem.mpr fun c hc => ?_
    exact String.utf8EncodeChar_ne_nil (h c hc)
  · intro h
    rw [h]
    exact nofun

/-- Without NULs there are none at the end. -/
theorem Bytes.dropTrailingNuls_of_forall {b : List UInt8} (h : ∀ x ∈ b, (x == 0) = false) :
    dropTrailingNuls b = b := by
  have hback : b.reverse.dropWhile (· == 0) = b.reverse := by
    cases hb : b.reverse with
    | nil => rfl
    | cons x xs =>
      have hx : x ∈ b := List.mem_reverse.mp (hb ▸ List.mem_cons_self)
      exact List.dropWhile_cons_of_neg (Bool.eq_false_iff.mp (h x hx))
  rw [dropTrailingNuls, hback, List.reverse_reverse]

variable {name : String} {names : List String}

theorem decodeName_toUTF8 (h : Text.hasNul name = false) :
    decodeName name.toUTF8.toList = .ok name := by
  rw [decodeName, Bytes.dropTrailingNuls_of_forall ((Text.hasNul_eq_false_iff name).mp h),
    Text.Utf8.decode_toUTF8]
  rfl

theorem mapM_decodeName_toUTF8 (h : ∀ name ∈ names, Text.hasNul name = false) :
    (names.map (·.toUTF8.toList)).mapM decodeName = .ok names := by
  induction names with
  | nil => rfl
  | cons name rest ih =>
    rw [List.map_cons, List.mapM_cons, decodeName_toUTF8 (h name List.mem_cons_self),
      ih fun n hn => h n (List.mem_cons_of_mem _ hn)]
    rfl

theorem takeWhile_toUTF8 :
    (names.map (fun name : String => name.toUTF8.toList) ++ [[], []]).takeWhile (!·.isEmpty) =
      (names.takeWhile (· ≠ "")).map fun name => name.toUTF8.toList := by
  induction names with
  | nil => rfl
  | cons name rest ih =>
    rw [List.map_cons, List.cons_append]
    by_cases hname : name = ""
    · subst hname
      rw [(Text.toUTF8_eq_nil_iff "").mpr rfl]
      rfl
    · have hne := mt (Text.toUTF8_eq_nil_iff name).mp hname
      have htake : (name :: rest).takeWhile (· ≠ "") = name :: rest.takeWhile (· ≠ "") :=
        List.takeWhile_cons_of_pos (decide_eq_true hname)
      rw [List.takeWhile_cons_of_pos (by simpa using hne), ih, htake, List.map_cons]

/-- **The names that are read from the bytes of a list of names.** They are those before the first
that is empty. -/
theorem decodeNames_encodeNames (h : ∀ name ∈ names, Text.hasNul name = false) :
    decodeNames (InMemory.encodeNames names).toList = .ok (names.takeWhile (· ≠ "")) := by
  rw [decodeNames, InMemory.splitAtNul_encodeNames h, takeWhile_toUTF8]
  exact mapM_decodeName_toUTF8 fun name hn => h name ((List.takeWhile_sublist _).subset hn)

/-- Of names in order these are all, or none if one of them is empty. -/
theorem takeWhile_ne_empty (h : names.Pairwise (· < ·)) :
    names.takeWhile (· ≠ "") = if "" ∈ names then [] else names := by
  by_cases hmem : "" ∈ names
  · rw [if_pos hmem]
    cases names with
    | nil => rfl
    | cons first rest =>
      rcases List.mem_cons.mp hmem with rfl | hrest
      · rfl
      · have hlt := (List.pairwise_cons.mp h).1 "" hrest
        exact absurd (String.lt_iff.mp hlt) (List.not_lt_nil _)
  · rw [if_neg hmem, List.takeWhile_eq_self_iff]
    intro name hn
    exact decide_eq_true fun hempty => hmem (hempty ▸ hn)

end Milepost
