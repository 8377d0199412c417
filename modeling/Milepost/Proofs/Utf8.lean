import Milepost.Bytes
import Milepost.Text.Name
import Milepost.Text.Utf8

/-!
# Text and its bytes

A text is passed on as the bytes of its characters, one character after the other. Nothing is lost
by that, and texts are in the order of their bytes: a character with a larger number has a larger
byte at the first place where the two differ.

* `Text.Utf8.decode_toUTF8`: the bytes of a text are read back as the text.
* `Text.toUTF8_lt`: texts are in the order of their bytes.
* `Text.hasNul_eq_false_iff`: a text holds a NUL exactly when its bytes do.
-/

namespace Milepost

/-! ## Bytes of a text -/

namespace Bytes

theorem toList_loop (b : ByteArray) (i : Nat) (r : List UInt8) :
    ByteArray.toList.loop b i r = r.reverse ++ b.data.toList.drop i := by
  fun_induction ByteArray.toList.loop b i r with
  | case1 i r hlt ih =>
    have hi : i < b.data.toList.length := hlt
    have hget : b.get! i = b.data.toList[i] := by
      rw [Array.getElem_toList]
      exact getElem!_pos b.data i hlt
    rw [ih, List.drop_eq_getElem_cons hi, hget, List.reverse_cons, List.append_assoc,
      List.singleton_append]
  | case2 i r hge =>
    rw [List.drop_eq_nil_of_le (Nat.le_of_not_lt hge), List.append_nil]

theorem toList_eq (b : ByteArray) : b.toList = b.data.toList := by
  rw [ByteArray.toList, toList_loop, List.reverse_nil, List.nil_append, List.drop_zero]

theorem toList_append (a b : ByteArray) : (a ++ b).toList = a.toList ++ b.toList := by
  rw [toList_eq, toList_eq, toList_eq, ByteArray.toList_data_append]

theorem toList_push (b : ByteArray) (x : UInt8) : (b.push x).toList = b.toList ++ [x] := by
  rw [toList_eq, toList_eq, ByteArray.data_push, Array.toList_push]

end Bytes

namespace Text

/-- The bytes of a text are those of its characters. -/
theorem toList_toUTF8 (s : String) :
    s.toUTF8.toList = s.toList.flatMap String.utf8EncodeChar := by
  rw [Bytes.toList_eq, String.toUTF8_eq_toByteArray, ← String.utf8Encode_toList, List.utf8Encode,
    List.toList_data_toByteArray]

/-! ## Bytes of a character -/

section Character

variable {c d : Char}

theorem encode_one (h : c.toNat ≤ 127) : String.utf8EncodeChar c = [UInt8.ofNat c.toNat] :=
  if_pos h

theorem encode_two (h : ¬ c.toNat ≤ 127) (h' : c.toNat ≤ 2047) :
    String.utf8EncodeChar c =
      [UInt8.ofNat (c.toNat / 64 % 32 + 192), UInt8.ofNat (c.toNat % 64 + 128)] :=
  (if_neg h).trans (if_pos h')

theorem encode_three (h : ¬ c.toNat ≤ 2047) (h' : c.toNat ≤ 65535) :
    String.utf8EncodeChar c =
      [UInt8.ofNat (c.toNat / 4096 % 16 + 224), UInt8.ofNat (c.toNat / 64 % 64 + 128),
        UInt8.ofNat (c.toNat % 64 + 128)] :=
  (if_neg fun h1 : c.toNat ≤ 127 => h (Nat.le_trans h1 (by decide))).trans <|
    (if_neg h).trans (if_pos h')

theorem encode_four (h : ¬ c.toNat ≤ 65535) :
    String.utf8EncodeChar c =
      [UInt8.ofNat (c.toNat / 262144 % 8 + 240), UInt8.ofNat (c.toNat / 4096 % 64 + 128),
        UInt8.ofNat (c.toNat / 64 % 64 + 128), UInt8.ofNat (c.toNat % 64 + 128)] :=
  (if_neg fun h1 : c.toNat ≤ 127 => h (Nat.le_trans h1 (by decide))).trans <|
    (if_neg fun h2 : c.toNat ≤ 2047 => h (Nat.le_trans h2 (by decide))).trans (if_neg h)

/-- The numbers of characters leave out those between `0xD7FF` and `0xE000`. -/
theorem toNat_valid (c : Char) : c.toNat < 0xD800 ∨ 0xDFFF < c.toNat ∧ c.toNat < 0x110000 :=
  c.valid

theorem toNat_byte {n : Nat} (h : n < 256) : (UInt8.ofNat n).toNat = n := by
  rw [UInt8.toNat_ofNat', Nat.mod_eq_of_lt h]

theorem length_le_encode (chars : List Char) :
    chars.length ≤ (chars.flatMap String.utf8EncodeChar).length := by
  induction chars with
  | nil => exact Nat.le_refl 0
  | cons c cs ih =>
    have hpos := List.length_pos_iff.mpr (String.utf8EncodeChar_ne_nil (c := c))
    rw [List.flatMap_cons, List.length_append, List.length_cons]
    omega

end Character

/-! ## Reading back -/

namespace Utf8

variable {c : Char} {b : UInt8} {rest : List UInt8} {n lo hi acc done : Nat}

theorem continuation_cons (h : lo ≤ b.toNat ∧ b.toNat ≤ hi) :
    continuation (n + 1) lo hi acc done (b :: rest) =
      continuation n 0x80 0xBF (acc * 64 + b.toNat % 64) (done + 1) rest := if_pos h

theorem head_of_lead (h : 0x80 ≤ b.toNat) (hl : lead b = some (n, lo, hi)) :
    head b rest = continuation n lo hi (b.toNat % Nat.pow 2 (6 - n)) 1 rest := by
  rw [head, if_neg (by omega), hl]

theorem lead_two (h : 0xC2 ≤ b.toNat) (h' : b.toNat ≤ 0xDF) :
    lead b = some (1, 0x80, 0xBF) := if_pos ⟨h, h'⟩

/-- The second of three bytes is not one that a shorter sequence or no character has. -/
theorem lead_three (h : 0xE0 ≤ b.toNat) (h' : b.toNat ≤ 0xEF) :
    lead b = some (2, if b.toNat = 0xE0 then 0xA0 else 0x80,
      if b.toNat = 0xED then 0x9F else 0xBF) := by
  unfold lead
  grind

/-- The second of four bytes is not one that a shorter sequence or no character has. -/
theorem lead_four (h : 0xF0 ≤ b.toNat) (h' : b.toNat ≤ 0xF4) :
    lead b = some (3, if b.toNat = 0xF0 then 0x90 else 0x80,
      if b.toNat = 0xF4 then 0x8F else 0xBF) := by
  unfold lead
  grind

theorem continuation_zero (h : acc = c.toNat) :
    continuation 0 lo hi acc done rest = .character c done := by
  rw [continuation, h, Char.ofNat_toNat]

/-- **The bytes of a character begin with that character, whatever follows them.** -/
theorem head_encode (h : String.utf8EncodeChar c = b :: rest) (more : List UInt8) :
    head b (rest ++ more) = .character c (rest.length + 1) := by
  have hvalid := toNat_valid c
  by_cases h1 : c.toNat ≤ 127
  · rw [encode_one h1] at h
    obtain ⟨rfl, rfl⟩ := List.cons.inj h
    rw [head, toNat_byte (by omega), if_pos (by omega), Char.ofNat_toNat]
    rfl
  by_cases h2 : c.toNat ≤ 2047
  · rw [encode_two h1 h2] at h
    obtain ⟨rfl, rfl⟩ := List.cons.inj h
    have hb := toNat_byte (n := c.toNat / 64 % 32 + 192) (by omega)
    have hx := toNat_byte (n := c.toNat % 64 + 128) (by omega)
    rw [head_of_lead (by omega) (lead_two (by omega) (by omega)), List.singleton_append,
      continuation_cons (by omega), hb, hx]
    exact continuation_zero (by simp only [Nat.pow_eq]; omega)
  by_cases h3 : c.toNat ≤ 65535
  · rw [encode_three h2 h3] at h
    obtain ⟨rfl, rfl⟩ := List.cons.inj h
    have hb := toNat_byte (n := c.toNat / 4096 % 16 + 224) (by omega)
    have hx := toNat_byte (n := c.toNat / 64 % 64 + 128) (by omega)
    have hy := toNat_byte (n := c.toNat % 64 + 128) (by omega)
    have hsecond : (if c.toNat / 4096 % 16 + 224 = 0xE0 then 0xA0 else 0x80) ≤
          c.toNat / 64 % 64 + 128 ∧
        c.toNat / 64 % 64 + 128 ≤
          if c.toNat / 4096 % 16 + 224 = 0xED then 0x9F else 0xBF := by
      constructor <;> split <;> omega
    rw [head_of_lead (by omega) (lead_three (by omega) (by omega)), List.cons_append, hb,
      continuation_cons (by rwa [hx]), List.singleton_append, continuation_cons (by omega), hx, hy]
    exact continuation_zero (by simp only [Nat.pow_eq]; omega)
  · rw [encode_four h3] at h
    obtain ⟨rfl, rfl⟩ := List.cons.inj h
    have hb := toNat_byte (n := c.toNat / 262144 % 8 + 240) (by omega)
    have hx := toNat_byte (n := c.toNat / 4096 % 64 + 128) (by omega)
    have hy := toNat_byte (n := c.toNat / 64 % 64 + 128) (by omega)
    have hz := toNat_byte (n := c.toNat % 64 + 128) (by omega)
    have hsecond : (if c.toNat / 262144 % 8 + 240 = 0xF0 then 0x90 else 0x80) ≤
          c.toNat / 4096 % 64 + 128 ∧
        c.toNat / 4096 % 64 + 128 ≤
          if c.toNat / 262144 % 8 + 240 = 0xF4 then 0x8F else 0xBF := by
      constructor <;> split <;> omega
    rw [head_of_lead (by omega) (lead_four (by omega) (by omega)), List.cons_append, hb,
      continuation_cons (by rwa [hx]), List.cons_append, continuation_cons (by omega),
      List.singleton_append, continuation_cons (by omega), hx, hy, hz]
    exact continuation_zero (by simp only [Nat.pow_eq]; omega)

theorem decodeFrom_flatMap (chars : List Char) {fuel index : Nat} {before : List Char}
    (hfuel : chars.length ≤ fuel) :
    decodeFrom fuel index before (chars.flatMap String.utf8EncodeChar) =
      .ok (before.reverse ++ chars) := by
  induction chars generalizing fuel index before with
  | nil => cases fuel <;> simp [decodeFrom]
  | cons c cs ih =>
    obtain ⟨b, rest, hc⟩ := List.exists_cons_of_ne_nil (String.utf8EncodeChar_ne_nil (c := c))
    obtain ⟨fuel, rfl⟩ : ∃ n, fuel = n + 1 := ⟨fuel - 1, by grind⟩
    rw [List.flatMap_cons, hc, List.cons_append, decodeFrom, head_encode hc]
    simp only [List.drop_succ_cons, List.drop_left]
    rw [ih (Nat.le_of_succ_le_succ hfuel), List.reverse_cons, List.append_assoc,
      List.singleton_append]

/-- **The bytes of a text are read back as the text.** -/
theorem decode_toUTF8 (s : String) : decode s.toUTF8.toList = .ok s := by
  rw [decode, toList_toUTF8, decodeFrom_flatMap _ (length_le_encode _)]
  exact congrArg Except.ok String.ofList_toList

end Utf8

/-! ## The order of texts -/

section Order

variable {c d : Char} {m n : Nat} {u v : List UInt8}

theorem byte_cons_lt (hn : n < 256) (h : m < n ∨ m = n ∧ u < v) :
    UInt8.ofNat m :: u < UInt8.ofNat n :: v := by
  rw [List.cons_lt_cons_iff]
  rcases h with h | ⟨rfl, h⟩
  · left
    rw [UInt8.lt_iff_toNat_lt, toNat_byte hn, toNat_byte (Nat.lt_trans h hn)]
    exact h
  · exact .inr ⟨rfl, h⟩

theorem div_lt_or_mod_lt (k : Nat) (h : m < n) :
    m / k < n / k ∨ m / k = n / k ∧ m % k < n % k := by
  have hle : m / k ≤ n / k := Nat.div_le_div_right (Nat.le_of_lt h)
  have hm := Nat.div_add_mod m k
  have hn := Nat.div_add_mod n k
  rcases Nat.lt_or_eq_of_le hle with hlt | heq
  · exact .inl hlt
  · rw [heq] at hm
    exact .inr ⟨heq, by omega⟩

/-- The first byte of a character tells how many bytes there are. -/
theorem exists_encode_eq_cons (c : Char) :
    ∃ n rest, String.utf8EncodeChar c = UInt8.ofNat n :: rest ∧ n < 256 ∧
      (n < 128 ↔ c.toNat ≤ 127) ∧ (n < 224 ↔ c.toNat ≤ 2047) ∧ (n < 240 ↔ c.toNat ≤ 65535) := by
  by_cases h1 : c.toNat ≤ 127
  · exact ⟨_, _, encode_one h1, by omega⟩
  by_cases h2 : c.toNat ≤ 2047
  · exact ⟨_, _, encode_two h1 h2, by omega⟩
  by_cases h3 : c.toNat ≤ 65535
  · exact ⟨_, _, encode_three h2 h3, by omega⟩
  · exact ⟨_, _, encode_four h3, by omega⟩

/-- Characters are in the order of their bytes, whatever follows them. -/
theorem encode_lt (h : c < d) :
    String.utf8EncodeChar c ++ u < String.utf8EncodeChar d ++ v := by
  have hlt : c.toNat < d.toNat := h
  have hc := toNat_valid c
  have hd := toNat_valid d
  obtain ⟨m, s, hm, -, hm1, hm2, hm3⟩ := exists_encode_eq_cons c
  obtain ⟨n, t, hn, hn256, hn1, hn2, hn3⟩ := exists_encode_eq_cons d
  by_cases hmn : m < n
  · rw [hm, hn]
    exact byte_cons_lt hn256 (.inl hmn)
  -- Both have the same number of bytes, which are compared one after the other.
  by_cases h1 : d.toNat ≤ 127
  · rw [encode_one (by omega), encode_one h1]
    exact byte_cons_lt (by omega) (.inl hlt)
  have hlast := div_lt_or_mod_lt 64 hlt
  by_cases h2 : d.toNat ≤ 2047
  · have hbytes : c.toNat / 64 % 32 + 192 < d.toNat / 64 % 32 + 192 ∨
        c.toNat / 64 % 32 + 192 = d.toNat / 64 % 32 + 192 ∧
          c.toNat % 64 + 128 < d.toNat % 64 + 128 := by omega
    rw [encode_two (by omega) (by omega), encode_two h1 h2]
    refine byte_cons_lt (by omega) (hbytes.imp_right fun ⟨he, hl⟩ => ⟨he, ?_⟩)
    exact byte_cons_lt (by omega) (.inl hl)
  have hmiddle : c.toNat / 64 < d.toNat / 64 → _ := div_lt_or_mod_lt 64
  rw [Nat.div_div_eq_div_mul, Nat.div_div_eq_div_mul] at hmiddle
  by_cases h3 : d.toNat ≤ 65535
  · have hbytes : c.toNat / 4096 % 16 + 224 < d.toNat / 4096 % 16 + 224 ∨
        c.toNat / 4096 % 16 + 224 = d.toNat / 4096 % 16 + 224 ∧
          (c.toNat / 64 % 64 + 128 < d.toNat / 64 % 64 + 128 ∨
            c.toNat / 64 % 64 + 128 = d.toNat / 64 % 64 + 128 ∧
              c.toNat % 64 + 128 < d.toNat % 64 + 128) := by omega
    rw [encode_three (by omega) (by omega), encode_three h2 h3]
    refine byte_cons_lt (by omega) (hbytes.imp_right fun ⟨he, hl⟩ => ⟨he, ?_⟩)
    refine byte_cons_lt (by omega) (hl.imp_right fun ⟨he, hl⟩ => ⟨he, ?_⟩)
    exact byte_cons_lt (by omega) (.inl hl)
  · have hfirst : c.toNat / 4096 < d.toNat / 4096 → _ := div_lt_or_mod_lt 64
    rw [Nat.div_div_eq_div_mul, Nat.div_div_eq_div_mul] at hfirst
    have hc8 : c.toNat / 262144 % 8 = c.toNat / 262144 := Nat.mod_eq_of_lt (by omega)
    have hd8 : d.toNat / 262144 % 8 = d.toNat / 262144 := Nat.mod_eq_of_lt (by omega)
    have hbytes : c.toNat / 262144 % 8 + 240 < d.toNat / 262144 % 8 + 240 ∨
        c.toNat / 262144 % 8 + 240 = d.toNat / 262144 % 8 + 240 ∧
          (c.toNat / 4096 % 64 + 128 < d.toNat / 4096 % 64 + 128 ∨
            c.toNat / 4096 % 64 + 128 = d.toNat / 4096 % 64 + 128 ∧
              (c.toNat / 64 % 64 + 128 < d.toNat / 64 % 64 + 128 ∨
                c.toNat / 64 % 64 + 128 = d.toNat / 64 % 64 + 128 ∧
                  c.toNat % 64 + 128 < d.toNat % 64 + 128)) := by omega
    rw [encode_four (by omega), encode_four h3]
    refine byte_cons_lt (by omega) (hbytes.imp_right fun ⟨he, hl⟩ => ⟨he, ?_⟩)
    refine byte_cons_lt (by omega) (hl.imp_right fun ⟨he, hl⟩ => ⟨he, ?_⟩)
    refine byte_cons_lt (by omega) (hl.imp_right fun ⟨he, hl⟩ => ⟨he, ?_⟩)
    exact byte_cons_lt (by omega) (.inl hl)

theorem flatMap_encode_lt {a b : List Char} (h : a < b) :
    a.flatMap String.utf8EncodeChar < b.flatMap String.utf8EncodeChar := by
  induction a generalizing b with
  | nil =>
    cases b with
    | nil => cases h
    | cons d ds =>
      obtain ⟨n, t, hn, -⟩ := exists_encode_eq_cons d
      rw [List.flatMap_cons, hn]
      exact List.nil_lt_cons ..
  | cons c cs ih =>
    cases b with
    | nil => cases h
    | cons d ds =>
      rw [List.flatMap_cons, List.flatMap_cons]
      rcases List.cons_lt_cons_iff.mp h with hlt | ⟨rfl, hlt⟩
      · exact encode_lt hlt
      · exact List.append_left_lt (ih hlt)

/-- **Texts are in the order of their bytes.** -/
theorem toUTF8_lt {s t : String} (h : s < t) : s.toUTF8.toList < t.toUTF8.toList := by
  rw [toList_toUTF8, toList_toUTF8]
  exact flatMap_encode_lt (String.lt_iff.mp h)

end Order

/-! ## NULs -/

theorem zero_eq_byte_iff {n : Nat} (h : n < 256) : (0 : UInt8) = UInt8.ofNat n ↔ n = 0 := by
  rw [← UInt8.toNat_inj, toNat_byte h]
  exact eq_comm

theorem zero_mem_encode_iff (c : Char) : 0 ∈ String.utf8EncodeChar c ↔ c = '\x00' := by
  have hzero : c = '\x00' ↔ c.toNat = 0 := by
    rw [Char.ext_iff, ← UInt32.toNat_inj]
    rfl
  have hvalid := toNat_valid c
  rw [hzero]
  by_cases h1 : c.toNat ≤ 127
  · rw [encode_one h1, List.mem_singleton, zero_eq_byte_iff (by omega)]
  by_cases h2 : c.toNat ≤ 2047
  · rw [encode_two h1 h2]
    simp (disch := omega) only [List.mem_cons, List.not_mem_nil, zero_eq_byte_iff, or_false]
    omega
  by_cases h3 : c.toNat ≤ 65535
  · rw [encode_three h2 h3]
    simp (disch := omega) only [List.mem_cons, List.not_mem_nil, zero_eq_byte_iff, or_false]
    omega
  · rw [encode_four h3]
    simp (disch := omega) only [List.mem_cons, List.not_mem_nil, zero_eq_byte_iff, or_false]
    omega

/-- **A text holds a NUL exactly when its bytes do.** -/
theorem hasNul_eq_false_iff (s : String) :
    hasNul s = false ↔ ∀ x ∈ s.toUTF8.toList, (x == 0) = false := by
  have hmem : 0 ∈ s.toUTF8.toList ↔ '\x00' ∈ s.toList := by
    rw [toList_toUTF8, List.mem_flatMap]
    simp only [zero_mem_encode_iff, exists_eq_right]
  rw [hasNul, List.any_eq_false]
  constructor
  · intro h x hx
    refine beq_eq_false_iff_ne.mpr ?_
    rintro rfl
    exact h _ (hmem.mp hx) (beq_self_eq_true _)
  · intro h c hc hnul
    obtain rfl := beq_iff_eq.mp hnul
    exact beq_eq_false_iff_ne.mp (h 0 (hmem.mpr hc)) rfl

end Text

end Milepost
