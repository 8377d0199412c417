import Mathlib.Data.List.DropRight
import Milepost.Proofs.Names

/-!
# The setting for pools

A connection may name the pools that are there from the start, in one text with commas between the
names. What lies between two commas is a name without the blanks around it, and is passed over if it
is empty. Only what is empty before the blanks are cut off is passed over: what is made of blanks
alone asks for a pool of the empty name.

* `Text.trim_eq_iff`, `Text.splitAtComma_eq_iff`: what is cut off, and what lies between commas.
* `InMemoryConfig.exists_connect_iff`: no text in the setting keeps a connection from succeeding.
* `InMemoryConfig.starts_with_asked`: the pools that a connection starts with.
-/

namespace Milepost

/-! ## Texts between commas, and blanks around them -/

namespace Text

/-- The text has no characters but blanks. -/
def IsBlankText (s : String) : Prop := ∀ c ∈ s.toList, isBlank c = true

instance (s : String) : Decidable (IsBlankText s) :=
  decidable_of_iff (s.toList.all isBlank = true) List.all_eq_true

/-- The text `t` is `s` without the blanks around it. -/
structure IsTrimmed (s t : String) : Prop where
  around : ∃ before after, s = before ++ t ++ after ∧ IsBlankText before ∧ IsBlankText after
  first : ∀ c ∈ t.toList.head?, isBlank c = false
  last : ∀ c ∈ t.toList.getLast?, isBlank c = false

/-- The text is made of the segments with commas between them. -/
structure Segments (s : String) (segments : List String) : Prop where
  joined : ",".intercalate segments = s
  ne_nil : segments ≠ []
  plain : ∀ g ∈ segments, ',' ∉ g.toList

variable {s t : String} {segments : List String}

/-- What follows blanks and begins with none is left when they are dropped. -/
theorem dropWhile_blanks {blanks cs : List Char} (hblanks : ∀ c ∈ blanks, isBlank c = true)
    (hcs : ∀ c ∈ cs.head?, isBlank c = false) : (blanks ++ cs).dropWhile isBlank = cs := by
  rw [List.dropWhile_append_of_pos hblanks]
  cases cs with
  | nil => rfl
  | cons c cs => exact List.dropWhile_cons_of_neg (Bool.eq_false_iff.mp (hcs c rfl))

/-- What is left when the blanks are dropped begins with none. -/
theorem not_isBlank_of_head? {c : Char} {cs : List Char}
    (h : c ∈ (cs.dropWhile isBlank).head?) : isBlank c = false := by
  have hhead := List.head?_dropWhile_not isBlank cs
  rwa [h] at hhead

theorem isTrimmed_trim (s : String) : IsTrimmed s (trim s) := by
  have hinner : (s.toList.dropWhile isBlank).rdropWhile isBlank = trimChars s.toList := rfl
  constructor
  case around =>
    refine ⟨.ofList (s.toList.takeWhile isBlank),
      .ofList ((s.toList.dropWhile isBlank).rtakeWhile isBlank), ?_, ?_, ?_⟩
    · rw [← String.toList_inj, trim, ← hinner]
      simp only [String.toList_append, String.toList_ofList, List.append_assoc,
        List.rdropWhile_append_rtakeWhile, List.takeWhile_append_dropWhile]
    · intro c hc
      rw [String.toList_ofList] at hc
      exact List.mem_takeWhile_imp hc
    · intro c hc
      rw [String.toList_ofList] at hc
      exact List.mem_rtakeWhile_imp hc
  case first =>
    intro c hc
    rw [trim, String.toList_ofList, ← hinner] at hc
    obtain ⟨rest, hrest⟩ := List.rdropWhile_prefix isBlank (l := s.toList.dropWhile isBlank)
    have hfound : c ∈ (s.toList.dropWhile isBlank).head? := by
      rw [← hrest, List.head?_append, hc]
      rfl
    exact not_isBlank_of_head? hfound
  case last =>
    intro c hc
    rw [trim, String.toList_ofList, trimChars, List.getLast?_reverse] at hc
    exact not_isBlank_of_head? hc

/-- **What is left of a text is what lies between the blanks around it.** -/
theorem trim_eq_iff : trim s = t ↔ IsTrimmed s t := by
  refine ⟨fun h => h ▸ isTrimmed_trim s, ?_⟩
  rintro ⟨⟨before, after, rfl, hbefore, hafter⟩, hfirst, hlast⟩
  have hback : ∀ c ∈ after.toList.reverse, isBlank c = true := fun c hc =>
    hafter c (List.mem_reverse.mp hc)
  have hreverse : (t.toList.reverse).head? = t.toList.getLast? := List.head?_reverse
  rw [← String.toList_inj, trim, String.toList_ofList, trimChars, String.toList_append,
    String.toList_append, List.append_assoc, List.dropWhile_append_of_pos hbefore]
  by_cases ht : t.toList = []
  · -- Nothing is left, and the blanks after it are dropped with those before.
    rw [ht, List.nil_append, List.dropWhile_eq_nil_iff.mpr hafter]
    rfl
  · have hhead : (t.toList ++ after.toList).head? = t.toList.head? :=
      List.head?_append_of_ne_nil _ ht
    have hfront : (t.toList ++ after.toList).dropWhile isBlank = t.toList ++ after.toList :=
      dropWhile_blanks (List.forall_mem_nil _) (hhead ▸ hfirst)
    rw [hfront, List.reverse_append, dropWhile_blanks hback (hreverse ▸ hlast),
      List.reverse_reverse]

/-- Nothing is left of blanks alone. -/
theorem isTrimmed_empty_iff : IsTrimmed s "" ↔ IsBlankText s := by
  constructor
  · rintro ⟨⟨before, after, rfl, hbefore, hafter⟩, -, -⟩ c hc
    rw [String.append_empty, String.toList_append] at hc
    exact (List.mem_append.mp hc).elim (hbefore c) (hafter c)
  · exact fun h => ⟨⟨s, "", by simp, h, nofun⟩, nofun, nofun⟩

/-- Of nothing nothing is left. -/
theorem IsTrimmed.eq_empty (h : IsTrimmed "" t) : t = "" := (trim_eq_iff.mpr h).symm

theorem comma_not_mem_of_splitOn {cs g : List Char} (h : g ∈ cs.splitOn ',') : ',' ∉ g := by
  induction cs generalizing g with
  | nil =>
    rw [List.splitOn_nil, List.mem_singleton] at h
    exact h ▸ List.not_mem_nil
  | cons c cs ih =>
    rw [List.splitOn_cons_eq_if_modifyHead] at h
    split at h
    · rcases List.mem_cons.mp h with rfl | h
      · exact List.not_mem_nil
      · exact ih h
    · rename_i hc
      obtain ⟨head, rest, hsplit⟩ := List.exists_cons_of_ne_nil (List.splitOn_ne_nil ',' cs)
      rw [hsplit] at h ih
      rcases List.mem_cons.mp h with rfl | h
      · rw [List.mem_cons, not_or]
        exact ⟨fun he => hc (he ▸ beq_self_eq_true ','), ih List.mem_cons_self⟩
      · exact ih (List.mem_cons_of_mem _ h)

/-- **What lies between the commas of a text.** -/
theorem splitAtComma_eq_iff : splitAtComma s = segments ↔ Segments s segments := by
  have hsplit : splitAtComma s = (s.toList.splitOn ',').map String.ofList := rfl
  constructor
  · rintro rfl
    constructor
    case joined =>
      have hid : String.toList ∘ String.ofList = id := funext fun _ => String.toList_ofList
      rw [← String.toList_inj, String.toList_intercalate, hsplit, List.map_map, hid, List.map_id]
      exact List.intercalate_splitOn ','
    case ne_nil => exact mt List.map_eq_nil_iff.mp (List.splitOn_ne_nil ',' _)
    case plain =>
      intro g hg
      obtain ⟨cs, hcs, rfl⟩ := List.mem_map.mp (hsplit ▸ hg)
      rw [String.toList_ofList]
      exact comma_not_mem_of_splitOn hcs
  · rintro ⟨rfl, hne, hplain⟩
    have hcomma : ",".toList = [','] := rfl
    have hid : String.ofList ∘ String.toList = id := funext fun _ => String.ofList_toList
    rw [hsplit, String.toList_intercalate, hcomma, List.splitOn_intercalate, List.map_map, hid,
      List.map_id]
    · intro cs hcs
      obtain ⟨g, hg, rfl⟩ := List.mem_map.mp hcs
      exact hplain g hg
    · exact mt List.map_eq_nil_iff.mp hne

end Text

/-! ## Settings that are taken into account -/

namespace InMemoryConfig

variable {around : Surroundings} {config : ConnectionConfig} {c laid : InMemoryConfig}
  {key value name : String} {settings : List (String × String)} {segments : List String}
  {b : InMemory}

/-- The text of the setting can be read: an order is one of the two, a delay is a number. All other
settings take any text. -/
structure Reads (key value : String) : Prop where
  order : key = "memory_milestone_order" → ∃ order, orderOf? value = some order
  delay : key = "memory_durability_delay_ms" →
    ∃ delay, Text.Natural.readBelow 0x10000000000000000 value = .ok delay

theorem exists_applySetting_iff : (∃ laid, c.applySetting key value = .ok laid) ↔
    Reads key value := by
  unfold applySetting
  split
  · cases ho : orderOf? value with
    | none =>
      refine iff_of_false nofun fun h => ?_
      obtain ⟨order, h⟩ := h.order rfl
      cases ho.symm.trans h
    | some order => exact iff_of_true ⟨_, rfl⟩ ⟨fun _ => ⟨order, ho⟩, nofun⟩
  · cases hd : Text.Natural.readBelow 0x10000000000000000 value with
    | error fault =>
      refine iff_of_false nofun fun h => ?_
      obtain ⟨delay, h⟩ := h.delay rfl
      cases hd.symm.trans h
    | ok delay => exact iff_of_true ⟨_, rfl⟩ ⟨nofun, fun _ => ⟨delay, hd⟩⟩
  · exact iff_of_true ⟨_, rfl⟩ ⟨nofun, nofun⟩
  · rename_i horder hdelay _
    exact iff_of_true ⟨_, rfl⟩ ⟨fun h => absurd h horder, fun h => absurd h hdelay⟩

theorem exists_applySettings_iff : (∃ laid, c.applySettings settings = .ok laid) ↔
    ∀ entry ∈ settings, Reads entry.1 entry.2 := by
  induction settings generalizing c with
  | nil => exact iff_of_true ⟨c, rfl⟩ nofun
  | cons entry rest ih =>
    obtain ⟨key, value⟩ := entry
    rw [List.forall_mem_cons]
    constructor
    · rintro ⟨laid, hl⟩
      obtain ⟨next, hone, hl⟩ := exists_of_bind_eq_ok hl
      exact ⟨exists_applySetting_iff.mp ⟨next, hone⟩, ih.mp ⟨laid, hl⟩⟩
    · rintro ⟨hone, hrest⟩
      obtain ⟨next, hone⟩ := exists_applySetting_iff.mpr hone
      obtain ⟨laid, hl⟩ := ih.mpr hrest
      refine ⟨laid, ?_⟩
      rw [applySettings, hone]
      exact hl

/-- **When a connection succeeds.** The sources outside are there, and the order and the delay can
be read. -/
theorem exists_connect_iff : (∃ b, connect around config = .ok b) ↔
    around.check config = .ok () ∧
      ∀ key value, config.settings[key]? = some value → Reads key value := by
  have hentries : (∀ entry ∈ config.settings.toList, Reads entry.1 entry.2) ↔
      ∀ key value, config.settings[key]? = some value → Reads key value := by
    rw [Prod.forall]
    exact forall₂_congr fun _ _ => by rw [Std.ExtTreeMap.mem_toList_iff_getElem?_eq_some]
  rw [← hentries, ← exists_applySettings_iff (c := {})]
  constructor
  · rintro ⟨b, h⟩
    obtain ⟨_, hcheck, h⟩ := exists_of_bind_eq_ok h
    obtain ⟨laid, happly, -⟩ := exists_of_map_eq_ok h
    exact ⟨hcheck, laid, happly⟩
  · rintro ⟨hcheck, laid, happly⟩
    refine ⟨.ofConfig laid, ?_⟩
    rw [connect, hcheck]
    change (applySettings {} config.settings.toList).map _ = _
    rw [happly]
    rfl

/-! ## The pools asked for -/

/-- Where no key comes twice, one setting asks for all pools. -/
theorem flatMap_asked (hkeys : settings.Pairwise fun a b => a.1 ≠ b.1)
    (h : ("memory_pools", value) ∈ settings) :
    settings.flatMap (fun entry => asked entry.1 entry.2) = poolNames value := by
  induction settings with
  | nil => cases h
  | cons entry rest ih =>
    obtain ⟨hentry, hrest⟩ := List.pairwise_cons.mp hkeys
    rw [List.flatMap_cons]
    rcases List.mem_cons.mp h with rfl | hmem
    · have hnone : rest.flatMap (fun entry => asked entry.1 entry.2) = [] := by
        rw [List.flatMap_eq_nil_iff]
        intro other hother
        rw [asked, if_neg (hentry other hother).symm]
      rw [hnone, List.append_nil]
      rfl
    · rw [asked, if_neg (hentry _ hmem), List.nil_append]
      exact ih hrest hmem

theorem store_of_connect (hvalue : config.settings["memory_pools"]? = some value)
    (h : connect around config = .ok b) : b.store = .ofPools (poolNames value) := by
  obtain ⟨laid, happly, rfl⟩ := laid_of_connect h
  have hkeys : config.settings.toList.Pairwise fun a b => a.1 ≠ b.1 :=
    Std.ExtTreeMap.distinct_keys_toList.imp fun h => mt Std.compare_eq_iff_eq.mpr h
  have hpools : laid.pools = poolNames value := by
    rw [pools_eq_of_applySettings happly, flatMap_asked hkeys
      (Std.ExtTreeMap.mem_toList_iff_getElem?_eq_some.mpr hvalue)]
    rfl
  rw [← hpools]
  rfl

theorem mem_poolNames_iff (hs : Text.Segments value segments) :
    name ∈ poolNames value ↔ ∃ g ∈ segments, g ≠ "" ∧ Text.IsTrimmed g name := by
  rw [poolNames, Text.splitAtComma_eq_iff.mpr hs, List.mem_map]
  refine exists_congr fun g => ?_
  rw [List.mem_filter, decide_eq_true_iff, Text.trim_eq_iff, and_assoc]

/-- **The pools that a connection starts with**, if one of its settings asks for pools. Whatever the
text of that setting is, it does not keep the connection from succeeding. What lies between its
commas and is not empty asks for a pool, whose name is that without the blanks around it; each
pool is made once. A pool of the empty name is asked for by what is made of blanks alone. As long as
there is no such thing between the commas, the names of the pools are all those that are not empty
when the blanks are cut off. -/
theorem starts_with_asked (hvalue : config.settings["memory_pools"]? = some value)
    (hsegments : Text.Segments value segments) :
    ((∃ b, connect around config = .ok b) ↔
      around.check config = .ok () ∧
        ∀ key text, config.settings[key]? = some text → Reads key text) ∧
    ∀ b, connect around config = .ok b →
      (∃ names, b.store.Counts names ∧
        ∀ name, name ∈ names ↔ ∃ g ∈ segments, g ≠ "" ∧ Text.IsTrimmed g name) ∧
      ("" ∈ b.store.poolNames ↔ ∃ g ∈ segments, g ≠ "" ∧ Text.IsBlankText g) ∧
      ((∀ g ∈ segments, Text.IsBlankText g → g = "") →
        ∀ name, name ∈ b.store.poolNames ↔
          name ≠ "" ∧ ∃ g ∈ segments, Text.IsTrimmed g name) := by
  refine ⟨exists_connect_iff, fun b hb => ?_⟩
  have hcounts := Store.counts_ofPools (poolNames value)
  rw [← store_of_connect hvalue hb] at hcounts
  have hasked : ∀ name, name ∈ (poolNames value).eraseDups ↔
      ∃ g ∈ segments, g ≠ "" ∧ Text.IsTrimmed g name := fun name => by
    rw [List.mem_eraseDups, mem_poolNames_iff hsegments]
  have hnames : ∀ name, name ∈ b.store.poolNames ↔
      ∃ g ∈ segments, g ≠ "" ∧ Text.IsTrimmed g name := fun name => by
    rw [hcounts.mem_poolNames, hasked]
  refine ⟨⟨_, hcounts, hasked⟩, ?_, fun hplain name => ?_⟩
  · simp only [hnames, Text.isTrimmed_empty_iff]
  · rw [hnames]
    constructor
    · rintro ⟨g, hg, hne, ht⟩
      refine ⟨?_, g, hg, ht⟩
      rintro rfl
      exact hne (hplain g hg (Text.isTrimmed_empty_iff.mp ht))
    · rintro ⟨hname, g, hg, ht⟩
      refine ⟨g, hg, ?_, ht⟩
      rintro rfl
      exact hname ht.eq_empty

/-! ## Two settings

One has blanks, an empty name and one name twice, the other something made of a blank alone. -/

theorem settings_connection (value : String) :
    (Sample.connection value).settings["memory_pools"]? = some value :=
  Std.ExtTreeMap.getElem?_insert_self

theorem exists_make_connection (value : String) :
    ∃ b, Sample.make (Sample.connection value) = .ok b := by
  refine exists_connect_iff.mpr ⟨rfl, fun key text h => ?_⟩
  have hkey : key = "memory_pools" := by
    change ((∅ : Std.ExtTreeMap String String).insert "memory_pools" value)[key]? = some text at h
    rw [Lookup.getElem?_insert] at h
    split at h
    · assumption
    · simp at h
  subst hkey
  exact ⟨nofun, nofun⟩

theorem starts_with_asked_twice :
    (Sample.connection " a,,b , a").settings["memory_pools"]? = some " a,,b , a" ∧
      Text.Segments " a,,b , a" [" a", "", "b ", " a"] ∧
      ∃ b, Sample.make (Sample.connection " a,,b , a") = .ok b ∧ "" ∉ b.store.poolNames ∧
        ∀ name, name ∈ b.store.poolNames ↔
          name ≠ "" ∧ ∃ g ∈ [" a", "", "b ", " a"], Text.IsTrimmed g name := by
  have hvalue := settings_connection " a,,b , a"
  have hsegments : Text.Segments " a,,b , a" [" a", "", "b ", " a"] :=
    Text.splitAtComma_eq_iff.mp (by decide +kernel)
  obtain ⟨b, hb⟩ := exists_make_connection " a,,b , a"
  obtain ⟨-, hempty, hnames⟩ := (starts_with_asked hvalue hsegments).2 b hb
  exact ⟨hvalue, hsegments, b, hb, fun h => absurd (hempty.mp h) (by decide +kernel),
    hnames (by decide +kernel)⟩

/-- A blank between two commas makes a pool of the empty name, which hides all pools from the
list. -/
theorem starts_nameless :
    ∃ b, Sample.make (Sample.connection "a, ,b") = .ok b ∧
      b.store.poolNames = ["", "a", "b"] ∧
      (Sample.cluster.listPools { backend := b }).1 = .ok [] := by
  obtain ⟨b, hb⟩ := exists_make_connection "a, ,b"
  have hstore : b.store = .ofPools ["a", "", "b"] :=
    (store_of_connect (settings_connection "a, ,b") hb).trans
      (congrArg Store.ofPools (by decide +kernel))
  have hnames : b.store.poolNames = ["", "a", "b"] := by
    rw [hstore]
    decide +kernel
  refine ⟨b, hb, hnames, ?_⟩
  have hlist := Cluster.listPools_eq (c := Sample.cluster) (w := { backend := b })
  rw [hnames] at hlist
  exact hlist (by decide +kernel) (by decide +kernel)

end InMemoryConfig

end Milepost
