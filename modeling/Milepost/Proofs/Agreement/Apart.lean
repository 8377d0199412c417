import Milepost.Proofs.Agreement.Times
import Milepost.Proofs.Session

/-!
# Changes of different objects

A change of one object neither sees nor touches another. So two changes of different objects can
change places; and where two sessions make the same changes of each object in the same order, it
does not matter how those of different objects come between each other: in which order operations
reached the queue, when the worker applied them, what was read meanwhile. As long as no pool is
made or removed, both sessions end with the same in every object, and every change had the same
answer.

* `Store.SameButTimes.swap`: two changes of different objects can change places.
* `Store.Leads.project`: the changes of one object, made alone, have the same answers and lead to
  the same object.
* `Store.Leads.interleave`: what was said of two sessions.
* `Use.changes_apart`: all of it.
-/

namespace Milepost

/-- Whether an access makes or removes a pool. -/
def Access.isPoolCall : Access → Bool
  | call (.createPool _) | call (.deletePool _) => true
  | call (.setAttribute ..) | call (.removeAttribute ..) | edit .. | read .. | flush _ => false

/-- Whether a turn changes the object of the key. -/
def Turn.changes (key : ObjectKey) (x : Turn) : Bool := x.access.changed? == some key

/-- The turns, had one after the other, lead from a store to another, whatever the clock shows at
each of them. -/
inductive Store.Leads : Store → List Turn → Store → Prop
  | nil (s : Store) : Leads s [] s
  | cons {s t : Store} {x : Turn} {turns : List Turn} (now : Int)
      (ha : x.answer = (x.access.run now s).1) (hl : Leads (x.access.run now s).2 turns t) :
    Leads s (x :: turns) t

variable {s s' t t' u : Store} {key key' : ObjectKey} {x y : Access} {turns turns' : List Turn}

/-! ## Stores that are the same under a key -/

namespace Store.SameAt

theorem refl (key : ObjectKey) (s : Store) : SameAt key s s := ⟨rfl, rfl⟩

theorem symm (h : SameAt key s t) : SameAt key t s := ⟨h.hasPool.symm, h.object.symm⟩

theorem trans (h : SameAt key s t) (h' : SameAt key t u) : SameAt key s u :=
  ⟨h'.hasPool.trans h.hasPool, h'.object.trans h.object⟩

end Store.SameAt

/-- What changes another object leaves the one of the key. -/
theorem Store.SameBut.sameAt (h : SameBut key' s t) (hne : key ≠ key') : SameAt key s t :=
  ⟨h.hasPool, by rw [h.objects key hne]⟩

namespace Access

/-- An access that changes no object and no pool leaves the store. -/
theorem store_run (hx : x.changed? = none) (hp : x.isPoolCall = false) (now : Int) (s : Store) :
    (x.run now s).2 = s := by
  cases x with
  | read | flush => rfl
  | edit => cases hx
  | call k =>
    cases k with
    | createPool | deletePool => cases hp
    | setAttribute | removeAttribute => cases hx

/-- An access that neither changes the object of a key nor a pool leaves what is there. -/
theorem sameAt_run (hx : x.changed? ≠ some key) (hp : x.isPoolCall = false) (now : Int)
    (s : Store) : s.SameAt key (x.run now s).2 := by
  cases hc : x.changed? with
  | none => rw [store_run hc hp]; exact .refl key s
  | some k => exact (x.sameBut_run hc now s).sameAt fun hk => hx (hk ▸ hc)

/-- An access that makes and removes no pool leaves the pools. -/
theorem pools_run (hp : x.isPoolCall = false) (now : Int) (s : Store) :
    (x.run now s).2.pools = s.pools ∧ (x.run now s).2.lastPool = s.lastPool := by
  cases hc : x.changed? with
  | none => rw [store_run hc hp]; exact ⟨rfl, rfl⟩
  | some k => exact ⟨(x.sameBut_run hc now s).pools, (x.sameBut_run hc now s).lastPool⟩

end Access

/-! ## Two changes -/

/-- **Two changes of different objects can change places.** Each has the same answer as if it came
first. -/
theorem Store.SameButTimes.swap (hx : x.changed? = some key) (hy : y.changed? = some key')
    (hne : key ≠ key') (s : Store) (now₁ now₂ now₁' now₂' : Int) :
    (y.run now₂ (x.run now₁ s).2).1 = (y.run now₁' s).1 ∧
      (x.run now₂' (y.run now₁' s).2).1 = (x.run now₁ s).1 ∧
      SameButTimes (y.run now₂ (x.run now₁ s).2).2 (x.run now₂' (y.run now₁' s).2).2 := by
  have hbutx := x.sameBut_run hx now₁ s
  have hbuty := y.sameBut_run hy now₁' s
  have hbutxy := y.sameBut_run hy now₂ (x.run now₁ s).2
  have hbutyx := x.sameBut_run hx now₂' (y.run now₁' s).2
  -- Each finds the same under its own key, whether or not the other one came first.
  have hatx : SameOutcome (SameAt key) (x.run now₁ s) (x.run now₂' (y.run now₁' s).2) :=
    (hbuty.sameAt hne).run hx
  have haty : SameOutcome (SameAt key') (y.run now₁' s) (y.run now₂ (x.run now₁ s).2) :=
    (hbutx.sameAt hne.symm).run hy
  refine ⟨haty.answer, hatx.answer, ?_, ?_, fun k => ?_⟩
  · rw [hbutyx.pools, hbuty.pools, hbutxy.pools, hbutx.pools]
  · rw [hbutyx.lastPool, hbuty.lastPool, hbutxy.lastPool, hbutx.lastPool]
  · by_cases hk : k = key
    · subst hk
      exact ((hbutxy.sameAt hne).symm.trans hatx.store).object
    · by_cases hk' : k = key'
      · subst hk'
        exact (haty.store.symm.trans (hbutyx.sameAt hk)).object
      · rw [hbutyx.objects k hk, hbuty.objects k hk', hbutxy.objects k hk', hbutx.objects k hk]

/-! ## Many changes -/

namespace Store.Leads

/-- Turns that make and remove no pool leave the pools. -/
theorem pools (h : Leads s turns t) (hp : ∀ x ∈ turns, x.access.isPoolCall = false) :
    t.pools = s.pools ∧ t.lastPool = s.lastPool := by
  induction h with
  | nil => exact ⟨rfl, rfl⟩
  | @cons s t x turns now _ _ ih =>
    obtain ⟨hpools, hlast⟩ := Access.pools_run (hp x List.mem_cons_self) now s
    obtain ⟨hpools', hlast'⟩ := ih fun y hy => hp y (List.mem_cons_of_mem x hy)
    exact ⟨hpools'.trans hpools, hlast'.trans hlast⟩

/-- **The changes of one object, made alone**, have the answers that they had among others, and
lead to the same under its key. -/
theorem project (h : Leads s turns t) (hp : ∀ x ∈ turns, x.access.isPoolCall = false)
    (hs : SameAt key s s') :
    ∃ t', Leads s' (turns.filter (·.changes key)) t' ∧ SameAt key t t' := by
  induction h generalizing s' with
  | nil s => exact ⟨s', .nil s', hs⟩
  | @cons s t x turns now ha _ ih =>
    have hp' := fun y hy => hp y (List.mem_cons_of_mem x hy)
    by_cases hx : x.changes key = true
    · have hrun : SameOutcome (SameAt key) (x.access.run now s) (x.access.run now s') :=
        hs.run (eq_of_beq hx)
      obtain ⟨t', hl, ht⟩ := ih hp' hrun.store
      rw [List.filter_cons_of_pos hx]
      exact ⟨t', .cons now (ha.trans hrun.answer.symm) hl, ht⟩
    · -- The turn is left out, and what is under the key stays as it is with it or without it.
      have hsame := x.access.sameAt_run (fun h => hx (beq_iff_eq.mpr h))
        (hp x List.mem_cons_self) now s
      rw [List.filter_cons_of_neg hx]
      exact ih hp' (hsame.symm.trans hs)

/-- The same changes of one object have the same answers, and lead to the same under its key. -/
theorem sameChanges (h : Leads s turns t) (h' : Leads s' turns' t') (hs : SameAt key s s')
    (hx : ∀ x ∈ turns, x.changes key = true)
    (hsame : turns'.map (·.access) = turns.map (·.access)) :
    turns'.map (·.answer) = turns.map (·.answer) ∧ SameAt key t t' := by
  induction h generalizing s' turns' with
  | nil s =>
    obtain rfl := List.map_eq_nil_iff.mp hsame
    cases h'
    exact ⟨rfl, hs⟩
  | @cons s t x turns now ha _ ih =>
    cases h' with
    | nil => cases hsame
    | @cons _ _ x' turns' now' ha' hl' =>
      obtain ⟨haccess : x'.access = x.access, hsame⟩ := List.cons.inj hsame
      rw [haccess] at ha' hl'
      have hrun : SameOutcome (SameAt key) (x.access.run now s) (x.access.run now' s') :=
        hs.run (eq_of_beq (hx x List.mem_cons_self))
      obtain ⟨hanswers, ht⟩ :=
        ih hl' hrun.store (fun y hy => hx y (List.mem_cons_of_mem x hy)) hsame
      rw [List.map_cons, List.map_cons, hanswers, ha', ha, hrun.answer]
      exact ⟨rfl, ht⟩

/-- **It does not matter how the changes of different objects come between each other.** -/
theorem interleave (h : Leads s turns t) (h' : Leads s' turns' t') (hs : SameButTimes s s')
    (hp : ∀ x ∈ turns, x.access.isPoolCall = false)
    (hp' : ∀ x ∈ turns', x.access.isPoolCall = false)
    (hsame : ∀ key, (turns'.filter (·.changes key)).map (·.access) =
      (turns.filter (·.changes key)).map (·.access)) :
    SameButTimes t t' ∧ ∀ key, (turns'.filter (·.changes key)).map (·.answer) =
      (turns.filter (·.changes key)).map (·.answer) := by
  have hkey : ∀ key, (turns'.filter (·.changes key)).map (·.answer) =
      (turns.filter (·.changes key)).map (·.answer) ∧ SameAt key t t' := by
    intro key
    obtain ⟨u, hl, hu⟩ := h.project hp (.refl key s)
    obtain ⟨u', hl', hu'⟩ := h'.project hp' (.refl key s')
    obtain ⟨hanswers, huu'⟩ := hl.sameChanges hl' (hs.sameAt key)
      (fun x hx => (List.mem_filter.mp hx).2) (hsame key)
    exact ⟨hanswers, hu.trans (huu'.trans hu'.symm)⟩
  obtain ⟨hpools, hlast⟩ := h.pools hp
  obtain ⟨hpools', hlast'⟩ := h'.pools hp'
  exact ⟨⟨by rw [hpools', hs.pools, hpools], by rw [hlast', hs.lastPool, hlast],
    fun key => (hkey key).2.object⟩, fun key => (hkey key).1⟩

end Store.Leads

/-! ## Two sessions -/

namespace Use

variable {uses : List Use} {b b' : InMemory × Shelf}

/-- The turns that uses have lead from the store before to the store after them. -/
theorem exists_leads (hu : replay turns b uses = some (turns', b')) :
    ∃ more, turns' = turns ++ more ∧ b.1.store.Leads more b'.1.store := by
  induction uses generalizing turns b with
  | nil =>
    cases hu
    exact ⟨[], (List.append_nil _).symm, .nil _⟩
  | cons u us ih =>
    obtain ⟨c, hn, hu⟩ := Option.bind_eq_some_iff.mp hu
    obtain ⟨more, hmore, hl⟩ := ih hu
    cases hx : u.turn? b with
    | none =>
      rw [hx, Option.toList_none, List.append_nil] at hmore
      rw [u.store_eq hn hx] at hl
      exact ⟨more, hmore, hl⟩
    | some x =>
      obtain ⟨hanswer, hstore⟩ := Prod.mk.inj (u.run_eq hn hx)
      rw [hx, Option.toList_some, List.append_assoc, List.singleton_append] at hmore
      rw [hstore] at hl
      exact ⟨x :: more, hmore, .cons b.1.now hanswer hl⟩

theorem leads (hu : replay [] b uses = some (turns, b')) : b.1.store.Leads turns b'.1.store := by
  obtain ⟨more, hmore, hl⟩ := exists_leads hu
  rw [List.nil_append] at hmore
  exact hmore ▸ hl

/-- **The order of changes of different objects does not matter.** A change of an object leaves all
other objects and the pools. Two changes of different objects, in whatever order they are made and
whatever the clock shows, have the same answers and lead to the same objects, but for the times of
their last changes. So do two sessions that start with the same, make and remove no pools, and make
the same changes of each object in the same order, however those of different objects come between
each other. -/
theorem changes_apart :
    (∀ (s : Store) (x : Access) (key : ObjectKey) (now : Int), x.changed? = some key →
      s.SameBut key (x.run now s).2) ∧
    (∀ (s : Store) (x y : Access) (key key' : ObjectKey) (now₁ now₂ now₁' now₂' : Int),
      x.changed? = some key → y.changed? = some key' → key ≠ key' →
      (y.run now₂ (x.run now₁ s).2).1 = (y.run now₁' s).1 ∧
        (x.run now₂' (y.run now₁' s).2).1 = (x.run now₁ s).1 ∧
        (y.run now₂ (x.run now₁ s).2).2.SameButTimes (x.run now₂' (y.run now₁' s).2).2) ∧
    ∀ (b b' c c' : InMemory × Shelf) (uses uses' : List Use) (turns turns' : List Turn),
      replay [] b uses = some (turns, c) → replay [] b' uses' = some (turns', c') →
      b.1.store.SameButTimes b'.1.store →
      (∀ x ∈ turns, x.access.isPoolCall = false) → (∀ x ∈ turns', x.access.isPoolCall = false) →
      (∀ key, (turns'.filter (·.changes key)).map (·.access) =
        (turns.filter (·.changes key)).map (·.access)) →
      c.1.store.SameButTimes c'.1.store ∧
        ∀ key, (turns'.filter (·.changes key)).map (·.answer) =
          (turns.filter (·.changes key)).map (·.answer) := by
  refine ⟨fun s x key now hx => x.sameBut_run hx now s, ?_, ?_⟩
  · intro s x y key key' now₁ now₂ now₁' now₂' hx hy hne
    exact Store.SameButTimes.swap hx hy hne s now₁ now₂ now₁' now₂'
  · intro b b' c c' uses uses' turns turns' hu hu' hs hp hp' hsame
    exact (leads hu).interleave (leads hu') hs hp hp' hsame

end Use

/-! ## Two orders of four changes

Two objects are changed twice each. In one session the changes of the first come between those of
the second, in the other they come after them, and the clock goes on before the last. -/

namespace Sample

def firstKey : ObjectKey := (1, "first")

def secondKey : ObjectKey := (1, "second")

def mixed : List Use :=
  [.createCompletion, .createCompletion, .createCompletion,
    .issue 1 "first" 0 (.edit (.append ⟨#[7]⟩)), .issue 1 "second" 1 (.edit (.append ⟨#[8]⟩)),
    .issue 1 "first" 2 (.edit .remove), .call (.setAttribute secondKey "color" ⟨#[9]⟩),
    .work, .work, .work, .work, .work, .work, .work]

def grouped : List Use :=
  [.createCompletion, .createCompletion, .createCompletion,
    .call (.setAttribute secondKey "color" ⟨#[9]⟩), .issue 1 "second" 0 (.edit (.append ⟨#[8]⟩)),
    .work, .work, .work, .issue 1 "first" 1 (.edit (.append ⟨#[7]⟩)), .work, .work, .work,
    .clock 60, .issue 1 "first" 2 (.edit .remove), .work]

theorem isSome_mixed :
    (Use.replay [] (.ofConfig { pools := ["data"] }, {}) mixed).isSome = true := by
  decide +kernel

theorem isSome_grouped :
    (Use.replay [] (.ofConfig { pools := ["data"] }, {}) grouped).isSome = true := by
  decide +kernel

/-- The turns of the first session, and where it ends. -/
@[irreducible]
def mixedSession : List Turn × InMemory × Shelf :=
  (Use.replay [] (.ofConfig { pools := ["data"] }, {}) mixed).get isSome_mixed

/-- The turns of the second session, and where it ends. -/
@[irreducible]
def groupedSession : List Turn × InMemory × Shelf :=
  (Use.replay [] (.ofConfig { pools := ["data"] }, {}) grouped).get isSome_grouped

theorem replay_mixed :
    Use.replay [] (.ofConfig { pools := ["data"] }, {}) mixed = some mixedSession := by
  unfold mixedSession
  exact (Option.some_get isSome_mixed).symm

theorem replay_grouped :
    Use.replay [] (.ofConfig { pools := ["data"] }, {}) grouped = some groupedSession := by
  unfold groupedSession
  exact (Option.some_get isSome_grouped).symm

theorem turns_mixed : mixedSession.1 =
    [⟨.call (.setAttribute secondKey "color" ⟨#[9]⟩), 0, none⟩,
      ⟨.edit firstKey (.append ⟨#[7]⟩), 0, some 0⟩, ⟨.edit secondKey (.append ⟨#[8]⟩), 0, some 1⟩,
      ⟨.edit firstKey .remove, 0, some 2⟩] := by
  decide +kernel

theorem turns_grouped : groupedSession.1 =
    [⟨.call (.setAttribute secondKey "color" ⟨#[9]⟩), 0, none⟩,
      ⟨.edit secondKey (.append ⟨#[8]⟩), 0, some 0⟩, ⟨.edit firstKey (.append ⟨#[7]⟩), 0, some 1⟩,
      ⟨.edit firstKey .remove, 0, some 2⟩] := by
  decide +kernel

/-- Each object goes through the same changes in both sessions. -/
theorem accesses_eq (key : ObjectKey) :
    (groupedSession.1.filter (·.changes key)).map (·.access) =
      (mixedSession.1.filter (·.changes key)).map (·.access) := by
  rw [turns_mixed, turns_grouped]
  by_cases h : firstKey = key
  · subst h
    decide +kernel
  · by_cases h' : secondKey = key
    · subst h'
      decide +kernel
    · simp [Turn.changes, Access.changed?, h, h']

end Sample

/-- Both sessions end with the one object gone and the other one as it was made. Then the second
object can be removed, whether a removal of the first one is tried before or not. -/
theorem Use.changes_apart_of_two :
    Use.replay [] (.ofConfig { pools := ["data"] }, {}) Sample.mixed = some Sample.mixedSession ∧
      Use.replay [] (.ofConfig { pools := ["data"] }, {}) Sample.grouped =
        some Sample.groupedSession ∧
      Sample.mixedSession.1.map (·.access) ≠ Sample.groupedSession.1.map (·.access) ∧
      Sample.mixedSession.2.1.objectData? Sample.secondKey = some ⟨#[8]⟩ ∧
      Sample.mixedSession.2.1.store.SameButTimes Sample.groupedSession.2.1.store ∧
      ((Access.edit Sample.secondKey .remove).run 2
        ((Access.edit Sample.firstKey .remove).run 1 Sample.mixedSession.2.1.store).2).1 = 0 := by
  have hpools : ∀ x ∈ Sample.mixedSession.1, x.access.isPoolCall = false := by decide +kernel
  have hpools' : ∀ x ∈ Sample.groupedSession.1, x.access.isPoolCall = false := by decide +kernel
  have hsessions := changes_apart.2.2 _ _ _ _ _ _ _ _ Sample.replay_mixed Sample.replay_grouped
    (.refl _) hpools hpools' Sample.accesses_eq
  have hpair := changes_apart.2.1 Sample.mixedSession.2.1.store (.edit Sample.firstKey .remove)
    (.edit Sample.secondKey .remove) Sample.firstKey Sample.secondKey 1 2 3 4 rfl rfl (by decide)
  refine ⟨Sample.replay_mixed, Sample.replay_grouped, by decide +kernel, by decide +kernel,
    hsessions.1, ?_⟩
  rw [hpair.1]
  decide +kernel

end Milepost
