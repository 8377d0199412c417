import Mathlib.Logic.ExistsUnique
import Milepost.Proofs.Happenings

/-!
# Who holds the completions

Every completion that is not released is held by exactly one flight, and the backend's number of
live completions is the number of flights that hold one. `Custody` says so; a flight that makes
or releases a completion changes both sides, and nothing else touches either.

* `Run.custody`: it holds in every state of a run.
-/

namespace Milepost

namespace System

/-- The completion that a flight of the system holds. -/
def native? (s : System InMemory) (i : FlightId) : Option CompletionId :=
  s.flights[i]?.bind Flight.native?

/-- Who holds which completion, and what the backend counts. -/
structure Custody (s : System InMemory) : Prop where
  /-- A completion that is held is there and not released. -/
  held : ∀ {i c}, s.native? i = some c →
    c < s.world.backend.completions.size ∧ (s.world.backend.completion c).released = false
  /-- Two flights never hold the same completion. -/
  sole : ∀ {i j c}, s.native? i = some c → s.native? j = some c → i = j
  /-- A completion that is not released is held. -/
  covered : ∀ {c}, c < s.world.backend.completions.size →
    (s.world.backend.completion c).released = false → ∃ i, s.native? i = some c
  live : s.world.backend.live = s.flights.countP (·.native?.isSome)
  total : s.world.backend.live + s.world.backend.released = s.world.backend.completions.size
  once : s.world.backend.doubleReleases = 0
  doubles : ∀ a, s.world.doubles a = {}

variable {s : System InMemory} {i j : FlightId} {f g : Flight} {w : World InMemory}

theorem native?_eq (hf : s.flights[i]? = some f) : s.native? i = f.native? := by
  simp [native?, hf]

theorem exists_of_native? {c : CompletionId} (h : s.native? i = some c) :
    ∃ f, s.flights[i]? = some f ∧ f.native? = some c :=
  Option.bind_eq_some_iff.mp h

theorem native?_set_self (hf : s.flights[i]? = some f) :
    native? { world := w, flights := s.flights.setIfInBounds i g } i = g.native? := by
  have hi : i < s.flights.size := (Array.getElem?_eq_some_iff.mp hf).1
  simp [native?, hi]

theorem native?_set_of_ne (h : i ≠ j) :
    native? { world := w, flights := s.flights.setIfInBounds i g } j = s.native? j := by
  simp [native?, h]

/-- How many flights have a property after one of them changed. -/
theorem countP_set (p : Flight → Bool) (hf : s.flights[i]? = some f) :
    (s.flights.setIfInBounds i g).countP p + (if p f then 1 else 0) =
      s.flights.countP p + (if p g then 1 else 0) := by
  obtain ⟨hi, rfl⟩ := Array.getElem?_eq_some_iff.mp hf
  have hle := Array.boole_getElem_le_countP (p := p) hi
  rw [Array.setIfInBounds, dif_pos hi, Array.countP_set hi]
  omega

namespace Custody

theorem fresh (config : InMemoryConfig) (accounts : Nat) : Custody (.fresh config accounts) where
  held h := by simp [native?, System.fresh] at h
  sole h := by simp [native?, System.fresh] at h
  covered h := by simp [System.fresh, InMemory.ofConfig] at h
  live := rfl
  total := rfl
  once := rfl
  doubles a := by
    simp only [World.doubles, World.getMeters, System.fresh, Array.getElem?_replicate]
    split <;> rfl

/-- A completion is not released as long as exactly one flight holds it. -/
theorem released_eq_false_iff (hs : s.Custody) {c : CompletionId}
    (hlt : c < s.world.backend.completions.size) :
    (s.world.backend.completion c).released = false ↔ ∃! i, s.native? i = some c := by
  constructor
  · intro hr
    obtain ⟨i, hi⟩ := hs.covered hlt hr
    exact ⟨i, hi, fun j hj => hs.sole hj hi⟩
  · rintro ⟨i, hi, -⟩
    exact (hs.held hi).2

/-- What leaves the completions and who holds them preserves it. -/
theorem congr {t : System InMemory} (hs : s.Custody)
    (hb : s.world.backend.SameTokens t.world.backend) (hn : ∀ j, t.native? j = s.native? j)
    (hcount : t.flights.countP (·.native?.isSome) = s.flights.countP (·.native?.isSome))
    (hd : ∀ a, t.world.doubles a = s.world.doubles a) : t.Custody where
  held h := by rw [hb.size, hb.flags]; exact hs.held (hn _ ▸ h)
  sole h h' := hs.sole (hn _ ▸ h) (hn _ ▸ h')
  covered h h' := by
    obtain ⟨i, hi⟩ := hs.covered (hb.size ▸ h) (hb.flags _ ▸ h')
    exact ⟨i, (hn i).trans hi⟩
  live := by rw [hb.live, hcount]; exact hs.live
  total := by rw [hb.live, hb.released, hb.size]; exact hs.total
  once := hb.doubleReleases.trans hs.once
  doubles a := (hd a).trans (hs.doubles a)

/-- What a flight does without touching its completion. -/
theorem keep (hs : s.Custody) (hf : s.flights[i]? = some f) (hn : g.native? = f.native?)
    (hb : s.world.backend.SameTokens w.backend) (hd : ∀ a, w.doubles a = s.world.doubles a) :
    Custody { world := w, flights := s.flights.setIfInBounds i g } := by
  refine hs.congr hb (fun j => ?_) ?_ hd
  · by_cases hij : i = j
    · subst hij
      rw [native?_set_self hf, native?_eq hf, hn]
    · exact native?_set_of_ne hij
  · have hc := countP_set (g := g) (·.native?.isSome) hf
    rw [hn] at hc
    exact Nat.add_right_cancel hc

/-- A flight makes a completion. -/
theorem make (hs : s.Custody) (hf : s.flights[i]? = some f) (hnone : f.native? = none)
    (hn : g.native? = some s.world.backend.completions.size)
    (hb : w.backend = s.world.backend.createCompletion.2)
    (hd : ∀ a, w.doubles a = s.world.doubles a) :
    Custody { world := w, flights := s.flights.setIfInBounds i g } := by
  have hself := (native?_set_self (w := w) hf).trans hn
  have hsize : w.backend.completions.size = s.world.backend.completions.size + 1 := by
    rw [hb, InMemory.size_createCompletion]
  have hflags : ∀ c, w.backend.completion c = s.world.backend.completion c := by
    intro c
    rw [hb, InMemory.completion_createCompletion]
  have hcount := countP_set (g := g) (·.native?.isSome) hf
  simp only [hnone, hn, Option.isSome_none, Option.isSome_some, Bool.false_eq_true, if_false,
    if_true, Nat.add_zero] at hcount
  have fresh : ∀ {j c}, i ≠ j →
      native? { world := w, flights := s.flights.setIfInBounds i g } j = some c →
      s.native? j = some c ∧ c ≠ s.world.backend.completions.size := by
    intro j c hij h
    rw [native?_set_of_ne hij] at h
    exact ⟨h, Nat.ne_of_lt (hs.held h).1⟩
  constructor
  case held =>
    intro j c h
    rw [hsize, hflags]
    by_cases hij : i = j
    · subst hij
      obtain rfl := Option.some.inj (hself.symm.trans h)
      refine ⟨Nat.lt_succ_self _, ?_⟩
      rw [InMemory.completion_of_le (Nat.le_refl _)]
    · obtain ⟨hlt, hr⟩ := hs.held (fresh hij h).1
      exact ⟨Nat.lt_succ_of_lt hlt, hr⟩
  case sole =>
    -- Only the flight itself can have the new completion, so a second holder is an old one.
    intro j k c h h'
    by_cases hij : i = j <;> by_cases hik : i = k
    · exact hij.symm.trans hik
    · subst hij
      exact absurd (Option.some.inj (h.symm.trans hself)) (fresh hik h').2
    · subst hik
      exact absurd (Option.some.inj (h'.symm.trans hself)) (fresh hij h).2
    · exact hs.sole (fresh hij h).1 (fresh hik h').1
  case covered =>
    intro c h h'
    rcases Nat.lt_succ_iff_lt_or_eq.mp (hsize ▸ h) with hlt | rfl
    · obtain ⟨j, hj⟩ := hs.covered hlt (hflags _ ▸ h')
      have hij : i ≠ j := by
        rintro rfl
        rw [native?_eq hf, hnone] at hj
        cases hj
      exact ⟨j, (native?_set_of_ne hij).trans hj⟩
    · exact ⟨i, hself⟩
  case live =>
    have := hs.live
    simp only [hb, InMemory.createCompletion, InMemory.newCompletion, hcount]
    omega
  case total =>
    have := hs.total
    simp only [hb, InMemory.createCompletion, InMemory.newCompletion, Array.size_push]
    omega
  case once =>
    rw [hb]
    exact hs.once
  case doubles =>
    intro a
    exact (hd a).trans (hs.doubles a)

/-- A flight releases its completion. -/
theorem release {c : CompletionId} (hs : s.Custody) (hf : s.flights[i]? = some f)
    (hc : f.native? = some c) (hn : g.native? = none)
    (hb : w.backend = s.world.backend.release c)
    (hd : ∀ a, w.doubles a = s.world.doubles a) :
    Custody { world := w, flights := s.flights.setIfInBounds i g } := by
  have hold := (native?_eq hf).trans hc
  obtain ⟨hlt, hr⟩ := hs.held hold
  have hself := (native?_set_self (w := w) hf).trans hn
  have hsize : w.backend.completions.size = s.world.backend.completions.size := by
    rw [hb, InMemory.size_release]
  have hflags : ∀ d, (w.backend.completion d).released =
      ((s.world.backend.completion d).released || c == d) := by
    intro d
    rw [hb, InMemory.completion_release hlt hr]
  have hcount := countP_set (g := g) (·.native?.isSome) hf
  simp only [hc, hn, Option.isSome_none, Option.isSome_some, Bool.false_eq_true, if_false,
    if_true, Nat.add_zero] at hcount
  have other : ∀ {j d}, native? { world := w, flights := s.flights.setIfInBounds i g } j = some d →
      i ≠ j ∧ s.native? j = some d := by
    intro j d h
    have hij : i ≠ j := by
      rintro rfl
      rw [hself] at h
      cases h
    exact ⟨hij, (native?_set_of_ne hij).symm.trans h⟩
  constructor
  case held =>
    intro j d h
    obtain ⟨hij, hj⟩ := other h
    have hcd : c ≠ d := by
      rintro rfl
      exact hij (hs.sole hold hj)
    rw [hsize, hflags, beq_eq_false_iff_ne.mpr hcd, Bool.or_false]
    exact hs.held hj
  case sole =>
    intro j k d h h'
    exact hs.sole (other h).2 (other h').2
  case covered =>
    intro d h h'
    rw [hflags, Bool.or_eq_false_iff] at h'
    obtain ⟨j, hj⟩ := hs.covered (hsize ▸ h) h'.1
    have hij : i ≠ j := by
      rintro rfl
      exact beq_eq_false_iff_ne.mp h'.2 (Option.some.inj (hold.symm.trans hj))
    exact ⟨j, (native?_set_of_ne hij).trans hj⟩
  case live =>
    have := hs.live
    rw [hb, InMemory.release_eq hr]
    simp only
    omega
  case total =>
    have := hs.total
    have hsum := InMemory.live_add_released_release c s.world.backend
    rw [← hb] at hsum
    change w.backend.live + w.backend.released = w.backend.completions.size
    rw [hsize]
    omega
  case once =>
    -- The completion was not released before, so this is no second release.
    rw [hb, InMemory.release_eq hr]
    exact hs.once
  case doubles =>
    intro a
    exact (hd a).trans (hs.doubles a)

/-- Whatever a flight does preserves it. -/
theorem deed (hs : s.Custody) (hf : s.flights[i]? = some f) (hm : f.Deed s.world g w)
    (hd : ∀ a, w.doubles a = s.world.doubles a) :
    Custody { world := w, flights := s.flights.setIfInBounds i g } := by
  cases hm with
  | quiet hb _ _ hn => exact hs.keep hf hn (hb ▸ .refl _) hd
  | make _ hb _ _ hnone hn => exact hs.make hf hnone hn hb hd
  | take hb _ _ ha _ hold hn => exact hs.keep hf (hn.trans hold.symm) (hb ▸ .submit ha) hd
  | ignore hb _ _ _ _ _ hold hn => exact hs.keep hf (hn.trans hold.symm) (hb ▸ .refl _) hd
  | refuse hb _ _ _ hn => exact hs.keep hf hn (hb ▸ .refl _) hd
  | release hb _ _ hc hn => exact hs.release hf hc hn hb hd

end Custody

end System

namespace Run

variable {config : InMemoryConfig} {accounts : Nat} {h : History} {s : System InMemory}

/-- **It holds in every state of a run.** -/
theorem custody (hr : Run config accounts h s) : s.Custody := by
  refine hr.preserved (P := fun _ s => s.Custody) (.fresh config accounts) ?_
  intro h s t e _ hs hh
  cases hh with
  | submit o r =>
    refine hs.congr (.refl _) (fun j => ?_) ?_ fun a => ?_
    · simp only [System.native?, System.flights_submit, Array.getElem?_push]
      split
      · rename_i hj
        rw [hj, Array.getElem?_eq_none (Nat.le_refl _)]
        rfl
      · rfl
    · rw [System.flights_submit, Array.countP_push]
      rfl
    · exact World.doubles_onMeters (by intro _; rfl)
  | issuer hf hk hm => exact hs.deed hf (hm.deed hk) fun _ => hm.doubles
  | waiter hf hk hm => exact hs.deed hf (hm.deed hk) fun _ => hm.doubles
  | work hstep => exact hs.congr (.step hstep) (fun _ => rfl) rfl fun _ => rfl
  | call k => exact hs.congr (.call k _) (fun _ => rfl) rfl fun _ => rfl
  | shutdown => exact hs.congr ⟨rfl, fun _ => rfl, rfl, rfl, rfl⟩ (fun _ => rfl) rfl fun _ => rfl
  | clock now => exact hs.congr ⟨rfl, fun _ => rfl, rfl, rfl, rfl⟩ (fun _ => rfl) rfl fun _ => rfl

/-- A completion that a flight of a run holds is there and not released. -/
theorem held (hr : Run config accounts h s) {i : FlightId} {f : Flight}
    (hf : s.flights[i]? = some f) (c : CompletionId) (hn : f.native? = some c) :
    c < s.world.backend.completions.size ∧ (s.world.backend.completion c).released = false :=
  hr.custody.held ((System.native?_eq hf).trans hn)

end Run

end Milepost
