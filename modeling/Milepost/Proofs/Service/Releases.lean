import Milepost.Proofs.Service.Acceptance

/-!
# What releases count

A user may release a completion as often as it likes: before its operation is issued, between the
milestones, after them. The first release moves the completion from the live to the released ones,
and nobody waits for it from then on; each further one counts as an attempt and changes nothing
else. Flushes have completions of their own, which are counted nowhere.

* `Ledger.Counts`: the counters of a backend after its uses.
* `Service.releases_counted`: so they are after any uses, and so is answered who waits.
-/

namespace Milepost

namespace Use

/-- Whether a user makes a completion. -/
def creates : Use → Bool
  | createCompletion => true
  | _ => false

/-- Whether a user releases a completion that was released by one of the earlier uses. -/
def releasesAgain (earlier : List Use) : Use → Bool
  | release c => earlier.any (·.releases c)
  | _ => false

/-- How many of the uses release a completion again, where others came earlier. -/
def timesAgain (earlier : List Use) : List Use → Nat
  | [] => 0
  | u :: us => (u.releasesAgain earlier).toNat + timesAgain (earlier ++ [u]) us

theorem any_releases_concat {uses : List Use} {u : Use} {c : CompletionId} :
    (uses ++ [u]).any (·.releases c) = (uses.any (·.releases c) || u.releases c) := by
  rw [List.any_append, List.any_cons, List.any_nil, Bool.or_false]

theorem timesAgain_concat {earlier uses : List Use} {u : Use} :
    timesAgain earlier (uses ++ [u]) =
      timesAgain earlier uses + (u.releasesAgain (earlier ++ uses)).toNat := by
  induction uses generalizing earlier with
  | nil => simp [timesAgain]
  | cons v us ih =>
    rw [List.cons_append, timesAgain, timesAgain, ih, List.append_assoc, List.singleton_append]
    omega

end Use

/-- One more completion is counted that is among the others once and was not counted. -/
theorem countP_or_beq {l : List CompletionId} {p : CompletionId → Bool} {c : CompletionId}
    (hl : l.Nodup) (hc : c ∈ l) (hp : p c = false) :
    l.countP (fun d => p d || c == d) = l.countP p + 1 := by
  obtain ⟨before, after, rfl⟩ := List.append_of_mem hc
  obtain ⟨-, hafter, hbefore⟩ := List.nodup_append.mp hl
  have hrest : ∀ {l : List CompletionId}, (∀ d ∈ l, c ≠ d) →
      l.countP (fun d => p d || c == d) = l.countP p := by
    intro l hl
    refine List.countP_congr fun d hd => ?_
    simp [hl d hd]
  rw [List.countP_append, List.countP_append, List.countP_cons, List.countP_cons,
    hrest fun d hd h => hbefore d hd c List.mem_cons_self h.symm,
    hrest fun d hd h => (List.nodup_cons.mp hafter).1 (h ▸ hd)]
  simp [hp]
  omega

namespace Ledger

/-- What a backend counts: the completions that users made, those of them that users released, and
the attempts to release one again. -/
structure Counts (uses : List Use) (l : Ledger) (b : InMemory) : Prop where
  made : l.made.length = uses.countP (·.creates)
  distinct : l.made.Nodup
  total : b.live + b.released = l.made.length
  released : b.released = l.made.countP fun c => uses.any (·.releases c)
  again : b.doubleReleases = Use.timesAgain [] uses

namespace Counts

variable {uses : List Use} {l : Ledger} {s t : InMemory × Shelf} {u : Use} {c : CompletionId}

/-- What makes no completion for a user, releases none and leaves the counters preserves it. -/
theorem congr (hc : Counts uses l s.1) (hmade : l.madeAfter s.1 u = l.made)
    (hcreates : u.creates = false) (hreleases : ∀ c, u.releases c = false)
    (hagain : u.releasesAgain uses = false) (hlive : t.1.live = s.1.live)
    (hreleased : t.1.released = s.1.released)
    (hdoubles : t.1.doubleReleases = s.1.doubleReleases) :
    Counts (uses ++ [u]) (l.after s u) t.1 where
  made := by simp [after, hmade, hcreates, hc.made]
  distinct := by simpa only [after, hmade] using hc.distinct
  total := by simpa only [after, hmade, hlive, hreleased] using hc.total
  released := by simp [after, hmade, hreleases, hreleased, hc.released]
  again := by
    rw [Use.timesAgain_concat, List.nil_append, hagain, hdoubles]
    exact hc.again

/-- A completion more for a user, which nobody can have released. -/
theorem create (hc : Counts uses l s.1) (ho : l.Owned s.1) (hr : l.Recalls uses s.1) :
    Counts (uses ++ [.createCompletion]) (l.after s .createCompletion) s.1.createCompletion.2 := by
  have hnew : s.1.createCompletion.1 ∉ l.made := fun h => Nat.lt_irrefl _ (ho.made _ h)
  have hspared : uses.any (·.releases s.1.createCompletion.1) = false :=
    Bool.eq_false_iff.mpr fun h => hnew (hr.made _ h)
  constructor
  case made => simp [after, madeAfter, Use.creates, hc.made]
  case distinct =>
    rw [after, madeAfter, ← List.concat_eq_append, List.nodup_concat]
    exact ⟨hnew, hc.distinct⟩
  case total =>
    have htotal := hc.total
    simp only [after, madeAfter, List.length_append, List.length_singleton,
      InMemory.createCompletion, InMemory.newCompletion]
    omega
  case released =>
    have hnone : ∀ c, Use.releases c .createCompletion = false := fun _ => rfl
    simp only [after, madeAfter, List.countP_append, List.countP_singleton,
      Use.any_releases_concat, hnone, Bool.or_false, hspared, Bool.false_eq_true, if_false,
      Nat.add_zero]
    exact hc.released
  case again =>
    rw [Use.timesAgain_concat]
    exact hc.again

/-- A release counts as the first one of the completion or as an attempt to do it again. -/
theorem release (hc : Counts uses l s.1) (hr : l.Recalls uses s.1) (hmade : c ∈ l.made) :
    Counts (uses ++ [.release c]) (l.after s (.release c)) (s.1.release c) := by
  have hreleased := hr.released c hmade
  have htotal := InMemory.live_add_released_release c s.1
  have hself : ∀ d, Use.releases d (.release c) = (c == d) := fun _ => rfl
  constructor
  case made => simp [after, madeAfter, Use.creates, hc.made]
  case distinct => exact hc.distinct
  case total => exact htotal.trans hc.total
  case released =>
    simp only [Use.any_releases_concat, hself]
    change _ = l.made.countP _
    rw [InMemory.release]
    split
    · rename_i h
      rw [h] at hreleased
      refine hc.released.trans (List.countP_congr fun d _ => ?_)
      by_cases hd : c = d
      · subst hd
        simp [← hreleased]
      · simp [hd]
    · rename_i h
      rw [Bool.eq_false_iff.mpr h] at hreleased
      rw [countP_or_beq hc.distinct hmade hreleased.symm, ← hc.released]
  case again =>
    rw [Use.timesAgain_concat, List.nil_append, Use.releasesAgain, ← hreleased, ← hc.again,
      InMemory.release]
    split
    · rename_i h
      rw [h]
      rfl
    · rename_i h
      rw [Bool.eq_false_iff.mpr h]
      rfl

/-- Every fair use preserves it. -/
theorem next? (hc : Counts uses l s.1) (ho : l.Owned s.1) (hr : l.Recalls uses s.1)
    (hfair : u.isFair l = true) (hn : u.next? s = some t) :
    Counts (uses ++ [u]) (l.after s u) t.1 := by
  cases u with
  | createCompletion =>
    cases hn
    exact hc.create ho hr
  | release c =>
    cases hn
    exact hc.release hr (List.contains_iff_mem.mp hfair)
  | issue pool oid c command =>
    cases hn
    have hs := InMemory.SameTokens.submit_any
      ⟨pool, oid, .command command, c⟩ s.1
    exact hc.congr rfl rfl (fun _ => rfl) rfl hs.live hs.released hs.doubleReleases
  | beginFlush pool =>
    cases hn
    have hs := InMemory.SameTokens.beginFlush pool s.1
    exact hc.congr rfl rfl (fun _ => rfl) rfl hs.live hs.released hs.doubleReleases
  | endFlush c =>
    obtain ⟨⟨status, b⟩, hb, rfl⟩ := Option.map_eq_some_iff.mp hn
    obtain ⟨_, -, hb⟩ := Option.map_eq_some_iff.mp hb
    cases hb
    exact hc.congr rfl rfl (fun _ => rfl) rfl rfl rfl rfl
  | call k =>
    cases hn
    have hs := InMemory.SameTokens.call k s.1
    exact hc.congr rfl rfl (fun _ => rfl) rfl hs.live hs.released hs.doubleReleases
  | shutdown | clock | buffers =>
    cases hn
    exact hc.congr rfl rfl (fun _ => rfl) rfl rfl rfl rfl
  | work =>
    have hs := InMemory.SameTokens.step hn
    exact hc.congr rfl rfl (fun _ => rfl) rfl hs.live hs.released hs.doubleReleases

end Counts

end Ledger

namespace Service

variable {config : InMemoryConfig} {l : Ledger} {s : InMemory × Shelf} {shelf : Shelf}
  {uses : List Use}

/-- **A backend counts all its uses.** -/
theorem counts (hu : Ledger.replay {} (.ofConfig config, shelf) uses = some (l, s)) :
    l.Counts uses s.1 := by
  induction uses using List.reverseRecOn generalizing l s with
  | nil =>
    cases hu
    exact ⟨rfl, List.nodup_nil, rfl, rfl, rfl⟩
  | append_singleton us u ih =>
    rw [Ledger.replay_concat] at hu
    obtain ⟨⟨l', s'⟩, hus, hu⟩ := Option.bind_eq_some_iff.mp hu
    split at hu
    · rename_i hfair
      obtain ⟨t, hn, hu⟩ := Option.map_eq_some_iff.mp hu
      cases hu
      exact (ih hus).next? ((start shelf).replay hus).1.owned (recalls hus) hfair hn
    · cases hu

/-- **What releases count, and what they end.** After any uses the live and the released completions
are together as many as users made; those released are the ones with a release among the uses, so
that the live ones are never fewer than none; and the attempts to release again are the releases of
a completion that has one before. Whoever waits for a milestone of a completion is turned away at
once from its first release on, whether the milestone was fired, is fired later or never, and gets
the status that was fired as long as there is none. -/
theorem releases_counted
    (hu : Ledger.replay {} (.ofConfig config, shelf) uses = some (l, s)) :
    (s.1.live + s.1.released = uses.countP (·.creates) ∧ 0 ≤ s.1.live) ∧
    (l.made.Nodup ∧ s.1.released = l.made.countP fun c => uses.any (·.releases c)) ∧
    s.1.doubleReleases = Use.timesAgain [] uses ∧
    ∀ c ∈ l.made, ∀ m, ObjectBackend.resolution? s.1 c m =
      if uses.any (·.releases c) then some .invalid else (s.1.completion c).fired.get m := by
  have hc := counts hu
  have hle : s.1.released ≤ l.made.length := hc.released ▸ List.countP_le_length
  have htotal := hc.total
  refine ⟨⟨by rw [htotal, hc.made], by omega⟩, ⟨hc.distinct, hc.released⟩, hc.again, ?_⟩
  intro c hmade m
  rw [← (recalls hu).released c hmade]
  rfl

end Service

/-! ## One service

The first completion is released before anything is issued with it, the second one three times while
its operation is queued, halfway and done, the third one when its operation is done. A flush ends in
between, and a fourth completion is never released. -/

namespace Sample

def releasing : List Use :=
  [.createCompletion, .createCompletion, .createCompletion, .release 0,
    .issue 1 "object" 1 (.edit (.append ⟨#[7]⟩)), .issue 1 "object" 2 (.edit .remove), .release 1,
    .beginFlush 1, .work, .work, .release 1, .work, .release 1, .work, .work, .work, .release 2,
    .createCompletion, .work, .work, .work, .endFlush 3, .release 0]

theorem isSome_replay_releasing :
    (Ledger.replay {} (.ofConfig config, {}) releasing).isSome = true := by
  decide +kernel

/-- The ledger and the state after these uses. -/
@[irreducible]
def releasedService : Ledger × InMemory × Shelf :=
  (Ledger.replay {} (.ofConfig config, {}) releasing).get isSome_replay_releasing

theorem replay_releasing :
    Ledger.replay {} (.ofConfig config, {}) releasing =
      some (releasedService.1, releasedService.2) := by
  unfold releasedService
  exact (Option.some_get isSome_replay_releasing).symm

end Sample

/-- Three of four completions are released, three attempts came too late, and nobody waits for the
second completion although both its milestones are fired. -/
theorem Service.releases_counted_with_flush :
    Ledger.replay {} (.ofConfig Sample.config, {}) Sample.releasing =
        some (Sample.releasedService.1, Sample.releasedService.2) ∧
      Sample.releasedService.2.1.live + Sample.releasedService.2.1.released = 4 ∧
      Sample.releasedService.2.1.released = 3 ∧
      Sample.releasedService.2.1.doubleReleases = 3 ∧
      (Sample.releasedService.2.1.completion 1).fired = .const (some 0) ∧
      ∀ m, ObjectBackend.resolution? Sample.releasedService.2.1 1 m = some .invalid := by
  obtain ⟨⟨htotal, -⟩, ⟨-, hreleased⟩, hagain, hwait⟩ := releases_counted Sample.replay_releasing
  refine ⟨Sample.replay_releasing, htotal, hreleased.trans ?_, hagain, ?_, ?_⟩
  · decide +kernel
  · decide +kernel
  · exact hwait 1 (by decide +kernel)

end Milepost
