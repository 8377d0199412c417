import Milepost.Proofs.Handling.Lifetime

/-!
# A handle only advances

The state of a handle is made up of what was done with it: released, failed, issued, in this order
of importance. None of that is ever undone, so the state only advances. What the handle has observed
of its milestones stays as well, and over the backend in memory it is never more than was fired: a
completion that is not released answers only when a milestone is fired, and nothing that is fired
is taken back.

* `Use.fired_mono`: what is fired stays fired.
* `Handle.Grounded.move`: a handle observes what is fired.
* `Lifetime.only_advances`: what holds along every life.
-/

namespace Milepost

/-- How far a handle has come. -/
def HandleState.rank : HandleState → Nat
  | pending => 0
  | outstanding => 1
  | failed => 2
  | released => 3

/-- **Onward the state does not fall back.** -/
theorem Handle.Onward.rank_le {h h' : Handle} (ho : h.Onward h') :
    h.state.rank ≤ h'.state.rank := by
  have hfailure : h.failure.isSome = true → h'.failure.isSome = true := by
    intro hs
    obtain ⟨e, he⟩ := Option.isSome_iff_exists.mp hs
    rw [ho.failure e he]
    rfl
  have hissued := ho.issued
  have hreleased := ho.released
  unfold state
  -- Each of the three flags goes one way, and the state is decided by them.
  generalize h.released = r, h'.released = r' at *
  generalize h.failure.isSome = f, h'.failure.isSome = f' at *
  generalize h.issued = i, h'.issued = i' at *
  clear ho
  revert r r' f f' i i'
  decide

/-! ## What is fired -/

namespace InMemory

variable {b b' : InMemory} {shelf shelf' : Shelf} {job : Job} {c : CompletionId} {m n : Milestone}
  {status : Status}

/-- Whether a milestone of the completion is fired. -/
def hasFired (b : InMemory) (c : CompletionId) (m : Milestone) : Bool :=
  ((b.completion c).fired.get m).isSome

/-- Firing takes nothing back. -/
theorem hasFired_fire (h : b.hasFired c n = true) : (b.fire job m status).hasFired c n = true := by
  unfold hasFired at *
  by_cases hd : job.completion = c
  · subst hd
    rcases Nat.lt_or_ge job.completion b.completions.size with hlt | hge
    · rw [completion_fire_self hlt, Completion.fire, PerMilestone.get_set]
      split
      · rfl
      · exact h
    · rw [completion_of_le hge] at h
      cases n <;> cases h
  · rwa [completion_fire_of_ne hd]

/-- The worker takes nothing back. -/
theorem hasFired_step? (hs : b.step? shelf = some (b', shelf')) (h : b.hasFired c m = true) :
    b'.hasFired c m = true := by
  unfold step? at hs
  split at hs
  · split at hs
    · cases hs
    · cases hs
      exact h
  · cases hs
    exact hasFired_fire h
  · cases hs
    exact hasFired_fire h

theorem SameProgress.hasFired (hp : b.SameProgress b') : b'.hasFired c m = b.hasFired c m := by
  rw [InMemory.hasFired, hp.fired]
  rfl

end InMemory

/-- **What is fired stays fired**, whatever happens to the backend. -/
theorem Use.fired_mono {u : Use} {s t : InMemory × Shelf} {c : CompletionId} {m : Milestone}
    (hn : u.next? s = some t) (h : s.1.hasFired c m = true) : t.1.hasFired c m = true := by
  by_cases hu : u = .work
  · subst hu
    exact InMemory.hasFired_step? hn h
  · rwa [(u.sameProgress hn hu).hasFired]

/-- An answer from a completion that is not released says that the milestone is fired. -/
theorem InMemory.resolution?_of_not_released {b : InMemory} {c : CompletionId} {m : Milestone}
    (h : (b.completion c).released = false) :
    ObjectBackend.resolution? b c m = (b.completion c).fired.get m := by
  change (b.completion c).resolution? m = _
  rw [Completion.resolution?, h]
  rfl

/-- A request that reaches the backend in memory is submitted there. -/
theorem Request.Sent.exists_submit {pool : PoolId} {r : Request} {c : CompletionId}
    {command : Command} {w w' : World InMemory} {answer : Status}
    (hs : r.Sent pool c command w answer w') :
    ∃ job, w'.backend = (w.backend.submit job).2 := by
  obtain ⟨shelf, shelf', h⟩ := hs.asked
  exact ⟨_, (congrArg (·.2.1) h).symm⟩

/-! ## What a handle observes -/

/-- The handle of a completion has observed what was fired, and nobody else releases the
completion. -/
structure Handle.Grounded (c : CompletionId) (h : Handle) (w : World InMemory) : Prop where
  there : c < w.backend.completions.size
  native : ∀ d, h.native = some d → d = c
  kept : h.native = some c → (w.backend.completion c).released = false
  fired : ∀ m, h.observed.get m = true → w.backend.hasFired c m = true

namespace Handle.Grounded

variable {c : CompletionId} {h h' : Handle} {w w' : World InMemory} {x : HandleCall}
  {reply : HandleReply} {calls : List CompletionCall} {result : Except Failure Unit}
  {pool : PoolId} {r : Request} {i : Issued Unit}

/-- What changes neither what is fired nor what is released leaves it. -/
theorem congr (hg : Grounded c h w) (hp : w.backend.SameProgress w'.backend)
    (ht : w.backend.SameTokens w'.backend) (hn : h'.native = h.native)
    (ho : h'.observed = h.observed) : Grounded c h' w' where
  there := ht.size ▸ hg.there
  native := hn ▸ hg.native
  kept := by rw [hn, ht.flags]; exact hg.kept
  fired m := by rw [ho, hp.hasFired]; exact hg.fired m

theorem of_backend (hg : Grounded c h w) (hw : w'.backend = w.backend)
    (hn : h'.native = h.native) (ho : h'.observed = h.observed) : Grounded c h' w' :=
  hg.congr (hw ▸ .refl _) (hw ▸ .refl _) hn ho

theorem sent {command : Command} {answer : Status} {d : CompletionId} (hg : Grounded c h w)
    (hs : r.Sent pool d command w answer w') (hn : h'.native = h.native)
    (ho : h'.observed = h.observed) : Grounded c h' w' := by
  obtain ⟨job, hb⟩ := hs.exists_submit
  exact hg.congr (hb ▸ .submit job _) (hb ▸ .submit_any job _) hn ho

theorem releasing (hg : Grounded c h w) (hr : h.Releasing w result h' w' calls) :
    Grounded c h' w' := by
  cases hr with
  | again _ hw => exact hg.of_backend hw rfl rfl
  | first _ hw =>
    have hprogress : w.backend.SameProgress w'.backend ∧
        w'.backend.completions.size = w.backend.completions.size := by
      rw [hw]
      cases h.native with
      | none => exact ⟨.refl _, rfl⟩
      | some d => exact ⟨.release d _, InMemory.size_release⟩
    exact {
      there := hprogress.2 ▸ hg.there
      native := nofun
      kept := nofun
      fired := fun m => by rw [hprogress.1.hasFired]; exact hg.fired m }

/-- **A call observes a milestone only when it is fired.** -/
theorem move (hg : Grounded c h w) (hm : h.Move w x reply h' w' calls) : Grounded c h' w' := by
  cases hm with
  | issue hi =>
    cases hi with
    | again | late | overflow => exact hg.of_backend rfl rfl rfl
    | accepted _ _ hs | refused _ _ hs => exact hg.sent hs rfl rfl
  | @passed m d status _ _ hn hs hw =>
    -- The handle has its completion, which is then not released and answers only what is fired.
    obtain rfl := hg.native d hn
    rw [InMemory.resolution?_of_not_released (hg.kept hn)] at hs
    have hnew : w.backend.hasFired d m = true := by rw [InMemory.hasFired, hs]; rfl
    refine ⟨hw ▸ hg.there, hg.native, hw ▸ hg.kept, fun n hobserved => ?_⟩
    rw [hw]
    rw [PerMilestone.get_set] at hobserved
    split at hobserved
    · rename_i hmn
      exact hmn ▸ hnew
    · exact hg.fired n hobserved
  | fail e => exact hg.of_backend rfl (by rw [h.fail_eq e]) (by rw [h.fail_eq e])
  | countLast _ hr =>
    have hcounted : Grounded c { h with latch := 0 } w := hg.of_backend rfl rfl rfl
    exact hcounted.releasing hr
  | release hr => exact hg.releasing hr
  | late | countNone | countMore => exact hg.of_backend rfl rfl rfl

/-- Waiting for a milestone takes until it is fired, and observes that one alone. -/
theorem next?_waitFor (hg : Grounded c h w) (hn : h.native = some c) (m : Milestone) :
    if w.backend.hasFired c m then
      ∃ result w', (HandleCall.waitFor m).next? h w =
        some (.waited result, { h with observed := h.observed.set m true }, w')
    else (HandleCall.waitFor m).next? h w = none := by
  have hresolution := InMemory.resolution?_of_not_released (m := m) (hg.kept hn)
  obtain ⟨native, buffer, failure, observed, issued, released, latch, account, context⟩ := h
  cases hn
  simp only [HandleCall.next?, waitFor?, hresolution, InMemory.hasFired]
  cases (w.backend.completion c).fired.get m with
  | none => rfl
  | some status => exact ⟨_, _, rfl⟩

/-- What others do leaves it. -/
theorem spared (hg : Grounded c h w) (ho : World.Spared c w w') : Grounded c h w' := by
  obtain ⟨u, hu, hn⟩ := ho
  obtain ⟨hlt, hflag⟩ := Use.released_of_spares hu hn hg.there
  exact ⟨hlt, hg.native, fun hnative => hflag.trans (hg.kept hnative),
    fun m hm => u.fired_mono hn (hg.fired m hm)⟩

end Handle.Grounded

namespace Lifetime

variable {a : AccountId} {context : Context} {w₀ w : World InMemory}
  {steps : List (HandleStep InMemory)} {h : Handle}

theorem grounded
    (hl : Lifetime (World.Spared w₀.backend.completions.size) a context w₀ steps h w) :
    h.Grounded w₀.backend.completions.size w := by
  induction hl with
  | create hc =>
    cases hc
    constructor
    case there => exact InMemory.size_createCompletion.symm ▸ Nat.lt_succ_self _
    case native => exact fun d hd => (Option.some.inj hd).symm
    case kept =>
      intro
      change (w₀.backend.createCompletion.2.completion w₀.backend.completions.size).released = false
      rw [InMemory.completion_createCompletion, InMemory.completion_of_le (Nat.le_refl _)]
    case fired => intro m hm; cases m <;> cases hm
  | call x _ hx ih => exact ih.move (x.move hx)
  | elsewhere _ ho ih => exact ih.spared ho

/-- **A handle only advances.** A handle is made over the backend in memory, and any calls are made
on it in any order, while others do what they like with the backend but for its completion. Along
its life the state does not fall back, a released handle stays released, and a failure and what was
observed stay. The failure is the one that was reported first. A milestone that is observed is
fired. As long as the handle is not released, waiting for a milestone takes until it is fired, and
then observes it and nothing else, whichever of the two it is and whether or not the other was
observed. -/
theorem only_advances
    (hl : Lifetime (World.Spared w₀.backend.completions.size) a context w₀ steps h w) :
    ((history steps h).Pairwise fun k k' =>
      k.state.rank ≤ k'.state.rank ∧ (k.state = .released → k'.state = .released) ∧
        (∀ e, k.failure = some e → k'.failure = some e) ∧
        ∀ m, k.observed.get m = true → k'.observed.get m = true) ∧
    h.failure = (steps.filterMap (·.call.failure?)).head? ∧
    (∀ m, h.observed.get m = true → w.backend.hasFired w₀.backend.completions.size m = true) ∧
    (h.released = false → ∀ m,
      if w.backend.hasFired w₀.backend.completions.size m then
        ∃ result w', (HandleCall.waitFor m).next? h w =
          some (.waited result, { h with observed := h.observed.set m true }, w')
      else (HandleCall.waitFor m).next? h w = none) := by
  refine ⟨hl.onward.imp fun ho => ⟨ho.rank_le, fun hr => ?released, ho.failure, ho.observed⟩,
    hl.after.failure, hl.grounded.fired, fun hr m => ?waits⟩
  case released =>
    exact Handle.state_eq_released_iff.mpr (ho.released (Handle.state_eq_released_iff.mp hr))
  case waits =>
    have hnone := hl.after.native
    rw [hr, Option.isNone_eq_false_iff] at hnone
    obtain ⟨c, hn⟩ := Option.isSome_iff_exists.mp hnone
    obtain rfl := hl.grounded.native c hn
    exact hl.grounded.next?_waitFor hn m

end Lifetime

namespace Sample

/-- An append passes both milestones; the second is waited for first, and two failures are
reported. -/
def doubleFail : List (HandleCall ⊕ Use) :=
  [.inl (.issue 1 stray), .inr .work, .inr .work, .inr .work, .inl (.waitFor .safe),
    .inl (.fail Handle.gone), .inl (.fail (stray.refusal .noEntry))]

theorem isSome_replay_doubleFail :
    (Lifetime.replay 0 [] handle handled doubleFail).isSome = true := by
  decide +kernel

/-- The steps, the handle and the world after it all. -/
@[irreducible]
def failed : List (HandleStep InMemory) × Handle × World InMemory :=
  (Lifetime.replay 0 [] handle handled doubleFail).get isSome_replay_doubleFail

theorem lifetime_failed :
    Lifetime (World.Spared world.backend.completions.size) 0 [] world failed.1 failed.2.1
      failed.2.2 := by
  unfold failed
  have hmade : Lifetime (World.Spared 0) 0 [] world [] handle handled := .create rfl
  have hreplay := (Option.some_get isSome_replay_doubleFail).symm
  exact hmade.of_replay hreplay

end Sample

/-- The handle has observed that the operation is safe, and is yet to observe that it is
complete. -/
theorem Lifetime.only_advances_safe_first :
    Lifetime (World.Spared Sample.world.backend.completions.size) 0 [] Sample.world
        Sample.failed.1 Sample.failed.2.1 Sample.failed.2.2 ∧
      Sample.failed.2.1.state = .failed ∧ Sample.failed.2.1.observed = ⟨false, true⟩ ∧
      Sample.failed.2.1.failure = some Handle.gone ∧
      Sample.failed.2.2.backend.hasFired 0 .safe = true ∧
      ∃ result w', (HandleCall.waitFor .complete).next? Sample.failed.2.1 Sample.failed.2.2 =
        some (.waited result, { Sample.failed.2.1 with observed := .const true }, w') := by
  obtain ⟨-, hfailure, hfired, hwaits⟩ := Lifetime.only_advances Sample.lifetime_failed
  have hobserved : Sample.failed.2.1.observed = ⟨false, true⟩ := by decide +kernel
  have hcomplete : Sample.failed.2.2.backend.hasFired Sample.world.backend.completions.size
      .complete = true := by
    decide +kernel
  have hfirst : (Sample.failed.1.filterMap (·.call.failure?)).head? = some Handle.gone := by
    decide +kernel
  have hwait := hwaits (by decide +kernel) .complete
  rw [if_pos hcomplete, hobserved] at hwait
  exact ⟨Sample.lifetime_failed, by decide +kernel, hobserved, hfailure.trans hfirst,
    hfired .safe (by rw [hobserved]; rfl), hwait⟩

end Milepost
