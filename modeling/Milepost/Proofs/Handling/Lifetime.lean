import Milepost.Proofs.Handling.Moves

/-!
# The life of a handle

A handle is made, and then called by whoever has it, in any order; in between others do what they
like with the world. `Lifetime` is any such life over any backend, with a `HandleStep` for each
call. What the handle is in the end is a matter of the calls alone: whether something was issued,
which failure was reported first, how often it was counted down since the backend took something.

* `Lifetime.outstanding_only_if_issued`: when a handle is outstanding.
* `Lifetime.reaches_backend_once`: one request gets through a handle, and the latch runs down once.
-/

namespace Milepost

/-- A call that was made on a handle: the answer, and the handle and the world before and after. -/
structure HandleStep (β : Type) where
  call : HandleCall
  reply : HandleReply
  before : Handle
  found : World β
  after : Handle
  left : World β

namespace HandleStep

variable {β : Type}

/-- What the backend was asked by the call. -/
def asked [ObjectBackend β] (s : HandleStep β) : List CompletionCall :=
  s.call.asked s.before s.found

/-- Whether the latch got to zero. -/
def drains (s : HandleStep β) : Bool := s.before.latch != 0 && s.after.latch == 0

/-- What some calls make of a latch: an accepted issue sets it, and every count takes one off. -/
def runLatch (latch : Nat) : List (HandleStep β) → Nat
  | [] => latch
  | s :: steps =>
    runLatch
      (if s.reply.isAccepted then 2 else if s.call.isCountDown then latch - 1 else latch) steps

theorem runLatch_append {latch : Nat} {steps steps' : List (HandleStep β)} :
    runLatch latch (steps ++ steps') = runLatch (runLatch latch steps) steps' := by
  induction steps generalizing latch with
  | nil => rfl
  | cons s steps ih => exact ih

/-- As long as nothing is accepted the latch runs down. -/
theorem runLatch_of_not_accepted {latch : Nat} {steps : List (HandleStep β)}
    (h : ∀ s ∈ steps, s.reply.isAccepted = false) :
    runLatch latch steps = latch - steps.countP (·.call.isCountDown) := by
  induction steps generalizing latch with
  | nil => rfl
  | cons s steps ih =>
    obtain ⟨hs, hsteps⟩ := List.forall_mem_cons.mp h
    rw [runLatch, ih hsteps, hs, List.countP_cons]
    cases s.call.isCountDown
    · rfl
    · simp only [Bool.false_eq_true, if_false, if_true]
      omega

end HandleStep

/-- What can have become of a handle that was made in a world: the calls made on it, and the handle
and the world after them. `others` says what may happen to the world in between. -/
inductive Lifetime {β : Type} [ObjectBackend β] (others : World β → World β → Prop)
    (a : AccountId) (context : Context) (w₀ : World β) :
    List (HandleStep β) → Handle → World β → Prop
  | create {h : Handle} {w : World β} (hc : Handle.create a context w₀ = (.ok h, w)) :
    Lifetime others a context w₀ [] h w
  | call {steps : List (HandleStep β)} {h h' : Handle} {w w' : World β} {reply : HandleReply}
      (x : HandleCall) (hl : Lifetime others a context w₀ steps h w)
      (hx : x.next? h w = some (reply, h', w')) :
    Lifetime others a context w₀ (steps ++ [⟨x, reply, h, w, h', w'⟩]) h' w'
  | elsewhere {steps : List (HandleStep β)} {h : Handle} {w w' : World β}
      (hl : Lifetime others a context w₀ steps h w) (ho : others w w') :
    Lifetime others a context w₀ steps h w'

/-- A handle that was just made. -/
theorem Handle.of_create {β : Type} [ObjectBackend β] {a : AccountId} {context : Context}
    {w₀ w : World β} {h : Handle} (hc : create a context w₀ = (.ok h, w)) :
    ∃ c backend, ObjectBackend.createCompletion w₀.backend = (.ok c, backend) ∧
      h = { native := some c, account := a, context } ∧
      w = { w₀ with backend }.count a .handleCreated := by
  rw [create_eq] at hc
  generalize ObjectBackend.createCompletion w₀.backend = s at hc
  obtain ⟨e | c, backend⟩ := s
  · cases hc
  · cases hc
    exact ⟨c, backend, rfl, rfl, rfl⟩

namespace Lifetime

variable {β : Type} [ObjectBackend β] {others : World β → World β → Prop} {a : AccountId}
  {context : Context} {w₀ w : World β} {steps : List (HandleStep β)} {h : Handle}

/-- What came before a call is the life of a handle too, and the call made a move. -/
theorem before {earlier later : List (HandleStep β)} {s : HandleStep β}
    (hl : Lifetime others a context w₀ (earlier ++ s :: later) h w) :
    Lifetime others a context w₀ earlier s.before s.found ∧
      s.before.Move s.found s.call s.reply s.after s.left s.asked := by
  generalize hsteps : earlier ++ s :: later = steps at hl
  induction hl generalizing later with
  | create => simp at hsteps
  | @call steps h h' w w' reply x hl hx ih =>
    rcases List.eq_nil_or_concat later with rfl | ⟨later, last, rfl⟩
    · obtain ⟨rfl, hstep⟩ := List.append_inj' hsteps rfl
      obtain rfl := List.singleton_inj.mp hstep
      exact ⟨hl, x.move hx⟩
    · rw [List.concat_eq_append, ← List.cons_append, ← List.append_assoc] at hsteps
      exact ih (List.append_inj' hsteps rfl).1
  | elsewhere _ _ ih => exact ih hsteps

/-- Every call made a move. -/
theorem move_of_mem {s : HandleStep β} (hl : Lifetime others a context w₀ steps h w)
    (hs : s ∈ steps) : s.before.Move s.found s.call s.reply s.after s.left s.asked := by
  obtain ⟨earlier, later, rfl⟩ := List.append_of_mem hs
  exact hl.before.2

end Lifetime

/-! ## What is known of a handle after some calls -/

/-- The handle after some calls. -/
structure Handle.After {β : Type} [ObjectBackend β] (steps : List (HandleStep β)) (h : Handle) :
    Prop where
  issued : h.issued = steps.any (·.call.isIssue)
  failure : h.failure = (steps.filterMap (·.call.failure?)).head?
  native : h.native.isNone = h.released
  latch : h.latch = HandleStep.runLatch 0 steps
  unused : h.issued = false → h.latch = 0
  asked : (steps.flatMap (·.asked)).countP (·.isIssue) ≤ h.issued.toNat
  accepted : steps.countP (·.reply.isAccepted) ≤ h.issued.toNat
  drained : steps.countP (·.drains) + (if h.latch = 0 then 0 else 1) =
    steps.countP (·.reply.isAccepted)

namespace Handle.After

variable {β : Type} [ObjectBackend β] {steps : List (HandleStep β)} {h : Handle}
  {s : HandleStep β}

/-- What is counted with the first issue alone is counted once. -/
theorem add_le_toNat {n k : Nat} {issued issue : Bool} (hn : n ≤ issued.toNat)
    (hk : k ≤ (!issued && issue).toNat) : n + k ≤ (issued || issue).toNat := by
  cases issued <;> cases issue <;> simp_all

/-- **What is known of a handle is known after one more call.** -/
theorem concat (ha : After steps s.before)
    (hm : s.before.Move s.found s.call s.reply s.after s.left s.asked) :
    After (steps ++ [s]) s.after := by
  have hlatch := hm.latch
  have haccepted : s.reply.isAccepted.toNat ≤ (!s.before.issued && s.call.isIssue).toNat := by
    cases h : s.reply.isAccepted with
    | false => exact Nat.zero_le _
    | true =>
      obtain ⟨hissue, hissued, -⟩ := hm.isAccepted h
      rw [hissue, hissued]
      exact Nat.le_refl 1
  constructor
  case issued => rw [hm.issued, ha.issued, List.any_append]; simp
  case failure =>
    rw [hm.failure, ha.failure, List.filterMap_append, List.head?_append]
    cases hf : s.call.failure? <;> simp [hf]
  case native => exact hm.isNone_native ha.native
  case latch => rw [HandleStep.runLatch_append, ← ha.latch]; exact hlatch
  case unused =>
    intro hissued
    rw [hm.issued, Bool.or_eq_false_iff] at hissued
    have hnot : s.reply.isAccepted = false := by simpa [hissued.2] using haccepted
    rw [hlatch, hnot, ha.unused hissued.1]
    simp
  case asked =>
    rw [List.flatMap_append, List.countP_append, hm.issued]
    simpa using add_le_toNat ha.asked hm.countP_isIssue_le
  case accepted =>
    rw [List.countP_append, hm.issued]
    refine add_le_toNat ha.accepted (Nat.le_trans (Nat.le_of_eq ?_) haccepted)
    cases h : s.reply.isAccepted <;> simp [h]
  case drained =>
    have hdrained := ha.drained
    rw [List.countP_append, List.countP_append, List.countP_singleton, List.countP_singleton]
    cases h : s.reply.isAccepted with
    | true =>
      -- The latch was at zero before, so that it does not get there by being set.
      have hzero := ha.unused (hm.isAccepted h).2.1
      rw [h, if_pos rfl] at hlatch
      simp only [HandleStep.drains, hzero, hlatch] at hdrained ⊢
      simpa using hdrained
    | false =>
      rw [h, if_neg Bool.false_ne_true] at hlatch
      have hle : s.after.latch ≤ s.before.latch := by
        rw [hlatch]
        split <;> omega
      have hdrains : s.drains = true ↔ s.before.latch ≠ 0 ∧ s.after.latch = 0 := by
        simp [HandleStep.drains]
      rw [if_congr hdrains rfl rfl, if_neg Bool.false_ne_true]
      split at hdrained <;> split <;> split <;> omega

end Handle.After

/-- How an issue is turned down that gets as far as the completion: the backend refuses it, or its
buffer would be too large. -/
inductive HandleStep.TurnedDown {β : Type} [ObjectBackend β] (s : HandleStep β) : Prop
  | refused {pool : PoolId} {r : Request} {c : CompletionId} {command : Command} {answer : Status}
      (hc : s.call = .issue pool r) (ha : s.asked = [.issued pool r.oid c command answer])
      (he : answer.isError = true) (hr : s.reply = .issued (.failed (r.refusal answer)))
  | overflow {pool : PoolId} {r : Request} {length offset : Nat} (hc : s.call = .issue pool r)
      (ho : r.operation = .read length offset) (hl : Buffer.maxAllocation < length)
      (hr : s.reply = .issued .overflow)

/-- The first issue is accepted or turned down, as long as the handle is not released. -/
theorem Handle.Move.of_first_issue {β : Type} [ObjectBackend β] {s : HandleStep β}
    (hm : s.before.Move s.found s.call s.reply s.after s.left s.asked)
    (hc : s.call.isIssue = true) (hi : s.before.issued = false)
    (hn : s.before.native.isSome = true) : s.reply.isAccepted = true ∨ s.TurnedDown := by
  obtain ⟨call, reply, before, found, after, left⟩ := s
  simp only at hm hc hi hn
  generalize hasked : HandleStep.asked (β := β) _ = calls at hm
  cases hm with
  | issue hissuing =>
    cases hissuing with
    | again hissued => cases hissued.symm.trans hi
    | late _ hnone => rw [hnone] at hn; cases hn
    | overflow _ _ hr hl => exact .inr (.overflow rfl hr hl rfl)
    | accepted => exact .inl rfl
    | refused _ _ _ he => exact .inr (.refused rfl hasked he rfl)
  | late | passed | fail | countNone | countMore | countLast | release => cases hc

namespace Lifetime

variable {β : Type} [ObjectBackend β] {others : World β → World β → Prop} {a : AccountId}
  {context : Context} {w₀ w : World β} {steps : List (HandleStep β)} {h : Handle}

theorem after (hl : Lifetime others a context w₀ steps h w) : h.After steps := by
  induction hl with
  | create hc =>
    obtain ⟨c, backend, -, rfl, -⟩ := Handle.of_create hc
    exact ⟨rfl, rfl, rfl, rfl, fun _ => rfl, Nat.le_refl 0, Nat.le_refl 0, rfl⟩
  | call x _ hx ih => exact ih.concat (x.move hx)
  | elsewhere _ _ ih => exact ih

/-- The handles of a life, oldest first. -/
def history (steps : List (HandleStep β)) (h : Handle) : List Handle := steps.map (·.before) ++ [h]

/-- Every handle of a life is onward of those before it. -/
theorem onward (hl : Lifetime others a context w₀ steps h w) :
    (history steps h).Pairwise Handle.Onward := by
  induction hl with
  | create => exact List.pairwise_singleton _ _
  | @call steps h h' w w' reply x _ hx ih =>
    have hnext := (x.move hx).onward
    rw [history, List.map_append, List.map_singleton]
    refine List.pairwise_append.mpr ⟨ih, List.pairwise_singleton _ _, fun k hk k' hk' => ?_⟩
    obtain rfl := List.mem_singleton.mp hk'
    rcases List.mem_append.mp hk with hk | hk
    · exact ((List.pairwise_append.mp ih).2.2 k hk h (List.mem_singleton_self h)).trans hnext
    · obtain rfl := List.mem_singleton.mp hk
      exact hnext
  | elsewhere _ _ ih => exact ih

/-- The handle is onward of what every call found. -/
theorem onward_of_mem (hl : Lifetime others a context w₀ steps h w) {s : HandleStep β}
    (hs : s ∈ steps) : s.before.Onward h :=
  (List.pairwise_append.mp hl.onward).2.2 _ (List.mem_map_of_mem hs) h (List.mem_singleton_self h)

end Lifetime

theorem Handle.state_eq_outstanding_iff {h : Handle} :
    h.state = .outstanding ↔ h.released = false ∧ h.failure = none ∧ h.issued = true := by
  unfold state
  cases h.released <;> cases h.failure <;> cases h.issued <;> simp

theorem Handle.state_eq_released_iff {h : Handle} : h.state = .released ↔ h.released = true := by
  unfold state
  cases h.released <;> cases h.failure <;> cases h.issued <;> simp

/-! ## Lives with the backend in memory -/

/-- What others may do: they use the backend, but not the completion, and count what they like. -/
def World.Spared (c : CompletionId) (w w' : World InMemory) : Prop :=
  ∃ u : Use, u.spares c = true ∧ u.next? (w.backend, w.shelf) = some (w'.backend, w'.shelf)

/-- What a list of calls, and of uses of the backend in between, makes of a handle of a
completion. -/
def Lifetime.replay (c : CompletionId) (steps : List (HandleStep InMemory)) (h : Handle)
    (w : World InMemory) :
    List (HandleCall ⊕ Use) → Option (List (HandleStep InMemory) × Handle × World InMemory)
  | [] => some (steps, h, w)
  | .inl x :: rest => (x.next? h w).bind fun (reply, h', w') =>
    replay c (steps ++ [⟨x, reply, h, w, h', w'⟩]) h' w' rest
  | .inr u :: rest =>
    if u.spares c then (u.next? (w.backend, w.shelf)).bind fun (backend, shelf) =>
      replay c steps h { w with backend, shelf } rest
    else none

theorem Lifetime.of_replay {a : AccountId} {context : Context} {c : CompletionId}
    {w₀ w w' : World InMemory} {steps steps' : List (HandleStep InMemory)} {h h' : Handle}
    {script : List (HandleCall ⊕ Use)} (hl : Lifetime (World.Spared c) a context w₀ steps h w)
    (hs : replay c steps h w script = some (steps', h', w')) :
    Lifetime (World.Spared c) a context w₀ steps' h' w' := by
  induction script generalizing steps h w with
  | nil =>
    cases hs
    exact hl
  | cons step rest ih =>
    cases step with
    | inl x =>
      obtain ⟨⟨reply, h₁, w₁⟩, hx, hs⟩ := Option.bind_eq_some_iff.mp hs
      exact ih (hl.call x hx) hs
    | inr u =>
      unfold replay at hs
      split at hs
      · rename_i hu
        obtain ⟨⟨backend, shelf⟩, hn, hs⟩ := Option.bind_eq_some_iff.mp hs
        exact ih (hl.elsewhere ⟨u, hu, hn⟩) hs
      · cases hs

namespace Sample

/-- A handle is counted down too early, issued twice, and counted down once. -/
def doubleIssue : List (HandleCall ⊕ Use) :=
  [.inl .countDown, .inl (.issue 1 ⟨"object", .read 2 0⟩), .inl (.issue 1 ⟨"object", .remove⟩),
    .inr .work, .inl .countDown]

theorem isSome_replay_doubleIssue :
    (Lifetime.replay 0 [] handle handled doubleIssue).isSome = true := by
  decide +kernel

/-- The steps, the handle and the world after it all. -/
@[irreducible]
def busy : List (HandleStep InMemory) × Handle × World InMemory :=
  (Lifetime.replay 0 [] handle handled doubleIssue).get isSome_replay_doubleIssue

theorem lifetime_busy : Lifetime (World.Spared 0) 0 [] world busy.1 busy.2.1 busy.2.2 := by
  unfold busy
  have hmade : Lifetime (World.Spared 0) 0 [] world [] handle handled := .create rfl
  have hreplay := (Option.some_get isSome_replay_doubleIssue).symm
  exact hmade.of_replay hreplay

theorem lt_length_busy : 1 < busy.1.length := by decide +kernel

/-- A request that is refused if there is no such pool. -/
def stray : Request := ⟨"object", .append ⟨#[1]⟩⟩

end Sample

/-! ## What holds of every life -/

namespace Lifetime

variable {β : Type} [ObjectBackend β] {others : World β → World β → Prop} {a : AccountId}
  {context : Context} {w₀ w : World β} {steps : List (HandleStep β)} {h : Handle}

/-- **When a handle is outstanding.** A handle is made, and any calls are made on it in any order.
It is outstanding if something was issued through it, no failure was reported, and it is not
released. Then its first issue was accepted by the backend, or it was turned down and nobody
reported that. What is issued after the release leaves it released. -/
theorem outstanding_only_if_issued (hl : Lifetime others a context w₀ steps h w) :
    (h.state = .outstanding ↔
      h.released = false ∧ (∀ s ∈ steps, s.call.failure? = none) ∧
        ∃ s ∈ steps, s.call.isIssue = true) ∧
    (h.state = .outstanding →
      ∃ earlier s later, steps = earlier ++ s :: later ∧
        (∀ t ∈ earlier, t.call.isIssue = false) ∧ s.call.isIssue = true ∧
        (s.reply.isAccepted = true ∨ s.TurnedDown)) ∧
    ∀ s ∈ steps, s.before.released = true → h.state = .released := by
  have hafter := hl.after
  refine ⟨?_, fun hs => ?_, fun s hs hr => ?_⟩
  · rw [Handle.state_eq_outstanding_iff, hafter.failure, hafter.issued, List.head?_eq_none_iff,
      List.filterMap_eq_nil_iff, List.any_eq_true]
  · obtain ⟨hreleased, -, hissued⟩ := Handle.state_eq_outstanding_iff.mp hs
    obtain ⟨s, hfind⟩ := Option.isSome_iff_exists.mp
      (List.find?_isSome.mpr (List.any_eq_true.mp (hafter.issued.symm.trans hissued)))
    obtain ⟨hissue, earlier, later, rfl, hearlier⟩ := List.find?_eq_some_iff_append.mp hfind
    obtain ⟨hbefore, hmove⟩ := hl.before
    have hfirst : ∀ t ∈ earlier, t.call.isIssue = false := by simpa using hearlier
    have hunissued : s.before.issued = false := by
      rw [hbefore.after.issued, List.any_eq_false]
      simpa using hfirst
    -- The handle has its completion now, and so it had it then.
    have hnative : s.before.native.isSome = true := by
      have hnot : s.before.released = false := by
        by_contra hr
        have hlater := (hl.onward_of_mem (List.mem_append_right _ List.mem_cons_self)).released
          (by simpa using hr)
        exact Bool.noConfusion (hlater.symm.trans hreleased)
      rw [← Option.not_isNone, hbefore.after.native, hnot]
      rfl
    exact ⟨earlier, s, later, rfl, hfirst, hissue, hmove.of_first_issue hissue hunissued hnative⟩
  · exact Handle.state_eq_released_iff.mpr ((hl.onward_of_mem hs).released hr)

/-- The first issue of a handle was accepted, and the second was not. -/
theorem outstanding_only_if_issued_busy :
    Lifetime (World.Spared 0) 0 [] Sample.world Sample.busy.1 Sample.busy.2.1 Sample.busy.2.2 ∧
      Sample.busy.2.1.state = .outstanding ∧
      (∀ s ∈ Sample.busy.1, s.call.failure? = none) ∧
      ∃ earlier s later, Sample.busy.1 = earlier ++ s :: later ∧
        (∀ t ∈ earlier, t.call.isIssue = false) ∧ s.call.isIssue = true ∧
        (s.reply.isAccepted = true ∨ s.TurnedDown) := by
  obtain ⟨hiff, hissued, -⟩ := outstanding_only_if_issued Sample.lifetime_busy
  have hstate : Sample.busy.2.1.state = .outstanding := by decide +kernel
  exact ⟨Sample.lifetime_busy, hstate, (hiff.mp hstate).2.1, hissued hstate⟩

/-- A handle stays outstanding when its only issue is refused: there is no pool of the number. -/
theorem outstanding_after_refusal :
    ∃ s h w, Lifetime (World.Spared 0) 0 [] Sample.world [s] h w ∧
      s.call = .issue 7 Sample.stray ∧
      s.reply = .issued (.failed (Sample.stray.refusal .noEntry)) ∧ h.state = .outstanding :=
  ⟨_, _, _, .call (.issue 7 Sample.stray) (.create rfl) rfl, rfl, rfl, rfl⟩

/-- **One request gets through a handle.** A handle is made, and any calls are made on it in any
order. The backend is asked at most once to issue something. An issue that is not the first is
refused, whatever came of the first, and leaves the handle and the world as they were. So at most
one issue is accepted; that alone sets the latch, which is then two less the counts since, and gets
to zero at most once. -/
theorem reaches_backend_once (hl : Lifetime others a context w₀ steps h w) :
    (steps.flatMap (·.asked)).countP (·.isIssue) ≤ 1 ∧
    (∀ earlier s later pool r, steps = earlier ++ s :: later → s.call = .issue pool r →
      (∃ t ∈ earlier, t.call.isIssue = true) →
      s.reply = .issued (.failed (.of .inconsistentState .alreadyIssued)) ∧
        s.after = s.before ∧ s.left = s.found ∧ s.asked = []) ∧
    steps.countP (·.reply.isAccepted) ≤ 1 ∧
    (∀ s ∈ steps, s.before.latch < s.after.latch → s.reply.isAccepted = true ∧ s.after.latch = 2) ∧
    (∀ earlier s later, steps = earlier ++ s :: later → s.reply.isAccepted = true →
      h.latch = 2 - later.countP (·.call.isCountDown)) ∧
    ((∀ s ∈ steps, s.reply.isAccepted = false) → h.latch = 0) ∧
    steps.countP (·.drains) ≤ 1 := by
  have hafter := hl.after
  have hone := h.issued.toNat_le
  have haccepted := Nat.le_trans hafter.accepted hone
  refine ⟨Nat.le_trans hafter.asked hone, ?again, haccepted, ?set, ?latch, fun hnone => ?_, ?_⟩
  case again =>
    rintro earlier s later pool r rfl hcall hissue
    obtain ⟨hbefore, hmove⟩ := hl.before
    rw [hcall] at hmove
    exact hmove.of_issued (hbefore.after.issued.trans (List.any_eq_true.mpr hissue))
  case set =>
    intro s hs hlt
    rw [(hl.move_of_mem hs).latch] at hlt ⊢
    split at hlt
    · rename_i h
      exact ⟨h, if_pos h⟩
    · split at hlt <;> omega
  case latch =>
    rintro earlier s later rfl hs
    -- Nothing else is accepted, before or after.
    rw [List.countP_append, List.countP_cons, if_pos hs] at haccepted
    have hlater : later.countP (·.reply.isAccepted) = 0 := by omega
    rw [hafter.latch, HandleStep.runLatch_append, HandleStep.runLatch, if_pos hs]
    exact HandleStep.runLatch_of_not_accepted fun t ht => by
      simpa using List.countP_eq_zero.mp hlater t ht
  · rw [hafter.latch, HandleStep.runLatch_of_not_accepted hnone, Nat.zero_sub]
  · have hdrained := hafter.drained
    split at hdrained <;> omega

/-- The first of two issues of a handle was accepted, and the latch stands at one. -/
theorem reaches_backend_once_busy :
    Lifetime (World.Spared 0) 0 [] Sample.world Sample.busy.1 Sample.busy.2.1 Sample.busy.2.2 ∧
      Sample.busy.1.map (·.call.isIssue) = [false, true, true, false] ∧
      Sample.busy.1.map (·.reply.isAccepted) = [false, true, false, false] ∧
      (Sample.busy.1.flatMap (·.asked)).countP (·.isIssue) ≤ 1 ∧
      Sample.busy.2.1.latch = 2 - 1 := by
  obtain ⟨hasked, -, -, -, hlatch, -, -⟩ := reaches_backend_once Sample.lifetime_busy
  have hsteps : Sample.busy.1 =
      Sample.busy.1.take 1 ++ Sample.busy.1.get ⟨1, Sample.lt_length_busy⟩ ::
        Sample.busy.1.drop 2 := by
    rw [List.get_eq_getElem, ← List.drop_eq_getElem_cons, List.take_append_drop]
  have hcount : (Sample.busy.1.drop 2).countP (·.call.isCountDown) = 1 := by decide +kernel
  have hone := hlatch _ _ _ hsteps (by decide +kernel)
  rw [hcount] at hone
  exact ⟨Sample.lifetime_busy, by decide +kernel, by decide +kernel, hasked, hone⟩

end Lifetime

end Milepost
