import Milepost.Proofs.Handling
import Milepost.Proofs.Watching

/-!
# What one call on a handle does

A call on a handle over any backend is a `Handle.Move`: one constructor for each way in which the
calls can go, with the answer, the handle and the world after it, and what the backend was asked.
Everything that is said of a handle in the long run is read off the moves.

* `HandleCall.exists_move`: every call makes a move, also over a backend that is watched.
* `HandleCall.move`: what the backend was asked by it is `HandleCall.asked`.
* `Move.latch`, `Move.issued`, `Move.released`, `Move.failure`: what a move does to the parts of
  the handle.
-/

namespace Milepost

namespace HandleCall

variable {β : Type} [ObjectBackend β]

/-- What the backend is asked by a call. -/
def asked (x : HandleCall) (h : Handle) (w : World β) : List CompletionCall :=
  match x.next? h (w.watched []) with
  | some (_, _, v) => v.backend.calls
  | none => []

/-- Whether the call is to issue something. -/
def isIssue : HandleCall → Bool
  | issue .. => true
  | waitFor _ | fail _ | countDown | release => false

/-- The failure that the call reports. -/
def failure? : HandleCall → Option Failure
  | fail e => some e
  | issue .. | waitFor _ | countDown | release => none

end HandleCall

/-- Whether it is the answer to an issue that the backend took. -/
def HandleReply.isAccepted : HandleReply → Bool
  | issued (.accepted _) => true
  | issued (.failed _) | issued .overflow | waited _ | released _ | nothing => false

namespace Handle

variable {β : Type} [ObjectBackend β]

/-- How a release can go. -/
inductive Releasing (h : Handle) (w : World β) :
    Except Failure Unit → Handle → World β → List CompletionCall → Prop
  | again {w' : World β} (hr : h.released = true) (hw : w'.backend = w.backend) :
    Releasing h w (.error gone) h w' []
  | first {w' : World β} (hr : h.released = false)
      (hw : w'.backend = match h.native with
        | some c => ObjectBackend.release c w.backend
        | none => w.backend) :
    Releasing h w (.ok ()) h.spent w' (h.native.toList.map .released)

/-- How a call can go: its answer, the handle and the world after it, and what the backend was
asked. -/
inductive Move (h : Handle) (w : World β) :
    HandleCall → HandleReply → Handle → World β → List CompletionCall → Prop
  | issue {pool : PoolId} {r : Request} {i : Issued Unit} {h' : Handle} {w' : World β}
      {calls : List CompletionCall} (hi : h.Issuing pool r w i h' w' calls) :
    Move h w (.issue pool r) (.issued i) h' w' calls
  | late {m : Milestone} (hn : h.native = none) :
    Move h w (.waitFor m) (.waited (.error gone)) h w []
  | passed {m : Milestone} {c : CompletionId} {status : Status} {w' : World β}
      {result : Except Failure Status} (hn : h.native = some c)
      (hs : ObjectBackend.resolution? w.backend c m = some status)
      (hw : w'.backend = w.backend) :
    Move h w (.waitFor m) (.waited result) { h with observed := h.observed.set m true } w' []
  | fail (e : Failure) : Move h w (.fail e) .nothing (h.fail e) w []
  | countNone (hl : h.latch = 0) : Move h w .countDown .nothing h w []
  | countMore {n : Nat} (hl : h.latch = n + 2) :
    Move h w .countDown .nothing { h with latch := n + 1 } w []
  | countLast {result : Except Failure Unit} {h' : Handle} {w' : World β}
      {calls : List CompletionCall} (hl : h.latch = 1)
      (hr : { h with latch := 0 }.Releasing w result h' w' calls) :
    Move h w .countDown .nothing h' w' calls
  | release {result : Except Failure Unit} {h' : Handle} {w' : World β}
      {calls : List CompletionCall} (hr : h.Releasing w result h' w' calls) :
    Move h w .release (.released result) h' w' calls

theorem releasing (h : Handle) (w : World β) :
    h.Releasing w (h.release w).1 (h.release w).2.1 (h.release w).2.2 h.releaseCalls := by
  cases hr : h.released with
  | true =>
    rw [(release_of_released hr).1, (release_of_released hr).2, releaseCalls, if_pos hr]
    exact .again hr (by simp only [release, hr]; rfl)
  | false =>
    rw [handle_release hr, releaseCalls, if_neg (by simp [hr])]
    have hresult : (h.release w).1 = .ok () := by simp [release, hr]
    rw [hresult]
    refine .first hr ?_
    simp only [release, hr, surrender]
    cases h.native <;> cases h.buffer <;> rfl

end Handle

namespace HandleCall

open Handle

variable {β : Type} [ObjectBackend β] {x : HandleCall} {h h' : Handle} {w w' : World β}
  {reply : HandleReply}

/-- Every call makes a move, and a watched backend is called in the same way. -/
theorem exists_move (hx : x.next? h w = some (reply, h', w')) :
    ∃ calls, h.Move w x reply h' w' calls ∧
      ∀ before, x.next? h (w.watched before) =
        some (reply, h', w'.watched (before ++ calls)) := by
  cases x with
  | issue pool r =>
    obtain ⟨calls, hissuing, hwatched⟩ := h.exists_issuing pool r w
    simp only [next?, Option.some.injEq, Prod.ext_iff] at hx
    obtain ⟨rfl, rfl, rfl⟩ := hx
    refine ⟨calls, .issue hissuing, fun before => ?_⟩
    simp only [next?, hwatched]
  | waitFor m =>
    obtain ⟨⟨result, k, v⟩, hw, hx⟩ := Option.map_eq_some_iff.mp hx
    cases hx
    obtain ⟨native, buffer, failure, observed, issued, released, latch, account, context⟩ := h
    cases native with
    | none =>
      cases hw
      exact ⟨[], .late rfl, fun before => by rw [List.append_nil]; rfl⟩
    | some c =>
      obtain ⟨status, hs, hw⟩ := Option.map_eq_some_iff.mp hw
      cases hw
      refine ⟨[], .passed rfl hs rfl, fun before => ?_⟩
      have hs' : ObjectBackend.resolution? (w.watched before).backend c m = some status := hs
      simp only [next?, waitFor?, hs', List.append_nil]
      rfl
  | fail e =>
    cases hx
    exact ⟨[], .fail e, fun before => by rw [List.append_nil]; rfl⟩
  | countDown =>
    simp only [next?, Option.some.injEq, Prod.ext_iff] at hx
    obtain ⟨rfl, rfl, rfl⟩ := hx
    cases hl : h.latch with
    | zero =>
      refine ⟨[], ?_, fun before => ?_⟩
      · simp only [Handle.countDown, hl]
        exact .countNone hl
      · simp only [next?, Handle.countDown, hl, List.append_nil]
    | succ n =>
      cases n with
      | zero =>
        refine ⟨{ h with latch := 0 }.releaseCalls, ?_, fun before => ?_⟩
        · rw [countDown_last hl]
          exact .countLast hl (releasing ..)
        · simp only [next?, countDown_last hl, release_watched]
      | succ n =>
        refine ⟨[], ?_, fun before => ?_⟩
        · simp only [Handle.countDown, hl]
          exact .countMore hl
        · simp only [next?, Handle.countDown, hl, List.append_nil]
          rfl
  | release =>
    simp only [next?, Option.some.injEq, Prod.ext_iff] at hx
    obtain ⟨rfl, rfl, rfl⟩ := hx
    refine ⟨h.releaseCalls, .release (releasing ..), fun before => ?_⟩
    simp only [next?, release_watched]

/-- What the backend is asked is what it writes down when it is watched. -/
theorem asked_eq {calls : List CompletionCall}
    (hwatched : ∀ before, x.next? h (w.watched before) =
      some (reply, h', w'.watched (before ++ calls))) : x.asked h w = calls := by
  rw [asked, hwatched []]
  rfl

/-- **Every call makes a move.** -/
theorem move (hx : x.next? h w = some (reply, h', w')) : h.Move w x reply h' w' (x.asked h w) := by
  obtain ⟨calls, hmove, hwatched⟩ := exists_move hx
  rwa [asked_eq hwatched]

end HandleCall

namespace Handle

variable {β : Type} [ObjectBackend β] {x : HandleCall} {h h' : Handle} {w w' : World β}
  {pool : PoolId} {r : Request} {i : Issued Unit} {reply : HandleReply}
  {result : Except Failure Unit} {calls : List CompletionCall}

/-! ## What a move leaves and what it changes -/

/-- What a release leaves as it was. -/
structure Spends (h h' : Handle) : Prop where
  failure : h'.failure = h.failure
  observed : h'.observed = h.observed
  issued : h'.issued = h.issued
  latch : h'.latch = h.latch
  released : h'.released = true

theorem Releasing.spends (hr : h.Releasing w result h' w' calls) : h.Spends h' := by
  cases hr with
  | again hr => exact ⟨rfl, rfl, rfl, rfl, hr⟩
  | first hr => exact ⟨rfl, rfl, rfl, rfl, rfl⟩

theorem Releasing.isNone_native (hr : h.Releasing w result h' w' calls)
    (hn : h.native.isNone = h.released) : h'.native.isNone = h'.released := by
  cases hr with
  | again => exact hn
  | first => rfl

/-- What an issue leaves as it was. -/
structure Keeps (h h' : Handle) : Prop where
  native : h'.native = h.native
  failure : h'.failure = h.failure
  observed : h'.observed = h.observed
  released : h'.released = h.released

theorem Issuing.keeps (hi : h.Issuing pool r w i h' w' calls) : h.Keeps h' := by
  cases hi <;> exact ⟨rfl, rfl, rfl, rfl⟩

/-- Whatever comes of it, the handle knows of the issue. -/
theorem Issuing.issued (hi : h.Issuing pool r w i h' w' calls) : h'.issued = true := by
  cases hi with
  | again hi => exact hi
  | late | overflow | accepted | refused => rfl

theorem Issuing.of_issued (hi : h.Issuing pool r w i h' w' calls) (hissued : h.issued = true) :
    i = .failed (.of .inconsistentState .alreadyIssued) ∧ h' = h ∧ w' = w ∧ calls = [] := by
  cases hi with
  | again => exact ⟨rfl, rfl, rfl, rfl⟩
  | late hi | overflow hi | accepted hi | refused hi => cases hi.symm.trans hissued

theorem countP_isIssue_released (o : Option CompletionId) :
    (o.toList.map CompletionCall.released).countP (·.isIssue) = 0 := by
  cases o <;> rfl

theorem Releasing.countP_isIssue (hr : h.Releasing w result h' w' calls) :
    calls.countP (·.isIssue) = 0 := by
  cases hr with
  | again => rfl
  | first => exact countP_isIssue_released _

namespace Move

/-- A handle knows of an issue from the first on. -/
theorem issued (hm : h.Move w x reply h' w' calls) : h'.issued = (h.issued || x.isIssue) := by
  cases hm with
  | issue hi => rw [hi.issued, HandleCall.isIssue, Bool.or_true]
  | fail e => rw [h.fail_eq e]; exact (Bool.or_false _).symm
  | countLast _ hr | release hr => rw [hr.spends.issued]; exact (Bool.or_false _).symm
  | late | passed | countNone | countMore => exact (Bool.or_false _).symm

/-- A handle keeps the first failure that is reported. -/
theorem failure (hm : h.Move w x reply h' w' calls) :
    h'.failure = h.failure.or x.failure? := by
  cases hm with
  | issue hi => rw [hi.keeps.failure]; exact (Option.or_none ..).symm
  | fail e =>
    unfold Handle.fail
    cases hf : h.failure with
    | none => rfl
    | some e' => exact hf
  | countLast _ hr | release hr => rw [hr.spends.failure]; exact (Option.or_none ..).symm
  | late | passed | countNone | countMore => exact (Option.or_none ..).symm

/-- An accepted issue sets the latch, and every count takes one off. -/
theorem latch (hm : h.Move w x reply h' w' calls) :
    h'.latch =
      if reply.isAccepted then 2 else if x.isCountDown then h.latch - 1 else h.latch := by
  cases hm with
  | issue hi => cases hi <;> rfl
  | fail e => rw [h.fail_eq e]; rfl
  | countNone hl => exact hl.trans (by rw [hl]; rfl)
  | countMore hl => exact (by rw [hl]; rfl)
  | countLast hl hr => rw [hr.spends.latch, hl]; rfl
  | release hr => rw [hr.spends.latch]; rfl
  | late | passed => rfl

/-- **A second issue changes nothing and asks the backend nothing.** -/
theorem of_issued (hm : h.Move w (.issue pool r) reply h' w' calls) (hissued : h.issued = true) :
    reply = .issued (.failed (.of .inconsistentState .alreadyIssued)) ∧ h' = h ∧ w' = w ∧
      calls = [] := by
  cases hm with
  | issue hi =>
    obtain ⟨rfl, hrest⟩ := hi.of_issued hissued
    exact ⟨rfl, hrest⟩

/-- An issue is accepted only if it is the first. -/
theorem isAccepted (hm : h.Move w x reply h' w' calls) (ha : reply.isAccepted = true) :
    x.isIssue = true ∧ h.issued = false ∧ h.native.isSome = true := by
  cases hm with
  | issue hi =>
    cases hi with
    | accepted hi hn => exact ⟨rfl, hi, by rw [hn]; rfl⟩
    | again | late | overflow | refused => cases ha
  | late | passed | fail | countNone | countMore | countLast | release => cases ha

/-- A handle has its completion as long as it is not released. -/
theorem isNone_native (hm : h.Move w x reply h' w' calls) (hn : h.native.isNone = h.released) :
    h'.native.isNone = h'.released := by
  cases hm with
  | issue hi => rw [hi.keeps.native, hi.keeps.released, hn]
  | fail e => rw [h.fail_eq e]; exact hn
  | countLast _ hr => exact hr.isNone_native hn
  | release hr => exact hr.isNone_native hn
  | late | passed | countNone | countMore => exact hn

/-- **The backend is asked at most once, with the first issue.** -/
theorem countP_isIssue_le (hm : h.Move w x reply h' w' calls) :
    calls.countP (·.isIssue) ≤ (!h.issued && x.isIssue).toNat := by
  cases hm with
  | issue hi =>
    cases hi with
    | again | late | overflow => exact Nat.zero_le _
    | accepted hi | refused hi => rw [hi]; exact Nat.le_refl 1
  | countLast _ hr | release hr => rw [hr.countP_isIssue]; exact Nat.zero_le _
  | late | passed | fail | countNone | countMore => exact Nat.zero_le _

end Move

/-! ## The way of a handle -/

/-- A handle further on: what has happened to it stays so. -/
structure Onward (h h' : Handle) : Prop where
  issued : h.issued = true → h'.issued = true
  released : h.released = true → h'.released = true
  failure : ∀ e, h.failure = some e → h'.failure = some e
  observed : ∀ m, h.observed.get m = true → h'.observed.get m = true

namespace Onward

variable {h'' : Handle}

theorem refl (h : Handle) : Onward h h := ⟨id, id, fun _ => id, fun _ => id⟩

theorem trans (ho : Onward h h') (ho' : Onward h' h'') : Onward h h'' where
  issued := ho'.issued ∘ ho.issued
  released := ho'.released ∘ ho.released
  failure e := ho'.failure e ∘ ho.failure e
  observed m := ho'.observed m ∘ ho.observed m

end Onward

theorem Spends.onward (hs : h.Spends h') : h.Onward h' where
  issued hi := hs.issued.trans hi
  released _ := hs.released
  failure _ he := hs.failure.trans he
  observed m := by rw [hs.observed]; exact id

/-- **Every move leads onward.** -/
theorem Move.onward (hm : h.Move w x reply h' w' calls) : h.Onward h' := by
  cases hm with
  | issue hi =>
    exact {
      issued := fun _ => hi.issued
      released := fun hr => hi.keeps.released.trans hr
      failure := fun _ he => hi.keeps.failure.trans he
      observed := fun m => by rw [hi.keeps.observed]; exact id }
  | @passed m =>
    refine ⟨id, id, fun _ => id, fun n hn => ?_⟩
    rw [PerMilestone.get_set]
    split
    · rfl
    · exact hn
  | fail e =>
    rw [h.fail_eq e]
    refine ⟨id, id, fun e' he' => ?_, fun _ => id⟩
    change (h.fail e).failure = some e'
    rw [Handle.fail, he']
    exact he'
  | countLast _ hr =>
    have ho := hr.spends.onward
    exact ⟨ho.issued, ho.released, ho.failure, ho.observed⟩
  | release hr => exact hr.spends.onward
  | late | countNone => exact .refl h
  | countMore => exact ⟨id, id, fun _ => id, fun _ => id⟩

end Handle

end Milepost
