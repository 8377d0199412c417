import Milepost.Proofs.Flight.Moves

/-!
# What the owner is told

A flight tells its owner how it went by calls of callbacks and by answers of its two futures. What
was told so far depends on the phases of the tasks: nothing before the outcome is known, then one
call, and an answer only after the call. `Told` says so of a waiter and `Story` of the whole
flight, with the phase as an index. What an outcome may be is left to the `Grounds` on which it is
told; the moves of a flight preserve the story on any grounds.

* `Story.issuerMove`, `Story.waiterMove`: the moves preserve it.
* `Story.mono`: so does anything that adds to the grounds.
-/

namespace Milepost

theorem Task.waiterThread_inj {t : Task} {m n : Milestone}
    (h : t.waiterThread m = t.waiterThread n) : m = n := by
  cases m <;> cases n <;> simp [waiterThread, Milestone.label, String.append_assoc] at h ⊢

theorem Task.waiterThread_ne_issuerThread (t : Task) (m : Milestone) :
    t.waiterThread m ≠ t.issuerThread := by
  cases m <;> simp [waiterThread, issuerThread, Milestone.label, String.append_assoc]

/-- On what grounds a flight tells its owner something. -/
structure Grounds where
  /-- The operation was refused with this failure. -/
  refused : Failure → Prop
  /-- The buffer of a read could not be made. -/
  overflown : Prop
  /-- The milestone turned out like this. -/
  outcome : Milestone → Outcome → Prop
  /-- The milestone was passed by a read of so many bytes. -/
  copied : Milestone → Nat → Prop

/-- There are grounds for what a waiter has come to know when it gets to a phase. -/
def Grounds.Support (G : Grounds) (m : Milestone) : WaiterPhase → Prop
  | .copying n => G.copied m n
  | .ready o => G.outcome m o
  | _ => True

namespace Flight

/-- The call that an outcome of a milestone brings about. -/
def call (f : Flight) (m : Milestone) (o : Outcome) : Option Invocation :=
  f.task.callbacks.invocation? m (f.task.waiterThread m) o

/-- The call that a refusal brings about. -/
def rejection (f : Flight) (e : Failure) : Option Invocation :=
  f.task.callbacks.invocation? .complete f.task.issuerThread (.failed e)

/-- The calls that the waiter for a milestone made. -/
def calls (f : Flight) (m : Milestone) : List Invocation :=
  f.invocations.filter (·.thread == f.task.waiterThread m)

/-- The owner has heard nothing of the milestone. -/
def HearsNothing (f : Flight) (m : Milestone) : Prop :=
  f.calls m = [] ∧ f.futures.get m = none

/-- The owner was called back once about the outcome of a milestone, and the callback failed or
not; the future has this answer. -/
structure Called (f : Flight) (m : Milestone) (o : Outcome) (raised : Bool)
    (answer : Option Outcome) : Prop where
  calls : f.calls m = (f.call m o).toList
  raises : raises (f.call m o) = raised
  answered : f.futures.get m = answer

/-- What the owner was told about a milestone when its waiter is in a phase. -/
inductive Told (G : Grounds) (f : Flight) (m : Milestone) : WaiterPhase → Prop
  | waiting (hn : f.HearsNothing m) : Told G f m .waiting
  | copying {n : Nat} (hg : G.copied m n) (hn : f.HearsNothing m) : Told G f m (.copying n)
  | ready {o : Outcome} (hg : G.outcome m o) (hn : f.HearsNothing m) : Told G f m (.ready o)
  | recorded {o : Outcome} (hg : G.outcome m o) (hn : f.HearsNothing m) : Told G f m (.recorded o)
  | notified {o : Outcome} (hg : G.outcome m o) (hc : f.Called m o false none) :
    Told G f m (.notified o)
  | counted {o : Outcome} (hg : G.outcome m o) (hc : f.Called m o false none) :
    Told G f m (.counted o)
  | raised {o : Outcome} (hg : G.outcome m o) (hc : f.Called m o true none) : Told G f m .raised
  | answered {o : Outcome} (hg : G.outcome m o) (hc : f.Called m o false (some o)) :
    Told G f m .finished
  | abandoned {o : Outcome} (hg : G.outcome m o) (hc : f.Called m o true (some .lost)) :
    Told G f m .abandoned
  | lost {o : Outcome} (hg : G.outcome m o) (hc : f.Called m o true (some .lost)) :
    Told G f m .finished

end Flight

/-- Whether nothing was told to the owner in this phase of the issuer. -/
def IssuerPhase.isSilent : IssuerPhase → Bool
  | ready | created | accepted | refused _ | rejected _ | crashed => true
  | notified _ | answered _ | lost | finished => false

namespace Flight

/-- The owner was called back once about a refusal, and the callback failed or not. -/
structure Rejected (G : Grounds) (f : Flight) (e : Failure) (raised : Bool) : Prop where
  grounds : G.refused e
  calls : f.invocations = (f.rejection e).toList
  raises : raises (f.rejection e) = raised

/-- What the owner was told about an operation when its issuer is in a phase. -/
inductive Story (G : Grounds) (f : Flight) : IssuerPhase → Prop
  | silent {p : IssuerPhase} (hp : p.isSilent = true) (hc : f.invocations = [])
      (hf : f.futures = .const none) : Story G f p
  | notified {e : Failure} (hr : f.Rejected G e false) (hf : f.futures = .const none) :
    Story G f (.notified e)
  | answered {e : Failure} (hr : f.Rejected G e false) (hf : f.futures = ⟨some (.failed e), none⟩) :
    Story G f (.answered e)
  | rejected {e : Failure} (hw : f.waiters = .const .idle) (hr : f.Rejected G e false)
      (hf : f.futures = .const (some (.failed e))) : Story G f .finished
  | raised {e : Failure} (hw : f.waiters = .const .idle) (hr : f.Rejected G e true)
      (hf : f.futures = .const none) : Story G f .lost
  | abandoned {e : Failure} (hw : f.waiters = .const .idle) (hr : f.Rejected G e true)
      (hf : f.futures = .const (some .lost)) : Story G f .finished
  | overflown (hw : f.waiters = .const .idle) (hg : G.overflown) (hc : f.invocations = [])
      (hf : f.futures = .const none) : Story G f .lost
  | dropped (hw : f.waiters = .const .idle) (hg : G.overflown) (hc : f.invocations = [])
      (hf : f.futures = .const (some .lost)) : Story G f .finished
  | launched (hw : ∀ m, f.waiters.get m ≠ .idle) (ht : ∀ m, f.Told G m (f.waiters.get m))
      (hc : ∀ k ∈ f.invocations, ∃ m, k.thread = f.task.waiterThread m) : Story G f .finished

variable {G G' : Grounds} {f g : Flight} {w w' : World InMemory} {m n : Milestone}
  {p : WaiterPhase} {o : Outcome} {e : Failure}

theorem thread_of_mem_call {k : Invocation} (h : k ∈ f.call m o) :
    k.thread = f.task.waiterThread m := by
  cases o with
  | reached payload =>
    obtain ⟨_, -, rfl⟩ := Option.map_eq_some_iff.mp h
    rfl
  | failed e =>
    obtain ⟨_, -, rfl⟩ := Option.map_eq_some_iff.mp h
    rfl

theorem get_onWaiter (f : Flight) (m : Milestone) (p : WaiterPhase) :
    (f.onWaiter m p).waiters.get m = p := PerMilestone.get_set_self ..

theorem afterMilestone_cases (r : Request) (result : Except Failure Status) :
    (∃ o, afterMilestone r result = .ready o) ∨ ∃ n, afterMilestone r result = .copying n := by
  unfold afterMilestone
  repeat' split
  · exact .inl ⟨_, rfl⟩
  · exact .inl ⟨_, rfl⟩
  · exact .inr ⟨_, rfl⟩
  · exact .inl ⟨_, rfl⟩

/-- A waiter that told nothing has made one call when it has called. -/
theorem HearsNothing.calls_notify (hn : f.HearsNothing m) :
    (f.notify m o).calls m = (f.call m o).toList := by
  change (f.invocations ++ (f.call m o).toList).filter (·.thread == f.task.waiterThread m) = _
  rw [List.filter_append, show f.invocations.filter _ = [] from hn.1, List.nil_append,
    List.filter_eq_self]
  intro k hk
  exact beq_iff_eq.mpr (thread_of_mem_call (Option.mem_toList.mp hk))

namespace Told

/-- What is told about a milestone depends on its grounds, its calls and its future alone. -/
theorem imp (ht : f.Told G m p) (hcopied : ∀ n, G.copied m n → G'.copied m n)
    (houtcome : ∀ o, G.outcome m o → G'.outcome m o) (htask : g.task = f.task)
    (hc : g.calls m = f.calls m) (hf : g.futures.get m = f.futures.get m) : g.Told G' m p := by
  have hcall : ∀ o, g.call m o = f.call m o := by
    intro o
    unfold call
    rw [htask]
  have nothing : f.HearsNothing m → g.HearsNothing m := by
    rintro ⟨h1, h2⟩
    exact ⟨hc.trans h1, hf.trans h2⟩
  have called : ∀ {o b a}, f.Called m o b a → g.Called m o b a := by
    rintro o b a ⟨h1, h2, h3⟩
    rw [← hcall] at h1 h2
    exact ⟨hc.trans h1, h2, hf.trans h3⟩
  cases ht with
  | waiting hn => exact .waiting (nothing hn)
  | copying hg hn => exact .copying (hcopied _ hg) (nothing hn)
  | ready hg hn => exact .ready (houtcome _ hg) (nothing hn)
  | recorded hg hn => exact .recorded (houtcome _ hg) (nothing hn)
  | notified hg hc => exact .notified (houtcome _ hg) (called hc)
  | counted hg hc => exact .counted (houtcome _ hg) (called hc)
  | raised hg hc => exact .raised (houtcome _ hg) (called hc)
  | answered hg hc => exact .answered (houtcome _ hg) (called hc)
  | abandoned hg hc => exact .abandoned (houtcome _ hg) (called hc)
  | lost hg hc => exact .lost (houtcome _ hg) (called hc)

theorem congr (ht : f.Told G m p) (htask : g.task = f.task) (hc : g.calls m = f.calls m)
    (hf : g.futures.get m = f.futures.get m) : g.Told G m p :=
  ht.imp (fun _ => id) (fun _ => id) htask hc hf

/-- Before the waiter calls, nothing is told. -/
theorem hearsNothing (ht : f.Told G m p) (hp : p.hasCalled = false) : f.HearsNothing m := by
  cases ht with
  | waiting hn | copying _ hn | ready _ hn | recorded _ hn => exact hn
  | notified | counted | raised | answered | abandoned | lost => cases hp

/-- A waiter that counted the handle down told nothing more. -/
theorem counted_of_afterCount? {q : WaiterPhase} (ht : f.Told G m p)
    (hp : p.afterCount? = some q) : f.Told G m q := by
  cases ht with
  | notified hg hc =>
    cases hp
    exact .counted hg hc
  | abandoned hg hc =>
    cases hp
    exact .lost hg hc
  | waiting | copying | ready | recorded | counted | raised | answered | lost => cases hp

/-- Every move of the waiter for the milestone preserves it, if there are grounds for what the
waiter comes to know. -/
theorem waiterMove (ht : f.Told G m (f.waiters.get m)) (hm : WaiterMove m f w g w')
    (hg : G.Support m (g.waiters.get m)) : g.Told G m (g.waiters.get m) := by
  cases hm with
  | @observe hp h c status result =>
    rw [hp] at ht
    have hn := ht.hearsNothing rfl
    rw [get_onWaiter] at hg ⊢
    rcases afterMilestone_cases f.task.request result with ⟨o, ho⟩ | ⟨n, hc⟩
    · rw [ho] at hg ⊢
      exact .ready hg hn
    · rw [hc] at hg ⊢
      exact .copying hg hn
  | copy hp hh =>
    rw [hp] at ht
    rw [get_onWaiter] at hg ⊢
    exact .ready hg (ht.hearsNothing rfl)
  | record hp hh =>
    rw [hp] at ht
    rw [get_onWaiter]
    cases ht with
    | ready hg hn => exact .recorded hg hn
  | @call o hp =>
    rw [hp] at ht
    cases ht with
    | recorded hg hn =>
      rw [notify, get_onWaiter]
      cases hr : raises (f.call m o) with
      | true => exact (if_pos hr).symm ▸ .raised hg ⟨hn.calls_notify, hr, hn.2⟩
      | false =>
        exact (if_neg (Bool.eq_false_iff.mp hr)).symm ▸ .notified hg ⟨hn.calls_notify, hr, hn.2⟩
  | countFirst hp hh hl | countLast hp hh hl hr =>
    rw [get_onWaiter]
    exact (ht.counted_of_afterCount? hp).congr rfl rfl rfl
  | answer hp =>
    rw [hp] at ht
    rw [get_onWaiter]
    cases ht with
    | counted hg hc => exact .answered hg ⟨hc.calls, hc.raises, PerMilestone.get_set_self ..⟩
  | abandon hp =>
    rw [hp] at ht
    rw [get_onWaiter]
    cases ht with
    | raised hg hc => exact .abandoned hg ⟨hc.calls, hc.raises, PerMilestone.get_set_self ..⟩

end Told

/-- A waiter leaves alone what the other one tells. -/
theorem WaiterMove.other (hm : WaiterMove m f w g w') (hn : n ≠ m) :
    g.waiters.get n = f.waiters.get n ∧ g.futures.get n = f.futures.get n := by
  have hw : ∀ p, (f.waiters.set m p).get n = f.waiters.get n := by
    intro p
    rw [PerMilestone.get_set, if_neg (Ne.symm hn)]
  have hf : ∀ o, (f.futures.set m o).get n = f.futures.get n := by
    intro o
    rw [PerMilestone.get_set, if_neg (Ne.symm hn)]
  cases hm with
  | observe | copy | record | call | countFirst | countLast =>
    refine ⟨hw _, ?_⟩
    rfl
  | answer | abandon => exact ⟨hw _, hf _⟩

/-- A waiter makes at most one call, and by its own name. -/
theorem WaiterMove.invocations (hm : WaiterMove m f w g w') :
    ∃ k : Option Invocation, g.invocations = f.invocations ++ k.toList ∧
      ∀ x ∈ k, x.thread = f.task.waiterThread m := by
  cases hm with
  | @call o hp => exact ⟨f.call m o, rfl, fun x hx => thread_of_mem_call hx⟩
  | observe | copy | record | countFirst | countLast | answer | abandon =>
    refine ⟨none, ?_, fun x hx => absurd hx (by simp)⟩
    rw [Option.toList_none, List.append_nil]
    rfl

namespace Story

variable {p : IssuerPhase}

/-- A story is told on further grounds as well. -/
theorem mono (hs : f.Story G p) (hrefused : ∀ e, G.refused e → G'.refused e)
    (hoverflown : G.overflown → G'.overflown)
    (hcopied : ∀ m n, G.copied m n → G'.copied m n)
    (houtcome : ∀ m o, G.outcome m o → G'.outcome m o) : f.Story G' p := by
  have refused : ∀ {e b}, f.Rejected G e b → f.Rejected G' e b := by
    rintro e b ⟨hg, hc, hr⟩
    exact ⟨hrefused e hg, hc, hr⟩
  cases hs with
  | silent hp hc hf => exact .silent hp hc hf
  | notified hr hf => exact .notified (refused hr) hf
  | answered hr hf => exact .answered (refused hr) hf
  | rejected hw hr hf => exact .rejected hw (refused hr) hf
  | raised hw hr hf => exact .raised hw (refused hr) hf
  | abandoned hw hr hf => exact .abandoned hw (refused hr) hf
  | overflown hw hg hc hf => exact .overflown hw (hoverflown hg) hc hf
  | dropped hw hg hc hf => exact .dropped hw (hoverflown hg) hc hf
  | launched hw ht hc =>
    exact .launched hw (fun m => (ht m).imp (hcopied m) (houtcome m) rfl rfl rfl) hc

theorem of_isSilent (hs : f.Story G p) (hp : p.isSilent = true) :
    f.invocations = [] ∧ f.futures = .const none := by
  cases hs with
  | silent _ hc hf => exact ⟨hc, hf⟩
  | notified | answered | rejected | raised | abandoned | overflown | dropped | launched => cases hp

theorem of_started (hs : f.Story G f.issuer) (hk : f.Keeps) (hw : f.waiters.get m ≠ .idle) :
    (∀ n, f.Told G n (f.waiters.get n)) ∧
      ∀ k ∈ f.invocations, ∃ n, k.thread = f.task.waiterThread n := by
  rw [hk.issuer_finished hw] at hs
  cases hs with
  | silent hp => cases hp
  | rejected hw' | abandoned hw' | dropped hw' =>
    rw [hw', PerMilestone.get_const] at hw
    exact absurd rfl hw
  | launched _ ht hc => exact ⟨ht, hc⟩

/-- **Every move of a waiter preserves the story**, if there are grounds for what the waiter comes
to know. -/
theorem waiterMove (hs : f.Story G f.issuer) (hk : f.Keeps) (hm : WaiterMove m f w g w')
    (hg : G.Support m (g.waiters.get m)) : g.Story G g.issuer := by
  obtain ⟨ht, hc⟩ := hs.of_started hk hm.started
  obtain ⟨htask, hissuer, p, hp, hw⟩ := hm.frame
  obtain ⟨k, hcalls, hthread⟩ := hm.invocations
  rw [hissuer, hm.issuer_finished hk]
  refine .launched (fun n => ?_) (fun n => ?_) fun x hx => ?_
  · rw [hw]
    exact hk.set_ne_idle hm.started hp n
  · by_cases hn : n = m
    · subst hn
      exact (ht n).waiterMove hm hg
    · -- Calls of the two waiters are told apart by the names of the tasks.
      obtain ⟨hother, hfutures⟩ := hm.other hn
      rw [hother]
      refine (ht n).congr htask ?_ hfutures
      rw [calls, hcalls, htask, List.filter_append]
      refine List.append_right_eq_self.mpr (List.filter_eq_nil_iff.mpr fun x hx hxn => ?_)
      have hthread := hthread x (Option.mem_toList.mp hx)
      exact hn (Task.waiterThread_inj ((beq_iff_eq.mp hxn).symm.trans hthread))
  · rw [hcalls] at hx
    rw [htask]
    rcases List.mem_append.mp hx with hx | hx
    · exact hc x hx
    · exact ⟨m, hthread x (Option.mem_toList.mp hx)⟩

/-- Waiters that were just started have told nothing. -/
theorem launch (hc : f.invocations = []) (hf : f.futures = .const none) :
    (f.launch w).1.Story G .finished := by
  have hw : ∀ m, (f.launch w).1.waiters.get m = .waiting := by
    intro m
    cases m <;> rfl
  refine .launched (fun m => by rw [hw]; exact nofun) (fun m => ?_) fun k hk => ?_
  · have hn : (f.launch w).1.HearsNothing m := by
      refine ⟨?_, (congrArg (PerMilestone.get · m) hf).trans (PerMilestone.get_const ..)⟩
      change f.invocations.filter _ = []
      rw [hc]
      rfl
    rw [hw]
    exact .waiting hn
  · change k ∈ f.invocations at hk
    rw [hc] at hk
    cases hk

/-- **Every move of the issuer preserves the story**, if there are grounds for a failure to be
reported. -/
theorem issuerMove (hs : f.Story G f.issuer) (hk : f.Keeps) (hm : IssuerMove f w g w')
    (hrefused : ∀ e, f.issuer = .rejected e → G.refused e)
    (hoverflown : f.issuer = .crashed → G.overflown) : g.Story G g.issuer := by
  cases hm with
  | make hp | take hp | ignore hp | refuse hp | overflow hp | release hp =>
    obtain ⟨hc, hf⟩ := hs.of_isSilent (by rw [hp]; rfl)
    exact .silent rfl hc hf
  | launch hp =>
    obtain ⟨hc, hf⟩ := hs.of_isSilent (by rw [hp]; rfl)
    exact .launch hc hf
  | drop hp hh hr =>
    obtain ⟨hc, hf⟩ := hs.of_isSilent (by rw [hp]; rfl)
    exact .overflown (hk.idle (by simp [hp])) (hoverflown hp) hc hf
  | @reject e hp =>
    obtain ⟨hc, hf⟩ := hs.of_isSilent (by rw [hp]; rfl)
    have hcalls : (f.reject e w).1.invocations = (f.rejection e).toList := by
      change f.invocations ++ _ = _
      rw [hc]
      rfl
    have hrejected : ∀ b, raises (f.rejection e) = b → (f.reject e w).1.Rejected G e b :=
      fun b hr => ⟨hrefused e hp, hcalls, hr⟩
    change (f.reject e w).1.Story G (if raises (f.rejection e) then .lost else .notified e)
    cases hr : raises (f.rejection e) with
    | true => exact .raised (hk.idle (by simp [hp])) (hrejected true hr) hf
    | false => exact .notified (hrejected false hr) hf
  | @answerFirst e hp =>
    rw [hp] at hs
    cases hs with
    | silent hp' => cases hp'
    | notified hr hf =>
      refine .answered ⟨hr.grounds, hr.calls, hr.raises⟩ ?_
      change f.futures.set .complete _ = _
      rw [hf]
      rfl
  | @answerSecond e hp =>
    have hidle := hk.idle (by simp [hp])
    rw [hp] at hs
    cases hs with
    | silent hp' => cases hp'
    | answered hr hf =>
      refine .rejected hidle ⟨hr.grounds, hr.calls, hr.raises⟩ ?_
      change f.futures.set .safe _ = _
      rw [hf]
      rfl
  | lose hp =>
    rw [hp] at hs
    cases hs with
    | silent hp' => cases hp'
    | raised hw hr => exact .abandoned hw ⟨hr.grounds, hr.calls, hr.raises⟩ rfl
    | overflown hw hg hc => exact .dropped hw hg hc rfl

end Story

end Flight

end Milepost
