import Milepost.Proofs.Flight.Keeping

/-!
# The moves of a flight

One constructor for each thing that a step of an issuer or a waiter can do over the backend in
memory, with the flight and the world after it. `IssuerMove.of_step` and `WaiterMove.of_step` say
that nothing else happens; whatever outlives the steps of a flight is proved by cases on the moves.

* `Keeps.issuerMove`, `Keeps.waiterMove`: the moves preserve `Flight.Keeps`.
-/

namespace Milepost.Flight

/-- What a step of the issuer does. -/
inductive IssuerMove (f : Flight) (w : World InMemory) : Flight → World InMemory → Prop
  /-- It makes a handle with a new completion. -/
  | make (hp : f.issuer = .ready) :
    IssuerMove f w
      { f with
        handle := some
          { native := some w.backend.completions.size, account := f.task.account,
            context := f.task.context }
        issuer := .created }
      (World.count { w with backend := w.backend.createCompletion.2 } f.task.account
        .handleCreated)
  /-- The backend takes the operation. -/
  | take (hp : f.issuer = .created) {h : Handle} {c : CompletionId} {job : Job}
      (hh : f.handle = some h) (hn : h.native = some c)
      (hj : f.task.job? c w.shelf.cells.size = some job) (ha : w.backend.accepts job = true) :
    IssuerMove f w
      { f with
        handle := some
          { h with
            issued := true
            buffer := f.task.request.operation.ownBuffer? w.shelf.cells.size
            latch := 2 }
        issuer := .accepted }
      { w with
        backend := (w.backend.submit job).2
        shelf := f.task.request.operation.shelved w.shelf }
  /-- The backend answers as if it took the operation, and does nothing about it. -/
  | ignore (hp : f.issuer = .created) {h : Handle} {c : CompletionId} {job : Job}
      (hh : f.handle = some h) (hn : h.native = some c)
      (hj : f.task.job? c w.shelf.cells.size = some job) (ha : w.backend.accepts job = false)
      (he : (w.backend.submit job).1.isError = false) :
    IssuerMove f w
      { f with
        handle := some
          { h with
            issued := true
            buffer := f.task.request.operation.ownBuffer? w.shelf.cells.size
            latch := 2 }
        issuer := .accepted }
      { w with shelf := f.task.request.operation.ignored w.shelf }
  /-- The backend refuses the operation. -/
  | refuse (hp : f.issuer = .created) {h : Handle} {c : CompletionId} {job : Job}
      (hh : f.handle = some h) (hn : h.native = some c)
      (hj : f.task.job? c w.shelf.cells.size = some job)
      (he : (w.backend.submit job).1.isError = true) :
    IssuerMove f w
      { f with
        handle := some { h with issued := true }
        issuer := .refused (f.task.request.refusal (w.backend.submit job).1) }
      { w with shelf := f.task.request.operation.unshelved w.shelf }
  /-- The buffer of a read cannot be made. -/
  | overflow (hp : f.issuer = .created) {h : Handle} {c : CompletionId} (hh : f.handle = some h)
      (hn : h.native = some c) (hj : f.task.job? c w.shelf.cells.size = none) :
    IssuerMove f w
      { f with handle := some { h with issued := true }, issuer := .crashed } w
  /-- It starts the waiters. -/
  | launch (hp : f.issuer = .accepted) : IssuerMove f w (f.launch w).1 (f.launch w).2
  /-- It releases the handle of a refused operation. -/
  | release {e : Failure} (hp : f.issuer = .refused e) {h : Handle} (hh : f.handle = some h)
      (hr : h.released = false) :
    IssuerMove f w { f with handle := some (h.fail e).spent, issuer := .rejected e }
      ((h.fail e).release w).2.2
  /-- It drops the handle of a read whose buffer cannot be made. -/
  | drop (hp : f.issuer = .crashed) {h : Handle} (hh : f.handle = some h)
      (hr : h.released = false) :
    IssuerMove f w { f with handle := some h.spent, issuer := .lost } (h.release w).2.2
  /-- It calls the owner back about a refused operation. -/
  | reject {e : Failure} (hp : f.issuer = .rejected e) :
    IssuerMove f w (f.reject e w).1 (f.reject e w).2
  /-- It answers the first future with the refusal. -/
  | answerFirst {e : Failure} (hp : f.issuer = .notified e) :
    IssuerMove f w { f.answer .complete (.failed e) with issuer := .answered e } w
  /-- It answers the second future with the refusal. -/
  | answerSecond {e : Failure} (hp : f.issuer = .answered e) :
    IssuerMove f w { f.answer .safe (.failed e) with issuer := .finished } w
  /-- It gives both futures up. -/
  | lose (hp : f.issuer = .lost) :
    IssuerMove f w { (f.answer .complete .lost).answer .safe .lost with issuer := .finished } w

/-- Whether a milestone ended in a failure. -/
def isFailure : Except Failure Status → Bool
  | .ok _ => false
  | .error _ => true

/-- What a step of the waiter for a milestone does. -/
inductive WaiterMove (m : Milestone) (f : Flight) (w : World InMemory) :
    Flight → World InMemory → Prop
  /-- It finds the milestone resolved. -/
  | observe (hp : f.waiters.get m = .waiting) {h : Handle} {c : CompletionId} {status : Status}
      {result : Except Failure Status} (hh : f.handle = some h) (hn : h.native = some c)
      (hf : (w.backend.completion c).resolution? m = some status)
      (hres : result = Handle.outcome m status (w.backend.completion c).returnValue) :
    WaiterMove m f w
      ({ f with handle := some { h with observed := h.observed.set m true } }.onWaiter m
        (afterMilestone f.task.request result))
      (w.count h.account (·.milestonePassed m (isFailure result)))
  /-- It copies the bytes of a read. -/
  | copy {n : Nat} (hp : f.waiters.get m = .copying n) {h : Handle} (hh : f.handle = some h) :
    WaiterMove m f w (f.onWaiter m (.ready (copyResult h n w.shelf))) w
  /-- It writes the outcome down and reports a failure to the handle. -/
  | record {o : Outcome} (hp : f.waiters.get m = .ready o) {h : Handle} (hh : f.handle = some h) :
    WaiterMove m f w ({ f with handle := some (reported o h) }.onWaiter m (.recorded o))
      (w.write (outcomeRecord (f.task.waiterContext m) o))
  /-- It calls the owner back. -/
  | call {o : Outcome} (hp : f.waiters.get m = .recorded o) :
    WaiterMove m f w (f.notify m o) w
  /-- It counts the handle down while the other waiter is not done. -/
  | countFirst {p : WaiterPhase} (hp : (f.waiters.get m).afterCount? = some p) {h : Handle}
      (hh : f.handle = some h) (hl : h.latch = 2) :
    WaiterMove m f w ({ f with handle := some { h with latch := 1 } }.onWaiter m p) w
  /-- It counts the handle down after the other waiter, which releases it. -/
  | countLast {p : WaiterPhase} (hp : (f.waiters.get m).afterCount? = some p) {h : Handle}
      (hh : f.handle = some h) (hl : h.latch = 1) (hr : h.released = false) :
    WaiterMove m f w
      ({ f with handle := some { h with latch := 0 }.spent }.onWaiter m p)
      ({ h with latch := 0 }.release w).2.2
  /-- It answers the future. -/
  | answer {o : Outcome} (hp : f.waiters.get m = .counted o) :
    WaiterMove m f w ((f.answer m o).onWaiter m .finished) w
  /-- It gives the future up after a callback failed. -/
  | abandon (hp : f.waiters.get m = .raised) :
    WaiterMove m f w ((f.answer m .lost).onWaiter m .abandoned) w

variable {f g : Flight} {w w' : World InMemory} {m : Milestone}

/-- Nothing else happens. -/
theorem IssuerMove.of_step (hk : f.Keeps)
    (hs : f.issuerStep? w = some (g, w')) : IssuerMove f w g w' := by
  unfold issuerStep? at hs
  cases hp : f.issuer with
  | ready =>
    simp only [hp] at hs
    cases hs
    exact .make hp
  | created =>
    obtain ⟨h, c, hh, hn, -⟩ := hk.exists_native (by simp [holds, hp])
    have hi := hk.fresh hp h hh
    simp only [hp, hh] at hs
    cases hj : f.task.job? c w.shelf.cells.size with
    | none =>
      rw [Handle.issue_of_overflow hi hn hj] at hs
      cases hs
      exact .overflow hp hh hn hj
    | some job =>
      cases ha : w.backend.accepts job with
      | true =>
        rw [Handle.issue_of_accepts hi hn hj ha] at hs
        cases hs
        exact .take hp hh hn hj ha
      | false =>
        cases he : (w.backend.submit job).1.isError with
        | true =>
          rw [Handle.issue_of_isError hi hn hj rfl he] at hs
          cases hs
          exact .refuse hp hh hn hj he
        | false =>
          rw [Handle.issue_of_ignored hi hn hj ha he] at hs
          cases hs
          exact .ignore hp hh hn hj ha he
  | accepted =>
    simp only [hp] at hs
    cases hs
    exact .launch hp
  | refused e =>
    obtain ⟨h, c, hh, -, hr⟩ := hk.exists_native (by simp [holds, hp])
    have hr' : (h.fail e).released = false := by rw [Handle.fail_eq]; exact hr
    simp only [hp, releaseRefused, hh, Handle.handle_release hr'] at hs
    cases hs
    exact .release hp hh hr
  | crashed =>
    obtain ⟨h, c, hh, -, hr⟩ := hk.exists_native (by simp [holds, hp])
    simp only [hp, hh, Handle.drop, hr, Bool.false_eq_true, if_false,
      Handle.handle_release hr] at hs
    cases hs
    exact .drop hp hh hr
  | rejected e =>
    simp only [hp] at hs
    cases hs
    exact .reject hp
  | notified e =>
    simp only [hp] at hs
    cases hs
    exact .answerFirst hp
  | answered e =>
    simp only [hp] at hs
    cases hs
    exact .answerSecond hp
  | lost =>
    simp only [hp] at hs
    cases hs
    exact .lose hp
  | finished => simp [hp] at hs

/-- A waiter that is to count the handle down does so as the first or the last. -/
theorem WaiterMove.of_countDown (hk : f.Keeps) {p : WaiterPhase} {h : Handle}
    (hp : (f.waiters.get m).afterCount? = some p) (hh : f.handle = some h) :
    WaiterMove m f w ((f.countDown h w).1.onWaiter m p) (f.countDown h w).2 := by
  obtain ⟨-, -, -, -, hlatch, c, -, hr⟩ := hk.of_afterCount? hp hh
  rcases Nat.le_one_iff_eq_zero_or_eq_one.mp (f.waiters.get m.other).guards_le_one with ho | ho
  · have hl : h.latch = 1 := by omega
    have hr' : { h with latch := 0 }.released = false := hr
    simp only [countDown, Handle.countDown_last hl, Handle.handle_release hr']
    exact .countLast hp hh hl hr
  · have hl : h.latch = 2 := by omega
    simp only [countDown, Handle.countDown_first hl]
    exact .countFirst hp hh hl

/-- Nothing else happens. -/
theorem WaiterMove.of_step (hk : f.Keeps) (hs : f.waiterStep? m w = some (g, w')) :
    WaiterMove m f w g w' := by
  obtain ⟨h, hh, hs⟩ := Option.bind_eq_some_iff.mp hs
  unfold waiterStepWith? at hs
  cases hp : f.waiters.get m with
  | idle => simp [hp] at hs
  | waiting =>
    obtain ⟨h', c, hh', hn, -⟩ := hk.exists_native_of_guards (m := m) (by rw [hp]; rfl)
    cases hh.symm.trans hh'
    obtain ⟨native, buffer, failure, observed, issued, released, latch, account, context⟩ := h
    cases hn
    simp only [hp, await?, Handle.waitFor?, Option.map_map, Option.map_eq_some_iff] at hs
    obtain ⟨status, hf, hs⟩ := hs
    cases hs
    exact .observe hp hh rfl hf rfl
  | copying n =>
    simp only [hp] at hs
    cases hs
    exact .copy hp hh
  | ready o =>
    simp only [hp] at hs
    cases hs
    exact .record hp hh
  | recorded o =>
    simp only [hp] at hs
    cases hs
    exact .call hp
  | notified o =>
    simp only [hp] at hs
    cases hs
    exact .of_countDown hk (by rw [hp]; rfl) hh
  | counted o =>
    simp only [hp] at hs
    cases hs
    exact .answer hp
  | raised =>
    simp only [hp] at hs
    cases hs
    exact .abandon hp
  | abandoned =>
    simp only [hp] at hs
    cases hs
    exact .of_countDown hk (by rw [hp]; rfl) hh
  | finished => simp [hp] at hs

/-! ## The handle is kept as long as it is needed -/

/-- Every move of the issuer preserves it. -/
theorem Keeps.issuerMove (hk : f.Keeps) (hm : IssuerMove f w g w') : g.Keeps := by
  cases hm with
  | make hp =>
    exact of_kept rfl rfl (fun _ => rfl) rfl rfl rfl (fun _ => hk.idle (by simp [hp])) hk.together
  | take hp hh hn | ignore hp hh hn =>
    have hr : _ = false := (hk.released _ hh).trans (by simp [holds, hp])
    exact of_kept rfl rfl (by simp) rfl hn hr (fun _ => hk.idle (by simp [hp])) hk.together
  | refuse hp hh hn hj he =>
    have hr : _ = false := (hk.released _ hh).trans (by simp [holds, hp])
    have hl : _ = 0 := (hk.latch _ hh).trans (by simp [guards, hp])
    exact of_kept rfl rfl (by simp) hl hn hr (fun _ => hk.idle (by simp [hp])) hk.together
  | overflow hp hh hn hj =>
    have hr : _ = false := (hk.released _ hh).trans (by simp [holds, hp])
    have hl : _ = 0 := (hk.latch _ hh).trans (by simp [guards, hp])
    exact of_kept rfl rfl (by simp) hl hn hr (fun _ => hk.idle (by simp [hp])) hk.together
  | launch hp =>
    obtain ⟨h, c, hh, hn, hr⟩ := hk.exists_native (by simp [holds, hp])
    have hl : _ = 2 := (hk.latch _ hh).trans (by simp [guards, hp])
    exact of_kept hh rfl (by simp [launch]) hl hn hr (absurd rfl)
      (by simp [launch, PerMilestone.const])
  | release hp hh hr =>
    have hl : _ = 0 := (hk.latch _ hh).trans (by simp [guards, hp])
    exact of_spent rfl rfl (by simp) (by rw [Handle.fail_eq]; exact hl)
      (fun _ => hk.idle (by simp [hp])) hk.together
  | drop hp hh hr =>
    have hl : _ = 0 := (hk.latch _ hh).trans (by simp [guards, hp])
    exact of_spent rfl rfl (by simp) hl (fun _ => hk.idle (by simp [hp])) hk.together
  | reject hp =>
    refine hk.of_over (by rw [hp]; rfl) (hk.idle (by simp [hp])) ?_ rfl rfl
    simp only [Flight.reject]
    split <;> rfl
  | answerFirst hp => exact hk.of_over (by rw [hp]; rfl) (hk.idle (by simp [hp])) rfl rfl rfl
  | answerSecond hp => exact hk.of_over (by rw [hp]; rfl) (hk.idle (by simp [hp])) rfl rfl rfl
  | lose hp => exact hk.of_over (by rw [hp]; rfl) (hk.idle (by simp [hp])) rfl rfl rfl

theorem afterMilestone_ne_idle (r : Request) (result : Except Failure Status) :
    afterMilestone r result ≠ .idle ∧ (afterMilestone r result).guards = 1 := by
  unfold afterMilestone
  repeat' split
  all_goals exact ⟨nofun, rfl⟩

/-- What a waiter does leaves the waiters started. -/
theorem Keeps.set_ne_idle (hk : f.Keeps) {p : WaiterPhase} (hw : f.waiters.get m ≠ .idle)
    (hp : p ≠ .idle) (n : Milestone) : (f.waiters.set m p).get n ≠ .idle := by
  rw [PerMilestone.get_set]
  split
  · exact hp
  · exact hk.ne_idle hw n

theorem Keeps.together_set (hk : f.Keeps) {p : WaiterPhase} (hw : f.waiters.get m ≠ .idle)
    (hp : p ≠ .idle) :
    (f.waiters.set m p).complete = .idle ↔ (f.waiters.set m p).safe = .idle :=
  iff_of_false (hk.set_ne_idle hw hp .complete) (hk.set_ne_idle hw hp .safe)

theorem guards_set {p : WaiterPhase} (hg : g.issuer = .finished)
    (hgw : g.waiters = f.waiters.set m p) :
    g.guards = p.guards + (f.waiters.get m.other).guards := by
  rw [guards_eq hg m, hgw, PerMilestone.get_set_self, PerMilestone.get_set_other]

theorem guards_counted {p : WaiterPhase} (hfin : f.issuer = .finished) (k : Option Handle) :
    ({ f with handle := k }.onWaiter m p).guards = p.guards + (f.waiters.get m.other).guards :=
  guards_set hfin rfl

theorem holds_of_guards {n : Nat} (hn : g.guards = n) (hg : g.issuer = .finished) :
    g.holds = (n != 0) := by
  simp only [holds, hg, hn]

/-- A waiter that goes on without counting the handle down. -/
theorem Keeps.of_waiter (hk : f.Keeps) (p : WaiterPhase) {h k : Handle}
    (hw : f.waiters.get m ≠ .idle) (hp : p ≠ .idle)
    (hg : p.guards = (f.waiters.get m).guards) (hh : f.handle = some h)
    (hgi : g.issuer = f.issuer) (hgw : g.waiters = f.waiters.set m p) (hgh : g.handle = some k)
    (hkh : k.latch = h.latch ∧ k.native = h.native ∧ k.released = h.released ∧
      k.buffer = h.buffer) : g.Keeps := by
  have hfin := hk.issuer_finished hw
  have hgfin : g.issuer = .finished := hgi.trans hfin
  have hguards : g.guards = f.guards := by rw [guards_set hgfin hgw, guards_eq hfin m, hg]
  have hholds : g.holds = f.holds := by simp only [holds, hgfin, hfin, hguards]
  obtain ⟨hl, hn, hr, hb⟩ := hkh
  refine of_handle hgh (by simp [hgfin]) (by simp [hgfin]) ?_ ?_ ?_ ?_ (absurd hgfin) ?_
  · rw [hl, hguards]; exact hk.latch h hh
  · rw [hn, hholds]; exact hk.native h hh
  · rw [hr, hholds]; exact hk.released h hh
  · intro hf
    have hnone := hk.buffer (hholds ▸ hf)
    rw [hb]
    simpa [buffer?, hh] using hnone
  · rw [hgw]; exact hk.together_set hw hp

/-- Every move of a waiter preserves it. -/
theorem Keeps.waiterMove (hk : f.Keeps) (hm : WaiterMove m f w g w') : g.Keeps := by
  have started : ∀ {p : WaiterPhase}, f.waiters.get m = p → p ≠ .idle →
      f.waiters.get m ≠ .idle ∧ ∃ h, f.handle = some h := by
    intro p hp hne
    have hw : f.waiters.get m ≠ .idle := hp ▸ hne
    exact ⟨hw, hk.exists_handle (by simp [hk.issuer_finished hw])⟩
  cases hm with
  | observe hp hh hn hf hres =>
    obtain ⟨h0, h1⟩ := afterMilestone_ne_idle f.task.request _
    exact hk.of_waiter _ (started hp nofun).1 h0 (by rw [h1, hp]; rfl) hh rfl rfl rfl
      ⟨rfl, rfl, rfl, rfl⟩
  | copy hp hh =>
    exact hk.of_waiter (.ready _) (started hp nofun).1 nofun (by rw [hp]; rfl) hh rfl rfl hh
      ⟨rfl, rfl, rfl, rfl⟩
  | @record o hp h hh =>
    refine hk.of_waiter (.recorded o) (started hp nofun).1 nofun (by rw [hp]; rfl) hh rfl rfl
      rfl ?_
    cases o with
    | reached => exact ⟨rfl, rfl, rfl, rfl⟩
    | failed e => rw [reported, Handle.fail_eq]; exact ⟨rfl, rfl, rfl, rfl⟩
  | call hp =>
    obtain ⟨hw, h, hh⟩ := started hp nofun
    refine hk.of_waiter _ hw ?_ ?_ hh rfl rfl hh ⟨rfl, rfl, rfl, rfl⟩
    · split <;> exact nofun
    · rw [hp]; split <;> rfl
  | @countFirst p hp h hh hl =>
    obtain ⟨hfin, hw, hpi, hp0, hlatch, c, hn, hr⟩ := hk.of_afterCount? hp hh
    have hg := guards_counted (m := m) (p := p) hfin (some { h with latch := 1 })
    rw [show p.guards + (f.waiters.get m.other).guards = 1 by omega] at hg
    exact of_kept rfl (holds_of_guards hg hfin)
      (fun hc => by cases hfin.symm.trans hc) hg.symm hn hr (absurd hfin)
      (hk.together_set hw hpi)
  | @countLast p hp h hh hl hr =>
    obtain ⟨hfin, hw, hpi, hp0, hlatch, c, hn, -⟩ := hk.of_afterCount? hp hh
    have hg := guards_counted (m := m) (p := p) hfin (some { h with latch := 0 }.spent)
    rw [show p.guards + (f.waiters.get m.other).guards = 0 by omega] at hg
    exact of_spent rfl (holds_of_guards hg hfin)
      (fun hc => by cases hfin.symm.trans hc) hg.symm (absurd hfin) (hk.together_set hw hpi)
  | answer hp =>
    obtain ⟨hw, h, hh⟩ := started hp nofun
    exact hk.of_waiter .finished hw nofun (by rw [hp]; rfl) hh rfl rfl hh ⟨rfl, rfl, rfl, rfl⟩
  | abandon hp =>
    obtain ⟨hw, h, hh⟩ := started hp nofun
    exact hk.of_waiter .abandoned hw nofun (by rw [hp]; rfl) hh rfl rfl hh ⟨rfl, rfl, rfl, rfl⟩

theorem WaiterMove.started (hm : WaiterMove m f w g w') : f.waiters.get m ≠ .idle := by
  intro hi
  cases hm with
  | observe hp | copy hp | record hp | call hp | countFirst hp | countLast hp | answer hp
  | abandon hp => rw [hi] at hp; cases hp

/-- Waiters move only after the issuer is done. -/
theorem WaiterMove.issuer_finished (hk : f.Keeps) (hm : WaiterMove m f w g w') :
    f.issuer = .finished :=
  hk.issuer_finished hm.started

/-- A waiter leaves the task and the issuer of its flight and stays started. -/
theorem WaiterMove.frame (hm : WaiterMove m f w g w') :
    g.task = f.task ∧ g.issuer = f.issuer ∧
      ∃ p, p ≠ .idle ∧ g.waiters = f.waiters.set m p := by
  cases hm with
  | observe => exact ⟨rfl, rfl, _, (afterMilestone_ne_idle _ _).1, rfl⟩
  | copy | record | answer | abandon =>
    refine ⟨rfl, rfl, _, ?_, rfl⟩
    exact nofun
  | call =>
    refine ⟨rfl, rfl, _, ?_, rfl⟩
    split <;> exact nofun
  | countFirst hp | countLast hp => exact ⟨rfl, rfl, _, WaiterPhase.afterCount?_ne_idle hp, rfl⟩

theorem IssuerMove.task_eq (hm : IssuerMove f w g w') : g.task = f.task := by
  cases hm <;> rfl

end Milepost.Flight
