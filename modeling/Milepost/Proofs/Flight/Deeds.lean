import Milepost.Proofs.Flight.Moves

/-!
# What a flight does to what it shares

The moves of a flight seen from outside: most of them leave the backend and the shared buffers
alone, and each of the others does one thing to them. A `Deed` tells which, together with the
completion and the buffer that the flight holds before and after.

* `IssuerMove.deed`, `WaiterMove.deed`: every move is one of the deeds.
* `IssuerMove.doubles`, `WaiterMove.doubles`: no move counts an attempt to release a handle again.
-/

namespace Milepost

/-- The shelf without the hold on a buffer, if there is one. -/
def Shelf.without (s : Shelf) : Option BufferId → Shelf
  | none => s
  | some i => s.letGo i

section Doubles

variable {w : World InMemory} {a a' : AccountId}

/-- The attempts to release a handle again that are counted on an account. -/
def World.doubles {β : Type} (w : World β) (a : AccountId) : Counter :=
  (w.getMeters a).operations.doubleReleases

theorem World.doubles_onMeters {k : Meters → Meters}
    (hk : ∀ m, (k m).operations.doubleReleases = m.operations.doubleReleases) :
    (w.onMeters a k).doubles a' = w.doubles a' := by
  unfold doubles
  by_cases ha : a = a'
  · subst ha
    rcases Nat.lt_or_ge a w.accounts.size with hs | hs
    · rw [getMeters_onMeters_self hs]
      exact hk _
    · simp [onMeters, getMeters, Array.getElem?_modify, Array.getElem?_eq_none hs]
  · rw [getMeters_onMeters_of_ne ha]

theorem World.doubles_count {k : OperationMeters → OperationMeters}
    (hk : ∀ m, (k m).doubleReleases = m.doubleReleases) :
    (w.count a k).doubles a' = w.doubles a' :=
  doubles_onMeters fun m => hk m.operations

theorem Handle.doubles_release {h : Handle} (hr : h.released = false) :
    (h.release w).2.2.doubles a' = w.doubles a' := by
  unfold release
  rw [if_neg (by simp [hr])]
  change ((h.surrender w).count h.account .handleReleased).doubles a' = _
  rw [World.doubles_count (by intro _; rfl)]
  unfold surrender
  cases h.native <;> cases h.buffer <;> rfl

end Doubles

namespace Flight

/-- What a step does to the backend and the buffers. -/
inductive Deed (f : Flight) (w : World InMemory) (g : Flight) (w' : World InMemory) : Prop
  /-- Nothing, and nothing is handed to the backend. -/
  | quiet (hb : w'.backend = w.backend) (hs : w'.shelf = w.shelf) (hj : f.job? w = none)
      (hn : g.native? = f.native?) (hi : g.buffer? = f.buffer?)
  /-- A completion is made. -/
  | make (hp : f.issuer = .ready) (hb : w'.backend = w.backend.createCompletion.2)
      (hs : w'.shelf = w.shelf) (hj : f.job? w = none) (hf : f.native? = none)
      (hn : g.native? = some w.backend.completions.size)
      (hi : f.buffer? = none) (hi' : g.buffer? = none)
  /-- The backend takes a job. -/
  | take {c : CompletionId} {job : Job} (hb : w'.backend = (w.backend.submit job).2)
      (hs : w'.shelf = f.task.request.operation.shelved w.shelf) (hj : f.job? w = some job)
      (ha : w.backend.accepts job = true) (hc : f.task.job? c w.shelf.cells.size = some job)
      (hf : f.native? = some c) (hn : g.native? = some c)
      (hi' : g.buffer? = f.task.request.operation.ownBuffer? w.shelf.cells.size)
  /-- The backend ignores a job. -/
  | ignore {c : CompletionId} {job : Job} (hb : w'.backend = w.backend)
      (hs : w'.shelf = f.task.request.operation.ignored w.shelf) (hj : f.job? w = some job)
      (ha : w.backend.accepts job = false) (he : (w.backend.submit job).1.isError = false)
      (hc : f.task.job? c w.shelf.cells.size = some job)
      (hf : f.native? = some c) (hn : g.native? = some c)
      (hi' : g.buffer? = f.task.request.operation.ownBuffer? w.shelf.cells.size)
  /-- The backend refuses a job. -/
  | refuse {job : Job} (hb : w'.backend = w.backend)
      (hs : w'.shelf = f.task.request.operation.unshelved w.shelf) (hj : f.job? w = some job)
      (he : (w.backend.submit job).1.isError = true) (hn : g.native? = f.native?)
      (hi : g.buffer? = f.buffer?)
  /-- The completion and the buffer are given back. -/
  | release {c : CompletionId} (hb : w'.backend = w.backend.release c)
      (hs : w'.shelf = w.shelf.without f.buffer?) (hj : f.job? w = none)
      (hf : f.native? = some c) (hn : g.native? = none) (hi : g.buffer? = none)

variable {f g : Flight} {w w' : World InMemory} {m : Milestone}

theorem native?_eq {h : Handle} (hh : f.handle = some h) : f.native? = h.native := by
  simp [native?, hh]

theorem buffer?_eq {h : Handle} (hh : f.handle = some h) : f.buffer? = h.buffer := by
  simp [buffer?, hh]

theorem job?_eq {c : CompletionId} (hp : f.issuer = .created) (hn : f.native? = some c) :
    f.job? w = f.task.job? c w.shelf.cells.size := by
  simp [job?, hp, hn]

theorem job?_of_ne (hp : f.issuer ≠ .created) : f.job? w = none := by
  unfold job?
  split
  · contradiction
  · rfl

/-- A handle that is released gives back what it holds. -/
theorem Deed.of_release {h k : Handle} {c : CompletionId} (hp : f.issuer ≠ .created)
    (hh : f.handle = some h) (hg : g.handle = some k.spent) (hn : k.native = some c)
    (hi : k.buffer = h.buffer) (hc : h.native = k.native) (hr : k.released = false) :
    Deed f w g (k.release w).2.2 := by
  refine .release (Handle.backend_release hr hn) ?_ (job?_of_ne hp)
    ((native?_eq hh).trans (hc.trans hn)) (native?_eq hg) (buffer?_eq hg)
  rw [Handle.shelf_release hr, buffer?_eq hh, hi]
  cases h.buffer <;> rfl

/-- **Every move of the issuer is one of the deeds.** -/
theorem IssuerMove.deed (hk : f.Keeps) (hm : IssuerMove f w g w') : Deed f w g w' := by
  cases hm with
  | make hp =>
    have hn : f.handle = none := hk.made.mpr hp
    exact .make hp rfl rfl (job?_of_ne (by simp [hp])) (by simp [native?, hn]) rfl
      (by simp [buffer?, hn]) rfl
  | take hp hh hn hj ha =>
    have hn' := (native?_eq hh).trans hn
    exact .take rfl rfl ((job?_eq hp hn').trans hj) ha hj hn' hn rfl
  | ignore hp hh hn hj ha he =>
    have hn' := (native?_eq hh).trans hn
    exact .ignore rfl rfl ((job?_eq hp hn').trans hj) ha he hj hn' hn rfl
  | refuse hp hh hn hj he =>
    have hn' := (native?_eq hh).trans hn
    exact .refuse rfl rfl ((job?_eq hp hn').trans hj) he (native?_eq hh).symm (buffer?_eq hh).symm
  | overflow hp hh hn hj =>
    have hn' := (native?_eq hh).trans hn
    exact .quiet rfl rfl ((job?_eq hp hn').trans hj) (native?_eq hh).symm (buffer?_eq hh).symm
  | launch hp => exact .quiet rfl rfl (job?_of_ne (by simp [hp])) rfl rfl
  | @release e hp h hh hr =>
    obtain ⟨h', c, hh', hn, -⟩ := hk.exists_native (by simp [holds, hp])
    cases hh.symm.trans hh'
    have hfail := h.fail_eq e
    exact .of_release (by simp [hp]) hh rfl (by rw [hfail]; exact hn) (by rw [hfail])
      (by rw [hfail]) (by rw [hfail]; exact hr)
  | @drop hp h hh hr =>
    obtain ⟨h', c, hh', hn, -⟩ := hk.exists_native (by simp [holds, hp])
    cases hh.symm.trans hh'
    exact .of_release (by simp [hp]) hh rfl hn rfl rfl hr
  | reject hp => exact .quiet rfl rfl (job?_of_ne (by simp [hp])) rfl rfl
  | answerFirst hp => exact .quiet rfl rfl (job?_of_ne (by simp [hp])) rfl rfl
  | answerSecond hp => exact .quiet rfl rfl (job?_of_ne (by simp [hp])) rfl rfl
  | lose hp => exact .quiet rfl rfl (job?_of_ne (by simp [hp])) rfl rfl

theorem WaiterMove.job?_eq_none (hk : f.Keeps) (hm : WaiterMove m f w g w') :
    f.job? w = none :=
  job?_of_ne (by simp [hm.issuer_finished hk])

/-- **Every move of a waiter is one of the deeds.** -/
theorem WaiterMove.deed (hk : f.Keeps) (hm : WaiterMove m f w g w') : Deed f w g w' := by
  have hj := hm.job?_eq_none hk
  cases hm with
  | observe hp hh hn hf hres =>
    exact .quiet rfl rfl hj (native?_eq hh).symm (buffer?_eq hh).symm
  | copy hp hh => exact .quiet rfl rfl hj rfl rfl
  | @record o hp h hh =>
    have hr : (reported o h).native = h.native ∧ (reported o h).buffer = h.buffer := by
      cases o with
      | reached => exact ⟨rfl, rfl⟩
      | failed e => rw [reported, Handle.fail_eq]; exact ⟨rfl, rfl⟩
    exact .quiet rfl rfl hj (hr.1.trans (native?_eq hh).symm)
      (hr.2.trans (buffer?_eq hh).symm)
  | call hp => exact .quiet rfl rfl hj rfl rfl
  | countFirst hp hh hl =>
    exact .quiet rfl rfl hj (native?_eq hh).symm (buffer?_eq hh).symm
  | countLast hp hh hl hr =>
    obtain ⟨hfin, -, -, -, -, c, hn, -⟩ := hk.of_afterCount? hp hh
    exact .of_release (by simp [hfin]) hh rfl hn rfl rfl hr
  | answer hp => exact .quiet rfl rfl hj rfl rfl
  | abandon hp => exact .quiet rfl rfl hj rfl rfl

/-! ## No handle is released again -/

theorem IssuerMove.doubles {a : AccountId} (hm : IssuerMove f w g w') :
    w'.doubles a = w.doubles a := by
  cases hm with
  | make | launch | reject => exact World.doubles_count (by intro _; rfl)
  | release hp hh hr => exact Handle.doubles_release (by rw [Handle.fail_eq]; exact hr)
  | drop hp hh hr => exact Handle.doubles_release hr
  | take | ignore | refuse | overflow | answerFirst | answerSecond | lose => rfl

theorem WaiterMove.doubles {a : AccountId} (hm : WaiterMove m f w g w') :
    w'.doubles a = w.doubles a := by
  cases hm with
  | observe => exact World.doubles_count (by intro _; rfl)
  | countLast hp hh hl hr => exact Handle.doubles_release hr
  | copy | record | call | countFirst | answer | abandon => rfl

end Flight

end Milepost
