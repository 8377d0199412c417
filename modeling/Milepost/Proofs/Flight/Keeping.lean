import Mathlib.Tactic.ByContra
import Milepost.Flight.Issuer
import Milepost.Flight.Waiter
import Milepost.Proofs.Flight.Issue

/-!
# How long a flight keeps its handle

Which phases a flight is in says whether its handle still has the completion and how far the latch
is down. `Flight.Keeps` puts that together, and every step of an issuer or a waiter preserves it
(`Milepost.Proofs.Flight.Moves`): the handle is made by the first step, is kept while anybody may
need it, and is released when the operation was refused or when both waiters have counted down.

* `Keeps.exists_native`: while the completion is needed, it is there.
-/

namespace Milepost

/-- The milestone beside. -/
def Milestone.other : Milestone → Milestone
  | complete => safe
  | safe => complete

@[simp]
theorem PerMilestone.get_set_other {α : Type} (p : PerMilestone α) (m : Milestone) (a : α) :
    (p.set m a).get m.other = p.get m.other := by
  cases m <;> rfl

/-- Whether the issuer is done with the handle; if no waiter was started, nobody needs it. -/
def IssuerPhase.isOver : IssuerPhase → Bool
  | rejected _ | notified _ | answered _ | lost | finished => true
  | ready | created | accepted | refused _ | crashed => false

namespace WaiterPhase

/-- How often the waiter will still count the handle down. -/
def guards : WaiterPhase → Nat
  | idle | counted _ | finished => 0
  | waiting | copying _ | ready _ | recorded _ | notified _ | raised | abandoned => 1

theorem guards_le_one (p : WaiterPhase) : p.guards ≤ 1 := by cases p <;> simp [guards]

/-- Where the waiter is after it counted the handle down; none if that is not its next step. -/
def afterCount? : WaiterPhase → Option WaiterPhase
  | notified o => some (counted o)
  | abandoned => some finished
  | _ => none

theorem guards_of_afterCount? {p q : WaiterPhase} (h : p.afterCount? = some q) :
    p.guards = 1 ∧ q.guards = 0 := by
  cases p <;> cases h <;> exact ⟨rfl, rfl⟩

theorem afterCount?_ne_idle {p q : WaiterPhase} (h : p.afterCount? = some q) : q ≠ idle := by
  rintro rfl
  cases p <;> cases h

/-- Whether the owner was called back about the milestone. -/
def hasCalled : WaiterPhase → Bool
  | idle | waiting | copying _ | ready _ | recorded _ => false
  | notified _ | counted _ | raised | abandoned | finished => true

end WaiterPhase

namespace Handle

variable {β : Type} [ObjectBackend β] {h : Handle} {v : World β} {w : World InMemory}
  {c : CompletionId} {e : Failure}

/-- The handle once it is released. -/
def spent (h : Handle) : Handle := { h with released := true, native := none, buffer := none }

/-- A failure that is reported leaves everything else. -/
theorem fail_eq (h : Handle) (e : Failure) :
    h.fail e = { h with failure := (h.fail e).failure } := by
  unfold fail
  split <;> rfl

theorem handle_release (hr : h.released = false) : (h.release v).2.1 = h.spent := by
  simp [release, hr, spent]

theorem backend_release (hr : h.released = false) (hn : h.native = some c) :
    (h.release w).2.2.backend = w.backend.release c := by
  simp only [release, hr, surrender, hn]
  cases h.buffer <;> rfl

theorem shelf_release (hr : h.released = false) :
    (h.release w).2.2.shelf = match h.buffer with
      | some i => w.shelf.letGo i
      | none => w.shelf := by
  simp only [release, hr, surrender]
  cases h.native <;> cases h.buffer <;> rfl

theorem countDown_last (hl : h.latch = 1) :
    h.countDown v = ({ h with latch := 0 }.release v).2 := by
  simp [countDown, hl]

theorem countDown_first (hl : h.latch = 2) : h.countDown v = ({ h with latch := 1 }, v) := by
  simp [countDown, hl]

end Handle

namespace Flight

/-- How often the handle of the flight will still be counted down. -/
def guards (f : Flight) : Nat :=
  match f.issuer with
  | .accepted => 2
  | .finished => f.waiters.complete.guards + f.waiters.safe.guards
  | _ => 0

theorem guards_eq {f : Flight} (hp : f.issuer = .finished) (m : Milestone) :
    f.guards = (f.waiters.get m).guards + (f.waiters.get m.other).guards := by
  unfold guards
  cases m with
  | complete => rw [hp]; rfl
  | safe => rw [hp]; exact Nat.add_comm _ _

/-- Whether the flight still needs its completion. -/
def holds (f : Flight) : Bool :=
  match f.issuer with
  | .created | .refused _ | .crashed | .accepted => true
  | .finished => f.guards != 0
  | _ => false

theorem guards_of_isOver {f : Flight} (ho : f.issuer.isOver = true)
    (hi : f.waiters = .const .idle) : f.guards = 0 ∧ f.holds = false := by
  have hg : f.guards = 0 := by
    unfold guards
    cases hp : f.issuer <;> simp_all [IssuerPhase.isOver, PerMilestone.const, WaiterPhase.guards]
  refine ⟨hg, ?_⟩
  unfold holds
  cases hp : f.issuer <;> simp_all [IssuerPhase.isOver]

/-- The handle of a flight fits the phases of its tasks. -/
structure Keeps (f : Flight) : Prop where
  made : f.handle = none ↔ f.issuer = .ready
  fresh : f.issuer = .created → ∀ h, f.handle = some h → h.issued = false
  latch : ∀ h, f.handle = some h → h.latch = f.guards
  native : ∀ h, f.handle = some h → h.native.isSome = f.holds
  released : ∀ h, f.handle = some h → h.released = !f.holds
  buffer : f.holds = false → f.buffer? = none
  idle : f.issuer ≠ .finished → f.waiters = .const .idle
  together : f.waiters.complete = .idle ↔ f.waiters.safe = .idle

theorem keeps_start (t : Task) : Keeps { task := t } where
  made := by simp
  fresh := by simp
  latch := by simp
  native := by simp
  released := by simp
  buffer := by simp [buffer?]
  idle := by simp
  together := by simp [PerMilestone.const]

namespace Keeps

variable {f g : Flight} {w w' : World InMemory} {m : Milestone}

theorem of_handle {h : Handle} (hh : f.handle = some h) (made : f.issuer ≠ .ready)
    (fresh : f.issuer = .created → h.issued = false) (latch : h.latch = f.guards)
    (native : h.native.isSome = f.holds) (released : h.released = !f.holds)
    (buffer : f.holds = false → h.buffer = none)
    (idle : f.issuer ≠ .finished → f.waiters = .const .idle)
    (together : f.waiters.complete = .idle ↔ f.waiters.safe = .idle) : f.Keeps where
  made := by
    rw [hh]
    exact iff_of_false nofun made
  fresh hp h' hh' := by
    cases hh.symm.trans hh'
    exact fresh hp
  latch h' hh' := by
    cases hh.symm.trans hh'
    exact latch
  native h' hh' := by
    cases hh.symm.trans hh'
    exact native
  released h' hh' := by
    cases hh.symm.trans hh'
    exact released
  buffer hf := by simpa [buffer?, hh] using buffer hf
  idle := idle
  together := together

/-- A flight that still needs its completion and has it. -/
theorem of_kept {h : Handle} {c : CompletionId} (hh : f.handle = some h)
    (hf : f.holds = true) (fresh : f.issuer = .created → h.issued = false)
    (latch : h.latch = f.guards) (native : h.native = some c) (released : h.released = false)
    (idle : f.issuer ≠ .finished → f.waiters = .const .idle)
    (together : f.waiters.complete = .idle ↔ f.waiters.safe = .idle) : f.Keeps :=
  of_handle hh (fun hp => by simp [holds, hp] at hf) fresh latch (by simp [native, hf])
    (by simp [released, hf]) (by simp [hf]) idle together

/-- A flight that gave its completion back. -/
theorem of_spent {h : Handle} (hh : f.handle = some h.spent) (hf : f.holds = false)
    (made : f.issuer ≠ .ready) (latch : h.latch = f.guards)
    (idle : f.issuer ≠ .finished → f.waiters = .const .idle)
    (together : f.waiters.complete = .idle ↔ f.waiters.safe = .idle) : f.Keeps :=
  of_handle hh made (fun hp => by simp [holds, hp] at hf) latch (by simp [Handle.spent, hf])
    (by simp [Handle.spent, hf]) (fun _ => rfl) idle together

/-- What a refused or lost flight still does leaves its handle alone. -/
theorem of_over (hk : f.Keeps) (ho : f.issuer.isOver = true) (hi : f.waiters = .const .idle)
    (ho' : g.issuer.isOver = true) (hh : g.handle = f.handle) (hw : g.waiters = f.waiters) :
    g.Keeps := by
  obtain ⟨hg, hf⟩ := guards_of_isOver ho hi
  obtain ⟨hg', hf'⟩ := guards_of_isOver ho' (hw.trans hi)
  have made : f.handle ≠ none := by
    intro h0
    rw [hk.made.mp h0] at ho
    cases ho
  have hne : ∀ p, p.isOver = false → g.issuer ≠ p := by
    rintro p hp rfl
    rw [hp] at ho'
    cases ho'
  exact {
    made := by
      rw [hh]
      exact iff_of_false made (hne .ready rfl)
    fresh := fun hp => absurd hp (hne .created rfl)
    latch := by rw [hh, hg', ← hg]; exact hk.latch
    native := by rw [hh, hf', ← hf]; exact hk.native
    released := by rw [hh, hf', ← hf]; exact hk.released
    buffer := fun _ => by rw [buffer?, hh]; exact hk.buffer hf
    idle := fun _ => hw.trans hi
    together := by rw [hw]; exact hk.together }

theorem exists_handle (hk : f.Keeps) (hp : f.issuer ≠ .ready) : ∃ h, f.handle = some h :=
  Option.ne_none_iff_exists'.mp fun hn => hp (hk.made.mp hn)

/-- While the completion is needed, it is there. -/
theorem exists_native (hk : f.Keeps) (hf : f.holds = true) :
    ∃ h c, f.handle = some h ∧ h.native = some c ∧ h.released = false := by
  have hp : f.issuer ≠ .ready := by
    intro hp
    simp [holds, hp] at hf
  obtain ⟨h, hh⟩ := hk.exists_handle hp
  obtain ⟨c, hc⟩ := Option.isSome_iff_exists.mp ((hk.native h hh).trans hf)
  exact ⟨h, c, hh, hc, by rw [hk.released h hh, hf]; rfl⟩

theorem isSome_native? (hk : f.Keeps) : f.native?.isSome = f.holds := by
  unfold native?
  cases hh : f.handle with
  | none => simp [holds, hk.made.mp hh]
  | some h => exact hk.native h hh

/-- A waiter that was started belongs to an issuer that is done. -/
theorem issuer_finished (hk : f.Keeps) (h : f.waiters.get m ≠ .idle) : f.issuer = .finished := by
  by_contra hp
  exact h (by rw [hk.idle hp, PerMilestone.get_const])

/-- The waiters are started together. -/
theorem ne_idle (hk : f.Keeps) (h : f.waiters.get m ≠ .idle) (n : Milestone) :
    f.waiters.get n ≠ .idle := by
  cases m <;> cases n
  · exact h
  · exact fun hs => h (hk.together.mpr hs)
  · exact fun hs => h (hk.together.mp hs)
  · exact h

theorem exists_native_of_guards (hk : f.Keeps) (h : (f.waiters.get m).guards = 1) :
    ∃ h c, f.handle = some h ∧ h.native = some c ∧ h.released = false := by
  have hw : f.waiters.get m ≠ .idle := by
    intro hi
    rw [hi] at h
    exact absurd h (by decide)
  have hp := hk.issuer_finished hw
  refine hk.exists_native ?_
  simp [holds, hp, guards_eq hp m, h]

/-- What is known of a flight whose waiter is to count the handle down. -/
theorem of_afterCount? (hk : f.Keeps) {p : WaiterPhase} {h : Handle}
    (hp : (f.waiters.get m).afterCount? = some p) (hh : f.handle = some h) :
    f.issuer = .finished ∧ f.waiters.get m ≠ .idle ∧ p ≠ .idle ∧ p.guards = 0 ∧
      h.latch = 1 + (f.waiters.get m.other).guards ∧
      ∃ c, h.native = some c ∧ h.released = false := by
  obtain ⟨hg, hp0⟩ := WaiterPhase.guards_of_afterCount? hp
  have hw : f.waiters.get m ≠ .idle := by
    intro hi
    rw [hi] at hp
    cases hp
  have hfin := hk.issuer_finished hw
  obtain ⟨h', c, hh', hn, hr⟩ := hk.exists_native_of_guards hg
  cases hh.symm.trans hh'
  have hl : h.latch = 1 + (f.waiters.get m.other).guards := by
    rw [hk.latch h hh, guards_eq hfin m, hg]
  exact ⟨hfin, hw, WaiterPhase.afterCount?_ne_idle hp, hp0, hl, c, hn, hr⟩

end Keeps

end Flight

end Milepost
