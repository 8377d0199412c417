import Milepost.Flight

/-!
# The issuer of a flight

The issuer makes a handle and issues the operation. If the backend takes it, both waiters are
started. If not, the handle is released, the owner is called back once, and both futures are
answered with the failure. If the buffer of a read cannot be made, the task ends on the spot: the
handle is dropped and the futures are given up.

* `rank_issuerStep`: every step brings the issuer nearer to its end.
* `issuerStep?_eq_none_iff`: nothing but the end stops it.
-/

namespace Milepost.Flight

variable {β : Type} [ObjectBackend β]

/-- The handle after a failure was reported to it and it was released. -/
def releaseRefused (e : Failure) (f : Flight) (w : World β) : Flight × World β :=
  match f.handle with
  | none => (f, w)
  | some h =>
    let (_, h, w) := (h.fail e).release w
    ({ f with handle := some h }, w)

/-- Calls the owner back about an operation that was not issued. -/
def reject (e : Failure) (f : Flight) (w : World β) : Flight × World β :=
  let t := f.task
  let w := w.count t.account (·.operationRefused t.request.kind)
  let w := w.write (t.context.record .warning ("Failed to issue an operation: " ++ e.summary))
  let call := t.callbacks.invocation? .complete t.issuerThread (.failed e)
  ({ f.invoked call with issuer := if raises call then .lost else .notified e }, w)

/-- Counts the operation and starts the waiters, which can be started. -/
def launch (f : Flight) (w : World β) : Flight × World β :=
  let t := f.task
  let w := w.count t.account (·.operationIssued t.request.kind)
  let w := w.write (t.context.record .debug "Operation issued")
  ({ f with issuer := .finished, waiters := .const .waiting }, w)

/-- The next step of the issuer. -/
def issuerStep? (f : Flight) (w : World β) : Option (Flight × World β) :=
  match f.issuer with
  | .ready =>
    match Handle.create f.task.account f.task.context w with
    | (.ok h, w) => some ({ f with handle := some h, issuer := .created }, w)
    | (.error e, w) => some ({ f with issuer := .rejected e }, w)
  | .created =>
    match f.handle with
    | none => some ({ f with issuer := .lost }, w)
    | some h =>
      match h.issue f.task.pool f.task.request w with
      | (.accepted _, h, w) => some ({ f with handle := some h, issuer := .accepted }, w)
      | (.failed e, h, w) => some ({ f with handle := some h, issuer := .refused e }, w)
      | (.overflow, h, w) => some ({ f with handle := some h, issuer := .crashed }, w)
  | .accepted => some (f.launch w)
  | .refused e =>
    let (f, w) := f.releaseRefused e w
    some ({ f with issuer := .rejected e }, w)
  | .rejected e => some (f.reject e w)
  | .notified e => some ({ f.answer .complete (.failed e) with issuer := .answered e }, w)
  | .answered e => some ({ f.answer .safe (.failed e) with issuer := .finished }, w)
  | .crashed =>
    match f.handle with
    | none => some ({ f with issuer := .lost }, w)
    | some h =>
      let (h, w) := h.drop w
      some ({ f with handle := some h, issuer := .lost }, w)
  | .lost =>
    some ({ (f.answer .complete .lost).answer .safe .lost with issuer := .finished }, w)
  | .finished => none

/-- Lets the issuer make at most so many steps. -/
def runIssuerFor : Nat → Flight × World β → Flight × World β
  | 0, s => s
  | n + 1, s =>
    match s.1.issuerStep? s.2 with
    | some t => runIssuerFor n t
    | none => s

/-- Lets the issuer run to its end. -/
def runIssuer (s : Flight × World β) : Flight × World β := runIssuerFor s.1.issuer.rank s

/-- Every step brings the issuer nearer to its end. -/
theorem rank_issuerStep {f g : Flight} {w w' : World β}
    (h : f.issuerStep? w = some (g, w')) : g.issuer.rank < f.issuer.rank := by
  unfold issuerStep? at h
  cases hp : f.issuer with
  | ready =>
    simp only [hp] at h
    split at h <;> cases h <;> simp [IssuerPhase.rank]
  | created =>
    simp only [hp] at h
    split at h
    · cases h; simp [IssuerPhase.rank]
    · split at h <;> cases h <;> simp [IssuerPhase.rank]
  | accepted =>
    simp only [hp, Option.some.injEq, launch] at h
    cases h; simp [IssuerPhase.rank]
  | refused e =>
    simp only [hp, Option.some.injEq] at h
    cases h; simp [IssuerPhase.rank]
  | rejected e =>
    simp only [hp, Option.some.injEq, reject] at h
    cases h
    cases raises (f.task.callbacks.invocation? .complete f.task.issuerThread (.failed e)) <;>
      simp [IssuerPhase.rank]
  | notified e =>
    simp only [hp, Option.some.injEq] at h
    cases h; simp [IssuerPhase.rank]
  | answered e =>
    simp only [hp, Option.some.injEq] at h
    cases h; simp [IssuerPhase.rank]
  | crashed =>
    simp only [hp] at h
    split at h <;> cases h <;> simp [IssuerPhase.rank]
  | lost =>
    simp only [hp, Option.some.injEq] at h
    cases h; simp [IssuerPhase.rank]
  | finished => simp [hp] at h

/-- Nothing but its end stops the issuer. -/
theorem issuerStep?_eq_none_iff (f : Flight) (w : World β) :
    f.issuerStep? w = none ↔ f.issuer = .finished := by
  unfold issuerStep?
  cases hp : f.issuer with
  | ready => simp only [reduceCtorEq, iff_false]; split <;> simp
  | created =>
    simp only [reduceCtorEq, iff_false]
    split
    · simp
    · split <;> simp
  | crashed => simp only [reduceCtorEq, iff_false]; split <;> simp
  | accepted | refused | rejected | notified | answered | lost | finished => simp

end Milepost.Flight
