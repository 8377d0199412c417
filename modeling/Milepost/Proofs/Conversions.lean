import Milepost.Failure.Io

/-!
# Errors that are handed on

On its way through programs that know only I/O errors, a failure is turned into one and back, and
copied, as often as they like. It stays what it was: an I/O error made from a failure carries it,
and what is made from an I/O error that carries a failure is that failure, under whatever kind it
was carried. Any other I/O error becomes the cause of a failure, which from then on is handed on
like others. The kinds of I/O errors do not survive in the same way, since a failure is carried
under one of two.

* `AnyError.IsOf.apply`: a conversion makes the other form of the same failure.
* `AnyError.isOf_of_mem_met_io`: so from the first failure on, nothing else is met.
* `AnyError.conversions_keep`: what is met on the way from a failure, and from any I/O error.
-/

namespace Milepost

/-- An error in one of the forms in which it is handed on. -/
inductive AnyError
  | own (e : Failure)
  | io (x : IoError)
deriving DecidableEq

/-- What is done to an error that is handed on. -/
inductive Conversion
  /-- A failure is turned into an I/O error. -/
  | toIo
  /-- An I/O error is turned into a failure. -/
  | toOwn
  /-- A failure is copied. -/
  | copy
deriving DecidableEq

/-- The error after a conversion, which leaves an error that is not of the form it takes. -/
def Conversion.apply : Conversion → AnyError → AnyError
  | toIo, .own e => .io e.toIo
  | toOwn, .io x => .own (.ofIo x)
  | _, y => y

namespace AnyError

/-- The errors that are met: the first one, and what each conversion makes. -/
def met (y : AnyError) : List Conversion → List AnyError
  | [] => [y]
  | k :: ks => y :: (k.apply y).met ks

/-- The failure, if the error is in that form. -/
def own? : AnyError → Option Failure
  | own e => some e
  | io _ => none

/-- The error is the failure, or the I/O error that is made from it. -/
def IsOf (e : Failure) (y : AnyError) : Prop := y = own e ∨ y = io e.toIo

variable {e : Failure} {x : IoError} {y z : AnyError} {steps : List Conversion}

/-- What every conversion preserves holds of all errors that are met. -/
theorem met_preserved {P : AnyError → Prop} (hz : z ∈ y.met steps) (h : P y)
    (hstep : ∀ {y} (k : Conversion), P y → P (k.apply y)) : P z := by
  induction steps generalizing y with
  | nil =>
    obtain rfl := List.mem_singleton.mp hz
    exact h
  | cons k ks ih =>
    rcases List.mem_cons.mp hz with rfl | hz
    · exact h
    · exact ih hz (hstep k h)

/-- **A conversion makes the other form of the same failure,** or leaves the form. -/
theorem IsOf.apply (h : y.IsOf e) (k : Conversion) : (k.apply y).IsOf e := by
  rcases h with rfl | rfl
  · cases k with
    | toIo => exact .inr rfl
    | toOwn | copy => exact .inl rfl
  · cases k with
    | toOwn => exact .inl (congrArg own (Failure.ofIo_toIo e))
    | toIo | copy => exact .inr rfl

/-- On the way from a failure only its forms are met. -/
theorem isOf_of_mem_met_own (hz : z ∈ (own e).met steps) : z.IsOf e :=
  met_preserved hz (.inl rfl) fun k h => h.apply k

/-- On the way from an I/O error it is met itself, and then the forms of the failure that it is. -/
theorem isOf_of_mem_met_io (hz : z ∈ (io x).met steps) : z = io x ∨ z.IsOf (.ofIo x) := by
  refine met_preserved (P := fun z => z = io x ∨ z.IsOf (.ofIo x)) hz (.inl rfl) ?_
  rintro _ k (rfl | h)
  · cases k with
    | toOwn => exact .inr (.inl rfl)
    | toIo | copy => exact .inl rfl
  · exact .inr (h.apply k)

theorem IsOf.eq_of_own {e' : Failure} (h : (own e').IsOf e) : e' = e := by
  rcases h with h | h <;> cases h
  rfl

theorem IsOf.eq_of_io (h : (io x).IsOf e) : x = e.toIo := by
  rcases h with h | h <;> cases h
  rfl

/-- The first failure that is met on the way from an I/O error is the one that it is. -/
theorem eq_ofIo_of_head? {first : Failure}
    (h : (((io x).met steps).filterMap own?).head? = some first) : first = .ofIo x := by
  obtain ⟨z, hz, hown⟩ := List.mem_filterMap.mp (List.mem_of_head? h)
  cases z with
  | own e =>
    cases hown
    rcases isOf_of_mem_met_io hz with hz | hz
    · cases hz
    · exact hz.eq_of_own
  | io => cases hown

/-- **Errors that are handed on stay what they are.** A failure that is turned into an I/O error and
back has its kind, its cause, its status and its trail. However often it is converted and copied,
all failures that are met are equal to it, and all I/O errors are of the kind of invalid input if it
is, and else of another. On the way from an I/O error all failures that are met are equal to the
first, which is the failure that the I/O error carries, under whatever kind, or else a failure
caused by it, of the kind of invalid input if the I/O error is. -/
theorem conversions_keep (steps : List Conversion) :
    (∀ e : Failure, (Failure.ofIo e.toIo).kind = e.kind ∧ (Failure.ofIo e.toIo).cause = e.cause ∧
      (Failure.ofIo e.toIo).status? = e.status? ∧ (Failure.ofIo e.toIo).trail = e.trail) ∧
    (∀ e e' : Failure, own e' ∈ (own e).met steps → e' = e) ∧
    (∀ (e : Failure) (x : IoError), io x ∈ (own e).met steps →
      x.kind = if e.kind = .invalidInput then .invalidInput else .other) ∧
    ∀ (x : IoError) (first : Failure), (((io x).met steps).filterMap own?).head? = some first →
      (∀ e : Failure, own e ∈ (io x).met steps → e = first) ∧
      (∀ (kind : IoKind) (e : Failure), x = .carrying kind e → first = e) ∧
      ∀ fault : IoFault, x = .fault fault →
        first.kind = (if x.kind = .invalidInput then .invalidInput else .other) ∧
          first.cause = some (.io fault) ∧ first.trail = [] := by
  refine ⟨fun e => ⟨rfl, rfl, rfl, rfl⟩, ?own, ?kinds, ?io⟩
  case own => exact fun e e' he => (isOf_of_mem_met_own he).eq_of_own
  case kinds =>
    intro e x hx
    obtain rfl := (isOf_of_mem_met_own hx).eq_of_io
    rfl
  case io =>
    intro x first hfirst
    obtain rfl := eq_ofIo_of_head? hfirst
    refine ⟨fun e he => ?_, ?_, ?_⟩
    · rcases isOf_of_mem_met_io he with he | he
      · cases he
      · exact he.eq_of_own
    · rintro kind e rfl
      rfl
    · rintro fault rfl
      exact ⟨rfl, rfl, rfl⟩

end AnyError

/-! ## Two ways

A failure with a status and a note is handed on, and so is an I/O error that carries it under a kind
that is not its own. -/

namespace Sample

/-- A pool could not be opened. -/
def unopened : Failure := (Failure.ofStatus .invalidInput .ioError).noted (.openPool "data")

/-- A failure is handed on and back, and on again. -/
def onAndBack : List Conversion := [.toIo, .toOwn, .copy, .toIo]

end Sample

namespace AnyError

theorem conversions_keep_unopened :
    io (.carrying .invalidInput Sample.unopened) ∈ (own Sample.unopened).met Sample.onAndBack ∧
      (IoError.carrying .invalidInput Sample.unopened).kind = .invalidInput ∧
      (Failure.ofIo Sample.unopened.toIo).status? = some .ioError ∧
      (((io (.carrying .notFound Sample.unopened)).met
        (.toOwn :: Sample.onAndBack)).filterMap own?).head? = some Sample.unopened ∧
      ∀ e, own e ∈ (io (.carrying .notFound Sample.unopened)).met
        (.toOwn :: Sample.onAndBack) → e = Sample.unopened := by
  obtain ⟨hback, -, hkinds, -⟩ := conversions_keep Sample.onAndBack
  obtain ⟨-, -, -, hcarried⟩ := conversions_keep (.toOwn :: Sample.onAndBack)
  have hmet : io (.carrying .invalidInput Sample.unopened) ∈
      (own Sample.unopened).met Sample.onAndBack := by decide
  have hfirst : (((io (.carrying .notFound Sample.unopened)).met
      (.toOwn :: Sample.onAndBack)).filterMap own?).head? = some Sample.unopened := by decide
  exact ⟨hmet, hkinds _ _ hmet, (hback Sample.unopened).2.2.1, hfirst, (hcarried _ _ hfirst).1⟩

end AnyError

end Milepost
