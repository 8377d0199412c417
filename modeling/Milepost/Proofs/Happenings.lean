import Milepost.Proofs.Completions
import Milepost.Proofs.Flight.Deeds

/-!
# What an event does to a system

`System.next?` says by computation what an event makes of a system; `Happens` says the same by
cases, with the moves of flights in place of their steps. That no other case occurs rests on the
handles fitting the phases of their flights in every state, which is `System.Sound`.

* `Run.sound`: every state of a run is sound.
* `Run.preserved`: what holds at the start and outlives everything that happens always holds.
-/

namespace Milepost

/-- The backend is as laid down, and every flight has its handle as long as it needs it. -/
structure System.Sound (config : InMemoryConfig) (s : System InMemory) : Prop where
  config : s.world.backend.config = config
  keeps : ∀ {i : FlightId} {f : Flight}, s.flights[i]? = some f → f.Keeps

/-- What an event makes of a system. -/
inductive Happens (s : System InMemory) : Event → System InMemory → Prop
  | submit (o : AsyncObject) (r : Request) : Happens s (.submit o r) (s.submit o r).2
  | issuer {i : FlightId} {f g : Flight} {w : World InMemory} (hf : s.flights[i]? = some f)
      (hk : f.Keeps) (hm : f.IssuerMove s.world g w) :
    Happens s (.task (.issuer i)) { world := w, flights := s.flights.setIfInBounds i g }
  | waiter {i : FlightId} {m : Milestone} {f g : Flight} {w : World InMemory}
      (hf : s.flights[i]? = some f) (hk : f.Keeps) (hm : f.WaiterMove m s.world g w) :
    Happens s (.task (.waiter i m)) { world := w, flights := s.flights.setIfInBounds i g }
  | work {b : InMemory} {shelf : Shelf}
      (hs : s.world.backend.step? s.world.shelf = some (b, shelf)) :
    Happens s .work { s with world := { s.world with backend := b, shelf } }
  | call (k : StoreCall) : Happens s (.call k) (s.onBackend fun b => (k.run b).2)
  | shutdown : Happens s .shutdown (s.onBackend ObjectBackend.shutdown)
  | clock (now : Int) : Happens s (.clock now) (s.onBackend ({ · with now }))

/-- A flight after another was submitted. -/
theorem System.flight_submit {s : System InMemory} {o : AsyncObject} {r : Request} {j : FlightId}
    {f : Flight} (h : (s.submit o r).2.flights[j]? = some f) :
    j = s.flights.size ∧ f = { task := o.task r } ∨ s.flights[j]? = some f := by
  rw [flights_submit, Array.getElem?_push] at h
  split at h
  · rename_i hj
    exact .inl ⟨hj, (Option.some.inj h).symm⟩
  · exact .inr h

theorem InMemory.config_step? {b b' : InMemory} {shelf shelf' : Shelf}
    (hs : b.step? shelf = some (b', shelf')) : b'.config = b.config := by
  unfold step? at hs
  split at hs
  · split at hs
    · cases hs
    · cases hs; rfl
  · cases hs; rfl
  · cases hs; rfl

theorem Flight.Deed.config {f g : Flight} {w w' : World InMemory} (hd : f.Deed w g w') :
    w'.backend.config = w.backend.config := by
  cases hd with
  | quiet hb | ignore hb | refuse hb => rw [hb]
  | make _ hb => rw [hb]; rfl
  | take hb hs hj ha => rw [hb, InMemory.submit_of_accepts ha]; rfl
  | release hb =>
    rw [hb, InMemory.release]
    split <;> rfl

variable {config : InMemoryConfig} {accounts : Nat} {h : History} {s t : System InMemory}
  {e : Event}

/-- Nothing else happens. -/
theorem Happens.of_next? (hs : s.Sound config) (hn : s.next? e = some t) : Happens s e t := by
  cases e with
  | submit o r => cases hn; exact .submit o r
  | task a =>
    obtain ⟨f, hf, hn⟩ := Option.bind_eq_some_iff.mp hn
    obtain ⟨⟨g, w⟩, hstep, hn⟩ := Option.map_eq_some_iff.mp hn
    cases hn
    have hk := hs.keeps hf
    cases a with
    | issuer i => exact .issuer hf hk (.of_step hk hstep)
    | waiter i m => exact .waiter hf hk (.of_step hk hstep)
  | work =>
    obtain ⟨⟨b, shelf⟩, hstep, hn⟩ := Option.map_eq_some_iff.mp hn
    cases hn
    exact .work hstep
  | call k => cases hn; exact .call k
  | shutdown => cases hn; exact .shutdown
  | clock now => cases hn; exact .clock now

/-- A flight after the array was changed at one place. -/
theorem System.flight_setIfInBounds {flights : Array Flight} {i j : FlightId} {f g : Flight}
    (h : (flights.setIfInBounds i g)[j]? = some f) :
    j = i ∧ f = g ∨ j ≠ i ∧ flights[j]? = some f := by
  rw [Array.getElem?_setIfInBounds] at h
  split at h
  · rename_i hij
    split at h
    · exact .inl ⟨hij.symm, (Option.some.inj h).symm⟩
    · cases h
  · rename_i hij
    exact .inr ⟨fun hji => hij hji.symm, h⟩

namespace System.Sound

theorem task (hs : s.Sound config) {i : FlightId} {f g : Flight} {w : World InMemory}
    (hd : f.Deed s.world g w) (hg : g.Keeps) :
    Sound config { world := w, flights := s.flights.setIfInBounds i g } where
  config := hd.config.trans hs.config
  keeps hj := by
    rcases flight_setIfInBounds hj with ⟨-, rfl⟩ | ⟨-, hj⟩
    · exact hg
    · exact hs.keeps hj

theorem happens (hs : s.Sound config) (hh : Happens s e t) : t.Sound config := by
  cases hh with
  | submit o r =>
    refine ⟨hs.config, fun {j f} hj => ?_⟩
    rcases flight_submit hj with ⟨-, rfl⟩ | hj
    · exact Flight.keeps_start _
    · exact hs.keeps hj
  | issuer hf hk hm => exact hs.task (hm.deed hk) (hk.issuerMove hm)
  | waiter hf hk hm => exact hs.task (hm.deed hk) (hk.waiterMove hm)
  | work hstep => exact ⟨(InMemory.config_step? hstep).trans hs.config, hs.keeps⟩
  | call k => exact ⟨((InMemory.SameJobs.call k _).config).trans hs.config, hs.keeps⟩
  | shutdown => exact ⟨hs.config, hs.keeps⟩
  | clock now => exact ⟨hs.config, hs.keeps⟩

end System.Sound

namespace Run

/-- **Every state of a run is sound.** -/
theorem sound (hr : Run config accounts h s) : s.Sound config := by
  refine hr.invariant (P := fun _ s => s.Sound config) ⟨rfl, fun hf => ?_⟩
    fun e hs hn => hs.happens (.of_next? hs hn)
  simp [System.fresh] at hf

/-- What holds at the start and outlives everything that happens always holds. -/
theorem preserved {P : History → System InMemory → Prop} (hr : Run config accounts h s)
    (start : P {} (.fresh config accounts))
    (step : ∀ {h s t e}, Run config accounts h s → P h s → Happens s e t → P (h.after s e) t) :
    P h s := by
  induction hr with
  | start => exact start
  | step e hr hn ih => exact step hr ih (.of_next? hr.sound hn)

end Run

/-! ## What an event adds to the history -/

/-- The history after the issuer of a flight made its step. -/
def History.sent (h : History) (i : FlightId) (f : Flight) (w : World InMemory) : History where
  issues := h.issues ++ ((f.job? w).map (w.backend.issueOf i)).toList
  applications := h.applications

theorem History.after_issuer {i : FlightId} {f : Flight} (hf : s.flights[i]? = some f) :
    h.after s (.task (.issuer i)) = h.sent i f s.world := by
  simp [after, sent, System.issue?, System.application?, hf]

theorem History.sent_of_none {i : FlightId} {f : Flight} {w : World InMemory}
    (hj : f.job? w = none) : h.sent i f w = h := by
  simp [sent, hj]

theorem History.after_waiter {i : FlightId} {m : Milestone} :
    h.after s (.task (.waiter i m)) = h := by
  simp [after, System.issue?, System.application?]

theorem History.taken_sent_of_not_accepts {i : FlightId} {f : Flight} {w : World InMemory}
    {job : Job} (hj : f.job? w = some job) (ha : w.backend.accepts job = false) :
    (h.sent i f w).taken = h.taken := by
  rw [sent, hj, taken_append]
  simp [InMemory.issueOf, ha]

theorem History.after_of_not_isOwn (he : e.isOwn = false) : h.after s e = h := by
  cases e with
  | task | work => cases he
  | submit | call | shutdown | clock => simp [after, System.issue?, System.application?]

theorem History.after_work :
    h.after s .work =
      { h with
        applications := h.applications ++
          (s.world.backend.application? s.world.shelf).toList } := by
  simp [after, System.issue?, System.application?]

end Milepost
