import Mathlib.Algebra.Ring.Nat
import Milepost.Proofs.Flight.Standing
import Milepost.Proofs.Session

/-!
# Any use of a handle releases it once

Whoever has a handle may make its calls in any order: issue again, count down without an issue,
release again, go on after the release. Sooner or later the handle is dropped. `Handling` is any
such sequence of calls, with whatever others do in between; each call leaves a `HandleTurn` that
says what it was answered and how often it tried to release the handle. What holds after so many
tries is `Handle.Tried`: the first gives back completion and buffer, all others are refused.

* `Handle.Tried.release`: what one more try does.
* `Handling.exactly_once`: what comes of any sequence of calls and the drop after it.
-/

namespace Milepost

/-- A call on a handle. -/
inductive HandleCall
  | issue (pool : PoolId) (r : Request)
  | waitFor (m : Milestone)
  | fail (e : Failure)
  | countDown
  | release

/-- What a call on a handle is answered. -/
inductive HandleReply
  | issued (i : Issued Unit)
  | waited (result : Except Failure Status)
  | released (result : Except Failure Unit)
  | nothing

namespace HandleCall

/-- What a call is answered, the handle and the world after it; none while it waits. -/
def next? {β : Type} [ObjectBackend β] (h : Handle) (w : World β) :
    HandleCall → Option (HandleReply × Handle × World β)
  | issue pool r => some (.issued (h.issue pool r w).1, (h.issue pool r w).2)
  | waitFor m => (h.waitFor? m w).map fun (result, h, w) => (.waited result, h, w)
  | fail e => some (.nothing, h.fail e, w)
  | countDown => some (.nothing, h.countDown w)
  | release => some (.released (h.release w).1, (h.release w).2)

/-- How often a call on the handle tries to release it: the latch does when it gets to zero. -/
def tries (h : Handle) : HandleCall → Nat
  | release => 1
  | countDown => if h.latch = 1 then 1 else 0
  | issue .. | waitFor _ | fail _ => 0

theorem tries_le (h : Handle) (x : HandleCall) : x.tries h ≤ 1 := by
  cases x with
  | issue | waitFor | fail => exact Nat.zero_le 1
  | countDown =>
    change (if h.latch = 1 then 1 else 0) ≤ 1
    split <;> omega
  | release => exact Nat.le_refl 1

def isCountDown : HandleCall → Bool
  | countDown => true
  | _ => false

def isRelease : HandleCall → Bool
  | release => true
  | _ => false

end HandleCall

/-- How often completions were handed over to be released. -/
def InMemory.handedOver (b : InMemory) : Nat := b.released + b.doubleReleases

/-- A call that was made on a handle. -/
structure HandleTurn where
  call : HandleCall
  reply : HandleReply
  /-- How often it tried to release the handle. -/
  tries : Nat
  /-- How often it handed a completion over to be released. -/
  handed : Nat

/-- What a call was, by the handle and the world before it and the world after it. -/
def HandleCall.turn (x : HandleCall) (reply : HandleReply) (h : Handle) (w w' : World InMemory) :
    HandleTurn where
  call := x
  reply := reply
  tries := x.tries h
  handed := w'.backend.handedOver - w.backend.handedOver

namespace HandleTurn

/-- How often some calls tried to release the handle. -/
def allTries (turns : List HandleTurn) : Nat := (turns.map (·.tries)).sum

/-- How often the owner tried to. -/
def releases (turns : List HandleTurn) : Nat := turns.countP (·.call.isRelease)

/-- How often the latch tried to. -/
def latchTries (turns : List HandleTurn) : Nat := allTries (turns.filter (·.call.isCountDown))

/-- How often some calls handed a completion over to be released. -/
def allHanded (turns : List HandleTurn) : Nat := (turns.map (·.handed)).sum

variable {turns : List HandleTurn} {turn : HandleTurn}

theorem allTries_concat : allTries (turns ++ [turn]) = allTries turns + turn.tries := by
  simp [allTries]

theorem allHanded_concat : allHanded (turns ++ [turn]) = allHanded turns + turn.handed := by
  simp [allHanded]

theorem releases_concat :
    releases (turns ++ [turn]) = releases turns + turn.call.isRelease.toNat := by
  cases h : turn.call.isRelease <;> simp [releases, h]

theorem latchTries_concat : latchTries (turns ++ [turn]) =
    latchTries turns + if turn.call.isCountDown then turn.tries else 0 := by
  unfold latchTries
  cases h : turn.call.isCountDown <;> simp [h, allTries]

end HandleTurn

/-- Whether a use of the backend leaves the completion to its owner. -/
def Use.spares (c : CompletionId) : Use → Bool
  | release d | endFlush d => d != c
  | _ => true

/-- What others do: they use the backend, but not the completion, and count on other accounts. -/
structure World.Elsewhere (a : AccountId) (c : CompletionId) (w w' : World InMemory) : Prop where
  use : ∃ u : Use, u.spares c = true ∧
    u.next? (w.backend, w.shelf) = some (w'.backend, w'.shelf)
  meters : w'.getMeters a = w.getMeters a
  size : w.accounts.size ≤ w'.accounts.size

/-- What can have been done with a handle of an account that was made in a world: the calls, and
the handle and the world after them. -/
inductive Handling (a : AccountId) (context : Context) (w₀ : World InMemory) :
    List HandleTurn → Handle → World InMemory → Prop
  | create {h : Handle} {w : World InMemory} (hc : Handle.create a context w₀ = (.ok h, w)) :
    Handling a context w₀ [] h w
  | call {turns : List HandleTurn} {h h' : Handle} {w w' : World InMemory} {reply : HandleReply}
      (x : HandleCall) (hh : Handling a context w₀ turns h w)
      (hx : x.next? h w = some (reply, h', w')) :
    Handling a context w₀ (turns ++ [x.turn reply h w w']) h' w'
  | elsewhere {turns : List HandleTurn} {h : Handle} {w w' : World InMemory}
      (hh : Handling a context w₀ turns h w)
      (he : w.Elsewhere a w₀.backend.completions.size w') :
    Handling a context w₀ turns h w'

/-! ## What a call changes -/

/-- What the meters of an account say of handles: those released, those outstanding, and the
attempts to release one again. -/
def World.handles (w : World InMemory) (a : AccountId) : Counter × Int × Counter :=
  ((w.getMeters a).operations.released, (w.getMeters a).operations.outstanding, w.doubles a)

theorem World.handles_congr {v w : World InMemory} {a : AccountId}
    (h : v.accounts = w.accounts) : v.handles a = w.handles a := by
  simp only [handles, doubles, getMeters, h]

theorem World.handles_count_self {w : World InMemory} {a : AccountId}
    {k : OperationMeters → OperationMeters} (ha : a < w.accounts.size) :
    (w.count a k).handles a =
      ((k (w.getMeters a).operations).released, (k (w.getMeters a).operations).outstanding,
        (k (w.getMeters a).operations).doubleReleases) := by
  rw [handles, doubles, count, getMeters_onMeters_self ha]
  rfl

/-- What is counted of milestones leaves them. -/
theorem World.handles_milestonePassed {w : World InMemory} {a b : AccountId} {m : Milestone}
    {failed : Bool} : (w.count b (·.milestonePassed m failed)).handles a = w.handles a := by
  by_cases h : b = a
  · subst h
    rcases Nat.lt_or_ge b w.accounts.size with hlt | hge
    · exact handles_count_self hlt
    · refine handles_congr (Array.ext (by simp [count, onMeters]) fun i hi hi' => ?_)
      simp only [count, onMeters, Array.getElem_modify]
      rw [if_neg (by omega)]
  · rw [handles, doubles, count, getMeters_onMeters_of_ne h]
    rfl

/-- Issuing a request leaves the completions to their owners, and counts nothing. -/
theorem Request.leaves_issue {r : Request} {pool : PoolId} {c : CompletionId}
    {w : World InMemory} :
    w.backend.SameTokens (r.issue pool c w).2.backend ∧
      (r.issue pool c w).2.accounts = w.accounts := by
  have hsend : ∀ (command : Command) (v : World InMemory),
      v.backend.SameTokens (r.send pool c command v).2.backend ∧
        (r.send pool c command v).2.accounts = v.accounts := by
    intro command v
    cases ha : v.backend.accepts ⟨pool, r.oid, .command command, c⟩ with
    | true =>
      rw [Request.send_of_accepts ha]
      exact ⟨.submit ha, rfl⟩
    | false =>
      rw [Request.send_of_not_accepts rfl ha]
      exact ⟨.refl _, rfl⟩
  have hedit : ∀ e : Edit, w.backend.SameTokens (r.sendEdit pool c e w).2.backend ∧
      (r.sendEdit pool c e w).2.accounts = w.accounts := by
    intro e
    have h := hsend (.edit e) w
    unfold sendEdit
    split <;> (rename_i hs; rw [hs] at h; exact h)
  unfold issue
  cases r.operation with
  | write | writeFull | append | remove => exact hedit _
  | read length offset =>
    simp only [sendRead]
    split
    · exact ⟨.refl _, rfl⟩
    · rename_i b _
      have h := hsend (.read (w.shelf.put b).1 offset)
        { w with shelf := (w.shelf.put b).2.hold (w.shelf.put b).1 }
      split <;> (rename_i hs; rw [hs] at h; exact h)

/-! ## After so many tries -/

/-- The handle of a completion after so many tries to release it. `before` is what the meters of
its account said of handles before it was made. -/
structure Handle.Tried (a : AccountId) (c : CompletionId) (before : Counter × Int × Counter)
    (n : Nat) (h : Handle) (w : World InMemory) : Prop where
  account : h.account = a
  account_lt : a < w.accounts.size
  completion_lt : c < w.backend.completions.size
  released : h.released = decide (0 < n)
  native : h.native = if h.released then none else some c
  buffer : h.released = true → h.buffer = none
  /-- Nobody else releases the completion. -/
  flag : (w.backend.completion c).released = h.released
  meters : w.handles a = (before.1.add h.released.toNat, before.2.1 + (!h.released).toInt,
    before.2.2.add (n - 1))

/-- What a call that does not try to release leaves as it was. -/
structure Handle.Leaves (h : Handle) (w : World InMemory) (h' : Handle) (w' : World InMemory) :
    Prop where
  account : h'.account = h.account
  released : h'.released = h.released
  native : h'.native = h.native
  buffer : h.native = none → h'.buffer = h.buffer
  tokens : w.backend.SameTokens w'.backend
  size : w'.accounts.size = w.accounts.size
  meters : ∀ a, w'.handles a = w.handles a

section Leaves

variable {h h' : Handle} {w w' : World InMemory} {pool : PoolId} {r : Request} {m : Milestone}
  {result : Except Failure Status} {reply : HandleReply} {x : HandleCall}

theorem Handle.Leaves.refl (h : Handle) (w : World InMemory) : h.Leaves w h w :=
  ⟨rfl, rfl, rfl, fun _ => rfl, .refl _, rfl, fun _ => rfl⟩

theorem Handle.leaves_issue : h.Leaves w (h.issue pool r w).2.1 (h.issue pool r w).2.2 := by
  unfold issue
  split
  · exact .refl h w
  cases hn : h.native with
  | none =>
    exact ⟨rfl, rfl, hn.symm, fun _ => rfl, .refl _, rfl, fun _ => rfl⟩
  | some c =>
    obtain ⟨htokens, haccounts⟩ : w.backend.SameTokens (r.issue pool c w).2.backend ∧
        (r.issue pool c w).2.accounts = w.accounts := Request.leaves_issue
    have hmeters := fun a => World.handles_congr (a := a) haccounts
    have hsize := congrArg Array.size haccounts
    simp only
    split <;> (rename_i hs; rw [hs] at htokens hsize hmeters)
    · exact ⟨rfl, rfl, hn.symm, fun hnone => (nomatch hn.symm.trans hnone), htokens, hsize, hmeters⟩
    · exact ⟨rfl, rfl, hn.symm, fun _ => rfl, htokens, hsize, hmeters⟩
    · exact ⟨rfl, rfl, hn.symm, fun _ => rfl, htokens, hsize, hmeters⟩

theorem Handle.leaves_waitFor (hw : h.waitFor? m w = some (result, h', w')) :
    h.Leaves w h' w' := by
  unfold waitFor? at hw
  split at hw
  · cases hw
    exact .refl h w
  · obtain ⟨status, -, hw⟩ := Option.map_eq_some_iff.mp hw
    cases hw
    exact ⟨rfl, rfl, rfl, fun _ => rfl, .refl _, World.size_accounts_count,
      fun _ => World.handles_milestonePassed⟩

theorem Handle.leaves_countDown (hl : h.latch ≠ 1) :
    h.Leaves w (h.countDown w).1 (h.countDown w).2 := by
  unfold countDown
  split
  · exact .refl h w
  · rename_i n hn
    rw [if_neg fun hzero => hl (by rw [hn, hzero])]
    exact ⟨rfl, rfl, rfl, fun _ => rfl, .refl _, rfl, fun _ => rfl⟩

/-- **A call that does not try to release a handle leaves it as it is.** -/
theorem HandleCall.leaves (hx : x.next? h w = some (reply, h', w')) (ht : x.tries h = 0) :
    h.Leaves w h' w' := by
  cases x with
  | issue pool r =>
    have hl : h.Leaves w (h.issue pool r w).2.1 (h.issue pool r w).2.2 := Handle.leaves_issue
    rwa [(Prod.mk.inj (Option.some.inj hx)).2] at hl
  | waitFor m =>
    obtain ⟨⟨result, k, v⟩, hw, hx⟩ := Option.map_eq_some_iff.mp hx
    cases hx
    exact Handle.leaves_waitFor hw
  | fail e =>
    cases hx
    rw [h.fail_eq e]
    exact ⟨rfl, rfl, rfl, fun _ => rfl, .refl _, rfl, fun _ => rfl⟩
  | countDown =>
    have hl : h.latch ≠ 1 := fun hl => by simp [tries, hl] at ht
    have hl := h.leaves_countDown (w := w) hl
    rwa [(Prod.mk.inj (Option.some.inj hx)).2] at hl
  | release => cases ht

/-- A call that tries to release a handle releases it, perhaps with another latch. -/
theorem HandleCall.release_of_tries (hx : x.next? h w = some (reply, h', w'))
    (ht : x.tries h ≠ 0) :
    x.tries h = 1 ∧ ∃ n, (h', w') = ({ h with latch := n }.release w).2 := by
  cases x with
  | issue | waitFor | fail => exact absurd rfl ht
  | countDown =>
    have hl : h.latch = 1 := by
      by_contra hne
      simp [tries, hne] at ht
    refine ⟨by simp [tries, hl], 0, ?_⟩
    rw [← Handle.countDown_last hl]
    exact (Prod.mk.inj (Option.some.inj hx)).2.symm
  | release => exact ⟨rfl, h.latch, (Prod.mk.inj (Option.some.inj hx)).2.symm⟩

end Leaves

namespace Handle

variable {a : AccountId} {c : CompletionId} {before : Counter × Int × Counter} {n : Nat}
  {h h' : Handle} {w w' : World InMemory}

theorem Tried.leaves (ht : Tried a c before n h w) (hl : h.Leaves w h' w') :
    Tried a c before n h' w' where
  account := hl.account.trans ht.account
  account_lt := hl.size ▸ ht.account_lt
  completion_lt := hl.tokens.size ▸ ht.completion_lt
  released := hl.released.trans ht.released
  native := by rw [hl.native, hl.released]; exact ht.native
  buffer hr := by
    rw [hl.released] at hr
    rw [hl.buffer (by rw [ht.native, if_pos hr])]
    exact ht.buffer hr
  flag := by rw [hl.tokens.flags, hl.released]; exact ht.flag
  meters := by rw [hl.meters, hl.released]; exact ht.meters

/-- The latch does not matter for what was tried. -/
theorem Tried.setLatch (ht : Tried a c before n h w) (k : Nat) :
    Tried a c before n { h with latch := k } w :=
  ht.leaves ⟨rfl, rfl, rfl, fun _ => rfl, .refl _, rfl, fun _ => rfl⟩

/-- The first try succeeds, and no other does. -/
theorem Tried.reply (ht : Tried a c before n h w) :
    (h.release w).1 = if n = 0 then .ok () else .error gone := by
  have hreleased := ht.released
  split
  · rename_i hn
    simp [Handle.release, hreleased, hn]
  · rename_i hn
    exact (release_of_released (w := w) (by simp [hreleased]; omega)).1

/-- The first try. -/
theorem Tried.release_first (ht : Tried a c before 0 h w) :
    Tried a c before 1 (h.release w).2.1 (h.release w).2.2 ∧
      (h.release w).2.2.backend.handedOver = w.backend.handedOver + 1 := by
  have hr : h.released = false := ht.released
  have hn : h.native = some c := by rw [ht.native, hr]; rfl
  have hflag : (w.backend.completion c).released = false := ht.flag.trans hr
  have hcount := h.accounts_release (w := w) hr
  rw [ht.account] at hcount
  rw [handle_release hr]
  have hb := backend_release (w := w) hr hn
  constructor
  · constructor
    case account => exact ht.account
    case account_lt => rw [hcount, World.size_accounts_count]; exact ht.account_lt
    case completion_lt => rw [hb, InMemory.size_release]; exact ht.completion_lt
    case released | native => rfl
    case buffer => exact fun _ => rfl
    case flag =>
      rw [hb, InMemory.completion_release ht.completion_lt hflag]
      simp [spent]
    case meters =>
      have hmeters := ht.meters
      rw [hr] at hmeters
      obtain ⟨hreleased, hrest⟩ := Prod.mk.inj hmeters
      obtain ⟨hout, hagain⟩ := Prod.mk.inj hrest
      rw [World.handles_congr hcount, World.handles_count_self ht.account_lt]
      refine Prod.ext ?_ (Prod.ext ?_ hagain)
      · exact congrArg (·.increment) hreleased
      · simp [OperationMeters.handleReleased, hout, spent]
  · rw [hb, InMemory.release_eq hflag]
    exact Nat.add_right_comm ..

/-- Any other try. -/
theorem Tried.release_again (ht : Tried a c before (n + 1) h w) :
    Tried a c before (n + 2) (h.release w).2.1 (h.release w).2.2 ∧
      (h.release w).2.2.backend.handedOver = w.backend.handedOver := by
  have hr : h.released = true := by rw [ht.released]; simp
  have hcount : (h.release w).2.2.accounts = (w.count a .handleReleasedAgain).accounts := by
    rw [Handle.release, if_pos hr, ht.account]
    rfl
  have hb : (h.release w).2.2.backend = w.backend := by
    rw [Handle.release, if_pos hr]
    rfl
  rw [(release_of_released hr).2]
  refine ⟨?_, by rw [hb]⟩
  constructor
  case account => exact ht.account
  case account_lt => rw [hcount, World.size_accounts_count]; exact ht.account_lt
  case completion_lt => rw [hb]; exact ht.completion_lt
  case released => rw [hr]; simp
  case native => exact ht.native
  case buffer => exact ht.buffer
  case flag => rw [hb]; exact ht.flag
  case meters =>
    obtain ⟨hreleased, hrest⟩ := Prod.mk.inj ht.meters
    obtain ⟨hout, hagain⟩ := Prod.mk.inj hrest
    rw [World.handles_congr hcount, World.handles_count_self ht.account_lt]
    exact Prod.ext hreleased (Prod.ext hout (congrArg (·.increment) hagain))

/-- **One more try.** The first one hands the completion over. -/
theorem Tried.release (ht : Tried a c before n h w) :
    Tried a c before (n + 1) (h.release w).2.1 (h.release w).2.2 ∧
      (h.release w).2.2.backend.handedOver = w.backend.handedOver + if n = 0 then 1 else 0 := by
  cases n with
  | zero => exact ht.release_first
  | succ n => exact ht.release_again

/-- The drop is the first try, or none at all. -/
theorem Tried.drop (ht : Tried a c before n h w) :
    Tried a c before (max n 1) (h.drop w).1 (h.drop w).2 ∧
      (h.drop w).2.backend.handedOver = w.backend.handedOver + if n = 0 then 1 else 0 := by
  have hr := ht.released
  unfold Handle.drop
  by_cases hn : n = 0
  · subst hn
    rw [hr, if_neg (by simp)]
    exact ht.release_first
  · rw [hr, if_pos (by simp; omega), if_neg hn, Nat.max_eq_left (by omega)]
    exact ⟨ht, rfl⟩

end Handle

/-- A use of the backend that leaves a completion to its owner does not release it. -/
theorem Use.released_of_spares {u : Use} {c : CompletionId} {s t : InMemory × Shelf}
    (hu : u.spares c = true) (hn : u.next? s = some t) (hc : c < s.1.completions.size) :
    c < t.1.completions.size ∧ (t.1.completion c).released = (s.1.completion c).released := by
  have htokens : ∀ {b : InMemory}, s.1.SameTokens b →
      c < b.completions.size ∧ (b.completion c).released = (s.1.completion c).released :=
    fun hb => ⟨hb.size ▸ hc, hb.flags c⟩
  cases u with
  | createCompletion =>
    cases hn
    rw [InMemory.size_createCompletion, InMemory.completion_createCompletion]
    exact ⟨Nat.lt_succ_of_lt hc, rfl⟩
  | issue pool oid d command =>
    cases hn
    exact htokens (.submit_any ..)
  | release d =>
    cases hn
    refine ⟨InMemory.size_release.symm ▸ hc, ?_⟩
    unfold InMemory.release
    split
    · rfl
    · have hother := InMemory.completion_onCompletion_of_ne (b := s.1) (bne_iff_ne.mp hu)
        (f := ({ · with released := true }))
      exact congrArg (·.released) hother
  | beginFlush pool =>
    cases hn
    have hsame := InMemory.SameTokens.beginFlush pool s.1
    rw [hsame.size, hsame.flags, InMemory.size_newCompletion, InMemory.completion_newCompletion]
    exact ⟨Nat.lt_succ_of_lt hc, rfl⟩
  | endFlush d =>
    obtain ⟨⟨status, b⟩, hb, rfl⟩ := Option.map_eq_some_iff.mp hn
    obtain ⟨_, -, hb⟩ := Option.map_eq_some_iff.mp hb
    cases hb
    rw [InMemory.completion_onCompletion_of_ne (bne_iff_ne.mp hu)]
    exact ⟨by simpa [InMemory.onCompletion] using hc, rfl⟩
  | call k =>
    cases hn
    exact htokens (.call k s.1)
  | shutdown | clock | buffers =>
    cases hn
    exact ⟨hc, rfl⟩
  | work => exact htokens (.step hn)

/-- What others do leaves what was tried. -/
theorem Handle.Tried.elsewhere {a : AccountId} {c : CompletionId}
    {before : Counter × Int × Counter} {n : Nat} {h : Handle} {w w' : World InMemory}
    (ht : Tried a c before n h w) (he : w.Elsewhere a c w') : Tried a c before n h w' := by
  obtain ⟨u, hu, hn⟩ := he.use
  obtain ⟨hlt, hflag⟩ := Use.released_of_spares hu hn ht.completion_lt
  refine { ht with
    account_lt := Nat.lt_of_lt_of_le ht.account_lt he.size
    completion_lt := hlt
    flag := hflag.trans ht.flag
    meters := ?_ }
  rw [← ht.meters, World.handles, World.handles, World.doubles, World.doubles, he.meters]

namespace Handling

variable {a : AccountId} {context : Context} {w₀ w : World InMemory} {turns : List HandleTurn}
  {h : Handle}

/-- A handle that was just made. -/
theorem tried_create (ha : a < w₀.accounts.size) (hc : Handle.create a context w₀ = (.ok h, w)) :
    h.Tried a w₀.backend.completions.size (w₀.handles a) 0 w := by
  cases hc
  constructor
  case account | released | native => rfl
  case account_lt => exact World.size_accounts_count.symm ▸ ha
  case completion_lt => exact InMemory.size_createCompletion.symm ▸ Nat.lt_succ_self _
  case buffer => exact fun _ => rfl
  case flag =>
    change (w₀.backend.createCompletion.2.completion w₀.backend.completions.size).released = false
    rw [InMemory.completion_createCompletion, InMemory.completion_of_le (Nat.le_refl _)]
  case meters => exact World.handles_count_self ha

/-- What one call does to the tries, and what it hands over. -/
theorem tried_call {h' : Handle} {w' : World InMemory} {reply : HandleReply} {x : HandleCall}
    {c : CompletionId} {before : Counter × Int × Counter} {n : Nat}
    (ht : h.Tried a c before n w) (hx : x.next? h w = some (reply, h', w')) :
    h'.Tried a c before (n + x.tries h) w' ∧
      w'.backend.handedOver = w.backend.handedOver + if n = 0 then x.tries h else 0 := by
  by_cases hzero : x.tries h = 0
  · have hl := HandleCall.leaves hx hzero
    rw [hzero, ite_self]
    refine ⟨ht.leaves hl, ?_⟩
    rw [InMemory.handedOver, hl.tokens.released, hl.tokens.doubleReleases]
    rfl
  · obtain ⟨hone, l, hrel⟩ := HandleCall.release_of_tries hx hzero
    have hnext := (ht.setLatch l).release
    rw [← hrel] at hnext
    rwa [hone]

/-- **The handle is as so many tries leave it.** -/
theorem tried (hh : Handling a context w₀ turns h w) (ha : a < w₀.accounts.size) :
    h.Tried a w₀.backend.completions.size (w₀.handles a) (HandleTurn.allTries turns) w := by
  induction hh with
  | create hc => exact tried_create ha hc
  | call x _ hx ih =>
    rw [HandleTurn.allTries_concat]
    exact (tried_call ih hx).1
  | elsewhere _ he ih => exact ih.elsewhere he

/-- A completion was handed over if there was any try, and only once. -/
theorem allHanded_eq (hh : Handling a context w₀ turns h w) (ha : a < w₀.accounts.size) :
    HandleTurn.allHanded turns = if HandleTurn.allTries turns = 0 then 0 else 1 := by
  induction hh with
  | create => rfl
  | @call turns h h' w w' reply x hh hx ih =>
    have hle := x.tries_le h
    have hhanded : (x.turn reply h w w').handed =
        if HandleTurn.allTries turns = 0 then x.tries h else 0 := by
      have hover := (tried_call (hh.tried ha) hx).2
      change w'.backend.handedOver - w.backend.handedOver = _
      omega
    rw [HandleTurn.allHanded_concat, HandleTurn.allTries_concat, hhanded, ih]
    change _ = if HandleTurn.allTries turns + x.tries h = 0 then 0 else 1
    split <;> split <;> omega
  | elsewhere _ he ih => exact ih

/-- Every try was the owner's or the latch's. -/
theorem allTries_eq (hh : Handling a context w₀ turns h w) :
    HandleTurn.allTries turns = HandleTurn.releases turns + HandleTurn.latchTries turns := by
  induction hh with
  | create => rfl
  | @call turns h h' w w' reply x hh hx ih =>
    rw [HandleTurn.allTries_concat, HandleTurn.releases_concat, HandleTurn.latchTries_concat, ih]
    cases x with
    | issue | waitFor | fail => rfl
    | countDown => exact Nat.add_assoc ..
    | release => exact Nat.add_right_comm ..
  | elsewhere _ he ih => exact ih

/-- Only the first issue gets as far as setting the latch. -/
theorem issued_issue {pool : PoolId} {r : Request} (hi : h.issued = false) :
    (h.issue pool r w).2.1.issued = true := by
  unfold Handle.issue
  rw [if_neg (by simp [hi])]
  cases h.native with
  | none => rfl
  | some c =>
    simp only
    split <;> rfl

theorem latch_release :
    (h.release w).2.1.latch = h.latch ∧ (h.release w).2.1.issued = h.issued := by
  unfold Handle.release
  split <;> exact ⟨rfl, rfl⟩

/-- What a call does to the latch: the first issue may set it, and it tries when it is spent. -/
theorem latch_call {h' : Handle} {w' : World InMemory} {reply : HandleReply} {x : HandleCall}
    {n : Nat} (hl : (n + if h.latch = 0 then 0 else 1) ≤ h.issued.toNat)
    (hx : x.next? h w = some (reply, h', w')) :
    ((n + if x.isCountDown then x.tries h else 0) + if h'.latch = 0 then 0 else 1) ≤
      h'.issued.toNat := by
  cases x with
  | issue pool r =>
    obtain rfl : (h.issue pool r w).2.1 = h' :=
      congrArg Prod.fst (Prod.mk.inj (Option.some.inj hx)).2
    cases hi : h.issued with
    | true =>
      rw [Handle.issue_of_issued hi]
      exact hl
    | false =>
      rw [hi, Bool.toNat_false] at hl
      rw [issued_issue hi, Bool.toNat_true]
      obtain rfl : n = 0 := by omega
      change (0 + if (h.issue pool r w).2.1.latch = 0 then 0 else 1) ≤ 1
      split <;> omega
  | waitFor m =>
    obtain ⟨⟨result, k, v⟩, hw, hx⟩ := Option.map_eq_some_iff.mp hx
    cases hx
    unfold Handle.waitFor? at hw
    split at hw
    · cases hw
      exact hl
    · obtain ⟨status, -, hw⟩ := Option.map_eq_some_iff.mp hw
      cases hw
      exact hl
  | fail e =>
    cases hx
    rw [h.fail_eq e]
    exact hl
  | countDown =>
    obtain rfl : (h.countDown w).1 = h' := congrArg Prod.fst (Prod.mk.inj (Option.some.inj hx)).2
    change ((n + if h.latch = 1 then 1 else 0) + _) ≤ _
    match hlatch : h.latch with
    | 0 =>
      simp only [Handle.countDown, hlatch] at hl ⊢
      exact hl
    | 1 =>
      rw [Handle.countDown_last hlatch, latch_release.1, latch_release.2]
      simp only [hlatch] at hl
      exact hl
    | l + 2 =>
      simp only [Handle.countDown, hlatch] at hl ⊢
      exact hl
  | release =>
    obtain rfl : (h.release w).2.1 = h' := congrArg Prod.fst (Prod.mk.inj (Option.some.inj hx)).2
    rw [latch_release.1, latch_release.2]
    exact hl

/-- The latch tries at most once. -/
theorem latchTries_le (hh : Handling a context w₀ turns h w) :
    HandleTurn.latchTries turns ≤ 1 := by
  have hlatch : (HandleTurn.latchTries turns + if h.latch = 0 then 0 else 1) ≤ h.issued.toNat := by
    induction hh with
    | create hc => cases hc; exact Nat.le_refl 0
    | call x _ hx ih =>
      rw [HandleTurn.latchTries_concat]
      exact latch_call ih hx
    | elsewhere _ _ ih => exact ih
  have hissued := h.issued.toNat_le
  omega

/-- What came before a call is such a sequence of calls too. -/
theorem before {earlier later : List HandleTurn} {turn : HandleTurn}
    (hh : Handling a context w₀ (earlier ++ turn :: later) h w) :
    ∃ h₁ w₁ h₂ w₂, Handling a context w₀ earlier h₁ w₁ ∧
      turn.call.next? h₁ w₁ = some (turn.reply, h₂, w₂) := by
  generalize hturns : earlier ++ turn :: later = turns at hh
  induction hh generalizing later with
  | create => simp at hturns
  | @call turns h h' w w' reply x hh hx ih =>
    rcases List.eq_nil_or_concat later with rfl | ⟨later, last, rfl⟩
    · obtain ⟨rfl, hturn⟩ := List.append_inj' hturns rfl
      obtain rfl := List.singleton_inj.mp hturn
      exact ⟨h, w, h', w', hh, hx⟩
    · rw [List.concat_eq_append, ← List.cons_append, ← List.append_assoc] at hturns
      exact ih (List.append_inj' hturns rfl).1
  | elsewhere _ _ ih => exact ih hturns

/-- The reply to a release: the first try succeeds, and all others are refused. -/
theorem reply_release {earlier later : List HandleTurn} {turn : HandleTurn}
    (hh : Handling a context w₀ (earlier ++ turn :: later) h w) (ha : a < w₀.accounts.size)
    (hcall : turn.call = .release) :
    turn.reply =
      .released (if HandleTurn.allTries earlier = 0 then .ok () else .error Handle.gone) := by
  obtain ⟨h₁, w₁, h₂, w₂, hearlier, hx⟩ := hh.before
  rw [hcall] at hx
  rw [← (hearlier.tried ha).reply]
  exact (Prod.mk.inj (Option.some.inj hx)).1.symm

/-- **Any use of a handle releases it once.** A handle is made, any calls are made on it in any
order, and it is dropped. Then its completion was handed over to be released, once; one handle more
counts as released and none more as outstanding; every try but the first counts as an attempt to
release it again, of which the latch made one at most and the drop none. A release that is not the
first try is refused; and where there was a try, there is no buffer any more, and a wait is refused
and changes nothing. -/
theorem exactly_once (hh : Handling a context w₀ turns h w) (ha : a < w₀.accounts.size) :
    (HandleTurn.allHanded turns + ((h.drop w).2.backend.handedOver - w.backend.handedOver) = 1 ∧
      ((h.drop w).2.backend.completion w₀.backend.completions.size).released = true) ∧
    (h.drop w).2.handles a = ((w₀.handles a).1.increment, (w₀.handles a).2.1,
      (w₀.handles a).2.2.add (HandleTurn.releases turns + HandleTurn.latchTries turns - 1)) ∧
    HandleTurn.latchTries turns ≤ 1 ∧
    (h.drop w).2.doubles a = w.doubles a ∧
    (∀ earlier turn later, turns = earlier ++ turn :: later → turn.call = .release →
      turn.reply =
        .released (if HandleTurn.allTries earlier = 0 then .ok () else .error Handle.gone)) ∧
    Handle.gone.kind = .inconsistentState ∧
    (0 < HandleTurn.allTries turns →
      h.buffer = none ∧ ∀ m, h.waitFor? m w = some (.error Handle.gone, h, w)) := by
  have ht := hh.tried ha
  obtain ⟨hdrop, hover⟩ := ht.drop
  have hmax : max (HandleTurn.allTries turns) 1 - 1 = HandleTurn.allTries turns - 1 := by omega
  have hreleased : (h.drop w).1.released = true := by
    rw [hdrop.released]
    exact decide_eq_true (by omega)
  have hmeters := hdrop.meters
  rw [hreleased, hmax] at hmeters
  refine ⟨⟨?handed, ?flag⟩, ?meters, hh.latchTries_le, ?drop, ?replies, rfl, ?gone⟩
  case handed =>
    rw [hh.allHanded_eq ha, hover]
    split <;> omega
  case flag => rw [hdrop.flag, hreleased]
  case meters =>
    rw [hmeters, hh.allTries_eq]
    simp [Counter.increment]
  case drop =>
    have hagain := congrArg (·.2.2) hmeters
    exact hagain.trans (congrArg (·.2.2) ht.meters).symm
  case replies =>
    rintro earlier turn later rfl hcall
    exact hh.reply_release ha hcall
  case gone =>
    intro htries
    have hr : h.released = true := by rw [ht.released]; exact decide_eq_true htries
    refine ⟨ht.buffer hr, fun m => ?_⟩
    rw [Handle.waitFor?, ht.native, if_pos hr]

end Handling

/-! ## Misuse -/

/-- What a list of calls, and of uses of the backend in between, makes of a handle of a
completion. -/
def Handling.replay (c : CompletionId) (turns : List HandleTurn) (h : Handle)
    (w : World InMemory) :
    List (HandleCall ⊕ Use) → Option (List HandleTurn × Handle × World InMemory)
  | [] => some (turns, h, w)
  | .inl x :: rest => (x.next? h w).bind fun (reply, h', w') =>
    replay c (turns ++ [x.turn reply h w w']) h' w' rest
  | .inr u :: rest =>
    if u.spares c then (u.next? (w.backend, w.shelf)).bind fun (backend, shelf) =>
      replay c turns h { w with backend, shelf } rest
    else none

theorem Handling.of_replay {a : AccountId} {context : Context} {w₀ w w' : World InMemory}
    {turns turns' : List HandleTurn} {h h' : Handle} {steps : List (HandleCall ⊕ Use)}
    (hh : Handling a context w₀ turns h w)
    (hs : replay w₀.backend.completions.size turns h w steps = some (turns', h', w')) :
    Handling a context w₀ turns' h' w' := by
  induction steps generalizing turns h w with
  | nil =>
    cases hs
    exact hh
  | cons step rest ih =>
    cases step with
    | inl x =>
      obtain ⟨⟨reply, h₁, w₁⟩, hx, hs⟩ := Option.bind_eq_some_iff.mp hs
      exact ih (hh.call x hx) hs
    | inr u =>
      unfold replay at hs
      split at hs
      · rename_i hu
        obtain ⟨⟨backend, shelf⟩, hn, hs⟩ := Option.bind_eq_some_iff.mp hs
        have he : w.Elsewhere a w₀.backend.completions.size { w with backend, shelf } :=
          ⟨⟨u, hu, hn⟩, rfl, Nat.le_refl _⟩
        exact ih (hh.elsewhere he) hs
      · cases hs

namespace Sample

def world : World InMemory := { backend := .ofConfig config }

/-- The handle of the first completion. -/
def handle : Handle := { native := some 0, account := 0, context := [] }

/-- The world in which it was made. -/
def handled : World InMemory := (Handle.create 0 [] world).2

/-- Counting down too early, issuing twice, waiting, counting down too often, releasing twice. -/
def misuse : List (HandleCall ⊕ Use) :=
  [.inl .countDown, .inl (.issue 1 ⟨"object", .read 2 0⟩), .inl (.issue 1 ⟨"object", .remove⟩),
    .inr .work, .inr .work, .inl (.waitFor .complete), .inl .countDown, .inl .countDown,
    .inl .countDown, .inl .release, .inl (.waitFor .safe), .inl .release]

theorem isSome_replay_misuse : (Handling.replay 0 [] handle handled misuse).isSome = true := by
  decide +kernel

/-- The calls, the handle and the world after it all. -/
@[irreducible]
def misused : List HandleTurn × Handle × World InMemory :=
  (Handling.replay 0 [] handle handled misuse).get isSome_replay_misuse

theorem handling_misused : Handling 0 [] world misused.1 misused.2.1 misused.2.2 := by
  unfold misused
  have hmade : Handling 0 [] world [] handle handled := .create rfl
  have hreplay := (Option.some_get isSome_replay_misuse).symm
  exact hmade.of_replay hreplay

end Sample

/-- The latch released the handle, and two calls were refused after that. -/
theorem Handling.exactly_once_after_misuse :
    Handling 0 [] Sample.world Sample.misused.1 Sample.misused.2.1 Sample.misused.2.2 ∧
      0 < Sample.world.accounts.size ∧
      HandleTurn.releases Sample.misused.1 = 2 ∧ HandleTurn.latchTries Sample.misused.1 = 1 ∧
      HandleTurn.allHanded Sample.misused.1 = 1 ∧
      (Sample.misused.2.1.drop Sample.misused.2.2).2.handles 0 = (⟨1⟩, 0, ⟨2⟩) ∧
      Sample.misused.2.1.buffer = none ∧
      Sample.misused.2.1.waitFor? .safe Sample.misused.2.2 =
        some (.error Handle.gone, Sample.misused.2.1, Sample.misused.2.2) := by
  have ha : 0 < Sample.world.accounts.size := by decide
  have hreleases : HandleTurn.releases Sample.misused.1 = 2 := by decide +kernel
  have hlatch : HandleTurn.latchTries Sample.misused.1 = 1 := by decide +kernel
  have htries : 0 < HandleTurn.allTries Sample.misused.1 := by
    rw [Sample.handling_misused.allTries_eq, hreleases, hlatch]
    decide
  have hhanded : HandleTurn.allHanded Sample.misused.1 = 1 := by
    rw [Sample.handling_misused.allHanded_eq ha, if_neg (Nat.ne_of_gt htries)]
  obtain ⟨-, hmeters, -, -, -, -, hgone⟩ := Handling.exactly_once Sample.handling_misused ha
  rw [hreleases, hlatch] at hmeters
  obtain ⟨hbuffer, hwait⟩ := hgone htries
  exact ⟨Sample.handling_misused, ha, hreleases, hlatch, hhanded, hmeters, hbuffer, hwait .safe⟩

end Milepost
