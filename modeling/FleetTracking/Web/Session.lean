import FleetTracking.ControlPlane.Org
import FleetTracking.Lib.Transition

/-!
# The Session of the Web Application

The stored tokens, and `refreshSession`, which exchanges the refresh token for a new pair. Callers
share the refresh that is in flight; `refreshInFlight` is the latch.

1. `Session`, `refreshSession`, `answered`, `read`: the function, cut at its awaits.
2. `Latched`: the latch holds the refresh that is pending, if there is one.
3. `released_iff`: the latch is released all along a run exactly if no refresh is started without a
   refresh token.
-/

namespace FleetTracking.Web

open ControlPlane Transition

/-! ## The refresh -/

/-- The promise of a refresh: how far its function has come. -/
inductive Refresh where
  -- It awaits the answer to the token that it has sent.
  | fetching (refreshToken : String)
  -- It awaits the body of the answer.
  | reading (refreshToken : String)
  | settled (refreshed : Bool)
  deriving DecidableEq

/-- The fetch of the refresh is not over. -/
def Refresh.pending : Refresh → Bool
  | .settled _ => false
  | _ => true

/-- How a fetch ends. -/
inductive FetchOutcome where
  | networkError
  | response (status : Nat)

/-- `res.ok`. -/
def isOk (status : Nat) : Bool := 200 ≤ status ∧ status ≤ 299

/-- What `res.json()` gives. -/
inductive RefreshBody where
  -- It rejects, or gives something without fields.
  | unreadable
  | object (accessToken refreshToken : Option String)

/-- The tokens in the storage of the browser, the latch, and the promises of all refreshes. -/
structure Session where
  token : Option String
  refreshToken : Option String
  refreshInFlight : Option Nat
  promises : List Refresh

namespace Session

/-- A page that was loaded with these tokens in the storage. -/
def load (token refreshToken : Option String) : Session := ⟨token, refreshToken, none, []⟩

def setTokens (s : Session) (accessToken : String) (refreshToken : Option String) : Session :=
  { s with token := some accessToken
           refreshToken := (refreshToken.filter truthy).or s.refreshToken }

def clearToken (s : Session) : Session := { s with token := none, refreshToken := none }

/-- What the function does up to its first await. -/
def startRefresh (refreshToken : Option String) : Refresh :=
  match refreshToken.filter truthy with
  -- It returns before the `try`, and so without the `finally`.
  | none => .settled false
  | some refreshToken => .fetching refreshToken

/-- `refreshSession`: the promise that it returns. -/
def refreshSession (s : Session) : Session × Nat :=
  match s.refreshInFlight with
  | some p => (s, p)
  | none =>
    ({ s with promises := s.promises ++ [startRefresh s.refreshToken]
              refreshInFlight := some s.promises.length }, s.promises.length)

/-- The function returns from its `try`: the `finally`, and the promise is settled. -/
def settle (s : Session) (p : Nat) (refreshed : Bool) : Session :=
  { s with promises := s.promises.set p (.settled refreshed), refreshInFlight := none }

/-- The fetch of a refresh ends. -/
def answered (s : Session) (p : Nat) (outcome : FetchOutcome) : Option Session :=
  match s.promises[p]?, outcome with
  | some (.fetching _), .networkError => some (s.settle p false)
  | some (.fetching refreshToken), .response status =>
    if isOk status then some { s with promises := s.promises.set p (.reading refreshToken) }
    else some (s.settle p false)
  | _, _ => none

/-- The body of the answer is read. -/
def read (s : Session) (p : Nat) (body : RefreshBody) : Option Session :=
  match s.promises[p]?, body with
  | some (.reading _), .unreadable => some (s.settle p false)
  | some (.reading _), .object accessToken refreshToken =>
    match accessToken.filter truthy with
    | none => some (s.settle p false)
    | some accessToken => some ((s.setTokens accessToken refreshToken).settle p true)
  | _, _ => none

end Session

/-- What happens in a page. -/
inductive SessionEvent where
  | refreshSession
  | answered (p : Nat) (outcome : FetchOutcome)
  | read (p : Nat) (body : RefreshBody)
  | login (accessToken : String) (refreshToken : Option String)
  | logout

namespace Session

def step (s : Session) : SessionEvent → Option Session
  | .refreshSession => some s.refreshSession.1
  | .answered p outcome => s.answered p outcome
  | .read p body => s.read p body
  | .login accessToken refreshToken => some (s.setTokens accessToken refreshToken)
  | .logout => some s.clearToken

/-! ## The latch -/

/-- The refresh is pending. -/
def Pending (s : Session) (p : Nat) : Prop := ∃ r, s.promises[p]? = some r ∧ r.pending = true

/-- The latch holds the refresh that is pending, and nothing if none is. -/
def Latched (s : Session) : Prop := ∀ p, s.refreshInFlight = some p ↔ s.Pending p

/-- A refresh that is started finds a token to send. -/
def Armed (s : Session) : SessionEvent → Prop
  | .refreshSession => s.refreshInFlight = none → (s.refreshToken.filter truthy).isSome
  | _ => True

instance (s : Session) : (e : SessionEvent) → Decidable (s.Armed e)
  | .refreshSession => inferInstanceAs (Decidable (_ → _))
  | .answered _ _ | .read _ _ | .login _ _ | .logout => .isTrue trivial

/-- The latch is released. -/
structure Released (s : Session) : Prop where
  -- It is null whenever no refresh is pending.
  null : (∀ p, ¬ s.Pending p) → s.refreshInFlight = none
  -- At most one refresh is pending.
  single : ∀ p q, s.Pending p → s.Pending q → p = q
  -- A call that is made now sends the stored token.
  sends : ∀ refreshToken, s.refreshToken.filter truthy = some refreshToken →
    (∀ p, ¬ s.Pending p) →
      s.refreshSession.1.promises[s.refreshSession.2]? = some (.fetching refreshToken)

theorem latched_load (token refreshToken : Option String) : (load token refreshToken).Latched := by
  intro p
  simp [load, Pending]

section Promises

variable {promises : List Refresh} {p q : Nat} {r r' : Refresh}

/-- A promise, where one more was made: one of before, or the new one. -/
theorem promise_started (h : (promises ++ [r'])[q]? = some r) :
    promises[q]? = some r ∨ q = promises.length ∧ r = r' := by
  rw [List.getElem?_append] at h
  split at h
  case isTrue => exact Or.inl h
  case isFalse hge =>
    have hlast : q - promises.length = 0 := by
      by_contra hne
      rw [List.getElem?_eq_none (Nat.pos_of_ne_zero hne)] at h
      cases h
    rw [hlast] at h
    exact Or.inr ⟨by omega, (Option.some.inj h).symm⟩

/-- A promise, where one has gone on: that one, or another one as it was. -/
theorem promise_set (h : (promises.set p r')[q]? = some r) :
    q = p ∧ r = r' ∨ q ≠ p ∧ promises[q]? = some r := by
  by_cases hpq : p = q
  · subst hpq
    rw [List.getElem?_set_self'] at h
    obtain ⟨_, -, rfl⟩ := Option.map_eq_some_iff.mp h
    exact Or.inl ⟨rfl, rfl⟩
  · rw [List.getElem?_set_ne hpq] at h
    exact Or.inr ⟨Ne.symm hpq, h⟩

end Promises

variable {s s' : Session}

/-- A settled refresh is no longer pending; the others are as they were. -/
theorem pending_settle {p q : Nat} {refreshed : Bool} :
    (s.settle p refreshed).Pending q ↔ q ≠ p ∧ s.Pending q := by
  constructor
  · rintro ⟨r, hr, hpending⟩
    rcases promise_set hr with ⟨-, rfl⟩ | ⟨hne, hr⟩
    · cases hpending
    · exact ⟨hne, r, hr, hpending⟩
  · rintro ⟨hne, r, hr, hpending⟩
    exact ⟨r, (List.getElem?_set_ne (Ne.symm hne)).trans hr, hpending⟩

/-- The refresh that the latch holds is over. -/
theorem Latched.settle (h : s.Latched) {p : Nat} (hp : s.Pending p) (refreshed : Bool) :
    (s.settle p refreshed).Latched := by
  intro q
  rw [pending_settle]
  constructor
  · intro hnone
    cases hnone
  · rintro ⟨hne, hq⟩
    have hlatch := ((h p).mpr hp).symm.trans ((h q).mpr hq)
    exact absurd (Option.some.inj hlatch).symm hne

/-- The pending refresh goes on. -/
theorem Latched.reading (h : s.Latched) {p : Nat} (hp : s.Pending p) (refreshToken : String) :
    Latched { s with promises := s.promises.set p (.reading refreshToken) } := by
  intro q
  refine (h q).trans ?_
  unfold Pending
  rw [List.getElem?_set]
  by_cases hpq : p = q
  · subst hpq
    have hlt : p < s.promises.length := by
      obtain ⟨r, hr, _⟩ := hp
      exact (List.getElem?_eq_some_iff.mp hr).1
    exact iff_of_true hp ⟨.reading refreshToken, by simp [hlt], rfl⟩
  · simp [hpq]

/-- The tokens do not matter. -/
theorem Latched.congr (h : s.Latched) (hlatch : s'.refreshInFlight = s.refreshInFlight)
    (hpromises : s'.promises = s.promises) : s'.Latched := by
  intro p
  rw [hlatch, Pending, hpromises]
  exact h p

theorem Latched.setTokens (h : s.Latched) (accessToken : String) (refreshToken : Option String) :
    (s.setTokens accessToken refreshToken).Latched :=
  h.congr rfl rfl

/-- A refresh that sends a token is pending, and in the latch. -/
theorem Latched.refreshSession (h : s.Latched) (harmed : s.Armed .refreshSession) :
    s.refreshSession.1.Latched := by
  unfold Session.refreshSession
  cases hlatch : s.refreshInFlight with
  | some p => exact h
  | none =>
    obtain ⟨refreshToken, htoken⟩ := Option.isSome_iff_exists.mp (harmed hlatch)
    intro q
    constructor
    · intro hq
      obtain rfl := Option.some.inj hq
      exact ⟨.fetching refreshToken, by simp [startRefresh, htoken], rfl⟩
    · rintro ⟨r, hr, hpending⟩
      rcases promise_started hr with hr | ⟨rfl, -⟩
      · have hq := (h q).mpr ⟨r, hr, hpending⟩
        rw [hlatch] at hq
        cases hq
      · rfl

/-- **Every other step keeps the latch.** -/
theorem Latched.step (h : s.Latched) {e : SessionEvent} (harmed : s.Armed e)
    (hs : s.step e = some s') : s'.Latched := by
  cases e with
  | refreshSession =>
    obtain rfl := Option.some.inj hs
    exact h.refreshSession harmed
  | answered p outcome =>
    simp only [Session.step, answered] at hs
    split at hs
    case h_1 hfetching =>
      -- a network error
      obtain rfl := Option.some.inj hs
      exact h.settle ⟨_, hfetching, rfl⟩ false
    case h_2 hfetching =>
      split at hs
      · obtain rfl := Option.some.inj hs
        exact h.reading ⟨_, hfetching, rfl⟩ _
      · -- the server has refused the token
        obtain rfl := Option.some.inj hs
        exact h.settle ⟨_, hfetching, rfl⟩ false
    case h_3 => cases hs
  | read p body =>
    simp only [Session.step, read] at hs
    split at hs
    case h_1 hreading =>
      obtain rfl := Option.some.inj hs
      exact h.settle ⟨_, hreading, rfl⟩ false
    case h_2 hreading =>
      split at hs
      · -- an answer without an access token
        obtain rfl := Option.some.inj hs
        exact h.settle ⟨_, hreading, rfl⟩ false
      · obtain rfl := Option.some.inj hs
        exact (h.setTokens _ _).settle ⟨_, hreading, rfl⟩ true
    case h_3 => cases hs
  | login accessToken refreshToken =>
    obtain rfl := Option.some.inj hs
    exact h.setTokens _ _
  | logout =>
    obtain rfl := Option.some.inj hs
    exact h.congr rfl rfl

theorem Latched.released (h : s.Latched) : s.Released where
  null hnone := by
    cases hlatch : s.refreshInFlight with
    | none => rfl
    | some p => exact absurd ((h p).mp hlatch) (hnone p)
  single p q hp hq := Option.some.inj (((h p).mpr hp).symm.trans ((h q).mpr hq))
  sends refreshToken htoken hnone := by
    have hlatch : s.refreshInFlight = none := by
      cases hlatch : s.refreshInFlight with
      | none => rfl
      | some p => exact absurd ((h p).mp hlatch) (hnone p)
    simp [Session.refreshSession, hlatch, startRefresh, htoken]

/-- A refresh that is started without a token leaves the latch set. -/
theorem not_released_of_unarmed (h : s.Latched) (hlatch : s.refreshInFlight = none)
    (hnone : s.refreshToken.filter truthy = none) : ¬ s.refreshSession.1.Released := by
  intro hreleased
  have hset : s.refreshSession.1.refreshInFlight = some s.promises.length := by
    simp [refreshSession, hlatch]
  have hpending : ∀ p, ¬ s.refreshSession.1.Pending p := by
    rintro p ⟨r, hr, hpending⟩
    simp only [refreshSession, hlatch, startRefresh, hnone] at hr
    rcases promise_started hr with hr | ⟨-, rfl⟩
    · have hp := (h p).mpr ⟨r, hr, hpending⟩
      rw [hlatch] at hp
      cases hp
    · cases hpending
  rw [hreleased.null hpending] at hset
  cases hset

/-- **When the latch is released.** In every run from the loading of a page, of calls of
`refreshSession` and of logins and logouts, the latch is released all along the run exactly if each
refresh that is started finds a token to send. -/
theorem released_iff (token refreshToken : Option String) (es : List SessionEvent) (s : Session)
    (hrun : Run step (fun _ _ => True) (load token refreshToken) es s) :
    Always step (fun _ _ => True) (load token refreshToken) es Released ↔
      Run step Armed (load token refreshToken) es s := by
  refine hrun.always_iff (latched_load token refreshToken) (fun _ h => h.released)
    (fun _ _ _ h harmed hs => h.step harmed hs) ?_
  intro s e s' h _ hs hreleased
  cases e with
  | refreshSession =>
    intro hlatch
    by_contra hnone
    rw [Option.not_isSome_iff_eq_none] at hnone
    obtain rfl := Option.some.inj hs
    exact not_released_of_unarmed h hlatch hnone hreleased
  | answered p outcome => trivial
  | read p body => trivial
  | login accessToken refreshToken => trivial
  | logout => trivial

/-- Two calls share a refresh, which brings a new pair. -/
def sampleSession : List SessionEvent :=
  [.refreshSession, .refreshSession, .answered 0 (.response 200),
    .read 0 (.object (some "access2") (some "refresh2")), .refreshSession]

theorem sample_released : ∃ s,
    Run step (fun _ _ => True) (load (some "access1") (some "refresh1")) sampleSession s ∧
      Always step (fun _ _ => True) (load (some "access1") (some "refresh1")) sampleSession
        Released := by
  have hexists : ∃ s,
      Run step Armed (load (some "access1") (some "refresh1")) sampleSession s ∧ True :=
    Run.exists_of_any (by decide +kernel)
  obtain ⟨s, harmed, -⟩ := hexists
  have hrun : Run step (fun _ _ => True) _ sampleSession s := harmed.mono fun _ _ _ => trivial
  exact ⟨s, hrun, (released_iff _ _ sampleSession s hrun).mpr harmed⟩

/-- A refresh is tried without a token, and then there is a login: the latch stays set, and a
further call sends nothing. -/
theorem latch_stays_set : ∃ s,
    Run step (fun _ _ => True) (load none none)
      [.refreshSession, .login "access1" (some "refresh1")] s ∧ ¬ s.Released := by
  have hrun : Run step (fun _ _ => True) (load none none)
      [.refreshSession, .login "access1" (some "refresh1")]
      ⟨some "access1", some "refresh1", some 0, [.settled false]⟩ :=
    (Run.single trivial rfl).append (Run.single trivial rfl)
  refine ⟨_, hrun, fun hreleased => ?_⟩
  have hpending : ∀ p,
      ¬ Pending ⟨some "access1", some "refresh1", some 0, [.settled false]⟩ p := by
    rintro p ⟨r, hr, hpending⟩
    obtain rfl := List.mem_singleton.mp (List.mem_of_getElem? hr)
    cases hpending
  cases hreleased.null hpending

end Session

end FleetTracking.Web
