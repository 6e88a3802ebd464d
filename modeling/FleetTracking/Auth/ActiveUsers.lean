import FleetTracking.Auth.MfaSwitch

/-!
# Token Pairs Are for Active Users

`login` and `refresh` look at the active flag of the account; `verifyMfa`, which completes a
login, does not.

1. `Ledger`: the store, and the token pairs that were returned.
2. `Unchecked`: a second step of a login that succeeds for a user who is not active.
3. `active_iff`: what one call does.
4. `issued_active_iff`: all pairs of a run are for active users if and only if no step is
   unchecked.
-/

namespace FleetTracking.Auth

open Async ControlPlane Transition

/-- The stored active flag of the user a pair is for. -/
def AuthStore.activeFor (s : AuthStore) (pair : TokenPair) : Bool :=
  (s.store.users.get pair.accessToken.payload.sub).any User.active

/-- The store, and the pairs that were returned, each with the active flag of its user at that
time. -/
structure Ledger where
  store : AuthStore
  issued : List (TokenPair × Bool)

/-- The pair of a result. -/
def pairOf (r : Except ApiError AuthReply) : Option TokenPair := r.toOption.bind AuthReply.pair

def Ledger.step (D : AuthDeployment) (a : Ledger) : AuthEvent → Option Ledger
  | .call call ω => (a.store.complete D ω (call.code D)).map fun out =>
      { store := out.2
        issued := a.issued ++ (pairOf out.1).toList.map fun pair => (pair, out.2.activeFor pair) }
  | .elapse ms => some { a with store := a.store.elapse ms }

/-- The second step of a login for a user who is not active: the token and the code are right,
and the two requests resolve. -/
def AuthStore.Unchecked (D : AuthDeployment) (s : AuthStore) : AuthEvent → Prop
  | .call (.verifyMfa mfaToken code) ω =>
    ∃ payload u, verify s.now mfaToken = some payload ∧ payload.purpose = some .mfa ∧
      s.store.users.get payload.sub = some u ∧ u.active = false ∧ u.mfaEnabled = true ∧
      u.mfaSecret.any truthy = true ∧ D.verifyTotp (u.mfaSecret.getD "") code s.now = true ∧
      (ω 0).isOk = true ∧ (ω 1).isOk = true
  | _ => False

section Active

variable {D : AuthDeployment} {s s' : AuthStore}

/-- The users are as before where a login, its second step or a refresh is over. -/
theorem users_of_move {call : AuthCall} (hmove : s.UsersMove D s' call)
    (hissues : call.issues = true) (hregister : ∀ dto, call ≠ .registerTenant dto) :
    s'.store.users = s.store.users := by
  cases hmove with
  | same users => exact users
  | registered => exact absurd rfl (hregister _)
  | created => cases hissues
  | updated => cases hissues
  | setUp => cases hissues
  | enabled => cases hissues
  | disabled => cases hissues

theorem activeFor_of {u : User} {pair : TokenPair} (hissued : s'.Issued D u pair)
    (hget : s'.store.users.get u.id = some u) : s'.activeFor pair = u.active := by
  rw [AuthStore.activeFor, hissued.accessToken]
  show (s'.store.users.get u.id).any User.active = u.active
  rw [hget, Option.any_some]

/-- The second step of a login, with the right token and code: it succeeds where its two requests
resolve. -/
theorem complete_verifyMfa {ω : Nat → Outcome} {out : Except ApiError AuthReply × AuthStore}
    {mfaToken : Option Jwt} {code : String} {payload : JwtPayload} {u : User}
    (htoken : verify s.now mfaToken = some payload) (hpurpose : payload.purpose = some .mfa)
    (hget : s.store.users.get payload.sub = some u) (hon : u.mfaEnabled = true)
    (hsecret : u.mfaSecret.any truthy = true)
    (hvalid : D.verifyTotp (u.mfaSecret.getD "") code s.now = true)
    (h : s.complete D ω ((AuthCall.verifyMfa mfaToken code).code D) = some out) :
    (∃ reply, out.1 = .ok reply) ↔ (ω 0).isOk = true ∧ (ω 1).isOk = true := by
  have hsub : AuthService.mfaUser s.now mfaToken = .ok payload.sub := by
    simp only [AuthService.mfaUser, htoken, hpurpose, if_true]
  -- the premises are the service's own checks, so what is left are the two awaits
  have hfound : (some u).filter (fun user => user.mfaEnabled ∧ user.mfaSecret.any truthy) =
      some u := by
    simp [Option.filter, hon, hsecret]
  simp only [AuthStore.complete, AuthCall.code, AuthService.verifyMfa, bind_assoc] at h
  rw [exec_now, hsub] at h
  rw [exec_bind_of_ok (exec_ofExcept _ _ _ _ _ _ _)] at h
  -- first the look-up of the user
  cases h0 : ω 0 with
  | rejects e b =>
    rw [exec_rejects h0 rfl] at h
    cases h
    simp [Outcome.isOk]
  | resolves reply =>
    rw [exec_resolves h0 rfl] at h
    simp only [AuthStore.answer, Store.answer, hget, hfound, AuthStore.effect, Store.effect,
      bind_assoc] at h
    rw [exec_now, if_pos hvalid] at h
    simp only [AuthService.issueTokens, AuthService.issueTokensIn, bind_assoc] at h
    rw [exec_step, exec_step, exec_now, exec_step] at h
    -- then the insert of the refresh token
    cases h1 : ω 1 with
    | rejects e b =>
      rw [exec_rejects h1 rfl] at h
      cases h
      simp [Outcome.isOk]
    | resolves reply =>
      rw [exec_resolves h1 rfl] at h
      cases h
      exact ⟨fun _ => ⟨rfl, rfl⟩, fun _ => ⟨_, rfl⟩⟩

/-- A pair that is not one of a second step is for an active user. -/
theorem active_or_verified {call : AuthCall} {reply : AuthReply} {pair : TokenPair}
    (hmove : s.UsersMove D s' call) (hearned : s.Earned D s' call reply)
    (hpair : reply.pair = some pair) :
    s'.activeFor pair = true ∨ ∃ mfaToken code, call = .verifyMfa mfaToken code := by
  cases hearned with
  | registered u active tenantId row issued =>
    obtain rfl := Option.some_inj.mp hpair
    exact Or.inl ((activeFor_of issued row).trans active)
  | login u found email active password single issued =>
    obtain rfl := Option.some_inj.mp hpair
    have husers := users_of_move hmove rfl fun _ h => nomatch h
    have hget : s'.store.users.get u.id = some u := by
      rw [husers]
      exact Table.get_eq_some_iff.mpr ⟨found, rfl⟩
    exact Or.inl ((activeFor_of issued hget).trans active)
  | challenged => cases hpair
  | verified => exact Or.inr ⟨_, _, rfl⟩
  | refreshed record u hash exchangeable found active issued =>
    obtain rfl := Option.some_inj.mp hpair
    have husers := users_of_move hmove rfl fun _ h => nomatch h
    have hget : s'.store.users.get u.id = some u := by
      rw [husers, (Table.get_eq_some_iff.mp found).2]
      exact found
    exact Or.inl ((activeFor_of issued hget).trans active)
  | other issues pair => exact nomatch pair.symm.trans hpair

/-- **What one call returns**: a pair for a user who is not active, exactly in an unchecked second
step. -/
theorem active_iff {call : AuthCall} {ω : Nat → Outcome} {r : Except ApiError AuthReply}
    (h : s.complete D ω (call.code D) = some (r, s')) :
    (∀ pair, pairOf r = some pair → s'.activeFor pair = true) ↔ ¬ s.Unchecked D (.call call ω) := by
  have hleads := leads_of_complete h
  constructor
  · intro hall hun
    cases call with
    | verifyMfa mfaToken code =>
      -- an unchecked call is a verification that goes through for a user who is not active
      obtain ⟨payload, u, htoken, hpurpose, hget, hinactive, hon, hsecret, hvalid, hthrough⟩ := hun
      obtain ⟨reply, rfl⟩ : ∃ reply, r = .ok reply :=
        (complete_verifyMfa htoken hpurpose hget hon hsecret hvalid h).mpr hthrough
      have husers := users_of_move hleads.users rfl fun _ h => nomatch h
      cases hleads.reply reply rfl with
      | @verified _ _ pair payload' u' token' _ found' _ _ _ issued =>
        rw [token'] at htoken
        obtain rfl := Option.some_inj.mp htoken
        rw [found'] at hget
        obtain rfl := Option.some_inj.mp hget
        have hget' : s'.store.users.get u'.id = some u' := by
          rw [husers, (Table.get_eq_some_iff.mp found').2]
          exact found'
        have hactive := hall pair rfl
        rw [activeFor_of issued hget', hinactive] at hactive
        cases hactive
      | other issues => cases issues
    | _ => exact hun
  · intro hchecked pair hpair
    obtain ⟨reply, hr, hreply⟩ := Option.bind_eq_some_iff.mp hpair
    obtain rfl : r = .ok reply := by
      cases r with
      | error e => cases hr
      | ok a => exact congrArg Except.ok (Option.some_inj.mp hr)
    have hearned := hleads.reply reply rfl
    -- every call but the verification looks at active before it issues
    rcases active_or_verified hleads.users hearned hreply with hactive | ⟨mfaToken, code, rfl⟩
    · exact hactive
    · cases hearned with
      | verified payload u token purpose found mfaEnabled secret valid issued =>
        obtain rfl := Option.some_inj.mp hreply
        have husers := users_of_move hleads.users rfl fun _ h => nomatch h
        have hget : s'.store.users.get u.id = some u := by
          rw [husers, (Table.get_eq_some_iff.mp found).2]
          exact found
        rw [activeFor_of issued hget]
        -- an inactive user here makes the call an unchecked one
        by_contra hinactive
        rw [Bool.not_eq_true] at hinactive
        have hthrough := (complete_verifyMfa token purpose found mfaEnabled secret valid h).mp ⟨_, rfl⟩
        exact hchecked ⟨payload, u, token, purpose, found, hinactive, mfaEnabled, secret, valid,
          hthrough⟩
      | other issues => cases issues

/-- **Token pairs are for active users.** In every run that starts without issued pairs, each pair
was returned for a user whose stored active flag was true at that time, if and only if no step
completed a login of a user who was not active. -/
theorem issued_active_iff (D : AuthDeployment) (s₀ : AuthStore) {es : List AuthEvent} {a : Ledger}
    (hrun : Run (Ledger.step D) (fun _ _ => True) ⟨s₀, []⟩ es a) :
    (∀ p ∈ a.issued, p.2 = true) ↔
      Run (Ledger.step D) (fun a e => ¬ a.store.Unchecked D e) ⟨s₀, []⟩ es a := by
  -- one step adds the pairs of one call, each noted with whether its user is active
  have hstep : ∀ (a : Ledger) e a', a.step D e = some a' →
      ((∀ p ∈ a'.issued, p.2 = true) ↔
        (∀ p ∈ a.issued, p.2 = true) ∧ ¬ a.store.Unchecked D e) := by
    intro a e a' hs
    cases e with
    | elapse ms =>
      obtain rfl := Option.some_inj.mp hs
      exact ⟨fun h => ⟨h, fun hun => hun⟩, And.left⟩
    | call call ω =>
      obtain ⟨⟨r, s'⟩, hcomplete, rfl⟩ := Option.map_eq_some_iff.mp hs
      rw [← active_iff hcomplete]
      simp only [List.mem_append, List.mem_map, Option.mem_toList]
      constructor
      · intro h
        exact ⟨fun p hp => h p (Or.inl hp), fun pair hpair => h _ (Or.inr ⟨pair, hpair, rfl⟩)⟩
      · rintro ⟨hold, hnew⟩ p (hp | ⟨pair, hpair, rfl⟩)
        · exact hold p hp
        · exact hnew pair hpair
  constructor
  · exact hrun.strengthen (P := fun a => ∀ p ∈ a.issued, p.2 = true)
      fun a e a' _ hs => (hstep a e a' hs).mp
  · intro hchecked
    refine hchecked.invariant (I := fun a => ∀ p ∈ a.issued, p.2 = true)
      (fun p hp => absurd hp List.not_mem_nil) fun a e a' hI hok hs => ?_
    exact (hstep a e a' hs).mpr ⟨hI, hok⟩

end Active

/-! ## A user who is deactivated during a login -/

/-- The events of a login in two steps, with the user deactivated in between. -/
def sampleDeactivated : List AuthEvent :=
  [.call (.login ⟨"ops@acme.test", "secret"⟩) fun _ => .resolves "",
    .call (.usersUpdate "acme" "u" "admin" ⟨none, some false, none, none⟩) fun _ => .resolves "",
    .call (.verifyMfa (some ⟨⟨"u", "acme", .viewer, "ops@acme.test", none, some .mfa⟩, 359⟩) "287082")
      fun _ => .resolves ""]

/-- Without the deactivation, the pair is for an active user. -/
theorem sample_issued_active : ∃ a,
    Run (Ledger.step sampleAuth) (fun _ _ => True) ⟨sampleEnrolled, []⟩
      (sampleDeactivated.eraseIdx 1) a ∧
    a.issued.length = 1 ∧
    ((∀ p ∈ a.issued, p.2 = true) ↔ Run (Ledger.step sampleAuth)
      (fun a e => ¬ a.store.Unchecked sampleAuth e) ⟨sampleEnrolled, []⟩
      (sampleDeactivated.eraseIdx 1) a) := by
  have hrun : Run (Ledger.step sampleAuth) (fun _ _ => True) ⟨sampleEnrolled, []⟩
      (sampleDeactivated.eraseIdx 1) _ := .cons trivial rfl (.single trivial rfl)
  exact ⟨_, hrun, rfl, issued_active_iff sampleAuth sampleEnrolled hrun⟩

/-- The user is deactivated between the two steps of its login, and gets a token pair. -/
theorem deactivated_gets_pair : ∃ a,
    Run (Ledger.step sampleAuth) (fun _ _ => True) ⟨sampleEnrolled, []⟩ sampleDeactivated a ∧
    ∃ p ∈ a.issued, p.2 = false := by
  refine ⟨_, .cons trivial rfl (.cons trivial rfl (.single trivial rfl)), _, List.mem_singleton_self _, ?_⟩
  rfl

end FleetTracking.Auth
