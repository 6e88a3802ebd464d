import FleetTracking.Auth.TokenFamilies

/-!
# Switching the Second Factor Off

`disableMfa` asks for a code of the stored secret. `setupMfa` stores a new secret and switches
the second factor off without one, until the enrollment is confirmed.

1. `SwitchedOff`, `Verified`, `Reenrolls`: what is asked, and the calls that do otherwise.
2. `only_two_switch`: which calls switch a second factor off.
3. `mfa_off_iff`: in every reachable state, the next step asks for a code unless it is such an
   enrollment.
-/

namespace FleetTracking.Auth

open Async ControlPlane Transition

/-- The second factor of the user was on and is off. -/
def AuthStore.SwitchedOff (s s' : AuthStore) (id : String) : Prop :=
  ∃ u u', s.store.users.get id = some u ∧ s'.store.users.get id = some u' ∧
    u.mfaEnabled = true ∧ u'.mfaEnabled = false

/-- The event is an operation of the user that verified a code for the stored secret. -/
def AuthEvent.Verified (D : AuthDeployment) (s : AuthStore) (id : String) (e : AuthEvent) : Prop :=
  ∃ code ω, e = .call (.disableMfa id code) ω ∧ ∃ u secret, s.store.users.get id = some u ∧
    u.mfaSecret = some secret ∧ D.verifyTotp secret code s.now = true

/-- An enrollment of a user whose second factor is on: the user is found, and the update takes
effect. -/
def AuthStore.Reenrolls (s : AuthStore) : AuthEvent → Prop
  | .call (.setupMfa userId) ω => (∃ u, s.store.users.get userId = some u ∧ u.mfaEnabled = true) ∧
      (ω 0).isOk = true ∧ (ω 1).takesEffect = true
  | _ => False

section Switch

variable {D : AuthDeployment} {s s' : AuthStore}

/-- Ids of users are not drawn again. -/
def AuthStore.UserIds (D : AuthDeployment) (s : AuthStore) : Prop :=
  s.store.Unused D.toApiDeployment (s.store.users.rows.map User.id)

theorem userIds_put (h : s.UserIds D) {u : User} (hdrawn : s.store.drawn ≤ s'.store.drawn)
    (hid : s.DrawnId D s' u.id ∨ ∃ row ∈ s.store.users.rows, row.id = u.id)
    (husers : s'.store.users = s.store.users.put u) : s'.UserIds D := by
  intro id hid' n hn
  obtain ⟨row, hrow, rfl⟩ := List.mem_map.mp hid'
  rw [husers] at hrow
  rcases Table.mem_put.mp hrow with rfl | ⟨hrow, -⟩
  · rcases hid with ⟨k, -, hk, hid⟩ | ⟨row', hrow', hid⟩
    · rw [hid]
      intro heq
      have hkn : k = n := D.fresh heq
      omega
    · rw [← hid]
      exact h _ (List.mem_map_of_mem hrow') n (hdrawn.trans hn)
  · exact h _ (List.mem_map_of_mem hrow) n (hdrawn.trans hn)

theorem userIds_move (h : s.UserIds D) {call : AuthCall}
    (hdrawn : s.store.drawn ≤ s'.store.drawn) (hmove : s.UsersMove D s' call) : s'.UserIds D := by
  have hwritten : ∀ {id : String} {row u : User}, s.store.users.get id = some row →
      s'.store.users = s.store.users.put u → row.id = u.id → s'.UserIds D := fun hget husers hid =>
    userIds_put h hdrawn (Or.inr ⟨_, (Table.get_eq_some_iff.mp hget).1, hid⟩) husers
  cases hmove with
  | same users =>
    intro id hid n hn
    rw [users] at hid
    exact h id hid n (hdrawn.trans hn)
  | registered u id tenantId mfaEnabled users => exact userIds_put h hdrawn (Or.inl id) users
  | created u id tenant mfaEnabled users => exact userIds_put h hdrawn (Or.inl id) users
  | updated row found tenant users => exact hwritten found users rfl
  | setUp row secret found users => exact hwritten found users rfl
  | enabled row found users => exact hwritten found users rfl
  | disabled row found may users => exact hwritten found users rfl

theorem userIds_step (h : s.UserIds D) {e : AuthEvent} (hs : s.step D e = some s') :
    s'.UserIds D := by
  rcases step_cases hs with ⟨call, ω, r, rfl, hcomplete⟩ | ⟨ms, rfl, rfl⟩
  · have hleads := leads_of_complete hcomplete
    exact userIds_move h hleads.drawn hleads.users
  · exact h

/-- A row that is written changes the user with its id only. -/
theorem switched_put {u : User} {id : String} (husers : s'.store.users = s.store.users.put u)
    (hoff : s.SwitchedOff s' id) : id = u.id ∧ u.mfaEnabled = false := by
  obtain ⟨row, row', hget, hget', hon, hoff⟩ := hoff
  rw [husers] at hget'
  by_cases hid : id = u.id
  · subst hid
    rw [Table.get_put_self] at hget'
    obtain rfl := Option.some_inj.mp hget'
    exact ⟨rfl, hoff⟩
  · rw [Table.get_put_of_ne hid, hget] at hget'
    obtain rfl := Option.some_inj.mp hget'
    rw [hon] at hoff
    cases hoff

/-- Nothing is switched off by a new user. -/
theorem not_switched_new (h : s.UserIds D) {u : User} (hid : s.DrawnId D s' u.id)
    (husers : s'.store.users = s.store.users.put u) (id : String) : ¬ s.SwitchedOff s' id := by
  intro hoff
  obtain ⟨rfl, -⟩ := switched_put husers hoff
  obtain ⟨row, -, hget, -⟩ := hoff
  obtain ⟨hrow, heq⟩ := Table.get_eq_some_iff.mp hget
  obtain ⟨n, hn, -, hdrawn⟩ := hid
  exact h _ (List.mem_map_of_mem hrow) n hn (heq.trans hdrawn)

/-- **Two calls switch a second factor off**: an enrollment, and `disableMfa` with a code. -/
theorem only_two_switch (h : s.UserIds D) {call : AuthCall} {id : String}
    (hmove : s.UsersMove D s' call) (hoff : s.SwitchedOff s' id) :
    call = .setupMfa id ∨ ∃ code u, call = .disableMfa id code ∧ s.store.users.get id = some u ∧
      u.mfaEnabled = true ∧ AuthService.mayDisable D u code s.now = true := by
  obtain ⟨u, u', hget, hget', hon, hoff'⟩ := hoff
  have hoff : s.SwitchedOff s' id := ⟨u, u', hget, hget', hon, hoff'⟩
  -- one case for each way a call can move the users
  cases hmove with
  | same users =>
    rw [users, hget] at hget'
    obtain rfl := Option.some_inj.mp hget'
    rw [hon] at hoff'
    cases hoff'
  | registered u id tenantId mfaEnabled users => exact absurd hoff (not_switched_new h id users _)
  | created u id tenant mfaEnabled users => exact absurd hoff (not_switched_new h id users _)
  | updated row found tenant users =>
    obtain ⟨hid, hfalse⟩ := switched_put users hoff
    have hrow : row.id = id := hid.symm
    rw [← hrow, (Table.get_eq_some_iff.mp found).2, found] at hget
    obtain rfl := Option.some_inj.mp hget
    rw [show ((UsersService.patchOf D.toApiDeployment _).apply row).mfaEnabled = row.mfaEnabled
      from rfl, hon] at hfalse
    cases hfalse
  | setUp row secret found users =>
    obtain ⟨hid, -⟩ := switched_put users hoff
    exact Or.inl (congrArg _ ((Table.get_eq_some_iff.mp found).2.symm.trans hid.symm))
  | enabled row found users =>
    obtain ⟨-, hfalse⟩ := switched_put users hoff
    cases hfalse
  | @disabled userId code row found may users =>
    obtain ⟨hid, -⟩ := switched_put users hoff
    have huser : userId = id := (Table.get_eq_some_iff.mp found).2.symm.trans hid.symm
    subst huser
    rw [found] at hget
    obtain rfl := Option.some_inj.mp hget
    exact Or.inr ⟨code, row, rfl, found, hon, may⟩

/-- An enrollment, by the outcomes of its two requests. -/
theorem complete_setupMfa {ω : Nat → Outcome} {out : Except ApiError AuthReply × AuthStore}
    {userId : String} {u : User} (hget : s.store.users.get userId = some u)
    (h : s.complete D ω ((AuthCall.setupMfa userId).code D) = some out) :
    out.2.store.users =
      if (ω 0).isOk = true ∧ (ω 1).takesEffect = true then
        s.store.users.put
          { u with mfaSecret := some (D.generateSecret s.randoms), mfaEnabled := false }
      else s.store.users := by
  simp only [AuthStore.complete, AuthCall.code, AuthService.setupMfa, AuthService.mustFind,
    bind_assoc] at h
  cases h0 : ω 0 with
  | rejects e b =>
    rw [exec_rejects h0 rfl] at h
    cases h
    cases b with
    | false => simp [Outcome.isOk]
    | true => simp [Outcome.isOk, AuthStore.effect, Store.effect]
  | resolves reply =>
    rw [exec_resolves h0 rfl] at h
    simp only [AuthStore.answer, Store.answer, hget, pure_bind, AuthStore.effect,
      Store.effect] at h
    rw [exec_step] at h
    -- the store where the secret has been drawn
    have heffect : (AuthStore.effect { s with randoms := s.randoms + 1 } (.usersUpdateMfa userId
        { mfaSecret := some (some (D.generateSecret s.randoms)),
          mfaEnabled := some false })).store.users =
        s.store.users.put
          { u with mfaSecret := some (D.generateSecret s.randoms), mfaEnabled := false } := by
      simp only [AuthStore.effect, hget]
      rfl
    cases h1 : ω 1 with
    | rejects e b =>
      rw [exec_rejects h1 rfl] at h
      cases h
      cases b with
      | false => simp [Outcome.takesEffect, AuthStore.act]
      | true => simpa [Outcome.isOk, Outcome.takesEffect, AuthStore.act] using heffect
    | resolves reply =>
      rw [exec_resolves h1 rfl] at h
      cases h
      simpa [Outcome.isOk, Outcome.takesEffect, AuthStore.act] using heffect

/-- **Switching off takes a code.** In every reachable state, whatever the next step switches off
it switches off with a code for the stored secret, if and only if it is no enrollment of a user
whose second factor is on. -/
theorem mfa_off_iff (D : AuthDeployment) (s₀ : AuthStore) (hids : s₀.UserIds D)
    {es : List AuthEvent} {s : AuthStore}
    (hrun : Run (AuthStore.step D) (fun _ _ => True) s₀ es s) {e : AuthEvent} {s' : AuthStore}
    (hs : s.step D e = some s') :
    (∀ id, s.SwitchedOff s' id → e.Verified D s id) ↔ ¬ s.Reenrolls e := by
  have hids : s.UserIds D :=
    hrun.invariant (I := fun s => s.UserIds D) hids fun _ _ _ h _ hs => userIds_step h hs
  rcases step_cases hs with ⟨call, ω, r, rfl, hcomplete⟩ | ⟨ms, rfl, rfl⟩
  · have hmove := (leads_of_complete hcomplete).users
    constructor
    · intro hall hre
      cases call with
      | setupMfa userId =>
        obtain ⟨⟨u, hget, hon⟩, hread, hwrite⟩ := hre
        have husers := complete_setupMfa hget hcomplete
        rw [if_pos ⟨hread, hwrite⟩] at husers
        have hid : u.id = userId := (Table.get_eq_some_iff.mp hget).2
        obtain ⟨code, ω', hcall, -⟩ := hall userId ⟨u, _, hget, by
          rw [husers, ← hid]
          exact Table.get_put_self, hon, rfl⟩
        cases hcall
      | _ => exact hre
    · intro hre id hoff
      rcases only_two_switch hids hmove hoff with rfl | ⟨code, u, rfl, hget, hon, hmay⟩
      · -- where the requests of an enrollment do not go through, the user is as before
        obtain ⟨u, u', hget, hget', hon, hoff⟩ := hoff
        have husers := complete_setupMfa hget hcomplete
        by_cases hthrough : (ω 0).isOk = true ∧ (ω 1).takesEffect = true
        · exact absurd ⟨⟨u, hget, hon⟩, hthrough⟩ hre
        · rw [if_neg hthrough] at husers
          rw [husers, hget] at hget'
          obtain rfl := Option.some_inj.mp hget'
          rw [hon] at hoff
          cases hoff
      · simp only [AuthService.mayDisable, hon, true_implies, decide_eq_true_eq,
          Option.any_eq_true, Option.filter_eq_some_iff] at hmay
        obtain ⟨secret, ⟨hsecret, -⟩, hvalid⟩ := hmay
        exact ⟨code, ω, rfl, u, secret, hget, hsecret, hvalid⟩
  · constructor
    · exact fun _ hre => hre
    · intro _ id hoff
      obtain ⟨u, u', hget, hget', hon, hoff⟩ := hoff
      rw [show (s.elapse ms).store.users = s.store.users from rfl, hget] at hget'
      obtain rfl := Option.some_inj.mp hget'
      rw [hon] at hoff
      cases hoff

end Switch

/-! ## A user with a second factor -/

/-- A server with one user, whose second factor is on; it is 59 seconds past. -/
def sampleEnrolled : AuthStore :=
  { sampleLogins with
    store.backend.now := 59000
    store.users := Table.empty.put
      ⟨"u", "acme", "ops@acme.test", "secret", .viewer, true, true, some sampleSecret, none⟩ }

theorem sampleEnrolled_ids : sampleEnrolled.UserIds sampleAuth :=
  fun id hid n _ => ne_sampleApi_uuid (by
    have hids : ∀ id ∈ sampleEnrolled.store.users.rows.map User.id, id.toList.all (· = 'x') = false := by
      decide
    exact hids id hid) n

/-- `disableMfa` switches off, with a code. -/
theorem sample_mfa_off : ∃ s', sampleEnrolled.step sampleAuth
      (.call (.disableMfa "u" "287082") fun _ => .resolves "") = some s' ∧
    sampleEnrolled.SwitchedOff s' "u" ∧
    ((∀ id, sampleEnrolled.SwitchedOff s' id →
      AuthEvent.Verified sampleAuth sampleEnrolled id
        (.call (.disableMfa "u" "287082") fun _ => .resolves "")) ↔
      ¬ sampleEnrolled.Reenrolls (.call (.disableMfa "u" "287082") fun _ => .resolves "")) := by
  have hstep : sampleEnrolled.step sampleAuth
      (.call (.disableMfa "u" "287082") fun _ => .resolves "") = some _ := rfl
  exact ⟨_, hstep, ⟨_, _, rfl, rfl, rfl, rfl⟩,
    mfa_off_iff sampleAuth sampleEnrolled sampleEnrolled_ids .nil hstep⟩

/-- `setupMfa` switches off as well, and asks for no code. -/
theorem setup_switches_off : ∃ s', sampleEnrolled.step sampleAuth
      (.call (.setupMfa "u") fun _ => .resolves "") = some s' ∧
    sampleEnrolled.SwitchedOff s' "u" ∧
    ¬ AuthEvent.Verified sampleAuth sampleEnrolled "u" (.call (.setupMfa "u") fun _ => .resolves "") := by
  refine ⟨_, rfl, ⟨_, _, rfl, rfl, rfl, rfl⟩, fun hverified => ?_⟩
  obtain ⟨code, ω, hcall, -⟩ := hverified
  cases hcall

end FleetTracking.Auth
