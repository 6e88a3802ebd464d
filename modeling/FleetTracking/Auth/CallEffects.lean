import FleetTracking.Auth.AuthRules
import FleetTracking.ControlPlane.TenantStores

/-!
# What a Call of the Logins Does

One inversion lemma for every call of `AuthService` and `UsersService`, whatever the outcomes of
its requests: what it may have done to the users and to the refresh tokens, and what it takes
to get the reply.

1. `Drew`, `Minted`: ids are drawn, and a token pair is issued.
2. `TokensMove`, `UsersMove`, `Earned`: the three parts of the lemma.
3. `leads_call`: the lemma, from one for each operation.
-/

namespace FleetTracking.Auth

open Async ControlPlane

/-! ## Issuing tokens -/

/-- What an access token of a user says. -/
def payloadOf (user : User) : JwtPayload :=
  { sub := user.id, tenantId := user.tenantId, role := user.role, email := user.email
    departmentId := user.departmentId, purpose := none }

/-- What the token for the second factor of a user says. -/
def mfaPayloadOf (user : User) : JwtPayload :=
  { sub := user.id, tenantId := user.tenantId, role := user.role, email := user.email
    departmentId := none, purpose := some .mfa }

/-- Ids and random bytes may have been drawn; the users and the tokens are as before. -/
structure AuthStore.Drew (s s' : AuthStore) : Prop where
  users : s'.store.users = s.store.users
  refreshTokens : s'.refreshTokens = s.refreshTokens
  now : s'.now = s.now
  drawn : s.store.drawn ≤ s'.store.drawn
  randoms : s.randoms ≤ s'.randoms

theorem AuthStore.Drew.refl (s : AuthStore) : s.Drew s := ⟨rfl, rfl, rfl, le_rfl, le_rfl⟩

/-- An id that was drawn between the two states. -/
def AuthStore.DrawnId (D : AuthDeployment) (s s' : AuthStore) (id : String) : Prop :=
  ∃ n, s.store.drawn ≤ n ∧ n < s'.store.drawn ∧ id = D.uuid n

/-- A token that was drawn between the two states. -/
def AuthStore.DrawnToken (D : AuthDeployment) (s s' : AuthStore) (token : String) : Prop :=
  ∃ n, s.randoms ≤ n ∧ n < s'.randoms ∧ token = D.token n

theorem AuthStore.DrawnId.mono {D : AuthDeployment} {s₁ s₂ s₃ s₄ : AuthStore} {id : String}
    (h : s₂.DrawnId D s₃ id) (hle : s₁.store.drawn ≤ s₂.store.drawn)
    (hle' : s₃.store.drawn ≤ s₄.store.drawn) : s₁.DrawnId D s₄ id := by
  obtain ⟨n, hn, hn', rfl⟩ := h
  exact ⟨n, hle.trans hn, hn'.trans_le hle', rfl⟩

theorem AuthStore.DrawnToken.mono {D : AuthDeployment} {s₁ s₂ s₃ s₄ : AuthStore} {token : String}
    (h : s₂.DrawnToken D s₃ token) (hle : s₁.randoms ≤ s₂.randoms)
    (hle' : s₃.randoms ≤ s₄.randoms) : s₁.DrawnToken D s₄ token := by
  obtain ⟨n, hn, hn', rfl⟩ := h
  exact ⟨n, hle.trans hn, hn'.trans_le hle', rfl⟩

/-- The pair was issued to the user, with `t` as the record of its refresh token. -/
structure AuthStore.Minted (D : AuthDeployment) (s : AuthStore) (user : User)
    (familyId : Option String) (t : RefreshToken) (pair : TokenPair) (s' : AuthStore) : Prop where
  users : s'.store.users = s.store.users
  now : s'.now = s.now
  drawn : s.store.drawn ≤ s'.store.drawn
  randoms : s.randoms ≤ s'.randoms
  refreshTokens : s'.refreshTokens = s.refreshTokens.put t
  id : s.DrawnId D s' t.id
  userId : t.userId = user.id
  tokenHash : t.tokenHash = D.hashToken pair.refreshToken
  live : t.live = true
  family : ∀ familyId', familyId = some familyId' → t.familyId = familyId'
  newFamily : familyId = none → s.DrawnId D s' t.familyId
  accessToken : pair.accessToken.payload = payloadOf user
  refreshToken : s.DrawnToken D s' pair.refreshToken

section Issue

variable {D : AuthDeployment} {may : Outcome → Prop} {β : Type} {s : AuthStore} {user : User}
  {Q : Except ApiError β → AuthStore → Prop}

/-- The record of the next refresh token. -/
def AuthStore.nextToken (D : AuthDeployment) (s : AuthStore) (user : User) (familyId : String) :
    RefreshToken where
  id := D.uuid s.store.drawn
  userId := user.id
  tokenHash := D.hashToken (D.token s.randoms)
  familyId := familyId
  expiresAt := s.now + D.refreshDays * 86400000
  usedAt := none
  revokedAt := none

/-- A pair is issued for a login chain, or an error ends the call, with or without a record. -/
theorem ends_issueTokensIn {familyId : String} {f : TokenPair → AuthM β}
    (hok : ∀ t pair s', s.Minted D user (some familyId) t pair s' →
      AuthStore.Ends D may Q (f pair) s')
    (herr : ∀ e s', s.Drew s' → Q (.error e) s')
    (hlate : ∀ t pair e s', s.Minted D user (some familyId) t pair s' → Q (.error e) s') :
    AuthStore.Ends D may Q (AuthService.issueTokensIn D user familyId >>= f) s := by
  simp only [AuthService.issueTokensIn, AuthService.accessToken, AuthService.sign, bind_assoc,
    pure_bind]
  -- two draws and the clock, then the one insert
  refine ends_step (ends_step (ends_step ?_))
  have hminted : s.Minted D user (some familyId) (s.nextToken D user familyId)
      ⟨⟨payloadOf user, s.now / 1000 + D.jwtExpiresIn⟩, D.token s.randoms⟩
      { s with
        store.drawn := s.store.drawn + 1
        randoms := s.randoms + 1
        refreshTokens := s.refreshTokens.put (s.nextToken D user familyId) } :=
    { users := rfl
      now := rfl
      drawn := Nat.le_succ _
      randoms := Nat.le_succ _
      refreshTokens := rfl
      id := ⟨_, le_rfl, Nat.lt_succ_self _, rfl⟩
      userId := rfl
      tokenHash := rfl
      live := rfl
      family := fun _ h => Option.some_inj.mp h
      newFamily := fun h => nomatch h
      accessToken := rfl
      refreshToken := ⟨_, le_rfl, Nat.lt_succ_self _, rfl⟩ }
  -- an insert that rejects may have been stored all the same
  refine ends_write rfl (fun _ => ends_step ?_) (fun e _ => ?_) fun e _ => ?_
  · exact hok _ _ _ hminted
  · exact herr e _ ⟨rfl, rfl, rfl, Nat.le_succ _, Nat.le_succ _⟩
  · exact hlate _ _ e _ hminted

/-- A pair is issued for a new login chain. -/
theorem ends_issueTokens {f : TokenPair → AuthM β}
    (hok : ∀ t pair s', s.Minted D user none t pair s' → AuthStore.Ends D may Q (f pair) s')
    (herr : ∀ e s', s.Drew s' → Q (.error e) s')
    (hlate : ∀ t pair e s', s.Minted D user none t pair s' → Q (.error e) s') :
    AuthStore.Ends D may Q (AuthService.issueTokens D user none >>= f) s := by
  have hnew : ∀ t pair s', AuthStore.Minted D { s with store.drawn := s.store.drawn + 1 } user
      (some (D.uuid s.store.drawn)) t pair s' → s.Minted D user none t pair s' := by
    intro t pair s' h
    have hle : s.store.drawn + 1 ≤ s'.store.drawn := h.drawn
    have hfamily : t.familyId = D.uuid s.store.drawn := h.family _ rfl
    exact { h with
      drawn := Nat.le_of_succ_le hle
      id := h.id.mono (Nat.le_succ _) le_rfl
      family := fun _ hnone => nomatch hnone
      newFamily := fun _ => ⟨_, le_rfl, hle, hfamily⟩ }
  simp only [AuthService.issueTokens, bind_assoc]
  refine ends_step (ends_issueTokensIn (fun t pair s' h => ?_) (fun e s' h => ?_)
    fun t pair e s' h => ?_)
  · exact hok t pair s' (hnew t pair s' h)
  · exact herr e s' ⟨h.users, h.refreshTokens, h.now, Nat.le_of_succ_le h.drawn, h.randoms⟩
  · exact hlate t pair e s' (hnew t pair s' h)

end Issue

/-! ## What a call may do -/

/-- The record of a refresh token that may be exchanged. -/
structure AuthStore.Exchangeable (s : AuthStore) (record : RefreshToken) : Prop where
  mem : record ∈ s.refreshTokens.rows
  live : record.live = true
  unexpired : s.now < record.expiresAt
  user : ∃ user, s.store.users.get record.userId = some user ∧ user.active = true

/-- A record of a token that was drawn in the call. -/
structure AuthStore.NewToken (D : AuthDeployment) (s s' : AuthStore) (t : RefreshToken) : Prop where
  id : s.DrawnId D s' t.id
  live : t.live = true
  tokenHash : ∃ token, s.DrawnToken D s' token ∧ t.tokenHash = D.hashToken token

/-- What a call may do to the refresh tokens. -/
inductive AuthStore.TokensMove (D : AuthDeployment) (s s' : AuthStore) : Prop where
  | same (tokens : s'.refreshTokens = s.refreshTokens)
  -- A new login chain.
  | minted (t : RefreshToken) (new : s.NewToken D s' t) (family : s.DrawnId D s' t.familyId)
      (tokens : s'.refreshTokens = s.refreshTokens.put t)
  -- A token is spent; an error comes before the next one.
  | spent (record : RefreshToken) (exchangeable : s.Exchangeable record)
      (tokens : s'.refreshTokens = RefreshTokenTable.markUsed s.refreshTokens record.id s.now)
  | rotated (record t : RefreshToken) (exchangeable : s.Exchangeable record)
      (new : s.NewToken D s' t) (family : t.familyId = record.familyId)
      (userId : t.userId = record.userId)
      (tokens : s'.refreshTokens =
        (RefreshTokenTable.markUsed s.refreshTokens record.id s.now).put t)
  | revoked (record : RefreshToken) (mem : record ∈ s.refreshTokens.rows)
      (tokens : s'.refreshTokens =
        RefreshTokenTable.revokeFamily s.refreshTokens record.familyId s.now)

/-- What a call may do to the users. -/
inductive AuthStore.UsersMove (D : AuthDeployment) (s s' : AuthStore) : AuthCall → Prop where
  | same {call : AuthCall} (users : s'.store.users = s.store.users) : UsersMove D s s' call
  | registered {dto : RegisterTenantDto} (u : User) (id : s.DrawnId D s' u.id)
      (tenantId : s.DrawnId D s' u.tenantId) (mfaEnabled : u.mfaEnabled = false)
      (users : s'.store.users = s.store.users.put u) : UsersMove D s s' (.registerTenant dto)
  | created {tenantId : String} {dto : CreateUserDto} (u : User) (id : s.DrawnId D s' u.id)
      (tenant : u.tenantId = tenantId) (mfaEnabled : u.mfaEnabled = false)
      (users : s'.store.users = s.store.users.put u) : UsersMove D s s' (.usersCreate tenantId dto)
  | updated {tenantId id actingUserId : String} {dto : UpdateUserDto} (row : User)
      (found : s.store.users.get id = some row) (tenant : row.tenantId = tenantId)
      (users : s'.store.users = s.store.users.put
        ((UsersService.patchOf D.toApiDeployment dto).apply row)) :
      UsersMove D s s' (.usersUpdate tenantId id actingUserId dto)
  | setUp {userId : String} (row : User) (secret : String)
      (found : s.store.users.get userId = some row)
      (users : s'.store.users = s.store.users.put
        { row with mfaSecret := some secret, mfaEnabled := false }) :
      UsersMove D s s' (.setupMfa userId)
  | enabled {userId code : String} (row : User)
      (found : s.store.users.get userId = some row)
      (users : s'.store.users = s.store.users.put { row with mfaEnabled := true }) :
      UsersMove D s s' (.enableMfa userId code)
  | disabled {userId code : String} (row : User)
      (found : s.store.users.get userId = some row)
      (may : AuthService.mayDisable D row code s.now = true)
      (users : s'.store.users = s.store.users.put
        { row with mfaSecret := none, mfaEnabled := false }) :
      UsersMove D s s' (.disableMfa userId code)

/-- The pair is one of the user. -/
structure AuthStore.Issued (D : AuthDeployment) (s' : AuthStore) (user : User) (pair : TokenPair) :
    Prop where
  accessToken : pair.accessToken.payload = payloadOf user
  refreshToken : ∃ t ∈ s'.refreshTokens.rows, t.tokenHash = D.hashToken pair.refreshToken ∧
    t.userId = user.id

/-- What it takes to get a reply. -/
inductive AuthStore.Earned (D : AuthDeployment) (s s' : AuthStore) : AuthCall → AuthReply → Prop where
  | registered {dto : RegisterTenantDto} {tenant : Tenant} {pair : TokenPair} (u : User)
      (active : u.active = true) (tenantId : s.DrawnId D s' u.tenantId)
      (row : s'.store.users.get u.id = some u) (issued : s'.Issued D u pair) :
      Earned D s s' (.registerTenant dto) (.registered tenant pair)
  | login {dto : LoginDto} {pair : TokenPair} (u : User)
      (found : u ∈ s.store.users.rows) (email : u.email = dto.email) (active : u.active = true)
      (password : D.verifyPassword dto.password u.passwordHash = true)
      (single : u.mfaEnabled = false) (issued : s'.Issued D u pair) :
      Earned D s s' (.login dto) (.tokens pair)
  | challenged {dto : LoginDto} (u : User)
      (found : u ∈ s.store.users.rows) (email : u.email = dto.email) (active : u.active = true)
      (password : D.verifyPassword dto.password u.passwordHash = true) :
      Earned D s s' (.login dto) (.mfaRequired ⟨mfaPayloadOf u, s.now / 1000 + 300⟩)
  | verified {mfaToken : Option Jwt} {code : String} {pair : TokenPair} (payload : JwtPayload)
      (u : User) (token : verify s.now mfaToken = some payload)
      (purpose : payload.purpose = some .mfa)
      (found : s.store.users.get payload.sub = some u) (mfaEnabled : u.mfaEnabled = true)
      (secret : u.mfaSecret.any truthy = true)
      (valid : D.verifyTotp (u.mfaSecret.getD "") code s.now = true) (issued : s'.Issued D u pair) :
      Earned D s s' (.verifyMfa mfaToken code) (.tokens pair)
  | refreshed {refreshToken : String} {pair : TokenPair} (record : RefreshToken) (u : User)
      (hash : record.tokenHash = D.hashToken refreshToken)
      (exchangeable : s.Exchangeable record)
      (found : s.store.users.get record.userId = some u) (active : u.active = true)
      (issued : s'.Issued D u pair) : Earned D s s' (.refresh refreshToken) (.tokens pair)
  -- The other replies hold no tokens.
  | other {call : AuthCall} {reply : AuthReply} (issues : call.issues = false)
      (pair : reply.pair = none) (challenge : ∀ mfaToken, reply ≠ .mfaRequired mfaToken) : Earned D s s' call reply

/-- What a call may have done where it ends with the result `r`. -/
structure AuthCall.Leads (D : AuthDeployment) (s : AuthStore) (call : AuthCall)
    (r : Except ApiError AuthReply) (s' : AuthStore) : Prop where
  now : s'.now = s.now
  drawn : s.store.drawn ≤ s'.store.drawn
  randoms : s.randoms ≤ s'.randoms
  tokens : s.TokensMove D s'
  users : s.UsersMove D s' call
  reply : ∀ reply, r = .ok reply → s.Earned D s' call reply

theorem RefreshTokenTable.findByHash_eq_some {t : RefreshTokenTable} {hash : String}
    {record : RefreshToken} (h : RefreshTokenTable.findByHash t hash = some record) :
    record ∈ t.rows ∧ record.tokenHash = hash :=
  ⟨List.mem_of_find?_eq_some h, by simpa using List.find?_some h⟩

/-- A token for the second factor that verifies. -/
theorem mfaUser_eq_ok {now : Nat} {mfaToken : Option Jwt} {sub : String}
    (h : AuthService.mfaUser now mfaToken = .ok sub) :
    ∃ payload, verify now mfaToken = some payload ∧ payload.purpose = some .mfa ∧
      payload.sub = sub := by
  unfold AuthService.mfaUser at h
  split at h
  · cases h
  · rename_i payload hverify
    split at h
    · rename_i hpurpose
      exact ⟨payload, hverify, hpurpose, Except.ok.inj h⟩
    · cases h

section Leads

variable {D : AuthDeployment} {s s' : AuthStore} {call : AuthCall}

/-- An error before anything is written. -/
theorem leads_error (h : s.Drew s') (e : ApiError) : call.Leads D s (.error e) s' :=
  ⟨h.now, h.drawn, h.randoms, .same h.refreshTokens, .same h.users, fun _ h => nomatch h⟩

/-- A reply without tokens. -/
theorem leads_reply (h : s.Drew s') {reply : AuthReply} (hissues : call.issues = false) (hpair : reply.pair = none)
    (hchallenge : ∀ mfaToken, reply ≠ .mfaRequired mfaToken) : call.Leads D s (.ok reply) s' :=
  ⟨h.now, h.drawn, h.randoms, .same h.refreshTokens, .same h.users, fun _ h =>
    Except.ok.inj h ▸ .other hissues hpair hchallenge⟩

/-- A pair of a new login chain, or an error after its record was written. -/
theorem leads_minted {user : User} {t : RefreshToken} {pair : TokenPair}
    {r : Except ApiError AuthReply} (h : s.Minted D user none t pair s')
    (hreply : s'.Issued D user pair → ∀ reply, r = .ok reply → s.Earned D s' call reply) :
    call.Leads D s r s' where
  now := h.now
  drawn := h.drawn
  randoms := h.randoms
  tokens := .minted t ⟨h.id, h.live, _, h.refreshToken, h.tokenHash⟩ (h.newFamily rfl)
    h.refreshTokens
  users := .same h.users
  reply := hreply ⟨h.accessToken, t, by rw [h.refreshTokens]; exact Table.mem_put.mpr (Or.inl rfl),
    h.tokenHash, h.userId⟩

theorem leads_login (dto : LoginDto) :
    AuthStore.Ends D (fun _ => True) (fun r s' => (AuthCall.login dto).Leads D s r s')
      ((AuthCall.login dto).code D) s := by
  simp only [AuthCall.code, AuthService.login, bind_assoc]
  refine ends_read rfl rfl (fun _ => ?_) fun e => leads_error (.refl s) e
  simp only [AuthStore.answer, Store.answer]
  -- the row is dropped when it is inactive or the password is wrong: both answer the same
  cases hfound : (s.store.users.rows.find? fun u => u.email = dto.email).filter fun user =>
      user.active ∧ D.verifyPassword dto.password user.passwordHash with
  | none => exact leads_error (.refl s) _
  | some user =>
    obtain ⟨hfind, hmay⟩ := Option.filter_eq_some_iff.mp hfound
    have hmem : user ∈ s.store.users.rows := List.mem_of_find?_eq_some hfind
    have hemail : user.email = dto.email := by simpa using List.find?_some hfind
    simp only [decide_eq_true_eq] at hmay
    simp only
    split
    case isTrue =>
      simp only [AuthService.sign, bind_assoc, pure_bind]
      refine ends_step ⟨rfl, le_rfl, le_rfl, .same rfl, .same rfl, fun reply hreply => ?_⟩
      cases hreply
      -- with the second factor on, only the challenge is signed
      exact .challenged user hmem hemail hmay.1 hmay.2
    case isFalse hsingle =>
      simp only [bind_assoc]
      refine ends_issueTokens (fun t pair s' h => ?_) (fun e s' h => leads_error h e)
        fun t pair e s' h => leads_minted h fun _ _ hreply => by cases hreply
      refine leads_minted h fun hissued reply hreply => ?_
      cases hreply
      exact .login user hmem hemail hmay.1 hmay.2 (by simpa using hsingle) hissued

theorem leads_verifyMfa (mfaToken : Option Jwt) (code : String) :
    AuthStore.Ends D (fun _ => True) (fun r s' => (AuthCall.verifyMfa mfaToken code).Leads D s r s')
      ((AuthCall.verifyMfa mfaToken code).code D) s := by
  simp only [AuthCall.code, AuthService.verifyMfa, bind_assoc]
  refine ends_now ?_
  cases hsub : AuthService.mfaUser s.now mfaToken with
  | error e => exact leads_error (.refl s) e
  | ok sub =>
    obtain ⟨payload, htoken, hpurpose, rfl⟩ := mfaUser_eq_ok hsub
    refine ends_read rfl rfl (fun _ => ?_) fun e => leads_error (.refl s) e
    simp only [AuthStore.answer, Store.answer]
    cases hfound : (s.store.users.get payload.sub).filter fun user =>
        user.mfaEnabled ∧ user.mfaSecret.any truthy with
    | none => exact leads_error (.refl s) _
    | some user =>
      obtain ⟨hget, hmay⟩ := Option.filter_eq_some_iff.mp hfound
      simp only [decide_eq_true_eq] at hmay
      simp only [bind_assoc]
      refine ends_now ?_
      split
      case isTrue hvalid =>
        refine ends_issueTokens (fun t pair s' h => ?_) (fun e s' h => leads_error h e)
          fun t pair e s' h => leads_minted h fun _ _ hreply => by cases hreply
        refine leads_minted h fun hissued reply hreply => ?_
        cases hreply
        exact .verified payload user htoken hpurpose hget hmay.1 hmay.2 hvalid hissued
      case isFalse => exact leads_error (.refl s) _

/-- A pair of the same login chain, or an error after the old token was spent. -/
theorem leads_rotated {refreshToken : String} {record : RefreshToken} {now : Nat} {user : User}
    (hnow : now = s.now) (hex : s.Exchangeable record)
    (hhash : record.tokenHash = D.hashToken refreshToken)
    (hget : s.store.users.get record.userId = some user) (hactive : user.active = true) :
    AuthStore.Ends D (fun _ => True)
      (fun r s' => (AuthCall.refresh refreshToken).Leads D s r s')
      (AuthService.issueTokens D user (some record.familyId) >>= fun pair => pure (.tokens pair))
      (s.effect (.refreshTokensMarkUsed record.id now)) := by
  subst hnow
  -- until the new pair is stored the old record is only spent
  have hspent : ∀ {s'}, (s.effect (.refreshTokensMarkUsed record.id s.now)).Drew s' → ∀ e,
      (AuthCall.refresh refreshToken).Leads D s (.error e) s' := fun h e =>
    ⟨h.now, h.drawn, h.randoms, .spent record hex h.refreshTokens, .same h.users,
      fun _ hreply => nomatch hreply⟩
  have huser : user.id = record.userId := (Table.get_eq_some_iff.mp hget).2
  -- with it the old record is rotated into the new one of the same family
  have hminted : ∀ {t pair s' r},
      (s.effect (.refreshTokensMarkUsed record.id s.now)).Minted D user (some record.familyId) t
        pair s' → (∀ reply, r = .ok reply → reply = .tokens pair) →
      (AuthCall.refresh refreshToken).Leads D s r s' := by
    intro t pair s' r h hreply
    refine ⟨h.now, h.drawn, h.randoms, .rotated record t hex
      ⟨h.id, h.live, _, h.refreshToken, h.tokenHash⟩ (h.family _ rfl) (h.userId.trans huser)
      h.refreshTokens, .same h.users, fun reply hr => ?_⟩
    rw [hreply reply hr]
    refine .refreshed record user hhash hex hget hactive ⟨h.accessToken, t, ?_, h.tokenHash,
      h.userId⟩
    rw [h.refreshTokens]
    exact Table.mem_put.mpr (Or.inl rfl)
  simp only [AuthService.issueTokens]
  refine ends_issueTokensIn (fun t pair s' h => ?_) (fun e s' h => hspent h e)
    fun t pair e s' h => hminted h fun _ hreply => nomatch hreply
  exact hminted h fun _ hreply => (Except.ok.inj hreply).symm

theorem leads_refresh (refreshToken : String) :
    AuthStore.Ends D (fun _ => True) (fun r s' => (AuthCall.refresh refreshToken).Leads D s r s')
      ((AuthCall.refresh refreshToken).code D) s := by
  simp only [AuthCall.code, AuthService.refresh, bind_assoc]
  refine ends_read rfl rfl (fun _ => ?_) fun e => leads_error (.refl s) e
  simp only [AuthStore.answer]
  cases hfound : RefreshTokenTable.findByHash s.refreshTokens (D.hashToken refreshToken) with
  | none => exact leads_error (.refl s) _
  | some record =>
    obtain ⟨hmem, hhash⟩ := RefreshTokenTable.findByHash_eq_some hfound
    simp only [bind_assoc]
    refine ends_now ?_
    split
    case isTrue =>
      simp only [bind_assoc]
      -- a record used before revokes its whole family and answers an error
      have hrevoked : ∀ r, (∀ reply, r ≠ .ok reply) → (AuthCall.refresh refreshToken).Leads D s r
          (s.effect (.refreshTokensRevokeFamily record.familyId s.now)) := fun r hr =>
        ⟨rfl, le_rfl, le_rfl, .revoked record hmem rfl, .same rfl, fun reply h => absurd h (hr reply)⟩
      exact ends_write rfl (fun _ => hrevoked _ fun _ h => nomatch h)
        (fun e _ => leads_error (.refl s) e) fun e _ => hrevoked _ fun _ h => nomatch h
    case isFalse hused =>
      split
      case isTrue => exact leads_error (.refl s) _
      case isFalse hrevoked =>
        split
        case isTrue => exact leads_error (.refl s) _
        case isFalse hexpired =>
          -- used, revoked and expired are excluded now; what is left is the user's row
          have hunexpired : s.now < record.expiresAt := Nat.lt_of_not_le hexpired
          simp only [AuthService.rotate, bind_assoc]
          refine ends_read rfl rfl (fun _ => ?_) fun e => leads_error (.refl s) e
          simp only [AuthStore.answer, Store.answer]
          cases huser : (s.store.users.get record.userId).filter User.active with
          | none => exact leads_error (.refl s) _
          | some user =>
            obtain ⟨hget, hactive⟩ := Option.filter_eq_some_iff.mp huser
            have hlive : record.live = true := by
              simp only [Bool.not_eq_true, Option.isSome_eq_false_iff, Option.isNone_iff_eq_none]
                at hused hrevoked
              simp [RefreshToken.live, hused, hrevoked]
            have hex : s.Exchangeable record := ⟨hmem, hlive, hunexpired, user, hget, hactive⟩
            simp only [bind_assoc]
            refine ends_write rfl (fun _ => leads_rotated rfl hex hhash hget hactive)
              (fun e _ => leads_error (.refl s) e) fun e _ => ?_
            exact ⟨rfl, le_rfl, le_rfl, .spent record hex rfl, .same rfl, fun _ h => nomatch h⟩

theorem leads_logout (refreshToken : String) :
    AuthStore.Ends D (fun _ => True) (fun r s' => (AuthCall.logout refreshToken).Leads D s r s')
      ((AuthCall.logout refreshToken).code D) s := by
  simp only [AuthCall.code, AuthService.logout, bind_assoc]
  refine ends_read rfl rfl (fun _ => ?_) fun e => leads_error (.refl s) e
  simp only [AuthStore.answer]
  cases hfound : RefreshTokenTable.findByHash s.refreshTokens (D.hashToken refreshToken) with
  | none => exact leads_reply (.refl s) rfl rfl fun _ h => nomatch h
  | some record =>
    obtain ⟨hmem, hhash⟩ := RefreshTokenTable.findByHash_eq_some hfound
    simp only [bind_assoc]
    refine ends_now ?_
    have hrevoked : ∀ r, (∀ reply, r = .ok reply → reply = .success) →
        (AuthCall.logout refreshToken).Leads D s r
          (s.effect (.refreshTokensRevokeFamily record.familyId s.now)) := fun r hr =>
      ⟨rfl, le_rfl, le_rfl, .revoked record hmem rfl, .same rfl, fun reply h =>
        hr reply h ▸ .other rfl rfl fun _ h => nomatch h⟩
    exact ends_write rfl (fun _ => hrevoked _ fun _ h => (Except.ok.inj h).symm)
      (fun e _ => leads_error (.refl s) e) fun e _ => hrevoked _ fun _ h => nomatch h

theorem leads_registerTenant (dto : RegisterTenantDto) :
    AuthStore.Ends D (fun _ => True) (fun r s' => (AuthCall.registerTenant dto).Leads D s r s')
      ((AuthCall.registerTenant dto).code D) s := by
  simp only [AuthCall.code, AuthService.registerTenant, bind_assoc]
  refine ends_read rfl rfl (fun _ => ?_) fun e => leads_error (.refl s) e
  split
  case isTrue => exact leads_error (.refl s) _
  case isFalse =>
    simp only [bind_assoc]
    -- two ids are drawn: the tenant's and the user's
    let admin : User :=
      { id := D.uuid (s.store.drawn + 1), tenantId := D.uuid s.store.drawn, email := dto.adminEmail
        passwordHash := D.hashPassword dto.password, role := .admin, active := true
        mfaEnabled := false, mfaSecret := none, departmentId := none }
    have hid : ∀ {s' : AuthStore}, s.store.drawn + 2 ≤ s'.store.drawn →
        s.DrawnId D s' admin.id ∧ s.DrawnId D s' admin.tenantId := fun h =>
      ⟨⟨_, Nat.le_succ _, h, rfl⟩, ⟨_, le_rfl, Nat.lt_of_succ_lt h, rfl⟩⟩
    -- the user is stored: from here on, an error may come before or after the tokens
    have hstored : ∀ {s' : AuthStore} {r}, s'.now = s.now → s.store.drawn + 2 ≤ s'.store.drawn →
        s.randoms ≤ s'.randoms → s.TokensMove D s' → s'.store.users = s.store.users.put admin →
        (∀ reply, r = .ok reply → s.Earned D s' (.registerTenant dto) reply) →
        (AuthCall.registerTenant dto).Leads D s r s' :=
      fun hnow hdrawn hrandoms htokens husers hreply =>
        ⟨hnow, (Nat.le_add_right _ 2).trans hdrawn, hrandoms, htokens,
          .registered admin (hid hdrawn).1 (hid hdrawn).2 rfl husers, hreply⟩
    have hminted : ∀ {s₁ s' : AuthStore} {t pair}, s₁.Minted D admin none t pair s' →
        s.store.drawn ≤ s₁.store.drawn → s₁.randoms = s.randoms →
        s₁.refreshTokens = s.refreshTokens → s.TokensMove D s' := by
      intro s₁ s' t pair h hdrawn hrandoms htokens
      refine .minted t ⟨h.id.mono hdrawn le_rfl, h.live, _, h.refreshToken.mono hrandoms.ge le_rfl,
        h.tokenHash⟩ ((h.newFamily rfl).mono hdrawn le_rfl) ?_
      rw [h.refreshTokens, htokens]
    refine ends_step (ends_write rfl (fun _ => ends_step (ends_write rfl (fun _ => ?_)
      (fun e _ => ?_) fun e _ => ?_)) (fun e _ => ?_) fun e _ => ?_)
    · refine @ends_issueTokens D _ _ _ admin _ _ (fun t pair s' h => ?_) (fun e s' h => ?_)
        fun t pair e s' h => ?_
      · refine hstored h.now h.drawn h.randoms (hminted h (Nat.le_add_right _ 2) rfl rfl) h.users
          fun reply hreply => ?_
        cases hreply
        refine .registered admin rfl (hid h.drawn).2 ?_ ⟨h.accessToken, t, ?_, h.tokenHash, h.userId⟩
        · rw [h.users]
          exact Table.get_put_self
        · rw [h.refreshTokens]
          exact Table.mem_put.mpr (Or.inl rfl)
      · exact hstored h.now h.drawn h.randoms (.same h.refreshTokens) h.users
          fun _ hreply => nomatch hreply
      · exact hstored h.now h.drawn h.randoms (hminted h (Nat.le_add_right _ 2) rfl rfl) h.users
          fun _ hreply => nomatch hreply
    · exact leads_error (by exact ⟨rfl, rfl, rfl, Nat.le_add_right _ 2, le_rfl⟩) e
    · exact hstored rfl le_rfl le_rfl (.same rfl) rfl fun _ hreply => nomatch hreply
    · exact leads_error (by exact ⟨rfl, rfl, rfl, Nat.le_succ _, le_rfl⟩) e
    · exact leads_error (by exact ⟨rfl, rfl, rfl, Nat.le_succ _, le_rfl⟩) e

/-! ## The second factor -/

theorem ends_mustFind {β : Type} {may : Outcome → Prop} {userId : String} {f : User → AuthM β}
    {Q : Except ApiError β → AuthStore → Prop}
    (hok : ∀ row, s.store.users.get userId = some row → AuthStore.Ends D may Q (f row) s)
    (herr : ∀ e, Q (.error e) s) :
    AuthStore.Ends D may Q (AuthService.mustFind userId >>= f) s := by
  simp only [AuthService.mustFind, bind_assoc]
  refine ends_read rfl rfl (fun _ => ?_) herr
  simp only [AuthStore.answer, Store.answer]
  cases hfound : s.store.users.get userId with
  | none => exact herr _
  | some row => exact hok row hfound

/-- The fields of the second factor of a user are written. -/
theorem ends_usersUpdateMfa {β : Type} {may : Outcome → Prop} {userId : String} {row : User}
    {patch : MfaPatch} {f : Option User → AuthM β} {Q : Except ApiError β → AuthStore → Prop}
    (hfound : s.store.users.get userId = some row)
    (hok : ∀ u, AuthStore.Ends D may Q (f u)
      { s with store.users := s.store.users.put (patch.apply row) })
    (herr : ∀ e, Q (.error e) s)
    (hlate : ∀ e, Q (.error e) { s with store.users := s.store.users.put (patch.apply row) }) :
    AuthStore.Ends D may Q (request (.usersUpdateMfa userId patch) >>= f) s := by
  have heffect : s.effect (.usersUpdateMfa userId patch) =
      { s with store.users := s.store.users.put (patch.apply row) } := by
    simp only [AuthStore.effect, hfound]
  refine ends_write rfl (fun _ => ?_) (fun e _ => herr e) fun e _ => ?_
  · rw [heffect]
    exact hok _
  · rw [heffect]
    exact hlate e

/-- The fields of the second factor were written. -/
theorem leads_users {r : Except ApiError AuthReply} (hnow : s'.now = s.now)
    (hdrawn : s.store.drawn ≤ s'.store.drawn) (hrandoms : s.randoms ≤ s'.randoms)
    (htokens : s'.refreshTokens = s.refreshTokens) (husers : s.UsersMove D s' call)
    (hissues : call.issues = false) (hpair : ∀ reply, r = .ok reply → reply.pair = none)
    (hchallenge : ∀ mfaToken, r ≠ .ok (.mfaRequired mfaToken)) : call.Leads D s r s' :=
  ⟨hnow, hdrawn, hrandoms, .same htokens, husers, fun reply hr =>
    .other hissues (hpair reply hr) fun mfaToken h => hchallenge mfaToken (hr.trans (congrArg _ h))⟩

theorem leads_setupMfa (userId : String) :
    AuthStore.Ends D (fun _ => True) (fun r s' => (AuthCall.setupMfa userId).Leads D s r s')
      ((AuthCall.setupMfa userId).code D) s := by
  simp only [AuthCall.code, AuthService.setupMfa, bind_assoc]
  refine ends_mustFind (fun row hfound => ends_step (ends_usersUpdateMfa hfound
    (fun _ => ?_) (fun e => ?_) fun e => ?_)) fun e => leads_error (.refl s) e
  · exact leads_users rfl le_rfl (Nat.le_succ _) rfl (.setUp row _ hfound rfl) rfl
      (fun _ h => Except.ok.inj h ▸ rfl) fun _ h => nomatch Except.ok.inj h
  · exact leads_error (by exact ⟨rfl, rfl, rfl, le_rfl, Nat.le_succ _⟩) e
  · exact leads_users rfl le_rfl (Nat.le_succ _) rfl (.setUp row _ hfound rfl) rfl
      (fun _ h => nomatch h) fun _ h => nomatch h

theorem leads_enableMfa (userId code : String) :
    AuthStore.Ends D (fun _ => True) (fun r s' => (AuthCall.enableMfa userId code).Leads D s r s')
      ((AuthCall.enableMfa userId code).code D) s := by
  simp only [AuthCall.code, AuthService.enableMfa, bind_assoc]
  refine ends_mustFind (fun row hfound => ?_) fun e => leads_error (.refl s) e
  split
  · exact leads_error (.refl s) _
  · simp only [bind_assoc]
    refine ends_now ?_
    split
    · simp only [bind_assoc]
      refine ends_usersUpdateMfa hfound (fun _ => ?_)
        (fun e => leads_error (.refl s) e) fun e => ?_
      · exact leads_users rfl le_rfl le_rfl rfl (.enabled row hfound rfl) rfl
          (fun _ h => Except.ok.inj h ▸ rfl) fun _ h => nomatch Except.ok.inj h
      · exact leads_users rfl le_rfl le_rfl rfl (.enabled row hfound rfl) rfl
          (fun _ h => nomatch h) fun _ h => nomatch h
    · exact leads_error (.refl s) _

theorem leads_disableMfa (userId code : String) :
    AuthStore.Ends D (fun _ => True) (fun r s' => (AuthCall.disableMfa userId code).Leads D s r s')
      ((AuthCall.disableMfa userId code).code D) s := by
  simp only [AuthCall.code, AuthService.disableMfa, bind_assoc]
  refine ends_mustFind (fun row hfound => ends_now ?_) fun e => leads_error (.refl s) e
  split
  case isTrue hmay =>
    simp only [bind_assoc]
    refine ends_usersUpdateMfa hfound (fun _ => ?_)
      (fun e => leads_error (.refl s) e) fun e => ?_
    · exact leads_users rfl le_rfl le_rfl rfl (.disabled row hfound hmay rfl) rfl
        (fun _ h => Except.ok.inj h ▸ rfl) fun _ h => nomatch Except.ok.inj h
    · exact leads_users rfl le_rfl le_rfl rfl (.disabled row hfound hmay rfl) rfl
        (fun _ h => nomatch h) fun _ h => nomatch h
  case isFalse => exact leads_error (.refl s) _

/-! ## The users of a tenant -/

/-- A call of `UsersService`, by what it does to the store of the API. -/
theorem ends_lifted {α : Type} {x : Api α} {reply : α → AuthReply}
    (h : Store.Ends D.toApiDeployment (fun _ => True)
      (fun r store => call.Leads D s (r.map reply) { s with store }) x s.store) :
    AuthStore.Ends D (fun _ => True) (fun r s' => call.Leads D s r s')
      (lift x >>= fun a => pure (reply a)) s :=
  Async.Ends.bind (ends_lift.mpr h) (fun _ _ hleads => hleads) fun _ _ hleads => hleads

theorem leads_usersList (tenantId : String) :
    AuthStore.Ends D (fun _ => True) (fun r s' => (AuthCall.usersList tenantId).Leads D s r s')
      ((AuthCall.usersList tenantId).code D) s := by
  refine ends_lifted ?_
  simp only [UsersService.list]
  exact ControlPlane.ends_read rfl rfl (fun _ => leads_reply (.refl s) rfl rfl fun _ h => nomatch h)
    fun e _ _ => leads_error (.refl s) e

theorem leads_usersCreate (tenantId : String) (dto : CreateUserDto) :
    AuthStore.Ends D (fun _ => True)
      (fun r s' => (AuthCall.usersCreate tenantId dto).Leads D s r s')
      ((AuthCall.usersCreate tenantId dto).code D) s := by
  refine ends_lifted ?_
  simp only [UsersService.create, BillingService.assertCanAddUser]
  refine ControlPlane.ends_read rfl rfl (fun _ => ?_) fun e _ _ => leads_error (.refl s) e
  split
  case isTrue => exact leads_error (.refl s) _
  case isFalse =>
    refine ends_assertCanAdd (ControlPlane.ends_step (ControlPlane.ends_write rfl (fun _ => ?_)
      (fun e _ => ?_) fun e _ => ?_)) fun e => leads_error (.refl s) e
    · exact leads_users rfl (Nat.le_succ _) le_rfl rfl
        (.created _ ⟨_, le_rfl, Nat.lt_succ_self _, rfl⟩ rfl rfl rfl) rfl
        (fun _ h => Except.ok.inj h ▸ rfl) fun _ h => nomatch Except.ok.inj h
    · exact leads_error (by exact ⟨rfl, rfl, rfl, Nat.le_succ _, le_rfl⟩) e
    · exact leads_users rfl (Nat.le_succ _) le_rfl rfl
        (.created _ ⟨_, le_rfl, Nat.lt_succ_self _, rfl⟩ rfl rfl rfl) rfl
        (fun _ h => nomatch h) fun _ h => nomatch h

theorem leads_usersUpdate (tenantId id actingUserId : String) (dto : UpdateUserDto) :
    AuthStore.Ends D (fun _ => True)
      (fun r s' => (AuthCall.usersUpdate tenantId id actingUserId dto).Leads D s r s')
      ((AuthCall.usersUpdate tenantId id actingUserId dto).code D) s := by
  refine ends_lifted ?_
  simp only [UsersService.update]
  refine ControlPlane.ends_read rfl rfl (fun _ => ?_) fun e _ _ => leads_error (.refl s) e
  simp only [Store.answer]
  cases hfound : (s.store.users.get id).filter fun target => target.tenantId = tenantId with
  | none => exact leads_error (.refl s) _
  | some row =>
    obtain ⟨hget, htenant⟩ := Option.filter_eq_some_iff.mp hfound
    simp only [decide_eq_true_eq] at htenant
    simp only
    split
    case isTrue => exact leads_error (.refl s) _
    case isFalse =>
      have heffect : s.store.effect (.usersUpdate id (UsersService.patchOf D.toApiDeployment dto)) =
          { s.store with
            users := s.store.users.put
              ((UsersService.patchOf D.toApiDeployment dto).apply row) } := by
        simp only [Store.effect, hget]
      refine ControlPlane.ends_write rfl (fun _ => ?_) (fun e _ => leads_error (.refl s) e)
        fun e _ => ?_
      · rw [heffect]
        simp only [Store.answer, hget, Option.map_some]
        exact leads_users rfl le_rfl le_rfl rfl (.updated row hget htenant rfl) rfl
          (fun _ h => Except.ok.inj h ▸ rfl) fun _ h => by cases h
      · rw [heffect]
        exact leads_users rfl le_rfl le_rfl rfl (.updated row hget htenant rfl) rfl
          (fun _ h => by cases h) fun _ h => by cases h

/-! ## Every call -/

/-- **What a call does**, whatever the outcomes of its requests. -/
theorem leads_call (s : AuthStore) (call : AuthCall) :
    AuthStore.Ends D (fun _ => True) (fun r s' => call.Leads D s r s') (call.code D) s := by
  cases call with
  | registerTenant dto => exact leads_registerTenant dto
  | login dto => exact leads_login dto
  | verifyMfa mfaToken code => exact leads_verifyMfa mfaToken code
  | refresh refreshToken => exact leads_refresh refreshToken
  | logout refreshToken => exact leads_logout refreshToken
  | setupMfa userId => exact leads_setupMfa userId
  | enableMfa userId code => exact leads_enableMfa userId code
  | disableMfa userId code => exact leads_disableMfa userId code
  | usersList tenantId => exact leads_usersList tenantId
  | usersCreate tenantId dto => exact leads_usersCreate tenantId dto
  | usersUpdate tenantId id actingUserId dto => exact leads_usersUpdate tenantId id actingUserId dto

/-- What a call did that ran to completion. -/
theorem leads_of_complete {ω : Nat → Outcome} {r : Except ApiError AuthReply}
    (h : s.complete D ω (call.code D) = some (r, s')) : call.Leads D s r s' :=
  (leads_call s call).of_complete (fun _ => trivial) h

end Leads

end FleetTracking.Auth
