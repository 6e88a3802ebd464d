import FleetTracking.ControlPlane.StoreRules

/-!
# The Store Behind the Logins

What `AuthService` reads and writes beyond the store of the API: tenants, the second factor of
the users, and the refresh tokens. Signed tokens are symbolic: what verifies is what was signed
and has not expired.

1. `RefreshToken`, `Jwt`, `AuthDeployment`: the records, the tokens, and what is deployed.
2. `AuthStore`, `AuthOp`, `AuthAct`: the store and the requests to it.
3. `AuthStore.settle`, `AuthStore.act`: the effects of the requests.
4. `lift`: code that only needs the store of the API.
-/

namespace FleetTracking.Auth

open Async ControlPlane

/-! ## Tokens -/

structure Tenant where
  id : String
  name : String
  deriving DecidableEq

/-- A refresh token as stored: its hash, and the login chain it belongs to. Times are
milliseconds; the source compares their ISO texts, which are ordered like the times. -/
structure RefreshToken where
  id : String
  userId : String
  tokenHash : String
  familyId : String
  expiresAt : Nat
  -- Set when this token has been exchanged.
  usedAt : Option Nat
  -- Set when revoked by logout or reuse detection.
  revokedAt : Option Nat
  deriving DecidableEq

/-- Neither used nor revoked. -/
def RefreshToken.live (t : RefreshToken) : Bool := t.usedAt = none ∧ t.revokedAt = none

/-- `purpose: 'mfa'` marks a short-lived second-factor token. -/
inductive Purpose where
  | mfa
  deriving DecidableEq

structure JwtPayload where
  sub : String
  tenantId : String
  role : Role
  email : String
  departmentId : Option String
  purpose : Option Purpose
  deriving DecidableEq

/-- A token signed with the server's secret; it expires at the second `exp`. -/
structure Jwt where
  payload : JwtPayload
  exp : Nat
  deriving DecidableEq

/-- `jwt.verify` at a time in milliseconds; a text that is no token signed here is `none`. -/
def verify (now : Nat) (token : Option Jwt) : Option JwtPayload :=
  (token.filter fun token => now / 1000 < token.exp).map Jwt.payload

structure TokenPair where
  accessToken : Jwt
  refreshToken : String
  deriving DecidableEq

/-- What the logins are deployed with. -/
structure AuthDeployment extends ApiDeployment where
  -- `randomBytes(48).toString('base64url')`: no token is drawn twice.
  token : Nat → String
  freshToken : Function.Injective token
  -- No two tokens have the same hash.
  hashToken : String → String
  collisionFree : Function.Injective hashToken
  -- `randomBytes(20)`, of which a secret is made.
  secretBytes : Nat → Protocol.Buffer
  -- Of a secret and an account.
  otpauthUri : String → String → String
  refreshDays : Nat
  -- `jwtExpiresIn`, in seconds.
  jwtExpiresIn : Nat

/-- `generateSecret`: a fresh secret, in base32. -/
def AuthDeployment.generateSecret (D : AuthDeployment) (n : Nat) : String :=
  String.ofList (Base32.base32Encode (D.secretBytes n))

/-! ## Requests -/

/-- Everything `AuthService` shares with the services of the API. -/
structure AuthStore where
  store : Store
  tenants : Table Tenant Tenant.id
  refreshTokens : Table RefreshToken RefreshToken.id
  -- How often random bytes were drawn.
  randoms : Nat

/-- The fields of the second factor that an update of a user may set. -/
structure MfaPatch where
  mfaSecret : Option (Option String) := none
  mfaEnabled : Option Bool := none

def MfaPatch.apply (patch : MfaPatch) (u : User) : User :=
  { u with
    mfaSecret := patch.mfaSecret.getD u.mfaSecret
    mfaEnabled := patch.mfaEnabled.getD u.mfaEnabled }

/-- What `AuthService` awaits. -/
inductive AuthOp where
  | api (op : ApiOp)
  | tenantsCreate (t : Tenant)
  -- `update` of the users, with fields of the second factor.
  | usersUpdateMfa (id : String) (patch : MfaPatch)
  | refreshTokensCreate (t : RefreshToken)
  | refreshTokensFindByHash (tokenHash : String)
  | refreshTokensMarkUsed (id : String) (usedAt : Nat)
  | refreshTokensRevokeFamily (familyId : String) (revokedAt : Nat)

@[reducible] def AuthOp.Res : AuthOp → Type
  | .api op => op.Res
  | .tenantsCreate _ => Tenant
  | .usersUpdateMfa _ _ => Option User
  | .refreshTokensCreate _ => RefreshToken
  | .refreshTokensFindByHash _ => Option RefreshToken
  | .refreshTokensMarkUsed _ _ => Unit
  | .refreshTokensRevokeFamily _ _ => Unit

/-- What `AuthService` does without awaiting. -/
inductive AuthAct where
  | api (a : ApiAct)
  | randomBytes
  | generateSecret

@[reducible] def AuthAct.Ret : AuthAct → Type
  | .api a => a.Ret
  | .randomBytes => String
  | .generateSecret => String

/-- The signature of `AuthService`. -/
abbrev authSig : Sig := ⟨AuthOp, AuthOp.Res, AuthAct, AuthAct.Ret, ApiError⟩

/-- A computation of `AuthService`. -/
abbrev AuthM := Async authSig

abbrev request (op : AuthOp) : AuthM op.Res := Async.perform (S := authSig) op
abbrev step (a : AuthAct) : AuthM a.Ret := Async.action (S := authSig) a

/-- Code that only needs the store of the API. -/
def lift {α : Type} (x : Api α) : AuthM α := Async.lift (T := authSig) AuthOp.api AuthAct.api x

/-! ## Effects -/

abbrev RefreshTokenTable := Table RefreshToken RefreshToken.id

namespace RefreshTokenTable

def findByHash (t : RefreshTokenTable) (tokenHash : String) : Option RefreshToken :=
  t.rows.find? fun r => r.tokenHash = tokenHash

def markUsed (t : RefreshTokenTable) (id : String) (usedAt : Nat) : RefreshTokenTable :=
  match t.get id with
  | none => t
  | some r => t.put { r with usedAt := some usedAt }

/-- A token of the family is revoked, unless it is already. -/
def revoke (familyId : String) (revokedAt : Nat) (r : RefreshToken) : RefreshToken :=
  if r.familyId = familyId ∧ r.revokedAt = none then { r with revokedAt := some revokedAt } else r

@[simp] theorem revoke_id (familyId : String) (revokedAt : Nat) (r : RefreshToken) :
    (revoke familyId revokedAt r).id = r.id := by
  unfold revoke
  split <;> rfl

def revokeFamily (t : RefreshTokenTable) (familyId : String) (revokedAt : Nat) :
    RefreshTokenTable :=
  t.mapRows (revoke familyId revokedAt) (revoke_id familyId revokedAt)

end RefreshTokenTable

/-- The effect of a request. -/
def AuthStore.effect (s : AuthStore) : AuthOp → AuthStore
  | .api op => { s with store := s.store.effect op }
  | .tenantsCreate t => { s with tenants := s.tenants.put t }
  | .usersUpdateMfa id patch =>
    match s.store.users.get id with
    | none => s
    | some u => { s with store.users := s.store.users.put (patch.apply u) }
  | .refreshTokensCreate t => { s with refreshTokens := s.refreshTokens.put t }
  | .refreshTokensFindByHash _ => s
  | .refreshTokensMarkUsed id usedAt =>
    { s with refreshTokens := RefreshTokenTable.markUsed s.refreshTokens id usedAt }
  | .refreshTokensRevokeFamily familyId revokedAt =>
    { s with refreshTokens := RefreshTokenTable.revokeFamily s.refreshTokens familyId revokedAt }

/-- What a request resolves with. -/
def AuthStore.answer (s : AuthStore) (reply : String) : (op : AuthOp) → op.Res
  | .api op => s.store.answer reply op
  | .tenantsCreate t => t
  | .usersUpdateMfa id patch => (s.store.users.get id).map patch.apply
  | .refreshTokensCreate t => t
  | .refreshTokensFindByHash tokenHash => RefreshTokenTable.findByHash s.refreshTokens tokenHash
  | .refreshTokensMarkUsed _ _ => ()
  | .refreshTokensRevokeFamily _ _ => ()

/-- Ghost: what `Store` notes about reads. -/
def AuthStore.noteRead (s : AuthStore) (i : Nat) : AuthOp → AuthStore
  | .api op => { s with store := s.store.noteRead i op }
  | _ => s

/-- The effect and the result of a request made by call `i`. -/
def AuthStore.settle (s : AuthStore) (i : Nat) (op : AuthOp) (x : Outcome) :
    AuthStore × Except ApiError op.Res :=
  let s := s.noteRead i op
  (if x.takesEffect then s.effect op else s,
    match x with
    | .resolves reply => .ok (s.answer reply op)
    | .rejects e _ => .error e)

/-- The effect and the result of a step made at once. -/
def AuthStore.act (D : AuthDeployment) (s : AuthStore) : (a : AuthAct) → AuthStore × a.Ret
  | .api a =>
    let out := s.store.act D.toApiDeployment a
    ({ s with store := out.1 }, out.2)
  | .randomBytes => ({ s with randoms := s.randoms + 1 }, D.token s.randoms)
  | .generateSecret => ({ s with randoms := s.randoms + 1 }, D.generateSecret s.randoms)

/-- `AuthService` against its store. -/
def AuthStore.world (D : AuthDeployment) : World authSig Nat Unit AuthStore Outcome where
  settle i _ op x s := some (s.settle i op x)
  act _ _ a s := s.act D a

/-- Run a call to completion; its `n`-th request has the outcome `ω n`. -/
def AuthStore.complete {α : Type} (D : AuthDeployment) (ω : Nat → Outcome) (x : AuthM α)
    (s : AuthStore) : Option (Except ApiError α × AuthStore) :=
  ((AuthStore.world D).exec 0 () ω x 0 s).map fun out => (out.1, out.2.2)

end FleetTracking.Auth
