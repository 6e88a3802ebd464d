import FleetTracking.Auth.AuthStore
import FleetTracking.ControlPlane.Services

/-!
# Logins, Sessions and the Second Factor

`AuthService`, operation by operation, and the calls of `UsersService` on the same users.

1. `AuthService`: tokens, logins, the second factor.
2. `AuthCall`: a call of one of the services, with its reply.
3. `AuthStore.step`: complete calls one after another, while time passes.
-/

namespace FleetTracking.Auth

open Async ControlPlane

/-! ## The service -/

/-- A token pair, or a challenge. -/
inductive LoginResult where
  | tokens (pair : TokenPair)
  | mfaRequired (mfaToken : Jwt)

structure RegisterTenantDto where
  tenantName : String
  adminEmail : String
  password : String

structure LoginDto where
  email : String
  password : String

/-- `Date.now()`. -/
abbrev dateNow : AuthM Nat := step (.api (.backend .now))

abbrev randomUUID : AuthM String := step (.api .randomUUID)

namespace AuthService

/-- `signAsync`: a token that expires `lifetime` seconds from now. -/
def sign (lifetime : Nat) (payload : JwtPayload) : AuthM Jwt := do
  let now ← dateNow
  pure ⟨payload, now / 1000 + lifetime⟩

def accessToken (D : AuthDeployment) (user : User) : AuthM Jwt :=
  sign D.jwtExpiresIn
    { sub := user.id, tenantId := user.tenantId, role := user.role, email := user.email
      departmentId := user.departmentId, purpose := none }

/-- The rest of `issueTokens`, for a login chain. -/
def issueTokensIn (D : AuthDeployment) (user : User) (familyId : String) : AuthM TokenPair := do
  let refreshToken ← step .randomBytes
  let now ← dateNow
  let id ← randomUUID
  let _ ← request (.refreshTokensCreate
    { id, userId := user.id, tokenHash := D.hashToken refreshToken, familyId
      expiresAt := now + D.refreshDays * 86400000, usedAt := none, revokedAt := none })
  let accessToken ← accessToken D user
  pure { accessToken, refreshToken }

/-- `issueTokens`; without a login chain to continue, it starts a new one. -/
def issueTokens (D : AuthDeployment) (user : User) : Option String → AuthM TokenPair
  | some familyId => issueTokensIn D user familyId
  | none => do
    let familyId ← randomUUID
    issueTokensIn D user familyId

/-- The new pair for a refresh token that may be exchanged. -/
def rotate (D : AuthDeployment) (record : RefreshToken) (now : Nat) : AuthM TokenPair := do
  let found ← request (.api (.usersFindById record.userId))
  match found.filter User.active with
  | none => throw (ApiError.unauthorized "Account is inactive")
  | some user => do
    let _ ← request (.refreshTokensMarkUsed record.id now)
    -- Same family: rotation continues the login chain started at sign-in.
    issueTokens D user (some record.familyId)

/-- Exchange a refresh token for a new pair. -/
def refresh (D : AuthDeployment) (refreshToken : String) : AuthM TokenPair := do
  let found ← request (.refreshTokensFindByHash (D.hashToken refreshToken))
  match found with
  | none => throw (ApiError.unauthorized "Invalid refresh token")
  | some record => do
    let now ← dateNow
    if record.usedAt.isSome then do
      let _ ← request (.refreshTokensRevokeFamily record.familyId now)
      throw (ApiError.unauthorized "Refresh token already used — session revoked")
    else if record.revokedAt.isSome then
      throw (ApiError.unauthorized "Refresh token revoked")
    else if record.expiresAt ≤ now then
      throw (ApiError.unauthorized "Refresh token expired")
    else rotate D record now

/-- Revoke the whole login chain. -/
def logout (D : AuthDeployment) (refreshToken : String) : AuthM Unit := do
  let found ← request (.refreshTokensFindByHash (D.hashToken refreshToken))
  match found with
  | none => pure ()
  | some record => do
    let now ← dateNow
    request (.refreshTokensRevokeFamily record.familyId now)

def registerTenant (D : AuthDeployment) (dto : RegisterTenantDto) :
    AuthM (Tenant × TokenPair) := do
  let existing ← request (.api (.usersFindByEmail dto.adminEmail))
  if existing.isSome then throw (ApiError.conflict "Email already registered") else do
    let tenantId ← randomUUID
    let tenant ← request (.tenantsCreate { id := tenantId, name := dto.tenantName })
    let id ← randomUUID
    let user ← request (.api (.usersCreate
      { id, tenantId := tenant.id, email := dto.adminEmail
        passwordHash := D.hashPassword dto.password, role := .admin, active := true
        mfaEnabled := false, mfaSecret := none, departmentId := none }))
    let pair ← issueTokens D user none
    pure (tenant, pair)

def login (D : AuthDeployment) (dto : LoginDto) : AuthM LoginResult := do
  let found ← request (.api (.usersFindByEmail dto.email))
  match found.filter fun user => user.active ∧ D.verifyPassword dto.password user.passwordHash with
  | none => throw (ApiError.unauthorized "Invalid credentials")
  | some user =>
    if user.mfaEnabled then do
      -- Password OK, but require a second factor: a token for five minutes.
      let mfaToken ← sign 300
        { sub := user.id, tenantId := user.tenantId, role := user.role, email := user.email
          departmentId := none, purpose := some .mfa }
      pure (.mfaRequired mfaToken)
    else do
      let pair ← issueTokens D user none
      pure (.tokens pair)

/-- The user of a token that verifies and is for the second factor. -/
def mfaUser (now : Nat) (mfaToken : Option Jwt) : Except ApiError String :=
  match verify now mfaToken with
  | none => .error (.unauthorized "Invalid or expired MFA token")
  | some payload =>
    if payload.purpose = some .mfa then .ok payload.sub
    else .error (.unauthorized "Not an MFA token")

/-- Complete a login with the token for the second factor and a code. -/
def verifyMfa (D : AuthDeployment) (mfaToken : Option Jwt) (code : String) : AuthM TokenPair := do
  let now ← dateNow
  let sub ← ofExcept (S := authSig) (mfaUser now mfaToken)
  let found ← request (.api (.usersFindById sub))
  match found.filter fun user => user.mfaEnabled ∧ user.mfaSecret.any truthy with
  | none => throw (ApiError.unauthorized "MFA not enabled")
  | some user => do
    let now ← dateNow
    if D.verifyTotp (user.mfaSecret.getD "") code now then issueTokens D user none
    else throw (ApiError.unauthorized "Invalid MFA code")

def mustFind (userId : String) : AuthM User := do
  let found ← request (.api (.usersFindById userId))
  match found with
  | none => throw (ApiError.unauthorized "User not found")
  | some user => pure user

/-- Begin the enrollment: store a secret, not yet enabled. -/
def setupMfa (D : AuthDeployment) (userId : String) : AuthM (String × String) := do
  let user ← mustFind userId
  let secret ← step .generateSecret
  let _ ← request (.usersUpdateMfa userId
    { mfaSecret := some (some secret), mfaEnabled := some false })
  pure (secret, D.otpauthUri secret user.email)

/-- Confirm the enrollment with a code for the pending secret. -/
def enableMfa (D : AuthDeployment) (userId code : String) : AuthM Unit := do
  let user ← mustFind userId
  match user.mfaSecret.filter truthy with
  | none => throw (ApiError.badRequest "Run MFA setup first")
  | some secret => do
    let now ← dateNow
    if D.verifyTotp secret code now then do
      let _ ← request (.usersUpdateMfa userId { mfaEnabled := some true })
      pure ()
    else throw (ApiError.badRequest "Invalid MFA code")

/-- Is the code one for the second factor of the user, if that is on? -/
def mayDisable (D : AuthDeployment) (user : User) (code : String) (now : Nat) : Bool :=
  user.mfaEnabled → (user.mfaSecret.filter truthy).any fun secret => D.verifyTotp secret code now

def disableMfa (D : AuthDeployment) (userId code : String) : AuthM Unit := do
  let user ← mustFind userId
  let now ← dateNow
  if mayDisable D user code now then do
    let _ ← request (.usersUpdateMfa userId
      { mfaSecret := some none, mfaEnabled := some false })
    pure ()
  else throw (ApiError.badRequest "Invalid MFA code")

end AuthService

/-! ## Calls -/

/-- A call of `AuthService` or `UsersService`. -/
inductive AuthCall where
  | registerTenant (dto : RegisterTenantDto)
  | login (dto : LoginDto)
  | verifyMfa (mfaToken : Option Jwt) (code : String)
  | refresh (refreshToken : String)
  | logout (refreshToken : String)
  | setupMfa (userId : String)
  | enableMfa (userId code : String)
  | disableMfa (userId code : String)
  | usersList (tenantId : String)
  | usersCreate (tenantId : String) (dto : CreateUserDto)
  | usersUpdate (tenantId id actingUserId : String) (dto : UpdateUserDto)

/-- A call that returns a token pair, or a challenge. -/
def AuthCall.issues : AuthCall → Bool
  | .registerTenant _ => true
  | .login _ => true
  | .verifyMfa _ _ => true
  | .refresh _ => true
  | _ => false

/-- What a call returns. -/
inductive AuthReply where
  | registered (tenant : Tenant) (pair : TokenPair)
  | tokens (pair : TokenPair)
  | mfaRequired (mfaToken : Jwt)
  | success
  | secret (secret otpauthUri : String)
  | enabled (enabled : Bool)
  | users (users : List PublicUser)
  | user (user : PublicUser)

/-- The token pair of a reply. -/
def AuthReply.pair : AuthReply → Option TokenPair
  | .registered _ pair => some pair
  | .tokens pair => some pair
  | _ => none

/-- The reply of a login. -/
def LoginResult.reply : LoginResult → AuthReply
  | .tokens pair => .tokens pair
  | .mfaRequired mfaToken => .mfaRequired mfaToken

def AuthCall.code (D : AuthDeployment) : AuthCall → AuthM AuthReply
  | .registerTenant dto => do
    let out ← AuthService.registerTenant D dto
    pure (.registered out.1 out.2)
  | .login dto => do
    let result ← AuthService.login D dto
    pure result.reply
  | .verifyMfa mfaToken code => do
    let pair ← AuthService.verifyMfa D mfaToken code
    pure (.tokens pair)
  | .refresh refreshToken => do
    let pair ← AuthService.refresh D refreshToken
    pure (.tokens pair)
  | .logout refreshToken => do
    let _ ← AuthService.logout D refreshToken
    pure .success
  | .setupMfa userId => do
    let out ← AuthService.setupMfa D userId
    pure (.secret out.1 out.2)
  | .enableMfa userId code => do
    let _ ← AuthService.enableMfa D userId code
    pure (.enabled true)
  | .disableMfa userId code => do
    let _ ← AuthService.disableMfa D userId code
    pure (.enabled false)
  | .usersList tenantId => do
    let users ← lift (UsersService.list tenantId)
    pure (.users users)
  | .usersCreate tenantId dto => do
    let user ← lift (UsersService.create D.toApiDeployment tenantId dto)
    pure (.user user)
  | .usersUpdate tenantId id actingUserId dto => do
    let user ← lift (UsersService.update D.toApiDeployment tenantId id actingUserId dto)
    pure (.user user)

/-! ## Runs -/

inductive AuthEvent where
  -- A call, run to completion with these outcomes of its requests.
  | call (call : AuthCall) (ω : Nat → Outcome)
  -- Time passes.
  | elapse (ms : Nat)

/-- The time, in milliseconds. -/
def AuthStore.now (s : AuthStore) : Nat := s.store.backend.now

/-- Time passes. -/
def AuthStore.elapse (s : AuthStore) (ms : Nat) : AuthStore :=
  { s with store.backend.now := s.now + ms }

/-- Complete calls one after another. -/
def AuthStore.step (D : AuthDeployment) (s : AuthStore) : AuthEvent → Option AuthStore
  | .call call ω => (s.complete D ω (call.code D)).map Prod.snd
  | .elapse ms => some (s.elapse ms)

end FleetTracking.Auth
