import FleetTracking.Auth.ActiveUsers
import FleetTracking.ControlPlane.Reads
import FleetTracking.Lib.Lockstep

/-!
# What a Password Alone Is Good For

A client that knows nothing but the password of a user whose second factor is on gets a challenge
for it. The guard of the routes does not accept the challenge; the gateway of the live feed does.

1. `canActivate`, `Client`, `Client.step`: the routes, the gateway, and what the client gets.
2. `Premise`: the client knows the password only.
3. `Alike`: servers that differ in the data of the fleets, which the public routes do not see.
4. `Outside`: the invariant, that the client holds challenges and is connected nowhere.
5. `second_factor_iff`: nothing that the client receives depends on the data of a fleet, and
   nobody but `verifyMfa` takes its challenge, if and only if it opens no socket with one.
-/

namespace FleetTracking.Auth

open Async ControlPlane Transition

/-! ## The routes and the gateway -/

/-- The user that a payload names. -/
def JwtPayload.user (payload : JwtPayload) : AuthUser :=
  ⟨payload.sub, payload.tenantId, payload.role, payload.email, payload.departmentId⟩

/-- `JwtAuthGuard.canActivate`, for HTTP and GraphQL: the user of the bearer token. -/
def canActivate (now : Nat) : Option (Option Jwt) → Except ApiError AuthUser
  | none => .error (.unauthorized "Missing bearer token")
  | some token =>
    match verify now token with
    | none => .error (.unauthorized "Invalid token")
    | some payload =>
      if payload.purpose = some .mfa then .error (.unauthorized "Invalid token")
      else .ok payload.user

/-- A route behind the guard, of HTTP or GraphQL: its handler, which is called for the user that
the guard lets in and has all of the services and their stores. -/
abbrev GuardedRoute (Body : Type) := AuthUser → AuthM Body

/-- What a client gets delivered. -/
inductive Delivery (Body : Type) where
  -- The reply of a public route, or its error.
  | login (r : Except ApiError AuthReply)
  -- The reply of a route behind the guard, or the error of the guard or of the route.
  | answer (r : Except ApiError Body)
  -- A message on a socket.
  | message (message : RtMessage)

/-- The server, and a client: the tokens that its logins were issued, its sockets, and what it
received. -/
structure Client (Body : Type) where
  server : AuthStore
  tokens : List Jwt
  refreshTokens : List String
  sockets : RealtimeGateway
  received : List (Delivery Body)

inductive ClientEvent (Body : Type) where
  -- A public route.
  | login (call : AuthCall) (ω : Nat → Outcome)
  -- A route behind the guard, with a bearer token.
  | request (header : Option (Option Jwt)) (route : GuardedRoute Body) (ω : Nat → Outcome)
  -- A socket is opened, with a token, or closed.
  | connect (socket : Nat) (token : Option Jwt)
  | disconnect (socket : Nat)
  -- Anything else that happens to the server: calls of others, telemetry, the passing of time.
  | others (server : AuthStore)
  -- A position or an alert is published, to the sockets that are open.
  | publish (isOpen : Nat → Bool) (position : Position)
  | publishAlert (isOpen : Nat → Bool) (alert : AlertEvent)

/-- The signed tokens of a login. Those of a registration are for another user, whom the client
made up. -/
def AuthReply.jwts : AuthReply → List Jwt
  | .tokens pair => [pair.accessToken]
  | .mfaRequired mfaToken => [mfaToken]
  | _ => []

/-- The refresh token of a login. -/
def AuthReply.refreshTokens : AuthReply → List String
  | .tokens pair => [pair.refreshToken]
  | _ => []

section Step

variable {Body : Type}

def Client.deliver (c : Client Body) (ms : List (Delivery Body)) : Client Body :=
  { c with received := c.received ++ ms }

/-- The reply of a public route reaches the client, which keeps the tokens. -/
def Client.keep (c : Client Body) (server : AuthStore) (r : Except ApiError AuthReply) :
    Client Body :=
  let granted := r.toOption.toList
  { c with
    server
    tokens := c.tokens ++ granted.flatMap AuthReply.jwts
    refreshTokens := c.refreshTokens ++ granted.flatMap AuthReply.refreshTokens
    received := c.received ++ [.login r] }

/-- Messages of the gateway reach the client. -/
def deliveries (messages : List (Nat × RtMessage)) : List (Delivery Body) :=
  messages.map fun m => .message m.2

def Client.step (D : AuthDeployment) (c : Client Body) : ClientEvent Body → Option (Client Body)
  | .login call ω => (c.server.complete D ω (call.code D)).map fun out => c.keep out.2 out.1
  | .request header route ω =>
    match canActivate c.server.now header with
    | .error e => some (c.deliver [.answer (.error e)])
    | .ok user => (c.server.complete D ω (route user)).map fun out =>
        ({ c with server := out.2 } : Client Body).deliver [.answer out.1]
  | .connect socket token =>
    let out := c.sockets.handleConnection socket ((verify c.server.now token).map JwtPayload.user)
    some (({ c with sockets := out.1 } : Client Body).deliver (deliveries out.2))
  | .disconnect socket => some { c with sockets := c.sockets.handleDisconnect socket }
  | .others server => some { c with server }
  | .publish isOpen position =>
    some (c.deliver (deliveries (c.sockets.publish isOpen position.tenantId position)))
  | .publishAlert isOpen alert =>
    some (c.deliver (deliveries (c.sockets.publishAlert isOpen alert.tenantId alert)))

/-! ## What the client knows -/

/-- A token that the client presents is one that a login of it was issued. -/
def Client.Holds (c : Client Body) (token : Option Jwt) : Prop := ∀ j, token = some j → j ∈ c.tokens

/-- A refresh token that the client presents is one that a login of it was issued, or none. -/
def Client.HoldsRefresh (D : AuthDeployment) (c : Client Body) (refreshToken : String) : Prop :=
  refreshToken ∈ c.refreshTokens ∨
    ∀ t ∈ c.server.refreshTokens.rows, t.tokenHash ≠ D.hashToken refreshToken

/-- A user whose second factor is on, and an event of a client that knows the password of this
user and no other one, no code of the user, and no token but those of its logins. -/
structure Client.Premise (D : AuthDeployment) (userId : String) (c : Client Body)
    (e : ClientEvent Body) : Prop where
  enrolled : ∃ row, c.server.store.users.get userId = some row ∧ row.mfaEnabled = true
  isPublic : ∀ call ω, e = .login call ω → call.issues = true ∨ ∃ t, call = .logout t
  password : ∀ dto ω, e = .login (.login dto) ω → ∀ row ∈ c.server.store.users.rows,
    row.email = dto.email → row.id ≠ userId → D.verifyPassword dto.password row.passwordHash = false
  code : ∀ token code ω, e = .login (.verifyMfa token code) ω → c.Holds token ∧
    ∀ row, c.server.store.users.get userId = some row →
      D.verifyTotp (row.mfaSecret.getD "") code c.server.now = false
  refresh : ∀ refreshToken ω, e = .login (.refresh refreshToken) ω →
    c.HoldsRefresh D refreshToken
  bearer : ∀ token route ω, e = .request (some token) route ω → c.Holds token
  socket : ∀ socket token, e = .connect socket token → c.Holds token

/-- The client opens a socket with a challenge that has not expired. -/
def Client.ConnectsChallenge (c : Client Body) : ClientEvent Body → Prop
  | .connect _ token => ∃ payload, verify c.server.now token = some payload ∧
      payload.purpose = some .mfa
  | _ => False

/-! ## What the client is to receive -/

/-- What turns the client away: a login without tokens, the error of the guard, the error of the
gateway. -/
def Delivery.Refuses : Delivery Body → Prop
  | .login r => ∀ pair, r ≠ .ok (.tokens pair)
  | .answer r => ∃ text, r = .error (.unauthorized text)
  | .message m => m = .error "unauthorized"

/-- The client was let in nowhere. -/
def Client.Refused (c : Client Body) : Prop := ∀ m ∈ c.received, m.Refuses

/-- Two servers that may differ in all but the users, their sessions, the time and what is drawn
next: in the devices and departments, the positions, alerts and trips, the vehicles, geofences and
settings. -/
structure AuthStore.Alike (s s' : AuthStore) : Prop where
  now : s'.now = s.now
  users : s'.store.users = s.store.users
  refreshTokens : s'.refreshTokens = s.refreshTokens
  drawn : s'.store.drawn = s.store.drawn
  randoms : s'.randoms = s.randoms

/-- The same event of the client, or anything else, which may differ in the data of the fleets. -/
inductive ClientEvent.Alike : ClientEvent Body → ClientEvent Body → Prop where
  | same (e : ClientEvent Body) : Alike e e
  | others {s s' : AuthStore} (servers : s.Alike s') : Alike (.others s) (.others s')
  | publish (isOpen isOpen' : Nat → Bool) (position position' : Position) :
      Alike (.publish isOpen position) (.publish isOpen' position')
  | publishAlert (isOpen isOpen' : Nat → Bool) (alert alert' : AlertEvent) :
      Alike (.publishAlert isOpen alert) (.publishAlert isOpen' alert')

/-- A client that was issued nothing and received nothing yet. -/
def Client.start (server : AuthStore) : Client Body := ⟨server, [], [], ⟨JsMap.empty⟩, []⟩

/-- With other data of the fleets, the same events of the client get it the same. -/
def Client.SeesNoData (D : AuthDeployment) (s₀ : AuthStore) (es : List (ClientEvent Body))
    (c : Client Body) : Prop :=
  ∀ s₀' es' c', s₀.Alike s₀' → List.Forall₂ ClientEvent.Alike es es' →
    Run (Client.step D) (fun _ _ => True) (Client.start s₀') es' c' → c'.received = c.received

end Step

/-! ## Public routes do not see the fleets -/

section Blind

variable {D : AuthDeployment} {s s' : AuthStore}

theorem AuthStore.Alike.refl (s : AuthStore) : s.Alike s := ⟨rfl, rfl, rfl, rfl, rfl⟩

/-- The requests of the public routes. -/
def AuthOp.isLogin : AuthOp → Bool
  | .api (.usersFindByEmail _) | .api (.usersFindById _) | .api (.usersCreate _) => true
  | .api _ => false
  | .usersUpdateMfa _ _ => false
  | _ => true

/-- What they do at once. -/
def AuthAct.isLogin : AuthAct → Bool
  | .api (.backend .now) | .api .randomUUID | .randomBytes => true
  | _ => false

/-- Such a request has the same answer on both servers. -/
theorem answer_alike {op : AuthOp} (hop : op.isLogin = true) (h : s.Alike s') (reply : String) :
    s'.answer reply op = s.answer reply op := by
  cases op with
  | api op =>
    cases op with
    | usersFindByEmail email => simp only [AuthStore.answer, Store.answer, h.users]
    | usersFindById id => simp only [AuthStore.answer, Store.answer, h.users]
    | usersCreate u => rfl
    | _ => cases hop
  | refreshTokensFindByHash tokenHash => simp only [AuthStore.answer, h.refreshTokens]
  | usersUpdateMfa id patch => cases hop
  | _ => rfl

/-- And leaves them alike. -/
theorem effect_alike {op : AuthOp} (hop : op.isLogin = true) (h : s.Alike s') :
    (s.effect op).Alike (s'.effect op) := by
  cases op with
  | api op =>
    cases op with
    | usersFindByEmail email => exact h
    | usersFindById id => exact h
    | usersCreate u =>
      exact { h with users := by simp only [AuthStore.effect, Store.effect, h.users] }
    | _ => cases hop
  | tenantsCreate t => exact { h with }
  | refreshTokensCreate t =>
    exact { h with refreshTokens := by simp only [AuthStore.effect, h.refreshTokens] }
  | refreshTokensFindByHash tokenHash => exact h
  | refreshTokensMarkUsed id usedAt =>
    exact { h with refreshTokens := by simp only [AuthStore.effect, h.refreshTokens] }
  | refreshTokensRevokeFamily familyId revokedAt =>
    exact { h with refreshTokens := by simp only [AuthStore.effect, h.refreshTokens] }
  | usersUpdateMfa id patch => cases hop

theorem noteRead_login {op : AuthOp} (hop : op.isLogin = true) (s : AuthStore) (i : Nat) :
    s.noteRead i op = s := by
  cases op with
  | api op =>
    cases op with
    | usersFindByEmail email => rfl
    | usersFindById id => rfl
    | usersCreate u => rfl
    | _ => cases hop
  | _ => rfl


/-- The code does not tell apart two servers that are alike. -/
abbrev Blindly {α : Type} (D : AuthDeployment) (x : AuthM α) : Prop :=
  (AuthStore.world D).Blind AuthStore.Alike (fun _ => True) x

theorem blind_request {op : AuthOp} (hop : op.isLogin = true) : Blindly D (request op) := by
  apply blind_perform
  · intro i u x s s' out hR hout
    obtain rfl : s.settle i op x = out := Option.some_inj.mp hout
    refine ⟨(s'.settle i op x).1, ?_, ?_⟩
    · have hresult : (s'.settle i op x).2 = (s.settle i op x).2 := by
        simp only [AuthStore.settle, noteRead_login hop]
        cases x with
        | resolves reply => simp only [answer_alike hop hR reply]
        | rejects e applied => rfl
      show some (s'.settle i op x) = _
      rw [← hresult]
    · simp only [AuthStore.settle, noteRead_login hop]
      split
      · exact effect_alike hop hR
      · exact hR
  · exact fun _ _ _ _ _ _ _ _ _ => trivial

theorem blind_step {a : AuthAct} (ha : a.isLogin = true) : Blindly D (step a) := by
  apply blind_action
  intro i u s s' hR
  cases a with
  | api a =>
    cases a with
    | backend a =>
      cases a with
      | now => exact ⟨hR.now, hR⟩
      | _ => cases ha
    | randomUUID =>
      refine ⟨congrArg D.uuid hR.drawn, { hR with drawn := ?_ }⟩
      exact congrArg (· + 1) hR.drawn
    | _ => cases ha
  | randomBytes =>
    refine ⟨congrArg D.token hR.randoms, { hR with randoms := ?_ }⟩
    exact congrArg (· + 1) hR.randoms
  | generateSecret => cases ha

theorem blind_bind {α β : Type} {x : AuthM α} {f : α → AuthM β} (hx : Blindly D x)
    (hf : ∀ a, Blindly D (f a)) : Blindly D (x >>= f) := hx.bind fun a _ => hf a

/-! One lemma for each operation of the service. -/

theorem blind_sign (lifetime : Nat) (payload : JwtPayload) :
    Blindly D (AuthService.sign lifetime payload) :=
  blind_bind (blind_step rfl) fun _ => blind_pure trivial

theorem blind_issueTokensIn (user : User) (familyId : String) :
    Blindly D (AuthService.issueTokensIn D user familyId) := by
  refine blind_bind (blind_step rfl) fun refreshToken => ?_
  refine blind_bind (blind_step rfl) fun now => ?_
  refine blind_bind (blind_step rfl) fun id => ?_
  refine blind_bind (blind_request rfl) fun _ => ?_
  exact blind_bind (blind_sign _ _) fun _ => blind_pure trivial

theorem blind_issueTokens (user : User) (familyId : Option String) :
    Blindly D (AuthService.issueTokens D user familyId) := by
  cases familyId with
  | some familyId => exact blind_issueTokensIn user familyId
  | none => exact blind_bind (blind_step rfl) fun familyId => blind_issueTokensIn user familyId

theorem blind_rotate (record : RefreshToken) (now : Nat) :
    Blindly D (AuthService.rotate D record now) := by
  refine blind_bind (blind_request rfl) fun found => ?_
  cases found.filter User.active with
  | none => exact blind_throw
  | some user => exact blind_bind (blind_request rfl) fun _ => blind_issueTokens user _

theorem blind_refresh (refreshToken : String) :
    Blindly D (AuthService.refresh D refreshToken) := by
  refine blind_bind (blind_request rfl) fun found => ?_
  cases found with
  | none => exact blind_throw
  | some record =>
    refine blind_bind (blind_step rfl) fun now => ?_
    split
    · exact blind_bind (blind_request rfl) fun _ => blind_throw
    · split
      · exact blind_throw
      · split
        · exact blind_throw
        · exact blind_rotate record now

theorem blind_logout (refreshToken : String) : Blindly D (AuthService.logout D refreshToken) := by
  refine blind_bind (blind_request rfl) fun found => ?_
  cases found with
  | none => exact blind_pure trivial
  | some record => exact blind_bind (blind_step rfl) fun now => blind_request rfl

theorem blind_registerTenant (dto : RegisterTenantDto) :
    Blindly D (AuthService.registerTenant D dto) := by
  refine blind_bind (blind_request rfl) fun existing => ?_
  split
  · exact blind_throw
  · refine blind_bind (blind_step rfl) fun tenantId => ?_
    refine blind_bind (blind_request rfl) fun tenant => ?_
    refine blind_bind (blind_step rfl) fun id => ?_
    refine blind_bind (blind_request rfl) fun user => ?_
    exact blind_bind (blind_issueTokens user none) fun _ => blind_pure trivial

theorem blind_login (dto : LoginDto) : Blindly D (AuthService.login D dto) := by
  refine blind_bind (blind_request rfl) fun found => ?_
  split
  · exact blind_throw
  · split
    · exact blind_bind (blind_sign _ _) fun _ => blind_pure trivial
    · exact blind_bind (blind_issueTokens _ none) fun _ => blind_pure trivial

theorem blind_verifyMfa (mfaToken : Option Jwt) (code : String) :
    Blindly D (AuthService.verifyMfa D mfaToken code) := by
  refine blind_bind (blind_step rfl) fun now => ?_
  refine blind_bind ?_ fun sub => ?_
  · cases AuthService.mfaUser now mfaToken with
    | ok sub => exact blind_pure trivial
    | error e => exact blind_throw
  refine blind_bind (blind_request rfl) fun found => ?_
  split
  · exact blind_throw
  · refine blind_bind (blind_step rfl) fun now => ?_
    split
    · exact blind_issueTokens _ none
    · exact blind_throw

/-- **The public routes** have the same reply on servers that are alike. -/
theorem blind_call {call : AuthCall} (hpublic : call.issues = true ∨ ∃ t, call = .logout t) :
    Blindly D (call.code D) := by
  cases call with
  | registerTenant dto => exact blind_bind (blind_registerTenant dto) fun _ => blind_pure trivial
  | login dto => exact blind_bind (blind_login dto) fun _ => blind_pure trivial
  | verifyMfa mfaToken code =>
    exact blind_bind (blind_verifyMfa mfaToken code) fun _ => blind_pure trivial
  | refresh refreshToken => exact blind_bind (blind_refresh refreshToken) fun _ => blind_pure trivial
  | logout refreshToken => exact blind_bind (blind_logout refreshToken) fun _ => blind_pure trivial
  | _ =>
    rcases hpublic with hissues | ⟨t, ht⟩
    · cases hissues
    · cases ht

/-- A blind call has the same result on both servers, which stay alike. -/
theorem complete_blind {α : Type} {x : AuthM α} {ω : Nat → Outcome} (hx : Blindly D x)
    (h : s.Alike s') {out : Except ApiError α × AuthStore} (hout : s.complete D ω x = some out) :
    ∃ t', s'.complete D ω x = some (out.1, t') ∧ out.2.Alike t' := by
  obtain ⟨⟨r, n, t⟩, hexec, rfl⟩ := Option.map_eq_some_iff.mp hout
  obtain ⟨t', hexec', ht⟩ := exec_blind hx h hexec
  exact ⟨t', by rw [AuthStore.complete, hexec', Option.map_some], ht⟩

end Blind

/-! ## The invariant -/

/-- What holds while the client is kept outside: it holds challenges of the user, it is connected
nowhere, and it was let in nowhere. -/
structure Client.Outside {Body : Type} (userId : String) (c : Client Body) : Prop where
  tokens : ∀ j ∈ c.tokens, j.payload.purpose = some .mfa ∧ j.payload.sub = userId
  refreshTokens : c.refreshTokens = []
  sockets : c.sockets.tenantOf.entries = []
  received : c.Refused

section Invariant

variable {Body : Type} {D : AuthDeployment} {s s' : AuthStore} {userId : String}
  {c c' : Client Body}

/-- The guard does not accept a challenge. -/
theorem canActivate_challenge {j : Jwt} (hmfa : j.payload.purpose = some .mfa) (now : Nat) :
    canActivate now (some (some j)) = .error (.unauthorized "Invalid token") := by
  by_cases hexp : now / 1000 < j.exp
  · simp [canActivate, verify, Option.filter, hexp, hmfa]
  · simp [canActivate, verify, Option.filter, hexp]

/-- It turns away a client that is kept outside. -/
theorem canActivate_outside (h : c.Outside userId) {header : Option (Option Jwt)}
    {route : GuardedRoute Body} {ω : Nat → Outcome}
    (hp : c.Premise D userId (.request header route ω)) (now : Nat) :
    ∃ text, canActivate now header = .error (.unauthorized text) := by
  cases header with
  | none => exact ⟨_, rfl⟩
  | some token =>
    cases token with
    | none => exact ⟨_, rfl⟩
    | some j =>
      have hheld : j ∈ c.tokens := hp.bearer (some j) route ω rfl j rfl
      exact ⟨_, canActivate_challenge (h.tokens j hheld).1 now⟩

/-- The token of a socket does not verify, if it is no challenge. -/
theorem verify_outside (h : c.Outside userId) {socket : Nat} {token : Option Jwt}
    (hp : c.Premise D userId (.connect socket token))
    (hno : ¬ c.ConnectsChallenge (.connect socket token)) :
    verify c.server.now token = none := by
  cases hverify : verify c.server.now token with
  | none => rfl
  | some payload =>
    obtain ⟨j, hj, rfl⟩ := Option.map_eq_some_iff.mp hverify
    obtain ⟨rfl, -⟩ := Option.filter_eq_some_iff.mp hj
    have hheld : j ∈ c.tokens := hp.socket socket (some j) rfl j rfl
    exact absurd ⟨j.payload, hverify, (h.tokens j hheld).1⟩ hno

/-- A client that is connected nowhere receives nothing that is published. -/
theorem broadcast_outside (h : c.Outside userId) (isOpen : Nat → Bool) (tenantId : String)
    (message : RtMessage) : c.sockets.broadcast isOpen tenantId message = [] := by
  simp [RealtimeGateway.broadcast, h.sockets]

/-- More that turns the client away is received. -/
theorem Client.Outside.deliver (h : c.Outside userId) {ms : List (Delivery Body)}
    (hms : ∀ m ∈ ms, m.Refuses) : (c.deliver ms).Outside userId where
  tokens := h.tokens
  refreshTokens := h.refreshTokens
  sockets := h.sockets
  received m hm := (List.mem_append.mp hm).elim (h.received m) (hms m)

/-- A login that ends without tokens keeps the client outside; it may get a challenge. -/
theorem Client.Outside.keep (h : c.Outside userId) {r : Except ApiError AuthReply}
    (htokens : ∀ pair, r ≠ .ok (.tokens pair))
    (hchallenge : ∀ j, r = .ok (.mfaRequired j) →
      j.payload.purpose = some .mfa ∧ j.payload.sub = userId) :
    (c.keep s' r).Outside userId where
  tokens j hj := by
    rcases List.mem_append.mp hj with hj | hj
    · exact h.tokens j hj
    · obtain ⟨reply, hreply, hgranted⟩ := List.mem_flatMap.mp hj
      have hr : r = .ok reply := by
        cases r with
        | ok a => simpa [Except.toOption, eq_comm] using hreply
        | error e => simp [Except.toOption] at hreply
      subst hr
      cases reply with
      | tokens pair => exact absurd rfl (htokens pair)
      | mfaRequired mfaToken =>
        obtain rfl := List.mem_singleton.mp hgranted
        exact hchallenge j rfl
      | _ => cases hgranted
  refreshTokens := by
    have hnone : r.toOption.toList.flatMap AuthReply.refreshTokens = [] := by
      cases r with
      | error e => rfl
      | ok reply =>
        cases reply with
        | tokens pair => exact absurd rfl (htokens pair)
        | _ => rfl
    simp only [Client.keep, h.refreshTokens, hnone, List.append_nil]
  sockets := h.sockets
  received m hm := by
    rcases List.mem_append.mp hm with hm | hm
    · exact h.received m hm
    · rw [List.mem_singleton.mp hm]
      exact htokens

/-- The password of the user opens no session, only the way to its second factor. -/
theorem outside_login (h : c.Outside userId) {call : AuthCall} {ω : Nat → Outcome}
    (hp : c.Premise D userId (.login call ω)) {r : Except ApiError AuthReply}
    (hcall : c.server.complete D ω (call.code D) = some (r, s')) :
    (c.keep s' r).Outside userId := by
  have hleads := leads_of_complete hcall
  obtain ⟨me, hme, hon⟩ := hp.enrolled
  -- of the users with the e-mail address and the password, the client knows one
  have hknown : ∀ {dto : LoginDto} {u : User}, call = .login dto →
      u ∈ c.server.store.users.rows → u.email = dto.email →
      D.verifyPassword dto.password u.passwordHash = true → u.id = userId := by
    intro dto u hlogin hmem hemail hpassword
    by_contra hother
    rw [hp.password dto ω (by rw [hlogin]) u hmem hemail hother] at hpassword
    cases hpassword
  apply h.keep
  · intro pair hr
    cases hleads.reply _ hr with
    | login u found email active password single issued =>
      have hid := hknown rfl found email password
      rw [← hid, Table.get_eq_some_iff.mpr ⟨found, rfl⟩] at hme
      obtain rfl := Option.some_inj.mp hme
      rw [hon] at single
      cases single
    | @verified mfaToken code pair payload u token purpose found mfaEnabled secret valid issued =>
      obtain ⟨hholds, hcode⟩ := hp.code mfaToken code ω rfl
      obtain ⟨j, hj, rfl⟩ := Option.map_eq_some_iff.mp token
      obtain ⟨hj, -⟩ := Option.filter_eq_some_iff.mp hj
      rw [(h.tokens j (hholds j hj)).2] at found
      rw [hcode u found] at valid
      cases valid
    | @refreshed refreshToken pair record u hash exchangeable found active issued =>
      rcases hp.refresh refreshToken ω rfl with hheld | hunknown
      · rw [h.refreshTokens] at hheld
        cases hheld
      · exact hunknown record exchangeable.mem hash
    | other issues pair challenge => cases pair
  · intro j hr
    cases hleads.reply _ hr with
    | challenged u found email active password => exact ⟨rfl, hknown rfl found email password⟩
    | other issues pair challenge => exact absurd rfl (challenge j)

/-- **One event.** -/
theorem outside_step (h : c.Outside userId) {e : ClientEvent Body} (hp : c.Premise D userId e)
    (hno : ¬ c.ConnectsChallenge e) (hs : c.step D e = some c') : c'.Outside userId := by
  cases e with
  | login call ω =>
    obtain ⟨⟨r, s'⟩, hcall, rfl⟩ := Option.map_eq_some_iff.mp hs
    exact outside_login h hp hcall
  | request header route ω =>
    -- what the client holds are challenges, which the guard refuses
    obtain ⟨text, hguard⟩ := canActivate_outside h hp c.server.now
    simp only [Client.step, hguard, Option.some.injEq] at hs
    subst hs
    apply h.deliver
    simp [Delivery.Refuses]
  | connect socket token =>
    simp only [Client.step, verify_outside h hp hno, Option.some.injEq] at hs
    subst hs
    apply Client.Outside.deliver ⟨h.tokens, h.refreshTokens, h.sockets, h.received⟩
    simp [RealtimeGateway.handleConnection, deliveries, Delivery.Refuses]
  | disconnect socket =>
    obtain rfl := Option.some_inj.mp hs
    refine ⟨h.tokens, h.refreshTokens, ?_, h.received⟩
    rw [List.eq_nil_iff_forall_not_mem]
    intro e he
    have hmem := JsMap.mem_entries_of_delete he
    rw [h.sockets] at hmem
    cases hmem
  | others server =>
    obtain rfl := Option.some_inj.mp hs
    exact ⟨h.tokens, h.refreshTokens, h.sockets, h.received⟩
  | publish isOpen position =>
    simp only [Client.step, RealtimeGateway.publish, broadcast_outside h, Option.some.injEq] at hs
    subst hs
    exact h.deliver fun m hm => by cases hm
  | publishAlert isOpen alert =>
    simp only [Client.step, RealtimeGateway.publishAlert, broadcast_outside h,
      Option.some.injEq] at hs
    subst hs
    exact h.deliver fun m hm => by cases hm

/-! ## Two runs -/

/-- Two clients that have received the same, on servers that are alike. -/
structure Client.Twin (c c' : Client Body) : Prop where
  server : c.server.Alike c'.server
  sockets : c'.sockets = c.sockets
  received : c'.received = c.received

theorem Client.Twin.deliver (h : c.Twin c') (ms : List (Delivery Body)) :
    (c.deliver ms).Twin (c'.deliver ms) :=
  ⟨h.server, h.sockets, congrArg (· ++ ms) h.received⟩

/-- **One event of each.** -/
theorem twin_step {e e' : ClientEvent Body} {d d' : Client Body} (h : c.Twin c')
    (hout : c.Outside userId) (hp : c.Premise D userId e) (hno : ¬ c.ConnectsChallenge e)
    (he : e.Alike e') (hs : c.step D e = some d) (hs' : c'.step D e' = some d') : d.Twin d' := by
  -- neither client is in a room, so a broadcast reaches neither
  have hpublished : ∀ (isOpen : Nat → Bool) (tenantId : String) (message : RtMessage),
      c'.sockets.broadcast isOpen tenantId message = [] := by
    intro isOpen tenantId message
    rw [h.sockets]
    exact broadcast_outside hout isOpen tenantId message
  cases he with
  | others servers =>
    obtain rfl := Option.some_inj.mp hs
    obtain rfl := Option.some_inj.mp hs'
    exact ⟨servers, h.sockets, h.received⟩
  | publish isOpen isOpen' position position' =>
    simp only [Client.step, RealtimeGateway.publish, broadcast_outside hout, hpublished,
      Option.some.injEq] at hs hs'
    subst hs hs'
    exact h.deliver _
  | publishAlert isOpen isOpen' alert alert' =>
    simp only [Client.step, RealtimeGateway.publishAlert, broadcast_outside hout, hpublished,
      Option.some.injEq] at hs hs'
    subst hs hs'
    exact h.deliver _
  | same =>
    cases e with
    | login call ω =>
      -- the calls before the login read rows and clock of the one user, which are alike
      obtain ⟨out, hcall, rfl⟩ := Option.map_eq_some_iff.mp hs
      obtain ⟨out', hcall', rfl⟩ := Option.map_eq_some_iff.mp hs'
      obtain ⟨t', ht', halike⟩ := complete_blind (blind_call (hp.isPublic call ω rfl)) h.server hcall
      obtain rfl := Option.some_inj.mp (ht'.symm.trans hcall')
      have hreceived : c'.received ++ [.login out.1] = c.received ++ [.login out.1] := by
        rw [h.received]
      exact ⟨halike, h.sockets, hreceived⟩
    | request header route ω =>
      -- the guard refuses both with the same text, before any handler runs
      obtain ⟨text, hguard⟩ := canActivate_outside hout hp c.server.now
      simp only [Client.step, h.server.now, hguard, Option.some.injEq] at hs hs'
      subst hs hs'
      exact h.deliver _
    | connect socket token =>
      have hverify := verify_outside hout hp hno
      simp only [Client.step, h.server.now, hverify, Option.some.injEq] at hs hs'
      subst hs hs'
      exact Client.Twin.deliver ⟨h.server, h.sockets, h.received⟩ _
    | disconnect socket =>
      obtain rfl := Option.some_inj.mp hs
      obtain rfl := Option.some_inj.mp hs'
      exact ⟨h.server, congrArg (·.handleDisconnect socket) h.sockets, h.received⟩
    | others server =>
      obtain rfl := Option.some_inj.mp hs
      obtain rfl := Option.some_inj.mp hs'
      exact ⟨.refl server, h.sockets, h.received⟩
    | publish isOpen position =>
      simp only [Client.step, RealtimeGateway.publish, broadcast_outside hout, hpublished,
        Option.some.injEq] at hs hs'
      subst hs hs'
      exact h.deliver _
    | publishAlert isOpen alert =>
      simp only [Client.step, RealtimeGateway.publishAlert, broadcast_outside hout, hpublished,
        Option.some.injEq] at hs hs'
      subst hs hs'
      exact h.deliver _

/-! ## Every run -/

/-- A socket that is opened with a challenge is told that it is connected. -/
theorem connected_of_challenge {e : ClientEvent Body} (hchallenge : c.ConnectsChallenge e)
    (hs : c.step D e = some c') :
    ∃ tenantId, Delivery.message (.connected tenantId) ∈ c'.received := by
  cases e with
  | connect socket token =>
    obtain ⟨payload, hverify, -⟩ := hchallenge
    obtain rfl := Option.some_inj.mp hs
    refine ⟨payload.tenantId, List.mem_append_right _ ?_⟩
    simp [hverify, RealtimeGateway.handleConnection, deliveries, JwtPayload.user]
  | _ => exact hchallenge.elim

/-- What is received stays received. -/
theorem received_mono {e : ClientEvent Body} (hs : c.step D e = some c') :
    c.received ⊆ c'.received := by
  cases e with
  | login call ω =>
    obtain ⟨out, -, rfl⟩ := Option.map_eq_some_iff.mp hs
    exact List.subset_append_left _ _
  | request header route ω =>
    simp only [Client.step] at hs
    split at hs
    · obtain rfl := Option.some_inj.mp hs
      exact List.subset_append_left _ _
    · obtain ⟨out, -, rfl⟩ := Option.map_eq_some_iff.mp hs
      exact List.subset_append_left _ _
  | disconnect socket =>
    obtain rfl := Option.some_inj.mp hs
    exact List.Subset.refl _
  | others server =>
    obtain rfl := Option.some_inj.mp hs
    exact List.Subset.refl _
  | _ =>
    obtain rfl := Option.some_inj.mp hs
    exact List.subset_append_left _ _

theorem outside_start (s₀ : AuthStore) : (Client.start s₀ : Client Body).Outside userId where
  tokens _ hj := absurd hj List.not_mem_nil
  refreshTokens := rfl
  sockets := rfl
  received _ hm := absurd hm List.not_mem_nil

/-- **The second factor gates the data.** A client that knows only the password of a user whose
second factor is on is let in nowhere, and sees no data of any fleet, if and only if it opens no
socket with a challenge; the guard of the routes accepts no challenge. -/
theorem second_factor_iff (D : AuthDeployment) (s₀ : AuthStore) (userId : String)
    {es : List (ClientEvent Body)} {c : Client Body}
    (hrun : Run (Client.step D) (fun c e => c.Premise D userId e) (Client.start s₀) es c) :
    (c.Refused ∧ c.SeesNoData D s₀ es ↔
      Run (Client.step D) (fun c e => c.Premise D userId e ∧ ¬ c.ConnectsChallenge e)
        (Client.start s₀) es c) ∧
    ∀ j ∈ c.tokens, j.payload.purpose = some .mfa → ∀ now,
      canActivate now (some (some j)) = .error (.unauthorized "Invalid token") := by
  refine ⟨⟨fun hrefused => ?_, fun hguarded => ⟨?_, ?_⟩⟩, fun j _ hmfa now =>
    canActivate_challenge hmfa now⟩
  · -- a socket that was opened with a challenge would have been let in
    refine hrun.strengthen (P := fun c => c.Refused) (fun c e c' hp hs h => ?_) hrefused.1
    refine ⟨fun m hm => h m (received_mono hs hm), hp, fun hchallenge => ?_⟩
    obtain ⟨tenantId, hconnected⟩ := connected_of_challenge hchallenge hs
    cases h _ hconnected
  · have hout : c.Outside userId := hguarded.invariant (outside_start s₀)
      fun c e c' h hok hs => outside_step h hok.1 hok.2 hs
    exact hout.received
  · intro s₀' es' c' hservers hes hrun'
    have hpair : c.Outside userId ∧ c.Twin c' := by
      refine hguarded.paired hrun' hes (R := fun c c' => c.Outside userId ∧ c.Twin c')
        ⟨outside_start s₀, hservers, rfl, rfl⟩ ?_
      intro c c' e e' d d' h hok he hs hs'
      exact ⟨outside_step h.1 hok.1 hok.2 hs, twin_step h.2 h.1 hok.1 hok.2 he hs hs'⟩
    exact hpair.2.received

end Invariant


/-! ## A challenge on the routes and on the live feed -/

/-- The challenge that the user of `sampleEnrolled` gets. -/
def sampleChallenge : Jwt :=
  ⟨⟨"u", "acme", .viewer, "ops@acme.test", none, some .mfa⟩, 359⟩

def samplePosition : Position :=
  ⟨"acme", "truck", "356307042441013", "2026-07-01T10:00:00.000Z", 1, 2, 0, 0, 50, 8, none, []⟩

/-- `sampleEnrolled`, with a device in the fleet. -/
def sampleFleet : AuthStore :=
  { sampleEnrolled with
    store.backend.devices := Table.empty.put
      ⟨"truck", "acme", "356307042441013", none, "FMC130", .truck, .active, none, none, none⟩ }

/-- The route that lists the devices. -/
def devicesRoute : GuardedRoute (List Device) := fun user => lift (ApiRead.devicesList.code user)

/-- The event that logs in with the password. -/
def sampleLogin : ClientEvent (List Device) :=
  .login (.login ⟨"ops@acme.test", "secret"⟩) fun _ => .resolves ""

theorem sampleEnrolled_premise {c : Client (List Device)} {e : ClientEvent (List Device)}
    (husers : c.server.store.users = sampleEnrolled.store.users)
    (hlogin : ∀ call ω, e = .login call ω → call = .login ⟨"ops@acme.test", "secret"⟩)
    (hheld : ∀ token, (∃ route ω, e = .request (some token) route ω) ∨
      (∃ socket, e = .connect socket token) → c.Holds token) :
    c.Premise sampleAuth "u" e where
  enrolled := by
    rw [husers]
    exact ⟨_, rfl, rfl⟩
  isPublic call ω he := by
    rw [hlogin call ω he]
    exact Or.inl rfl
  password dto ω he row hrow _ hne := by
    rw [husers] at hrow
    rw [List.mem_singleton.mp hrow] at hne
    exact absurd rfl hne
  code token code ω he := by cases hlogin _ ω he
  refresh refreshToken ω he := by cases hlogin _ ω he
  bearer token route ω he := hheld token (Or.inl ⟨route, ω, he⟩)
  socket socket token he := hheld token (Or.inr ⟨socket, he⟩)

/-- The premise of the login. -/
theorem sampleLogin_premise : (Client.start sampleEnrolled).Premise sampleAuth "u" sampleLogin := by
  apply sampleEnrolled_premise rfl
  · intro call ω he
    cases he
    rfl
  · intro token he
    rcases he with ⟨_, _, he⟩ | ⟨_, he⟩
    · cases he
    · cases he

/-- The premise of whatever presents the challenge, once it is issued. -/
theorem sampleChallenge_premise {c : Client (List Device)} {e : ClientEvent (List Device)}
    (husers : c.server.store.users = sampleEnrolled.store.users) (hheld : sampleChallenge ∈ c.tokens)
    (hlogin : ∀ call ω, e ≠ .login call ω)
    (hpresented : ∀ token, (∃ route ω, e = .request (some token) route ω) ∨
      (∃ socket, e = .connect socket token) → token = some sampleChallenge) :
    c.Premise sampleAuth "u" e := by
  apply sampleEnrolled_premise husers
  · intro call ω he
    exact absurd he (hlogin call ω)
  · intro token he j hj
    rw [hpresented token he, Option.some.injEq] at hj
    rw [← hj]
    exact hheld

/-- A login, and a request for the devices with the challenge that it yields. -/
def sampleRequests : List (ClientEvent (List Device)) :=
  [sampleLogin, .request (some (some sampleChallenge)) devicesRoute fun _ => .resolves ""]

/-- The devices are not listed: the client receives the same with a device in the fleet and with
none. -/
theorem sample_second_factor : ∃ c,
    Run (Client.step sampleAuth) (fun c e => c.Premise sampleAuth "u" e)
      (Client.start sampleEnrolled) sampleRequests c ∧
    c.received = [.login (.ok (.mfaRequired sampleChallenge)),
      .answer (.error (.unauthorized "Invalid token"))] ∧
    ∀ c', Run (Client.step sampleAuth) (fun _ _ => True) (Client.start sampleFleet)
      sampleRequests c' → c'.received = c.received := by
  have hexists : ∃ c, Run (Client.step sampleAuth)
      (fun c e => c.Premise sampleAuth "u" e ∧ ¬ c.ConnectsChallenge e)
      (Client.start sampleEnrolled) sampleRequests c ∧
      c.received = [.login (.ok (.mfaRequired sampleChallenge)),
        .answer (.error (.unauthorized "Invalid token"))] := by
    refine ⟨_, .cons ⟨sampleLogin_premise, id⟩ rfl
      (.single ⟨sampleChallenge_premise rfl (List.mem_singleton_self _) ?_ ?_, id⟩ rfl), rfl⟩
    · intro call ω he
      cases he
    · intro token he
      rcases he with ⟨_, _, he⟩ | ⟨_, he⟩
      · cases he
        rfl
      · cases he
  obtain ⟨c, hguarded, hreceived⟩ := hexists
  have hrun : Run (Client.step sampleAuth) (fun c e => c.Premise sampleAuth "u" e)
      (Client.start sampleEnrolled) sampleRequests c := hguarded.mono fun _ _ hok => hok.1
  have hnothing := (second_factor_iff sampleAuth sampleEnrolled "u" hrun).1.mpr hguarded
  refine ⟨c, hrun, hreceived, fun c' hrun' => ?_⟩
  apply hnothing.2 sampleFleet sampleRequests c' ⟨rfl, rfl, rfl, rfl, rfl⟩ ?_ hrun'
  exact .cons (.same _) (.cons (.same _) .nil)

/-- With an access token they are. -/
example : (sampleFleet.complete sampleAuth (fun _ => .resolves "")
    (devicesRoute ⟨"u", "acme", .viewer, "ops@acme.test", none⟩)).map
      (fun out => out.1.toOption.map (List.map Device.id)) = some (some ["truck"]) := by
  decide

/-- With the same challenge, a socket of the live feed is opened, and a position of the tenant
comes through. -/
theorem challenge_opens_feed : ∃ c : Client (List Device),
    Run (Client.step sampleAuth) (fun c e => c.Premise sampleAuth "u" e)
      (Client.start sampleEnrolled)
      [sampleLogin, .connect 0 (some sampleChallenge),
        .publish (fun _ => true) samplePosition] c ∧
    Delivery.message (.position samplePosition) ∈ c.received := by
  have hissued : sampleChallenge ∈ [sampleChallenge] := List.mem_singleton_self _
  refine ⟨_, .cons sampleLogin_premise rfl (.cons (sampleChallenge_premise rfl hissued ?_ ?_) rfl
    (.single (sampleChallenge_premise rfl hissued ?_ ?_) rfl)), ?_⟩
  · intro call ω he
    cases he
  · intro token he
    rcases he with ⟨_, _, he⟩ | ⟨_, he⟩
    · cases he
    · cases he
      rfl
  · intro call ω he
    cases he
  · intro token he
    rcases he with ⟨_, _, he⟩ | ⟨_, he⟩
    · cases he
    · cases he
  · exact List.mem_append_right _ (List.mem_singleton_self _)

end FleetTracking.Auth
