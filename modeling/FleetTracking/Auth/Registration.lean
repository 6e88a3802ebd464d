import FleetTracking.Auth.TokenFamilies
import FleetTracking.Lib.Supply
import FleetTracking.Lib.Typestate

/-!
# Registrations that Overlap or Fail

`registerTenant` looks the e-mail address up, inserts the tenant, inserts its admin, and inserts a
refresh token, each in a request of its own. A registration that fails on the way leaves its tenant
behind, and two calls with one address may both find it free.

1. `RegistrationCall`: registrations, and the calls that create users.
2. `RegistrationPhase`, `registrationCalls`: how far a call has come.
3. `Registers`: an address is still free when the user is inserted, and no registration fails once
   its tenant is there.
4. `RegistrationInv`, `registration_all_or_nothing`: then every tenant was registered, and has its
   admin.
-/

namespace FleetTracking.Auth

open Async ControlPlane Transition Typestate

/-! ## Calls that overlap -/

/-- The calls that insert users. -/
inductive RegistrationCall where
  | registerTenant (dto : RegisterTenantDto)
  | create (tenantId : String) (dto : CreateUserDto)

def RegistrationCall.code (D : AuthDeployment) : RegistrationCall → AuthM AuthReply
  | .registerTenant dto => (AuthCall.registerTenant dto).code D
  | .create tenantId dto => (AuthCall.usersCreate tenantId dto).code D

/-- Registrations and new users, interleaved at their awaits, while time passes. -/
def registrations (D : AuthDeployment) :
    System authSig Nat RegistrationCall AuthReply AuthStore Outcome Nat where
  settle i _ op x s := some (s.settle i op x)
  act _ _ a s := s.act D a
  code := RegistrationCall.code D
  env ms s := some (s.elapse ms)

/-! ## The typestate -/

/-- How far a call has come. -/
structure RegistrationPhase where
  call : RegistrationCall
  -- The id that was drawn last, until a user has it.
  id : Option String := none
  -- The tenant that the call has inserted.
  tenant : Option Tenant := none
  -- The user is inserted.
  admin : Bool := false
  -- An insert after that of the tenant was rejected.
  failed : Bool := false

namespace RegistrationPhase

/-- One more thing has been seen. -/
def next (q : RegistrationPhase) : Seen authSig → RegistrationPhase
  | .did (.api .randomUUID) id => { q with id := some id }
  | .answered (.tenantsCreate _) (.ok t) => { q with tenant := some t }
  | .answered (.api (.usersCreate _)) (.ok _) => { q with id := none, admin := true }
  | .answered (.api (.usersCreate _)) (.error _) => { q with id := none, failed := true }
  | .answered (.refreshTokensCreate _) (.error _) => { q with failed := true }
  | _ => q

/-- What a call may await: a registration inserts its tenant, and then the admin. -/
def may (q : RegistrationPhase) : AuthOp → Prop
  | .api (.usersFindByEmail _) | .api (.subscriptionGet _) => True
  | .api (.devicesCount _) | .api (.usersCount _) => True
  | .tenantsCreate _ => q.tenant = none ∧ q.admin = false ∧ q.failed = false ∧
      ∃ dto, q.call = .registerTenant dto
  | .api (.usersCreate u) => q.id = some u.id ∧ ∀ dto, q.call = .registerTenant dto →
      ∃ t, q.tenant = some t ∧ u.tenantId = t.id ∧ u.role = .admin ∧ u.email = dto.adminEmail
  | .refreshTokensCreate _ => True
  | _ => False

/-- What a call may do at once. -/
def mayAct : AuthAct → Prop
  | .randomBytes | .api .randomUUID | .api (.backend .now) => True
  | _ => False

/-- A call that has inserted a tenant returns it, with an admin; or it fails after that. -/
def done (q : RegistrationPhase) : Except ApiError AuthReply → Prop
  | .ok reply => ∀ t, q.tenant = some t → q.admin = true ∧ ∃ pair, reply = .registered t pair
  | .error _ => q.tenant = none ∨ q.failed = true

end RegistrationPhase

/-- The typestate of registrations and new users. -/
def registrationCalls : Typestate authSig RegistrationCall AuthReply where
  Phase := RegistrationPhase
  init c := { call := c }
  next := RegistrationPhase.next
  may := RegistrationPhase.may
  mayAct _ := RegistrationPhase.mayAct
  done := RegistrationPhase.done

section Conforms

variable {D : AuthDeployment} {q : RegistrationPhase}

theorem conforms_registerTenant (dto : RegisterTenantDto) :
    registrationCalls.Conforms ((AuthCall.registerTenant dto).code D)
      { call := .registerTenant dto } registrationCalls.done := by
  simp only [AuthCall.code, AuthService.registerTenant, bind_assoc]
  refine Conforms.perform_bind trivial (fun existing => ?_) fun _ => Or.inl rfl
  split
  case isTrue => exact Or.inl rfl
  case isFalse =>
    simp only [bind_assoc, pure_bind]
    refine Conforms.action_bind trivial fun tenantId => ?_
    refine Conforms.perform_bind ⟨rfl, rfl, rfl, dto, rfl⟩ (fun tenant => ?_) fun _ => Or.inl rfl
    refine Conforms.action_bind trivial fun id => ?_
    refine Conforms.perform_bind ⟨rfl, fun dto' heq => ?_⟩ (fun user => ?_) fun _ => Or.inr rfl
    · cases heq
      exact ⟨tenant, rfl, rfl, rfl, rfl⟩
    · simp only [AuthService.issueTokens, AuthService.issueTokensIn, AuthService.accessToken,
        AuthService.sign, bind_assoc, pure_bind]
      refine Conforms.action_bind trivial fun familyId => ?_
      refine Conforms.action_bind trivial fun refreshToken => ?_
      refine Conforms.action_bind trivial fun now => ?_
      refine Conforms.action_bind trivial fun recordId => ?_
      refine Conforms.perform_bind trivial (fun record => ?_) fun _ => Or.inr rfl
      refine Conforms.action_bind trivial fun now => ?_
      -- The tenant that was inserted is returned.
      intro t ht
      cases ht
      exact ⟨rfl, _, rfl⟩

/-- A request of the API that the service passes on. -/
theorem conforms_lift {β : Type} {op : ApiOp} {f : op.Res → AuthM β}
    {post : RegistrationPhase → Except ApiError β → Prop} (hmay : q.may (.api op))
    (hok : ∀ a, registrationCalls.Conforms (f a)
      (q.next (.answered (S := authSig) (.api op) (.ok a))) post)
    (herr : ∀ e, post (q.next (.answered (S := authSig) (.api op) (.error e))) (.error e)) :
    registrationCalls.Conforms (lift (Api.request op) >>= f) q post := by
  rw [lift_request]
  exact Conforms.perform_bind hmay hok herr

theorem conforms_create (tenantId : String) (dto : CreateUserDto) :
    registrationCalls.Conforms ((AuthCall.usersCreate tenantId dto).code D)
      { call := .create tenantId dto } registrationCalls.done := by
  simp only [AuthCall.code, UsersService.create, BillingService.assertCanAddUser,
    BillingService.assertCanAdd, BillingService.planFor, BillingService.usage, lift_bind,
    bind_assoc]
  refine conforms_lift trivial (fun existing => ?_) fun _ => Or.inl rfl
  split
  case isTrue => exact Or.inl rfl
  case isFalse =>
    simp only [lift_bind, lift_pure, bind_assoc, pure_bind]
    refine conforms_lift trivial (fun sub => ?_) fun _ => Or.inl rfl
    refine conforms_lift trivial (fun devices => ?_) fun _ => Or.inl rfl
    refine conforms_lift trivial (fun users => ?_) fun _ => Or.inl rfl
    split
    case isTrue => exact Or.inl rfl
    case isFalse =>
      simp only [lift_pure, pure_bind]
      refine Conforms.action_bind trivial fun id => ?_
      refine conforms_lift ⟨rfl, fun dto' heq => (by cases heq)⟩ (fun user => ?_)
        fun _ => Or.inl rfl
      intro t ht
      cases ht

theorem registration_conforms (c : RegistrationCall) :
    registrationCalls.Conforms (c.code D) { call := c } registrationCalls.done := by
  cases c with
  | registerTenant dto => exact conforms_registerTenant dto
  | create tenantId dto => exact conforms_create tenantId dto

end Conforms

/-! ## The condition -/

/-- No user has the address. -/
def AuthStore.EmailFree (s : AuthStore) (email : String) : Prop :=
  ∀ v ∈ s.store.users.rows, v.email ≠ email

instance (s : AuthStore) (email : String) : Decidable (s.EmailFree email) :=
  inferInstanceAs (Decidable (∀ v ∈ s.store.users.rows, v.email ≠ email))

def RegistrationCall.registers : RegistrationCall → Bool
  | .registerTenant _ => true
  | .create _ _ => false

/-- What is asked of a request of the call `c` that turns out as `x`. A user is inserted while the
address is free; a tenant is not inserted by a request that rejects, and no later insert of its
registration rejects. -/
def AuthOp.Completes (s : AuthStore) (c : RegistrationCall) (x : Outcome) : AuthOp → Prop
  | .tenantsCreate _ => x.takesEffect = true → x.isOk = true
  | .api (.usersCreate u) => (x.takesEffect = true → s.EmailFree u.email) ∧
      (c.registers = true → x.isOk = true)
  | .refreshTokensCreate _ => x.isOk = true
  | _ => True

instance (s : AuthStore) (c : RegistrationCall) (x : Outcome) :
    (op : AuthOp) → Decidable (op.Completes s c x)
  | .tenantsCreate _ => inferInstanceAs (Decidable (_ → _))
  | .api (.usersCreate _) => inferInstanceAs (Decidable (_ ∧ _))
  | .refreshTokensCreate _ => inferInstanceAs (Decidable (_ = _))
  | .api op => by
    cases op
    case usersCreate u => exact inferInstanceAs (Decidable (_ ∧ _))
    all_goals exact .isTrue trivial
  | .usersUpdateMfa _ _ | .refreshTokensFindByHash _ | .refreshTokensMarkUsed _ _
  | .refreshTokensRevokeFamily _ _ => .isTrue trivial

/-- The state of the calls, and those that are over. -/
abbrev Registrations := History authSig RegistrationCall AuthReply AuthStore Nat

/-- Every request turns out as it is asked of it. -/
def Registers (h : Registrations) : Event RegistrationCall Outcome Nat Nat → Prop
  | .settle i x => ∀ th ∈ h.config.threads.lookup i,
      th.op.Completes h.config.shared th.call x
  | _ => True

instance (h : Registrations) :
    (e : Event RegistrationCall Outcome Nat Nat) → Decidable (Registers h e)
  | .settle i x => inferInstanceAs (Decidable (∀ th ∈ h.config.threads.lookup i,
      th.op.Completes h.config.shared th.call x))
  | .start _ _ | .resume _ | .env _ => .isTrue trivial

/-! ## The invariant -/

/-- At most one user has each address. -/
def AuthStore.UniqueEmails (s : AuthStore) : Prop :=
  ∀ u ∈ s.store.users.rows, ∀ v ∈ s.store.users.rows, u.email = v.email → u = v

/-- The tenant has the admin that it was registered with. -/
def AuthStore.HasAdmin (s : AuthStore) (t : Tenant) (dto : RegisterTenantDto) : Prop :=
  ∃ u ∈ s.store.users.rows, u.tenantId = t.id ∧ u.role = .admin ∧ u.email = dto.adminEmail

def AuthStore.UsesUserId (s : AuthStore) (id : String) : Prop :=
  ∃ u ∈ s.store.users.rows, u.id = id

/-- The calls in progress. -/
abbrev RegistrationPhases := Nat → Option (RegistrationCall × RegistrationPhase)

/-- The ids that calls have drawn for a user and not used yet. -/
abbrev heldUserIds (ph : RegistrationPhases) : Nat → Option String :=
  heldBy (fun call => call.2.id) ph

/-- What holds of the store `s`, of the calls in progress and of those that are over, if the store
was `s₀` at the start. -/
structure RegistrationInv (D : AuthDeployment) (s₀ s : AuthStore) (ph : RegistrationPhases)
    (ended : List (Ended authSig RegistrationCall AuthReply Nat)) : Prop where
  ids : Supply D.uuid s.store.drawn s.UsesUserId (heldUserIds ph)
  emails : s.UniqueEmails
  own : ∀ i c q, ph i = some (c, q) → q.call = c
  -- A call that has inserted its tenant is a registration, and has not failed.
  sound : ∀ i c q t, ph i = some (c, q) → q.tenant = some t →
    q.failed = false ∧ ∃ dto, c = .registerTenant dto ∧ (q.admin = true → s.HasAdmin t dto)
  tenants : ∀ t ∈ s.tenants.rows, t ∈ s₀.tenants.rows ∨
    (∃ i c q, ph i = some (c, q) ∧ q.tenant = some t) ∨
    ∃ i dto pair, (i, .registerTenant dto, .ok (.registered t pair)) ∈ ended ∧ s.HasAdmin t dto

section Inv

variable {D : AuthDeployment} {s₀ s s' : AuthStore} {ph : RegistrationPhases}
  {ended : List (Ended authSig RegistrationCall AuthReply Nat)} {i : Nat} {c : RegistrationCall}
  {q : RegistrationPhase}

/-- A call goes on with its own arguments. -/
theorem own_update {q' : RegistrationPhase} (h : ∀ j c q, ph j = some (c, q) → q.call = c)
    (hq' : q'.call = c) :
    ∀ j c' q, Function.update ph i (some (c, q')) j = some (c', q) → q.call = c' := by
  intro j c' q hj
  rcases update_some_iff.mp hj with ⟨-, heq⟩ | ⟨-, hj⟩
  · cases heq
    exact hq'
  · exact h j c' q hj

/-- A tenant stays with the call that has inserted it. -/
theorem inserted_update {t : Tenant} {q' : RegistrationPhase}
    (h : ∃ j c q, ph j = some (c, q) ∧ q.tenant = some t)
    (hkeep : ∀ c q, ph i = some (c, q) → q.tenant = some t → q'.tenant = some t) :
    ∃ j c' q, Function.update ph i (some (c, q')) j = some (c', q) ∧ q.tenant = some t := by
  obtain ⟨j, c', q, hj, htenant⟩ := h
  by_cases hji : j = i
  · subst hji
    exact ⟨j, c, q', Function.update_self .., hkeep c' q hj htenant⟩
  · exact ⟨j, c', q, by rwa [Function.update_of_ne hji], htenant⟩

/-- A store with the same users, tenants and ids. -/
theorem RegistrationInv.same (h : RegistrationInv D s₀ s ph ended)
    (husers : s'.store.users = s.store.users) (htenants : s'.tenants = s.tenants)
    (hdrawn : s'.store.drawn = s.store.drawn) : RegistrationInv D s₀ s' ph ended := by
  have hadmin : ∀ t dto, s.HasAdmin t dto → s'.HasAdmin t dto := by
    intro t dto hadmin
    rwa [AuthStore.HasAdmin, husers]
  refine ⟨?_, ?_, h.own, fun i c q t hi ht => ?_, fun t ht => ?_⟩
  · rw [hdrawn]
    refine h.ids.mono le_rfl fun a ha => ?_
    rwa [AuthStore.UsesUserId, husers] at ha
  · unfold AuthStore.UniqueEmails
    rw [husers]
    exact h.emails
  · obtain ⟨hfailed, dto, hc, hhas⟩ := h.sound i c q t hi ht
    exact ⟨hfailed, dto, hc, fun hq => hadmin t dto (hhas hq)⟩
  · rw [htenants] at ht
    rcases h.tenants t ht with ht | ht | ⟨j, dto, pair, hj, hhas⟩
    · exact Or.inl ht
    · exact Or.inr (Or.inl ht)
    · exact Or.inr (Or.inr ⟨j, dto, pair, hj, hadmin t dto hhas⟩)

/-- A call starts. -/
theorem RegistrationInv.start (h : RegistrationInv D s₀ s ph ended) (hi : ph i = none) :
    RegistrationInv D s₀ s (Function.update ph i (some (c, { call := c }))) ended := by
  refine ⟨?_, h.emails, own_update h.own rfl, fun j c' q t hj ht => ?_, fun t ht => ?_⟩
  · rw [heldUserIds, heldBy_idle hi rfl]
    exact h.ids
  · rcases update_some_iff.mp hj with ⟨-, heq⟩ | ⟨-, hj⟩
    · cases heq
      cases ht
    · exact h.sound j c' q t hj ht
  · refine (h.tenants t ht).imp_right (Or.imp_left fun hinserted => ?_)
    refine inserted_update hinserted fun c' q hq => ?_
    rw [hi] at hq
    cases hq

/-- A call draws an id. -/
theorem RegistrationInv.draw (h : RegistrationInv D s₀ s ph ended) (hi : ph i = some (c, q)) :
    RegistrationInv D s₀ { s with store.drawn := s.store.drawn + 1 }
      (Function.update ph i (some (c, { q with id := some (D.uuid s.store.drawn) }))) ended := by
  refine ⟨?_, h.emails, own_update h.own (h.own i c q hi), fun j c' q' t hj ht => ?_,
    fun t ht => ?_⟩
  · rw [heldUserIds, heldBy_update]
    exact h.ids.draw D.fresh i
  · rcases update_some_iff.mp hj with ⟨-, heq⟩ | ⟨-, hj⟩
    · cases heq
      exact h.sound i c q t hi ht
    · exact h.sound j c' q' t hj ht
  · refine (h.tenants t ht).imp_right (Or.imp_left fun hinserted => ?_)
    refine inserted_update hinserted fun c' p hp htenant => ?_
    rw [hi] at hp
    cases hp
    exact htenant

/-- A registration inserts its tenant. -/
theorem RegistrationInv.insertTenant (h : RegistrationInv D s₀ s ph ended)
    {dto : RegisterTenantDto} {t : Tenant} (hi : ph i = some (.registerTenant dto, q))
    (htenant : q.tenant = none) (hadmin : q.admin = false) (hfailed : q.failed = false) :
    RegistrationInv D s₀ { s with tenants := s.tenants.put t }
      (Function.update ph i (some (.registerTenant dto, { q with tenant := some t }))) ended := by
  refine ⟨?_, h.emails, own_update h.own (h.own i _ q hi), fun j c' q' t' hj ht => ?_,
    fun t' ht => ?_⟩
  · have hheld : heldUserIds (Function.update ph i
        (some (.registerTenant dto, { q with tenant := some t }))) = heldUserIds ph :=
      heldBy_same hi rfl
    rw [hheld]
    exact h.ids
  · rcases update_some_iff.mp hj with ⟨-, heq⟩ | ⟨-, hj⟩
    · cases heq
      refine ⟨hfailed, dto, rfl, fun hq => ?_⟩
      rw [hadmin] at hq
      cases hq
    · exact h.sound j c' q' t' hj ht
  · rcases Table.mem_put.mp ht with rfl | ⟨ht, -⟩
    · exact Or.inr (Or.inl ⟨i, _, _, Function.update_self .., rfl⟩)
    · refine (h.tenants t' ht).imp_right (Or.imp_left fun hinserted => ?_)
      refine inserted_update hinserted fun c' p hp hother => ?_
      rw [hi] at hp
      cases hp
      rw [htenant] at hother
      cases hother

/-- A user is inserted. A registration gets its admin so. -/
theorem RegistrationInv.insertUser (h : RegistrationInv D s₀ s ph ended) {u : User}
    (hi : ph i = some (c, q)) (hid : q.id = some u.id) (hfree : s.EmailFree u.email)
    {q' : RegistrationPhase}
    (hq' : q' = { q with id := none, admin := true } ∨
      q' = { q with id := none, failed := true } ∧ q.tenant = none)
    (hadmin : ∀ dto, c = .registerTenant dto → ∃ t, q.tenant = some t ∧ u.tenantId = t.id ∧
      u.role = .admin ∧ u.email = dto.adminEmail) :
    RegistrationInv D s₀ { s with store.users := s.store.users.put u }
      (Function.update ph i (some (c, q'))) ended := by
  have hheld : heldUserIds ph i = some u.id := by
    rw [heldUserIds, heldBy, hi]
    exact hid
  -- the id is held by this call, so no row has it
  have hnew : ∀ v ∈ s.store.users.rows, v.id ≠ u.id := fun v hv heq =>
    h.ids.unused i _ hheld ⟨v, hv, heq⟩
  have hkeeps : ∀ t dto, s.HasAdmin t dto →
      AuthStore.HasAdmin { s with store.users := s.store.users.put u } t dto := by
    rintro t dto ⟨v, hv, hvu⟩
    exact ⟨v, Table.mem_put.mpr (Or.inr ⟨hv, hnew v hv⟩), hvu⟩
  have hcall : q'.call = q.call := by
    rcases hq' with rfl | ⟨rfl, -⟩
    · rfl
    · rfl
  have hnone : q'.id = none := by
    rcases hq' with rfl | ⟨rfl, -⟩
    · rfl
    · rfl
  -- ids, e-mails, ownership, what the calls know, and where each tenant comes from
  refine ⟨?_, fun v hv w hw heq => ?_, own_update h.own (hcall.trans (h.own i c q hi)),
    fun j c' p t hj ht => ?_, fun t ht => ?_⟩
  · rw [heldUserIds, heldBy_update]
    simp only [hnone]
    refine h.ids.use hheld fun id hused => ?_
    obtain ⟨v, hv, rfl⟩ := hused
    rcases Table.mem_put.mp hv with rfl | ⟨hv, -⟩
    · exact Or.inl rfl
    · exact Or.inr ⟨v, hv, rfl⟩
  -- the e-mail was free when the user was put in
  · rcases Table.mem_put.mp hv with rfl | ⟨hvold, -⟩
    · rcases Table.mem_put.mp hw with rfl | ⟨hwold, -⟩
      · rfl
      · exact absurd heq.symm (hfree w hwold)
    · rcases Table.mem_put.mp hw with rfl | ⟨hwold, -⟩
      · exact absurd heq (hfree v hvold)
      · exact h.emails v hvold w hwold heq
  · rcases update_some_iff.mp hj with ⟨-, heq⟩ | ⟨-, hj⟩
    · cases heq
      rcases hq' with rfl | ⟨rfl, hq⟩
      · obtain ⟨hfailed, dto, rfl, -⟩ := h.sound i c q t hi ht
        refine ⟨hfailed, dto, rfl, fun _ => ?_⟩
        obtain ⟨t', ht', huser⟩ := hadmin dto rfl
        have htt' : t = t' := Option.some_inj.mp (ht.symm.trans ht')
        exact ⟨u, Table.mem_put.mpr (Or.inl rfl), htt' ▸ huser⟩
      · rw [hq] at ht
        cases ht
    · obtain ⟨hfailed, dto, hc, hhas⟩ := h.sound j c' p t hj ht
      exact ⟨hfailed, dto, hc, fun hp => hkeeps t dto (hhas hp)⟩
  · rcases h.tenants t ht with ht | hinserted | ⟨j, dto, pair, hj, hhas⟩
    · exact Or.inl ht
    · refine Or.inr (Or.inl (inserted_update hinserted fun c' p hp htenant => ?_))
      rw [hi] at hp
      cases hp
      rcases hq' with rfl | ⟨rfl, -⟩
      · exact htenant
      · exact htenant
    · exact Or.inr (Or.inr ⟨j, dto, pair, hj, hkeeps t dto hhas⟩)

/-- The insert of a user is rejected. -/
theorem RegistrationInv.rejectUser (h : RegistrationInv D s₀ s ph ended) (hi : ph i = some (c, q))
    (hnone : q.tenant = none) : RegistrationInv D s₀ s
      (Function.update ph i (some (c, { q with id := none, failed := true }))) ended := by
  refine ⟨?_, h.emails, own_update h.own (h.own i c q hi), fun j c' p t hj ht => ?_,
    fun t ht => ?_⟩
  · rw [heldUserIds, heldBy_update]
    exact h.ids.drop i
  · rcases update_some_iff.mp hj with ⟨-, heq⟩ | ⟨-, hj⟩
    · cases heq
      rw [show q.tenant = some t from ht] at hnone
      cases hnone
    · exact h.sound j c' p t hj ht
  · refine (h.tenants t ht).imp_right (Or.imp_left fun hinserted => ?_)
    refine inserted_update hinserted fun c' p hp hother => ?_
    rw [hi] at hp
    cases hp
    rw [hnone] at hother
    cases hother

/-- A call ends; a registration that has inserted its tenant returns it. -/
theorem RegistrationInv.finish (h : RegistrationInv D s₀ s ph ended) (hi : ph i = some (c, q))
    {r : Except ApiError AuthReply} (hdone : q.done r) :
    RegistrationInv D s₀ s (Function.update ph i none) (ended ++ [(i, c, r)]) := by
  refine ⟨?_, h.emails, fun j c' p hj => h.own j c' p (update_none_iff.mp hj).2,
    fun j c' p t hj => h.sound j c' p t (update_none_iff.mp hj).2, fun t ht => ?_⟩
  · rw [heldUserIds, heldBy_erase]
    exact h.ids.drop i
  · rcases h.tenants t ht with ht | ⟨j, c', p, hj, hp⟩ | ⟨j, dto, pair, hj, hhas⟩
    · exact Or.inl ht
    · by_cases hji : j = i
      · subst hji
        rw [hi] at hj
        cases hj
        obtain ⟨hfailed, dto, rfl, hhas⟩ := h.sound j c q t hi hp
        cases r with
        | ok reply =>
          obtain ⟨hadmin, pair, rfl⟩ := hdone t hp
          exact Or.inr (Or.inr ⟨j, dto, pair, List.mem_append_right _ (List.mem_singleton.mpr rfl),
            hhas hadmin⟩)
        | error e =>
          rcases hdone with hnone | hfail
          · rw [hp] at hnone
            cases hnone
          · rw [hfailed] at hfail
            cases hfail
      · exact Or.inr (Or.inl ⟨j, c', p, by rwa [Function.update_of_ne hji], hp⟩)
    · exact Or.inr (Or.inr ⟨j, dto, pair, List.mem_append_left _ hj, hhas⟩)

/-- A request that only reads. -/
theorem settle_read {op : AuthOp} {x : Outcome} {r : Except ApiError op.Res}
    (hset : s.settle i op x = (s', r)) (hnote : s.noteRead i op = s) (heffect : s.effect op = s) :
    s' = s := by
  obtain ⟨rfl, -⟩ := Prod.mk.inj hset
  rw [hnote, heffect, ite_self]

/-- What a request of a call does to the invariant. -/
theorem RegistrationInv.settle {op : AuthOp} {x : Outcome} {r : Except ApiError op.Res}
    (h : RegistrationInv D s₀ s ph ended) (hi : ph i = some (c, q)) (hmay : q.may op)
    (hok : op.Completes s c x) (hset : s.settle i op x = (s', r)) :
    RegistrationInv D s₀ s' (Function.update ph i (some (c, q.next (.answered op r)))) ended := by
  have hown := h.own i c q hi
  have hread : s' = s → q.next (.answered op r) = q → RegistrationInv D s₀ s'
      (Function.update ph i (some (c, q.next (.answered op r)))) ended := by
    intro hs' hq
    rw [hs', hq, Function.update_eq_self_iff.mpr hi.symm]
    exact h
  cases op with
  | tenantsCreate t =>
    obtain ⟨htenant, hadmin, hfailed, dto, hcall⟩ := hmay
    obtain rfl : c = .registerTenant dto := hown.symm.trans hcall
    cases x with
    | resolves reply =>
      cases hset
      exact h.insertTenant hi htenant hadmin hfailed
    | rejects e applied =>
      cases hset
      cases applied with
      | true => cases hok rfl
      | false => exact hread rfl rfl
  | refreshTokensCreate t =>
    cases x with
    | rejects e applied => cases hok
    | resolves reply =>
      cases hset
      rw [show q.next (.answered (S := authSig) (.refreshTokensCreate t) (.ok _)) = q from rfl,
        Function.update_eq_self_iff.mpr hi.symm]
      exact h.same rfl rfl rfl
  | usersUpdateMfa id patch => exact hmay.elim
  | refreshTokensFindByHash tokenHash => exact hmay.elim
  | refreshTokensMarkUsed id usedAt => exact hmay.elim
  | refreshTokensRevokeFamily familyId revokedAt => exact hmay.elim
  | api op =>
    cases op
    case usersFindByEmail email =>
      exact hread (settle_read hset rfl rfl) (by cases r <;> rfl)
    case subscriptionGet tenantId => exact hread (settle_read hset rfl rfl) (by cases r <;> rfl)
    case devicesCount tenantId => exact hread (settle_read hset rfl rfl) (by cases r <;> rfl)
    case usersCount tenantId => exact hread (settle_read hset rfl rfl) (by cases r <;> rfl)
    case usersCreate u =>
      obtain ⟨hid, hadmin⟩ := hmay
      rw [hown] at hadmin
      cases x with
      | resolves reply =>
        cases hset
        exact h.insertUser hi hid (hok.1 rfl) (Or.inl rfl) hadmin
      | rejects e applied =>
        -- Only a call that creates a user for a tenant may fail here.
        have hnone : q.tenant = none := by
          cases htenant : q.tenant with
          | none => rfl
          | some t =>
            obtain ⟨-, dto, rfl, -⟩ := h.sound i c q t hi htenant
            cases hok.2 rfl
        cases hset
        cases applied with
        | true => exact h.insertUser hi hid (hok.1 rfl) (Or.inr ⟨rfl, hnone⟩) hadmin
        | false => exact h.rejectUser hi hnone
    all_goals exact hmay.elim

/-- What a step of a call does to the invariant. -/
theorem RegistrationInv.act {a : AuthAct} (h : RegistrationInv D s₀ s ph ended)
    (hi : ph i = some (c, q)) (hmay : RegistrationPhase.mayAct a) :
    RegistrationInv D s₀ (s.act D a).1
      (Function.update ph i (some (c, q.next (.did a (s.act D a).2)))) ended := by
  have hsame : ∀ s' : AuthStore, s'.store.users = s.store.users → s'.tenants = s.tenants →
      s'.store.drawn = s.store.drawn →
      RegistrationInv D s₀ s' (Function.update ph i (some (c, q))) ended := by
    intro s' husers htenants hdrawn
    rw [Function.update_eq_self_iff.mpr hi.symm]
    exact h.same husers htenants hdrawn
  cases a with
  | randomBytes => exact hsame _ rfl rfl rfl
  | generateSecret => exact hmay.elim
  | api a =>
    cases a with
    | randomUUID => exact h.draw hi
    | forgetImei imei => exact hmay.elim
    | sweepOffline nowMs config => exact hmay.elim
    | backend a =>
      cases a with
      | now => exact hsame _ rfl rfl rfl
      | _ => exact hmay.elim

/-- **Calls whose requests turn out well keep the invariant.** -/
theorem registration_follows (D : AuthDeployment) (s₀ : AuthStore) :
    Follows (registrations D) registrationCalls Registers (RegistrationInv D s₀) where
  code := registration_conforms
  start h i c hinv hnone _ := by
    refine hinv.start ?_
    rw [phases, hnone]
    rfl
  act s ph ended i c q a hinv hi hmay := hinv.act hi hmay
  settle h i th x s' r hinv hi hmay hok hset :=
    hinv.settle (phases_of_lookup hi) hmay (hok th hi) (Option.some_inj.mp hset)
  finish s ph ended i c q r hinv hi hdone := hinv.finish hi hdone
  env h ms s' hinv _ henv := by
    cases henv
    exact hinv.same rfl rfl rfl

/-- **Registration is all or nothing.** However registrations and new users are interleaved: if an
address is still free whenever a user with it is inserted, and no request of a registration rejects
once its tenant is inserted, then no two users have one address, and when no call is in progress,
every new tenant was returned by its registration and has its admin. -/
theorem registration_all_or_nothing
    (hids : ∀ u ∈ s₀.store.users.rows, ∀ n, s₀.store.drawn ≤ n → u.id ≠ D.uuid n)
    (hemails : s₀.UniqueEmails) {es : List (Event RegistrationCall Outcome Nat Nat)}
    {h : Registrations}
    (hrun : Run (registrations D).follow Registers (History.start s₀) es h)
    (hidle : h.config.threads.keys = []) :
    h.config.shared.UniqueEmails ∧
      ∀ t ∈ h.config.shared.tenants.rows, t ∉ s₀.tenants.rows →
        ∃ i dto pair, (i, .registerTenant dto, .ok (.registered t pair)) ∈ h.ended ∧
          h.config.shared.HasAdmin t dto := by
  have hstart : RegistrationInv D s₀ s₀ (fun _ => none) [] := by
    refine ⟨Supply.start ?_, hemails, fun _ _ _ hi => (nomatch hi), fun _ _ _ _ hi => (nomatch hi),
      fun t ht => Or.inl ht⟩
    rintro id ⟨u, hu, rfl⟩
    exact hids u hu
  have hinv := (registration_follows D s₀).invariant hstart hrun
  refine ⟨hinv.emails, fun t ht hnew => ?_⟩
  rcases hinv.tenants t ht with hold | ⟨i, c, q, hi, -⟩ | hended
  · exact absurd hold hnew
  · simp [phases, lookup_of_keys hidle] at hi
  · exact hended

end Inv

/-! ## Two registrations at once -/

/-- Two registrations, side by side, all of whose requests resolve. -/
def registeringAtOnce (email email' : String) : List (Event RegistrationCall Outcome Nat Nat) :=
  ([.start 0 (.registerTenant ⟨"Acme", email, "secret"⟩),
    .start 1 (.registerTenant ⟨"Zenith", email', "secret"⟩)] :
      List (Event RegistrationCall Outcome Nat Nat)) ++
    ((List.replicate 4 [.settle 0 (.resolves ""), .resume 0, .settle 1 (.resolves ""),
      .resume 1]).flatten : List (Event RegistrationCall Outcome Nat Nat))

/-- A registration whose admin cannot be inserted. -/
def registeringWithoutAdmin : List (Event RegistrationCall Outcome Nat Nat) :=
  [.start 0 (.registerTenant ⟨"Acme", "admin@acme.test", "secret"⟩),
    .settle 0 (.resolves ""), .resume 0, .settle 0 (.resolves ""), .resume 0,
    .settle 0 (.rejects (.error "connection terminated") false), .resume 0]

/-- Two tenants with different admins. -/
theorem sample_registration : ∃ h : Registrations,
    Run (registrations sampleAuth).follow Registers (History.start sampleLogins)
      (registeringAtOnce "admin@acme.test" "admin@zenith.test") h ∧
    h.config.shared.tenants.rows.map Tenant.name = ["Acme", "Zenith"] ∧
    h.config.shared.UniqueEmails ∧
    ∀ t ∈ h.config.shared.tenants.rows, t ∉ sampleLogins.tenants.rows →
      ∃ i dto pair, (i, .registerTenant dto, .ok (.registered t pair)) ∈ h.ended ∧
        h.config.shared.HasAdmin t dto := by
  have hexists : ∃ h, Run (registrations sampleAuth).follow Registers (History.start sampleLogins)
      (registeringAtOnce "admin@acme.test" "admin@zenith.test") h ∧
      h.config.threads.keys = [] ∧
      h.config.shared.tenants.rows.map Tenant.name = ["Acme", "Zenith"] := by
    apply Run.exists_of_any
    decide +kernel
  obtain ⟨h, hrun, hidle, hnames⟩ := hexists
  exact ⟨h, hrun, hnames, registration_all_or_nothing (fun u hu => absurd hu List.not_mem_nil)
    (fun u hu => absurd hu List.not_mem_nil) hrun hidle⟩

/-- **Two users with one address**, and a tenant without an admin, whose registration has failed. -/
theorem registration_left_half :
    (∃ h : Registrations, Run (registrations sampleAuth).follow (fun _ _ => True)
        (History.start sampleLogins) (registeringAtOnce "admin@acme.test" "admin@acme.test") h ∧
      h.config.threads.keys = [] ∧ ¬ h.config.shared.UniqueEmails) ∧
    ∃ h : Registrations, Run (registrations sampleAuth).follow (fun _ _ => True)
        (History.start sampleLogins) registeringWithoutAdmin h ∧
      h.config.threads.keys = [] ∧ ∃ t ∈ h.config.shared.tenants.rows,
        (¬ ∃ i dto pair, (i, .registerTenant dto, .ok (.registered t pair)) ∈ h.ended) ∧
        ¬ ∃ dto, h.config.shared.HasAdmin t dto := by
  constructor
  -- both calls find the e-mail free, and both put their user in
  · have hexists : ∃ h, Run (registrations sampleAuth).follow (fun _ _ => True)
        (History.start sampleLogins) (registeringAtOnce "admin@acme.test" "admin@acme.test") h ∧
        h.config.threads.keys = [] ∧
        h.config.shared.store.users.rows.map (fun u => (u.id, u.email)) =
          [("xxx", "admin@acme.test"), ("xxxx", "admin@acme.test")] := by
      apply Run.exists_of_any
      decide +kernel
    obtain ⟨h, hrun, hidle, husers⟩ := hexists
    refine ⟨h, hrun, hidle, fun hunique => ?_⟩
    have hmem : ∀ p ∈ [("xxx", "admin@acme.test"), ("xxxx", "admin@acme.test")],
        ∃ u ∈ h.config.shared.store.users.rows, (u.id, u.email) = p := by
      intro p hp
      rw [← husers] at hp
      exact List.mem_map.mp hp
    obtain ⟨u, hu, hup⟩ := hmem _ List.mem_cons_self
    obtain ⟨v, hv, hvp⟩ := hmem _ (List.mem_cons_of_mem _ List.mem_cons_self)
    obtain ⟨huid, huemail⟩ := Prod.mk.inj hup
    obtain ⟨hvid, hvemail⟩ := Prod.mk.inj hvp
    have huv : u = v := hunique u hu v hv (huemail.trans hvemail.symm)
    rw [huv, hvid] at huid
    exact absurd huid (by decide)
  -- the tenant is in, and the write of the user is rejected
  · have hexists : ∃ h, Run (registrations sampleAuth).follow (fun _ _ => True)
        (History.start sampleLogins) registeringWithoutAdmin h ∧
        h.config.threads.keys = [] ∧ h.config.shared.store.users.rows.length = 0 ∧
        h.config.shared.tenants.rows.head? = some ⟨"x", "Acme"⟩ ∧
        h.ended.all (fun call => call.2.2.toOption.isNone) = true := by
      apply Run.exists_of_any
      decide +kernel
    obtain ⟨h, hrun, hidle, husers, htenant, hended⟩ := hexists
    refine ⟨h, hrun, hidle, _, List.mem_of_head? htenant, ?_, ?_⟩
    · rintro ⟨i, dto, pair, hi⟩
      exact absurd (List.all_eq_true.mp hended _ hi) (by simp [Except.toOption])
    · rintro ⟨dto, u, hu, -⟩
      rw [List.length_eq_zero_iff.mp husers] at hu
      exact absurd hu List.not_mem_nil

end FleetTracking.Auth
