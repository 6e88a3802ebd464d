import FleetTracking.ControlPlane.TenantIsolation
import FleetTracking.ControlPlane.WriteFrame

/-!
# The Calls of One User

What a user can do with its own credentials: calls of the departments, the users and the
devices, with any token it was ever issued, and logins.

1. `AccountCall`, `Account`, `AccountEvent`: the calls, and the store with the user's tokens.
2. `AccountCall.Leads`: where a call may lead; one lemma for each service.
3. `ends_list`, `ends_listDeleted`: the devices that a token shows.
4. `Account.Moves`, `moves_of_step`: what an event does.
-/

namespace FleetTracking.ControlPlane

open Async

/-! ## A user and its calls -/

/-- The calls of the departments, the users and the devices. -/
inductive AccountCall where
  | device (call : DeviceCall)
  | departmentsCreate (dto : CreateDepartmentDto)
  | departmentsUpdate (id : String) (dto : OrgUnitPatch)
  | departmentsRemove (id : String)
  | usersCreate (dto : CreateUserDto)
  | usersUpdate (id : String) (dto : UpdateUserDto)

/-- The roles that the controllers ask for. -/
def AccountCall.roles : AccountCall → List Role
  | .device (.remove _) => [.admin]
  | .device (.restore _) => [.admin]
  | .device _ => [.admin, .operator]
  | _ => [.admin]

/-- The operation behind a call. -/
def AccountCall.service : AccountCall → ServiceCall
  | .device call => .device call
  | .departmentsCreate dto => .departmentsCreate dto
  | .departmentsUpdate id dto => .departmentsUpdate id dto
  | .departmentsRemove id => .departmentsRemove id
  | .usersCreate dto => .usersCreate dto
  | .usersUpdate id dto => .usersUpdate id dto

/-- The code of the call, behind the guard of its roles. -/
def AccountCall.code (D : ApiDeployment) (user : AuthUser) (call : AccountCall) : Api Unit :=
  if user.role ∈ call.roles then call.service.code D user
  else throw (ApiError.forbidden "Insufficient role")

/-- The store, and the tokens a user holds. -/
structure Account where
  store : Store
  tokens : List AuthUser

inductive AccountEvent where
  -- A call with a token, run to completion with these outcomes of its requests.
  | call (token : AuthUser) (call : AccountCall) (ω : Nat → Outcome)
  | login (password : String) (ω : Nat → Outcome)
  | verifyMfa (code : String) (ω : Nat → Outcome)

/-- The token that a login has issued. -/
def LoginResult.issued : Except ApiError LoginResult → List AuthUser
  | .ok (.tokens token) => [token]
  | _ => []

/-- What happens to the account of the user `me`. -/
def Account.step (D : ApiDeployment) (me : User) (a : Account) : AccountEvent → Option Account
  | .call token call ω =>
    if token ∈ a.tokens then
      (a.store.complete D ω (call.code D token)).map fun out => { a with store := out.2 }
    else none
  | .login password ω =>
    (a.store.complete D ω (AuthService.login D me.email password)).map fun out =>
      { store := out.2, tokens := a.tokens ++ LoginResult.issued out.1 }
  | .verifyMfa code ω =>
    (a.store.complete D ω (AuthService.verifyMfa D me.id code)).map fun out =>
      { store := out.2, tokens := a.tokens ++ out.1.toOption.toList }

/-! ## What the calls do -/

/-- Where a call may lead: nothing that matters here changes, or what the call is for. -/
inductive AccountCall.Leads (D : ApiDeployment) (s : Store) (token : AuthUser) :
    AccountCall → Store → Prop where
  | same {call : AccountCall} {s' : Store} (devices : s'.backend.devices = s.backend.devices)
      (orgUnits : s'.backend.orgUnits = s.backend.orgUnits) (users : s'.users = s.users) :
      Leads D s token call s'
  | device {call : DeviceCall} {s' : Store}
      (within : s.Within token (token.scope s.backend.orgUnits) s') :
      Leads D s token (.device call) s'
  | created {dto : CreateDepartmentDto} {s' : Store} (u : OrgUnit) (id : u.id = D.uuid s.drawn)
      (parent : ∀ p, u.parentId = some p → p ≠ "" → ∃ v ∈ s.backend.orgUnits, v.id = p)
      (devices : s'.backend.devices = s.backend.devices)
      (orgUnits : s'.backend.orgUnits = putRow OrgUnit.id s.backend.orgUnits u)
      (users : s'.users = s.users) : Leads D s token (.departmentsCreate dto) s'
  | moved {id : String} {dto : OrgUnitPatch} {s' : Store} (u : OrgUnit)
      (mem : u ∈ s.backend.orgUnits) (id_eq : u.id = id)
      (parent : ∀ p, dto.parentId = some (some p) → ∃ v ∈ s.backend.orgUnits, v.id = p)
      (devices : s'.backend.devices = s.backend.devices)
      (orgUnits : s'.backend.orgUnits = putRow OrgUnit.id s.backend.orgUnits (dto.apply u))
      (users : s'.users = s.users) : Leads D s token (.departmentsUpdate id dto) s'
  | removed {id : String} {s' : Store} (keep : OrgUnit → Bool)
      (devices : s'.backend.devices = s.backend.devices)
      (orgUnits : s'.backend.orgUnits = s.backend.orgUnits.filter keep)
      (users : s'.users = s.users) : Leads D s token (.departmentsRemove id) s'
  | registered {dto : CreateUserDto} {s' : Store} (w : User) (id : w.id = D.uuid s.drawn)
      (email : ∀ v ∈ s.users.rows, v.email ≠ w.email)
      (devices : s'.backend.devices = s.backend.devices)
      (orgUnits : s'.backend.orgUnits = s.backend.orgUnits)
      (users : s'.users = s.users.put w) : Leads D s token (.usersCreate dto) s'
  | updated {id : String} {dto : UpdateUserDto} {s' : Store} (row : User)
      (mem : row ∈ s.users.rows) (id_eq : row.id = id)
      (devices : s'.backend.devices = s.backend.devices)
      (orgUnits : s'.backend.orgUnits = s.backend.orgUnits)
      (users : s'.users = s.users.put ((UsersService.patchOf D dto).apply row)) :
      Leads D s token (.usersUpdate id dto) s'

namespace DeviceTable

variable {t : DeviceTable} {d : Device} {tenantId : String} {scope : Option (List String)}

theorem not_outOfScope_iff : ¬ outOfScope scope d = true ↔
    ∀ ids, scope = some ids → ∃ departmentId ∈ ids, d.departmentId = some departmentId := by
  unfold outOfScope
  cases scope with
  | none => simp
  | some ids =>
    cases d.departmentId with
    | none => simp
    | some departmentId => simp

theorem mem_list : d ∈ t.list tenantId scope ↔
    d ∈ t.rows ∧ d.within tenantId scope ∧ d.deletedAt = none := by
  have hin : (scope.all fun ids => d.departmentId.any fun departmentId => departmentId ∈ ids) = true ↔
      ∀ ids, scope = some ids → ∃ departmentId ∈ ids, d.departmentId = some departmentId := by
    cases scope with
    | none => simp
    | some ids =>
      cases d.departmentId with
      | none => simp
      | some departmentId => simp
  simp only [list, List.mem_filter, decide_eq_true_eq, Device.within, hin]
  constructor
  · rintro ⟨hd, htenant, hlive, hin⟩
    exact ⟨hd, ⟨htenant, hin⟩, hlive⟩
  · rintro ⟨hd, ⟨htenant, hin⟩, hlive⟩
    exact ⟨hd, htenant, hlive, hin⟩

end DeviceTable

section Leads

variable {D : ApiDeployment} {s : Store} {token : AuthUser}

theorem leads_refl (call : AccountCall) : call.Leads D s token s := .same rfl rfl rfl

/-- The parent of a new department is one of its tenant. -/
theorem ends_checkExists {β : Type} {may : Outcome → Prop} {tenantId : String}
    {parentId : Option String} {f : Unit → Api β} {Q : Except ApiError β → Store → Prop}
    (hok : (∀ p, parentId = some p → p ≠ "" → ∃ v, findUnit s.backend.orgUnits tenantId p = some v) →
      Store.Ends D may Q (f ()) s)
    (herr : ∀ e, Q (.error e) s) :
    Store.Ends D may Q (DepartmentsService.checkExists tenantId parentId >>= f) s := by
  unfold DepartmentsService.checkExists
  cases hparent : parentId.filter truthy with
  | none =>
    refine hok fun p hp hne => ?_
    rw [hp] at hparent
    simp [Option.filter, truthy, hne] at hparent
  | some parentId' =>
    simp only [bind_assoc]
    refine ends_read rfl rfl (fun reply => ?_) fun e _ _ => herr e
    split
    case isTrue hsome =>
      obtain ⟨v, hfound⟩ := Option.isSome_iff_exists.mp hsome
      refine hok fun p hp _ => ⟨v, ?_⟩
      rw [hp] at hparent
      rw [Option.some_inj.mp ((Option.filter_eq_some_iff.mp hparent).1)]
      exact hfound
    case isFalse => exact herr _

/-- The parent that a department is given is one of its tenant, and not below the department. -/
theorem ends_checkParent {β : Type} {may : Outcome → Prop} {tenantId id : String}
    {parentId : Option (Option String)} {f : Unit → Api β} {Q : Except ApiError β → Store → Prop}
    (hok : (∀ p, parentId = some (some p) →
        (∃ v, findUnit s.backend.orgUnits tenantId p = some v) ∧
        ∀ all, all = s.backend.orgUnits.filter (fun u => u.tenantId = tenantId) →
          id ∉ ancestors all (all.length + 1) (some p)) →
      Store.Ends D may Q (f ()) s)
    (herr : ∀ e, Q (.error e) s) :
    Store.Ends D may Q (DepartmentsService.checkParent tenantId id parentId >>= f) s := by
  unfold DepartmentsService.checkParent
  -- a parent is checked three times: not itself, there at all, and not below
  split
  case h_1 p =>
    split
    case isTrue => exact herr _
    case isFalse =>
      simp only [bind_assoc]
      refine ends_read rfl rfl (fun reply => ?_) fun e _ _ => herr e
      split
      case isTrue hsome =>
        simp only [bind_assoc]
        refine ends_read rfl rfl (fun reply => ?_) fun e _ _ => herr e
        split
        case isTrue => exact herr _
        case isFalse hnot =>
          refine hok fun p' hp' => ?_
          cases hp'
          refine ⟨Option.isSome_iff_exists.mp hsome, fun all hall => ?_⟩
          subst hall
          exact hnot
      case isFalse => exact herr _
  case h_2 hnone => exact hok fun p hp => absurd hp (hnone p)

theorem leads_departmentsCreate (dto : CreateDepartmentDto) :
    Store.Ends D (fun _ => True)
      (fun _ s' => (AccountCall.departmentsCreate dto).Leads D s token s')
      ((ServiceCall.departmentsCreate dto).code D token) s := by
  simp only [ServiceCall.code, ignore, DepartmentsService.create, bind_assoc]
  refine ends_checkExists (fun hfound => ends_step ?_) fun _ => leads_refl _
  have hparent : ∀ p, dto.parentId = some p → p ≠ "" → ∃ v ∈ s.backend.orgUnits, v.id = p := by
    intro p hp hne
    obtain ⟨v, hv⟩ := hfound p hp hne
    exact ⟨v, (findUnit_eq_some hv).1, (findUnit_eq_some hv).2.1⟩
  refine ends_write rfl (fun _ => ?_) (fun _ _ => .same rfl rfl rfl) fun _ _ => ?_
  · exact .created _ rfl hparent rfl rfl rfl
  · exact .created _ rfl hparent rfl rfl rfl

theorem leads_departmentsUpdate (id : String) (dto : OrgUnitPatch) :
    Store.Ends D (fun _ => True)
      (fun _ s' => (AccountCall.departmentsUpdate id dto).Leads D s token s')
      ((ServiceCall.departmentsUpdate id dto).code D token) s := by
  simp only [ServiceCall.code, ignore, DepartmentsService.update, bind_assoc]
  refine ends_read rfl rfl (fun reply => ?_) fun _ _ _ => leads_refl _
  split
  case isTrue hsome =>
    obtain ⟨u, hfound⟩ := Option.isSome_iff_exists.mp hsome
    have hfound : findUnit s.backend.orgUnits token.tenantId id = some u := hfound
    obtain ⟨hu, hid, -⟩ := findUnit_eq_some hfound
    simp only [bind_assoc]
    refine ends_checkParent (fun hchecked => ?_) fun _ => leads_refl _
    have hparent : ∀ p, dto.parentId = some (some p) → ∃ v ∈ s.backend.orgUnits, v.id = p := by
      intro p hp
      obtain ⟨⟨v, hv⟩, -⟩ := hchecked p hp
      exact ⟨v, (findUnit_eq_some hv).1, (findUnit_eq_some hv).2.1⟩
    have hleads : (AccountCall.departmentsUpdate id dto).Leads D s token
        (s.effect (.orgUnitsSet (dto.apply u))) := .moved u hu hid hparent rfl rfl rfl
    simp only [OrgUnitRepository.update, bind_assoc]
    refine ends_read rfl rfl (fun _ => ?_) fun _ _ _ => leads_refl _
    simp only [Store.answer, hfound, bind_assoc]
    exact ends_write rfl (fun _ => hleads) (fun _ _ => leads_refl _) fun _ _ => hleads
  case isFalse => exact leads_refl _

theorem leads_departmentsRemove (id : String) :
    Store.Ends D (fun _ => True)
      (fun _ s' => (AccountCall.departmentsRemove id).Leads D s token s')
      ((ServiceCall.departmentsRemove id).code D token) s := by
  simp only [ServiceCall.code, DepartmentsService.remove]
  have hleads : (AccountCall.departmentsRemove id).Leads D s token
      (s.effect (.orgUnitsRemove token.tenantId id)) := by
    simp only [Store.effect, removeUnit]
    cases findUnit s.backend.orgUnits token.tenantId id with
    | none => exact .same rfl rfl rfl
    | some u => exact .removed _ rfl rfl rfl
  refine ends_write rfl (fun _ => ?_) (fun _ _ => leads_refl _) fun _ _ => hleads
  split
  · exact hleads
  · exact hleads

theorem leads_usersCreate (dto : CreateUserDto) :
    Store.Ends D (fun _ => True) (fun _ s' => (AccountCall.usersCreate dto).Leads D s token s')
      ((ServiceCall.usersCreate dto).code D token) s := by
  simp only [ServiceCall.code, ignore, UsersService.create, BillingService.assertCanAddUser,
    bind_assoc]
  refine ends_read rfl rfl (fun reply => ?_) fun _ _ _ => leads_refl _
  by_cases hfound : (s.answer reply (.usersFindByEmail dto.email)).isSome = true
  · rw [if_pos hfound]
    exact leads_refl _
  · rw [if_neg hfound]
    have hemail : ∀ v ∈ s.users.rows, v.email ≠ dto.email := by
      simpa [Store.answer] using hfound
    simp only [bind_assoc, pure_bind]
    refine ends_assertCanAdd (ends_step ?_) fun _ => leads_refl _
    refine ends_write rfl (fun _ => ?_) (fun _ _ => .same rfl rfl rfl) fun _ _ => ?_
    · exact .registered _ rfl hemail rfl rfl rfl
    · exact .registered _ rfl hemail rfl rfl rfl

theorem leads_usersUpdate (id : String) (dto : UpdateUserDto) :
    Store.Ends D (fun _ => True) (fun _ s' => (AccountCall.usersUpdate id dto).Leads D s token s')
      ((ServiceCall.usersUpdate id dto).code D token) s := by
  simp only [ServiceCall.code, ignore, UsersService.update, bind_assoc]
  refine ends_read rfl rfl (fun _ => ?_) fun _ _ _ => leads_refl _
  simp only [Store.answer]
  cases hfound : (s.users.get id).filter fun target => target.tenantId = token.tenantId with
  | none => exact leads_refl _
  | some row =>
    obtain ⟨hget, -⟩ := Option.filter_eq_some_iff.mp hfound
    obtain ⟨hrow, hid⟩ := Table.get_eq_some_iff.mp hget
    have hleads : (AccountCall.usersUpdate id dto).Leads D s token
        (s.effect (.usersUpdate id (UsersService.patchOf D dto))) := by
      simp only [Store.effect, hget]
      exact .updated row hrow hid rfl rfl rfl
    simp only
    -- nobody deactivates the own account
    by_cases hself : id = token.userId ∧ dto.active = some false
    · rw [if_pos hself]
      exact leads_refl _
    · rw [if_neg hself]
      simp only [bind_assoc]
      refine ends_write rfl (fun _ => ?_) (fun _ _ => leads_refl _) fun _ _ => hleads
      split
      · exact hleads
      · exact hleads

/-- **Where a call leads**, whatever the outcomes of its requests. -/
theorem leads_call (h : s.WellFormed D) (call : AccountCall) :
    Store.Ends D (fun _ => True) (fun _ s' => call.Leads D s token s') (call.code D token) s := by
  unfold AccountCall.code
  split
  case isTrue =>
    cases call with
    | device call =>
      have hfresh : ∀ d ∈ s.backend.devices.rows, d.id ≠ D.uuid s.drawn :=
        fun d hd => h.deviceIds d.id (List.mem_map_of_mem hd) s.drawn le_rfl
      exact Async.Ends.mono (frame_call rfl hfresh call) fun _ _ hwithin => .device hwithin
    | departmentsCreate dto => exact leads_departmentsCreate dto
    | departmentsUpdate id dto => exact leads_departmentsUpdate id dto
    | departmentsRemove id => exact leads_departmentsRemove id
    | usersCreate dto => exact leads_usersCreate dto
    | usersUpdate id dto => exact leads_usersUpdate id dto
  case isFalse => exact leads_refl _

/-- The list of devices that a token shows. -/
theorem ends_list : Store.Ends D (fun _ => True)
    (fun r _ => ∀ ds, r = .ok ds → ∀ d, d ∈ ds ↔ d ∈ s.backend.devices.rows ∧
      d.within token.tenantId (token.scope s.backend.orgUnits) ∧ d.deletedAt = none)
    (DevicesService.list token) s := by
  unfold DevicesService.list
  refine ends_scopeFor ?_ fun _ _ _ ds hds => nomatch hds
  rw [← bind_pure (Api.request _)]
  refine ends_read rfl rfl (fun _ ds hds d => ?_) fun e _ _ ds hds => nomatch hds
  obtain rfl := Except.ok.inj hds
  exact DeviceTable.mem_list

/-- The list of deleted devices that a token shows. -/
theorem ends_listDeleted : Store.Ends D (fun _ => True)
    (fun r _ => ∀ ds, r = .ok ds → ∀ d, d ∈ ds ↔ d ∈ s.backend.devices.rows ∧
      d.within token.tenantId (token.scope s.backend.orgUnits) ∧ d.deletedAt ≠ none)
    (DevicesService.listDeleted token) s := by
  unfold DevicesService.listDeleted
  refine ends_scopeFor ?_ fun _ _ _ ds hds => nomatch hds
  refine ends_read rfl rfl (fun _ ds hds d => ?_) fun e _ _ ds hds => nomatch hds
  obtain rfl := Except.ok.inj hds
  simp only [Store.answer, DeviceTable.listDeleted, List.mem_filter, List.mem_mergeSort,
    decide_eq_true_eq, DeviceTable.not_outOfScope_iff]
  constructor
  · rintro ⟨⟨hd, htenant, hdeleted⟩, hin⟩
    exact ⟨hd, ⟨htenant, hin⟩, hdeleted⟩
  · rintro ⟨hd, ⟨htenant, hin⟩, hdeleted⟩
    exact ⟨⟨hd, htenant, hdeleted⟩, hin⟩

/-- A login leaves the store as it is, and issues at most a token for a user with the email. -/
theorem ends_login (email password : String) :
    Store.Ends D (fun _ => True) (fun r s' => s' = s ∧ ∀ token ∈ LoginResult.issued r,
      ∃ row ∈ s.users.rows, row.email = email ∧ token = AuthService.accessToken row)
      (AuthService.login D email password) s := by
  have hnone : ∀ e, (s = s ∧ ∀ token ∈ LoginResult.issued (.error e),
      ∃ row ∈ s.users.rows, row.email = email ∧ token = AuthService.accessToken row) :=
    fun e => ⟨rfl, fun token h => absurd h List.not_mem_nil⟩
  unfold AuthService.login
  refine ends_read rfl rfl (fun _ => ?_) fun e _ _ => hnone e
  simp only [Store.answer]
  cases hfound : (s.users.rows.find? fun u => u.email = email).filter fun user =>
      user.active ∧ D.verifyPassword password user.passwordHash with
  | none => exact hnone _
  | some row =>
    obtain ⟨hfind, -⟩ := Option.filter_eq_some_iff.mp hfound
    have hrow := List.mem_of_find?_eq_some hfind
    have hemail : row.email = email := by simpa using List.find?_some hfind
    simp only
    split
    · exact ⟨rfl, fun token h => absurd h List.not_mem_nil⟩
    · exact ⟨rfl, fun token h => ⟨row, hrow, hemail, List.mem_singleton.mp h⟩⟩

/-- So does the second half of a login. -/
theorem ends_verifyMfa (userId code : String) :
    Store.Ends D (fun _ => True) (fun r s' => s' = s ∧ ∀ token ∈ r.toOption.toList,
      ∃ row ∈ s.users.rows, row.id = userId ∧ token = AuthService.accessToken row)
      (AuthService.verifyMfa D userId code) s := by
  have hnone : ∀ e : ApiError, (s = s ∧ ∀ token ∈ (.error e : Except ApiError AuthUser).toOption.toList,
      ∃ row ∈ s.users.rows, row.id = userId ∧ token = AuthService.accessToken row) :=
    fun e => ⟨rfl, fun token h => absurd h List.not_mem_nil⟩
  unfold AuthService.verifyMfa
  refine ends_read rfl rfl (fun _ => ?_) fun e _ _ => hnone e
  simp only [Store.answer]
  cases hfound : (s.users.get userId).filter fun user =>
      user.mfaEnabled ∧ user.mfaSecret.any truthy with
  | none => exact hnone _
  | some row =>
    obtain ⟨hget, -⟩ := Option.filter_eq_some_iff.mp hfound
    obtain ⟨hrow, hid⟩ := Table.get_eq_some_iff.mp hget
    refine ends_step ?_
    split
    · exact ⟨rfl, fun token h => ⟨row, hrow, hid, List.mem_singleton.mp h⟩⟩
    · exact hnone _

end Leads

/-! ## Events -/

/-- What an event of the user does. -/
inductive Account.Moves (D : ApiDeployment) (me : User) (a : Account) :
    AccountEvent → Account → Prop where
  | call {token : AuthUser} {call : AccountCall} {ω : Nat → Outcome} {a' : Account}
      (held : token ∈ a.tokens) (leads : call.Leads D a.store token a'.store)
      (wellFormed : a'.store.WellFormed D) (drawn : a.store.drawn ≤ a'.store.drawn)
      (tokens : a'.tokens = a.tokens) : Moves D me a (.call token call ω) a'
  | login {e : AccountEvent} {a' : Account} (store : a'.store = a.store)
      (tokens : ∀ token ∈ a'.tokens, token ∈ a.tokens ∨ ∃ row ∈ a.store.users.rows,
        (row.email = me.email ∨ row.id = me.id) ∧ token = AuthService.accessToken row) :
      Moves D me a e a'

section Events

variable {D : ApiDeployment} {me : User} {a a' : Account} {s s' : Store}

/-- The guard of the roles changes nothing. -/
theorem wellFormed_code (h : s.WellFormed D) {token : AuthUser} {call : AccountCall}
    {ω : Nat → Outcome} {r : Except ApiError Unit}
    (hcall : s.complete D ω (call.code D token) = some (r, s')) : s'.WellFormed D := by
  unfold AccountCall.code at hcall
  split at hcall
  · exact wellFormed_call h hcall
  · cases hcall
    exact h

theorem moves_of_step (h : a.store.WellFormed D) {e : AccountEvent}
    (hstep : a.step D me e = some a') : a.Moves D me e a' := by
  cases e with
  | call token call ω =>
    by_cases hheld : token ∈ a.tokens
    · obtain ⟨⟨r, s'⟩, hcall, rfl⟩ := Option.map_eq_some_iff.mp ((if_pos hheld).symm.trans hstep)
      exact .call hheld ((leads_call h call).of_complete (fun _ => trivial) hcall)
        (wellFormed_code h hcall) (drawn_le hcall) rfl
    · cases (if_neg hheld).symm.trans hstep
  | login password ω =>
    obtain ⟨⟨r, s'⟩, hcall, rfl⟩ := Option.map_eq_some_iff.mp hstep
    obtain ⟨hstore, hissued⟩ := (ends_login me.email password).of_complete (fun _ => trivial) hcall
    refine .login hstore fun token htoken => (List.mem_append.mp htoken).imp_right fun htoken => ?_
    obtain ⟨row, hrow, hemail, heq⟩ := hissued token htoken
    exact ⟨row, hrow, Or.inl hemail, heq⟩
  | verifyMfa code ω =>
    obtain ⟨⟨r, s'⟩, hcall, rfl⟩ := Option.map_eq_some_iff.mp hstep
    obtain ⟨hstore, hissued⟩ := (ends_verifyMfa me.id code).of_complete (fun _ => trivial) hcall
    refine .login hstore fun token htoken => (List.mem_append.mp htoken).imp_right fun htoken => ?_
    obtain ⟨row, hrow, hid, heq⟩ := hissued token htoken
    exact ⟨row, hrow, Or.inr hid, heq⟩

end Events

end FleetTracking.ControlPlane
