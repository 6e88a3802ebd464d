import FleetTracking.ControlPlane.Services
import FleetTracking.ControlPlane.TenantStores
import FleetTracking.Lib.Transition

/-!
# Tenants Do Not Touch Each Other

No operation of the services, made for a user of one tenant with whatever arguments, changes
what another tenant reads.

1. `Kept`: every operation only makes requests that write for the tenant of its user.
2. `ServiceCall`: a call of an operation.
3. `tenant_isolation`: in every reachable state, whatever the outcomes of the requests.
-/

namespace FleetTracking.ControlPlane

open Async Transition

/-! ## Operations -/

/-- Well-formed stores that look to a tenant as they did in `s₀`. -/
def Store.Kept (D : ApiDeployment) (other : String) (s₀ s : Store) : Prop :=
  s₀.SameFor other s ∧ s.WellFormed D

section Operations

variable {D : ApiDeployment} {s₀ s : Store} {other : String} {user : AuthUser} {α β : Type}

theorem kept_effect (hne : other ≠ user.tenantId) (h : s₀.Kept D other s) {op : ApiOp}
    (hby : op.By D user.tenantId s) : s₀.Kept D other (s.effect op) :=
  ⟨h.1.trans (same_effect hne h.2 op hby), wellFormed_effect h.2 op hby⟩

/-- The ghost note of a read changes nothing that is read. -/
theorem kept_noteRead (h : s₀.Kept D other s) (op : ApiOp) : s₀.Kept D other (s.noteRead 0 op) := by
  cases op with
  | backend op =>
    cases op with
    | hotGetLast tenantId deviceId => exact ⟨{ h.1 with }, { h.2 with }⟩
    | positionsLatest tenantId deviceId => exact ⟨{ h.1 with }, { h.2 with }⟩
    | _ => exact h
  | _ => exact h

/-- A request whose arguments say that it is the tenant's. -/
theorem keeps_request (hne : other ≠ user.tenantId) {op : ApiOp}
    (hby : ∀ s, op.By D user.tenantId s) : Store.Maintains D (s₀.Kept D other) (Api.request op) :=
  maintains_request (fun _ hs => kept_noteRead hs op) fun s hs => kept_effect hne hs (hby s)

/-- A request that is the tenant's in the state where it is made. -/
theorem keeps_write (hne : other ≠ user.tenantId) (h : s₀.Kept D other s) {op : ApiOp}
    {f : op.Res → Api β} (hnote : s.noteRead 0 op = s) (hby : op.By D user.tenantId s)
    (hf : ∀ a, Store.Maintains D (s₀.Kept D other) (f a)) :
    Store.Ends D (fun _ => True) (fun _ s' => s₀.Kept D other s') (Api.request op >>= f) s :=
  ends_write hnote (fun _ => hf _ _ (kept_effect hne h hby)) (fun _ _ => h)
    fun _ _ => kept_effect hne h hby

theorem kept_drawn (h : s₀.Kept D other s) :
    s₀.Kept D other { s with drawn := s.drawn + 1 } :=
  ⟨{ h.1 with }, wellFormed_drawn h.2⟩

/-! ### Shared helpers -/

theorem keeps_lift_bind {x : Cp α} {f : α → Cp β}
    (hx : Store.Maintains D (s₀.Kept D other) (Api.lift x))
    (hf : ∀ a, Store.Maintains D (s₀.Kept D other) (Api.lift (f a))) :
    Store.Maintains D (s₀.Kept D other) (Api.lift (x >>= f)) := by
  rw [Api.lift_bind]
  exact maintains_bind hx hf

theorem keeps_lift_request (hne : other ≠ user.tenantId) {op : CpOp}
    (hby : ∀ s, (ApiOp.backend op).By D user.tenantId s) :
    Store.Maintains D (s₀.Kept D other) (Api.lift (request op)) := by
  rw [Api.lift_request]
  exact keeps_request hne hby

theorem keeps_lift_attempt {x : Cp α} {h : ApiError → Cp α}
    (hx : Store.Maintains D (s₀.Kept D other) (Api.lift x))
    (hh : ∀ e, Store.Maintains D (s₀.Kept D other) (Api.lift (h e))) :
    Store.Maintains D (s₀.Kept D other) (Api.lift (tryCatch x h)) := by
  rw [Api.lift_attempt]
  exact maintains_attempt hx hh

theorem keeps_nowText : Store.Maintains D (s₀.Kept D other) (Api.lift nowText) :=
  fun _ hs => hs

theorem keeps_scopeFor (hne : other ≠ user.tenantId) :
    Store.Maintains D (s₀.Kept D other) (Api.lift (scopeFor user)) := by
  unfold scopeFor
  split
  · exact maintains_pure _
  · exact keeps_lift_bind (keeps_lift_request hne fun _ => trivial) fun _ => maintains_pure _

theorem keeps_getScoped (hne : other ≠ user.tenantId) (id : String) (includeDeleted : Bool) :
    Store.Maintains D (s₀.Kept D other) (Api.lift (getScoped user id includeDeleted)) := by
  refine keeps_lift_bind (keeps_lift_request hne fun _ => trivial) fun found => ?_
  cases found with
  | none => exact maintains_throw _
  | some d =>
    refine keeps_lift_bind (keeps_scopeFor hne) fun scope => ?_
    split
    · exact maintains_throw _
    · exact maintains_pure _

theorem keeps_assertCanAdd (hne : other ≠ user.tenantId) (resource : Resource) :
    Store.Maintains D (s₀.Kept D other)
      (BillingService.assertCanAdd user.tenantId resource) := by
  have hplan : Store.Maintains D (s₀.Kept D other) (BillingService.planFor user.tenantId) :=
    maintains_bind (keeps_request hne fun _ => trivial) fun _ => maintains_pure _
  have husage : Store.Maintains D (s₀.Kept D other) (BillingService.usage user.tenantId) :=
    maintains_bind (keeps_request hne fun _ => trivial) fun _ =>
      maintains_bind (keeps_request hne fun _ => trivial) fun _ => maintains_pure _
  refine maintains_bind hplan fun plan => maintains_bind husage fun used => ?_
  split
  · exact maintains_throw _
  · exact maintains_pure _

theorem keeps_assertDepartmentInScope (hne : other ≠ user.tenantId) (target : Option String) :
    Store.Maintains D (s₀.Kept D other) (DevicesService.assertDepartmentInScope user target) := by
  cases target with
  | none =>
    simp only [DevicesService.assertDepartmentInScope]
    split
    · exact maintains_throw _
    · exact maintains_pure _
  | some target =>
    refine maintains_bind (keeps_request hne fun _ => trivial) fun found => ?_
    cases found with
    | none => exact maintains_throw _
    | some u =>
      refine maintains_bind (keeps_scopeFor hne) fun scope => ?_
      split
      · exact maintains_throw _
      · exact maintains_pure _

/-! ### Devices -/

theorem keeps_provision (hne : other ≠ user.tenantId) (imei model : String)
    (target : Option (Option String)) (name : Option String) (assetType : AssetType) :
    Store.Maintains D (s₀.Kept D other)
      (DevicesService.provision user imei model target name assetType) := by
  refine maintains_bind (keeps_request hne fun _ => trivial) fun existing => ?_
  cases existing with
  | some d => exact maintains_throw _
  | none =>
    refine maintains_bind (keeps_assertCanAdd hne .devices) fun _ => ?_
    refine maintains_bind (keeps_assertDepartmentInScope hne _) fun _ => ?_
    intro s hs
    refine ends_step ?_
    refine keeps_write hne (kept_drawn hs) rfl ⟨rfl, newId_of_unused hs.2.deviceIds⟩ fun d => ?_
    exact maintains_bind (keeps_request hne fun _ => trivial) fun _ => maintains_pure _

theorem keeps_updateFound (hne : other ≠ user.tenantId) (id : String) (patch : DevicePatch) :
    Store.Maintains D (s₀.Kept D other) (DevicesService.updateFound user id patch) := by
  refine maintains_bind (keeps_request hne fun _ => rfl) fun updated => ?_
  cases updated with
  | none => exact maintains_throw _
  | some d => exact maintains_pure _

theorem keeps_restore (hne : other ≠ user.tenantId) (id : String) :
    Store.Maintains D (s₀.Kept D other) (DevicesService.restore user id) := by
  refine maintains_bind (keeps_request hne fun _ => trivial) fun found => ?_
  split
  · exact maintains_throw _
  · refine maintains_bind (keeps_scopeFor hne) fun scope => ?_
    split
    · exact maintains_throw _
    · refine maintains_bind (keeps_assertCanAdd hne .devices) fun _ => ?_
      refine maintains_bind (keeps_request hne fun _ => rfl) fun ok => ?_
      split
      · refine maintains_bind (keeps_request hne fun _ => trivial) fun restored => ?_
        cases restored with
        | none => exact maintains_throw _
        | some d =>
          simp only
          split
          · refine maintains_bind (keeps_request hne fun _ => trivial) fun _ => ?_
            exact fun s hs => ⟨{ hs.1 with }, { hs.2 with }⟩
          · exact fun s hs => ⟨{ hs.1 with }, { hs.2 with }⟩
      · exact maintains_throw _

theorem keeps_deviceCall (hne : other ≠ user.tenantId) (call : DeviceCall) :
    Store.Maintains D (s₀.Kept D other) (call.code user) := by
  -- every service reads its device through getScoped first: a row of the other tenant is refused
  -- there
  cases call with
  | provision imei model target name assetType =>
    exact maintains_bind (keeps_provision hne imei model target name assetType) fun _ => maintains_pure _
  | rename id name =>
    refine maintains_bind ?_ fun _ => maintains_pure _
    exact maintains_bind (keeps_getScoped hne id false) fun _ => keeps_updateFound hne id _
  | setAssetType id assetType =>
    refine maintains_bind ?_ fun _ => maintains_pure _
    exact maintains_bind (keeps_getScoped hne id false) fun _ => keeps_updateFound hne id _
  | setStatus id status =>
    refine maintains_bind ?_ fun _ => maintains_pure _
    refine maintains_bind (keeps_getScoped hne id false) fun existing => ?_
    refine maintains_bind (keeps_updateFound hne id _) fun updated => ?_
    split
    · exact maintains_bind (keeps_request hne fun _ => trivial) fun _ => maintains_pure _
    · exact maintains_bind (keeps_request hne fun _ => trivial) fun _ => maintains_pure _
  | assignDepartment id target =>
    refine maintains_bind ?_ fun _ => maintains_pure _
    refine maintains_bind (keeps_getScoped hne id false) fun _ => ?_
    exact maintains_bind (keeps_assertDepartmentInScope hne target) fun _ =>
      keeps_updateFound hne id _
  | remove id =>
    refine maintains_bind (keeps_getScoped hne id false) fun existing => ?_
    -- the stamp and the unpublish touch no row that the other tenant sees
    refine maintains_bind keeps_nowText fun at' => ?_
    refine maintains_bind (keeps_request hne fun _ => rfl) fun _ => ?_
    refine maintains_bind (keeps_request hne fun _ => trivial) fun _ => ?_
    exact fun s hs => ⟨{ hs.1 with }, { hs.2 with }⟩
  | restore id => exact maintains_bind (keeps_restore hne id) fun _ => maintains_pure _

/-! ### The other services -/

theorem keeps_usersCreate (hne : other ≠ user.tenantId) (dto : CreateUserDto) :
    Store.Maintains D (s₀.Kept D other) (UsersService.create D user.tenantId dto) := by
  refine maintains_bind (keeps_request hne fun _ => trivial) fun existing => ?_
  split
  · exact maintains_throw _
  · refine maintains_bind (keeps_assertCanAdd hne .users) fun _ => ?_
    intro s hs
    refine ends_step ?_
    exact keeps_write hne (kept_drawn hs) rfl ⟨rfl, newId_of_unused hs.2.userIds⟩
      fun _ => maintains_pure _

/-- The update of a user is guarded by the tenant of the row, which is still the same when the
update is made. -/
theorem keeps_usersUpdate (hne : other ≠ user.tenantId) (id : String) (dto : UpdateUserDto) :
    Store.Maintains D (s₀.Kept D other)
      (UsersService.update D user.tenantId id user.userId dto) := by
  intro s hs
  refine ends_read rfl rfl (fun _ => ?_) fun _ _ _ => hs
  simp only [Store.answer]
  split
  · exact hs
  case h_2 target hfound =>
    obtain ⟨hget, htenant⟩ := Option.filter_eq_some_iff.mp hfound
    have hby : ∀ u, s.users.get id = some u → u.tenantId = user.tenantId := by
      intro u hu
      rw [← Option.some_inj.mp (hget.symm.trans hu)]
      simpa using htenant
    split
    · exact hs
    · refine keeps_write hne hs rfl hby fun updated => ?_
      cases updated with
      | none => exact maintains_throw _
      | some u => exact maintains_pure _

theorem keeps_departmentsCreate (hne : other ≠ user.tenantId) (dto : CreateDepartmentDto) :
    Store.Maintains D (s₀.Kept D other) (DepartmentsService.create user.tenantId dto) := by
  have hcheck : Store.Maintains D (s₀.Kept D other)
      (DepartmentsService.checkExists user.tenantId dto.parentId) := by
    unfold DepartmentsService.checkExists
    split
    · exact maintains_pure _
    · refine maintains_bind (keeps_request hne fun _ => trivial) fun parent => ?_
      split
      · exact maintains_pure _
      · exact maintains_throw _
  refine maintains_bind hcheck fun _ s hs => ends_step ?_
  rw [← bind_pure (Api.request _)]
  exact keeps_write hne (kept_drawn hs) rfl ⟨rfl, newId_of_unused hs.2.orgUnitIds⟩
    fun _ => maintains_pure _

/-- The row that `update` writes is that of a department of the tenant. -/
theorem keeps_orgUnitsUpdate (hne : other ≠ user.tenantId) (id : String) (dto : OrgUnitPatch) :
    Store.Maintains D (s₀.Kept D other) (OrgUnitRepository.update user.tenantId id dto) := by
  intro s hs
  refine ends_read rfl rfl (fun _ => ?_) fun _ _ _ => hs
  simp only [Store.answer]
  cases hfound : findUnit s.backend.orgUnits user.tenantId id with
  | none => exact hs
  | some u =>
    obtain ⟨hu, -, htenant⟩ := findUnit_eq_some hfound
    exact keeps_write hne hs rfl ⟨htenant, u, hu, rfl, htenant⟩ fun _ => maintains_pure _

theorem keeps_departmentsUpdate (hne : other ≠ user.tenantId) (id : String) (dto : OrgUnitPatch) :
    Store.Maintains D (s₀.Kept D other) (DepartmentsService.update user.tenantId id dto) := by
  have hcheck : Store.Maintains D (s₀.Kept D other)
      (DepartmentsService.checkParent user.tenantId id dto.parentId) := by
    unfold DepartmentsService.checkParent
    split
    · split
      · exact maintains_throw _
      · refine maintains_bind (keeps_request hne fun _ => trivial) fun parent => ?_
        split
        · refine maintains_bind (keeps_request hne fun _ => trivial) fun all => ?_
          split
          · exact maintains_throw _
          · exact maintains_pure _
        · exact maintains_throw _
    · exact maintains_pure _
  refine maintains_bind (keeps_request hne fun _ => trivial) fun current => ?_
  split
  · refine maintains_bind hcheck fun _ => ?_
    refine maintains_bind (keeps_orgUnitsUpdate hne id dto) fun updated => ?_
    cases updated with
    | none => exact maintains_throw _
    | some u => exact maintains_pure _
  · exact maintains_throw _

theorem keeps_linkDevice (hne : other ≠ user.tenantId) (vehicleId deviceId : String) :
    Store.Maintains D (s₀.Kept D other)
      (VehiclesService.linkDevice user.tenantId vehicleId deviceId) := by
  have hget : Store.Maintains D (s₀.Kept D other) (VehiclesService.get user.tenantId vehicleId) := by
    refine maintains_bind (keeps_request hne fun _ => trivial) fun found => ?_
    cases found with
    | none => exact maintains_throw _
    | some v => exact maintains_pure _
  refine maintains_bind hget fun _ => ?_
  refine maintains_bind (keeps_request hne fun _ => trivial) fun device => ?_
  cases device with
  | none => exact maintains_throw _
  | some d =>
    exact maintains_bind (keeps_request hne fun _ => rfl) fun _ => keeps_request hne fun _ => rfl

theorem keeps_geofencesCreate (hne : other ≠ user.tenantId) (dto : CreateGeofenceDto) :
    Store.Maintains D (s₀.Kept D other) (GeofencesService.create user.tenantId dto) := by
  intro s hs
  refine ends_step ?_
  split
  · exact kept_drawn hs
  · rw [← bind_pure (Api.request _)]
    exact keeps_write hne (kept_drawn hs) rfl ⟨rfl, newId_of_unused hs.2.geofenceIds⟩
      fun _ => maintains_pure _

theorem keeps_subscribe (hne : other ≠ user.tenantId) (planId : PlanId) :
    Store.Maintains D (s₀.Kept D other) (BillingService.subscribe user.tenantId planId) := by
  refine maintains_bind (keeps_request hne fun _ => trivial) fun status => ?_
  refine maintains_bind keeps_nowText fun createdAt => ?_
  refine maintains_bind (keeps_request hne fun _ => rfl) fun _ => ?_
  refine maintains_bind ?_ fun plan => maintains_bind ?_ fun usage => maintains_pure _
  · exact maintains_bind (keeps_request hne fun _ => trivial) fun _ => maintains_pure _
  · exact maintains_bind (keeps_request hne fun _ => trivial) fun _ =>
      maintains_bind (keeps_request hne fun _ => trivial) fun _ => maintains_pure _

/-! ### The immobilizer -/

theorem keeps_log (hne : other ≠ user.tenantId) (deviceId : String) (action : ImmobilizerAction)
    (command reply : Option String) (ok : Bool) :
    Store.Maintains D (s₀.Kept D other)
      (Api.lift (log user deviceId action command reply ok)) :=
  keeps_lift_bind keeps_nowText fun _ => keeps_lift_request hne fun _ => rfl

/-- The row that `configure` writes is that of a device of the tenant. -/
theorem keeps_configure (hne : other ≠ user.tenantId) (deviceId : String)
    (dto : ImmobilizerConfigDto) :
    Store.Maintains D (s₀.Kept D other) (Api.lift (configure user deviceId dto)) := by
  intro s hs
  simp only [configure, Api.lift_bind]
  refine ends_getScoped (fun d hscoped => ?_) fun _ => hs
  obtain ⟨hd, hid, htenant, -⟩ :=
    DeviceTable.findById_eq_some_iff.mp (Option.filter_eq_some_iff.mp hscoped).1
  rw [Api.lift_request]
  refine ends_read rfl rfl (fun _ => ?_) fun _ _ _ => hs
  have hrest : ∀ current createdAt, Store.Ends D (fun _ => True)
      (fun _ s' => s₀.Kept D other s')
      (Api.lift (request (.immobilizerUpsert (configured user deviceId dto current createdAt))) >>=
        fun saved => Api.lift
          (log user deviceId (if dto.enabled then .enable else .disable) none none true) >>=
            fun _ => Api.lift (pure (some saved))) s := by
    intro current createdAt
    rw [Api.lift_request]
    exact keeps_write hne hs rfl ⟨rfl, d, hd, hid, htenant⟩ fun _ =>
      maintains_bind (keeps_log hne deviceId _ none none true) fun _ => maintains_pure _
  simp only [Store.answer, Backend.answer]
  cases s.backend.immobilizer user.tenantId deviceId with
  | none => exact hrest none _
  | some c => exact hrest (some c) c.createdAt

theorem keeps_requireEnabled (hne : other ≠ user.tenantId) (deviceId : String) :
    Store.Maintains D (s₀.Kept D other) (Api.lift (requireEnabled user deviceId)) := by
  refine keeps_lift_bind (keeps_getScoped hne deviceId false) fun _ => ?_
  refine keeps_lift_bind (keeps_lift_request hne fun _ => trivial) fun cfg => ?_
  cases cfg with
  | none => exact maintains_throw _
  | some cfg =>
    simp only
    split
    · exact maintains_pure _
    · exact maintains_throw _

theorem keeps_relay (hne : other ≠ user.tenantId) (deviceId : String) (command : SetDigout)
    (action : ImmobilizerAction) :
    Store.Maintains D (s₀.Kept D other)
      (Api.lift (relay D.toDeployment user deviceId command action)) := by
  unfold relay
  split
  · refine keeps_lift_attempt ?_ fun err => ?_
    · refine keeps_lift_bind (keeps_getScoped hne deviceId false) fun device => ?_
      refine keeps_lift_bind (keeps_lift_request hne fun _ => trivial) fun reply => ?_
      exact keeps_lift_bind (keeps_log hne deviceId action _ _ true) fun _ => maintains_pure _
    · exact keeps_lift_bind (keeps_log hne deviceId action _ _ false) fun _ => maintains_throw _
  · exact maintains_throw _

theorem keeps_speedGuard (hne : other ≠ user.tenantId) (deviceId : String) (immobilize : Bool)
    (cfg : ImmobilizerConfig) :
    Store.Maintains D (s₀.Kept D other) (Api.lift (speedGuard user deviceId immobilize cfg)) := by
  have hspeed : Store.Maintains D (s₀.Kept D other) (Api.lift (lastKnownSpeed user deviceId)) := by
    refine keeps_lift_bind ?_ fun last => ?_
    · exact keeps_lift_attempt (keeps_lift_request hne fun _ => trivial) fun _ => maintains_pure _
    cases last with
    | some p => exact maintains_pure _
    | none =>
      refine keeps_lift_bind ?_ fun latest => maintains_pure _
      exact keeps_lift_attempt (keeps_lift_request hne fun _ => trivial) fun _ => maintains_pure _
  unfold speedGuard
  split
  · refine keeps_lift_bind hspeed fun speed => ?_
    split
    · exact maintains_pure _
    · exact maintains_throw _
  · exact maintains_pure _

/-- The row that is written back was read as one of the tenant's. -/
theorem keeps_patch (hne : other ≠ user.tenantId) (deviceId : String) (patch : ImmobilizerPatch) :
    Store.Maintains D (s₀.Kept D other)
      (Api.lift (ImmobilizerRepository.patch user.tenantId deviceId patch)) := by
  intro s hs
  simp only [ImmobilizerRepository.patch, Api.lift_bind]
  rw [Api.lift_request]
  refine ends_read rfl rfl (fun _ => ?_) fun _ _ _ => hs
  simp only [Store.answer, Backend.answer]
  cases hrow : s.backend.immobilizer user.tenantId deviceId with
  | none => exact hs
  | some c =>
    obtain ⟨hget, htenant⟩ := Option.filter_eq_some_iff.mp hrow
    have htenant : c.tenantId = user.tenantId := of_decide_eq_true htenant
    obtain ⟨d, hd, hid, hdtenant⟩ := hs.2.immobilizers deviceId c hget
    rw [Api.lift_bind, Api.lift_request]
    exact keeps_write hne hs rfl ⟨htenant, d, hd, hid, hdtenant.trans htenant⟩ fun _ =>
      maintains_pure _

theorem keeps_actuate (hne : other ≠ user.tenantId) (deviceId : String) (immobilize : Bool)
    (action : ImmobilizerAction) :
    Store.Maintains D (s₀.Kept D other)
      (Api.lift (actuate D.toDeployment user deviceId immobilize action)) := by
  refine keeps_lift_bind (keeps_requireEnabled hne deviceId) fun cfg => ?_
  refine keeps_lift_bind (keeps_speedGuard hne deviceId immobilize cfg) fun _ => ?_
  refine keeps_lift_bind ?_ fun command => ?_
  · rw [Api.lift_ofExcept]
    exact maintains_ofExcept _
  · refine keeps_lift_bind (keeps_relay hne deviceId command action) fun reply => ?_
    exact keeps_lift_bind keeps_nowText fun _ => keeps_patch hne deviceId _

theorem keeps_test (hne : other ≠ user.tenantId) (deviceId : String) :
    Store.Maintains D (s₀.Kept D other) (Api.lift (test D.toDeployment user deviceId)) := by
  refine keeps_lift_bind (keeps_requireEnabled hne deviceId) fun cfg => ?_
  refine keeps_lift_bind ?_ fun command => ?_
  · rw [Api.lift_ofExcept]
    exact maintains_ofExcept _
  · refine keeps_lift_bind (keeps_relay hne deviceId command .test) fun reply => ?_
    refine keeps_lift_bind keeps_nowText fun _ => ?_
    exact keeps_lift_bind keeps_nowText fun _ => keeps_patch hne deviceId _

end Operations

/-! ## Calls of the services -/

/-- A call of an operation of the services. -/
inductive ServiceCall where
  | device (call : DeviceCall)
  | devicesList
  | devicesGet (id : String)
  | devicesGetIncludingDeleted (id : String)
  | devicesListDeleted
  | vehiclesCreate (name : String)
  | vehiclesList
  | vehiclesGet (id : String)
  | vehiclesLinkDevice (vehicleId deviceId : String)
  | departmentsCreate (dto : CreateDepartmentDto)
  | departmentsList
  | departmentsUpdate (id : String) (dto : OrgUnitPatch)
  | departmentsRemove (id : String)
  | usersList
  | usersCreate (dto : CreateUserDto)
  | usersUpdate (id : String) (dto : UpdateUserDto)
  | geofencesCreate (dto : CreateGeofenceDto)
  | geofencesList
  | geofencesRemove (id : String)
  | alertsList (deviceId : Option String) (limit : Int)
  | alertsGetConfig
  | alertsSetConfig (patch : AlertConfigPatch)
  | alertsClear (types : Option (List AlertType)) (deviceId : Option String)
  | alertsListTrips (deviceId start stop : String)
  | billingSubscribe (planId : PlanId)
  | immobilizerGetConfig (deviceId : String)
  | immobilizerHistory (deviceId : String) (limit : Int)
  | immobilizerConfigure (deviceId : String) (dto : ImmobilizerConfigDto)
  | immobilizerImmobilize (deviceId : String)
  | immobilizerMobilize (deviceId : String)
  | immobilizerTest (deviceId : String)

/-- Leave out what a call returns. -/
def ignore {α : Type} (x : Api α) : Api Unit := x >>= fun _ => pure ()

/-- The code of the call, made for a user. -/
def ServiceCall.code (D : ApiDeployment) (user : AuthUser) : ServiceCall → Api Unit
  | .device call => call.code user
  | .devicesList => ignore (DevicesService.list user)
  | .devicesGet id => ignore (DevicesService.get user id)
  | .devicesGetIncludingDeleted id => ignore (DevicesService.getIncludingDeleted user id)
  | .devicesListDeleted => ignore (DevicesService.listDeleted user)
  | .vehiclesCreate name => ignore (VehiclesService.create user.tenantId name)
  | .vehiclesList => ignore (VehiclesService.list user.tenantId)
  | .vehiclesGet id => ignore (VehiclesService.get user.tenantId id)
  | .vehiclesLinkDevice vehicleId deviceId =>
    ignore (VehiclesService.linkDevice user.tenantId vehicleId deviceId)
  | .departmentsCreate dto => ignore (DepartmentsService.create user.tenantId dto)
  | .departmentsList => ignore (DepartmentsService.list user.tenantId)
  | .departmentsUpdate id dto => ignore (DepartmentsService.update user.tenantId id dto)
  | .departmentsRemove id => DepartmentsService.remove user.tenantId id
  | .usersList => ignore (UsersService.list user.tenantId)
  | .usersCreate dto => ignore (UsersService.create D user.tenantId dto)
  | .usersUpdate id dto => ignore (UsersService.update D user.tenantId id user.userId dto)
  | .geofencesCreate dto => ignore (GeofencesService.create user.tenantId dto)
  | .geofencesList => ignore (GeofencesService.list user.tenantId)
  | .geofencesRemove id => GeofencesService.remove user.tenantId id
  | .alertsList deviceId limit => ignore (AlertsService.list user.tenantId deviceId limit)
  | .alertsGetConfig => ignore (AlertsService.getConfig user.tenantId)
  | .alertsSetConfig patch => ignore (AlertsService.setConfig user.tenantId patch)
  | .alertsClear types deviceId => ignore (AlertsService.clear user.tenantId types deviceId)
  | .alertsListTrips deviceId start stop =>
    ignore (AlertsService.listTrips user.tenantId deviceId start stop)
  | .billingSubscribe planId => ignore (BillingService.subscribe user.tenantId planId)
  | .immobilizerGetConfig deviceId => ignore (ImmobilizerService.getConfig user deviceId)
  | .immobilizerHistory deviceId limit => ignore (ImmobilizerService.history user deviceId limit)
  | .immobilizerConfigure deviceId dto => ignore (Api.lift (configure user deviceId dto))
  | .immobilizerImmobilize deviceId =>
    ignore (Api.lift (immobilize D.toDeployment user deviceId))
  | .immobilizerMobilize deviceId => ignore (Api.lift (mobilize D.toDeployment user deviceId))
  | .immobilizerTest deviceId => ignore (Api.lift (test D.toDeployment user deviceId))

section Calls

variable {D : ApiDeployment} {s₀ : Store} {other : String} {user : AuthUser} {α : Type}

theorem keeps_ignore {x : Api α} (h : Store.Maintains D (s₀.Kept D other) x) :
    Store.Maintains D (s₀.Kept D other) (ignore x) :=
  maintains_bind h fun _ => maintains_pure _

/-- A lookup that a refusal follows. -/
theorem keeps_found {op : ApiOp} {p : op.Res → Bool} {e : ApiError} (hne : other ≠ user.tenantId)
    (hby : ∀ s, op.By D user.tenantId s) : Store.Maintains D (s₀.Kept D other)
      (Api.request op >>= fun a => if p a then (pure () : Api Unit) else throw e) := by
  refine maintains_bind (keeps_request hne hby) fun a => ?_
  split
  · exact maintains_pure _
  · exact maintains_throw _

/-- **Every operation keeps what another tenant sees.** -/
theorem keeps_call (hne : other ≠ user.tenantId) (call : ServiceCall) :
    Store.Maintains D (s₀.Kept D other) (call.code D user) := by
  -- one case for each call of the services, by the rules of its requests
  cases call with
  | device call => exact keeps_deviceCall hne call
  | devicesList =>
    exact keeps_ignore <| maintains_bind (keeps_scopeFor hne) fun _ =>
      keeps_request hne fun _ => trivial
  | devicesGet id => exact keeps_ignore (keeps_getScoped hne id false)
  | devicesGetIncludingDeleted id => exact keeps_ignore (keeps_getScoped hne id true)
  | devicesListDeleted =>
    exact keeps_ignore <| maintains_bind (keeps_scopeFor hne) fun _ =>
      maintains_bind (keeps_request hne fun _ => trivial) fun _ => maintains_pure _
  | vehiclesCreate name =>
    intro s hs
    refine ends_bind.mpr (ends_step (ends_bind.mp ?_))
    exact keeps_write hne (kept_drawn hs) rfl ⟨rfl, newId_of_unused hs.2.vehicleIds⟩
      fun _ => maintains_pure _
  | vehiclesList => exact keeps_ignore (keeps_request hne fun _ => trivial)
  | vehiclesGet id =>
    refine keeps_ignore <| maintains_bind (keeps_request hne fun _ => trivial) fun found => ?_
    cases found with
    | none => exact maintains_throw _
    | some v => exact maintains_pure _
  | vehiclesLinkDevice vehicleId deviceId =>
    exact keeps_ignore (keeps_linkDevice hne vehicleId deviceId)
  | departmentsCreate dto => exact keeps_ignore (keeps_departmentsCreate hne dto)
  | departmentsList => exact keeps_ignore (keeps_request hne fun _ => trivial)
  | departmentsUpdate id dto => exact keeps_ignore (keeps_departmentsUpdate hne id dto)
  | departmentsRemove id => exact keeps_found hne fun _ => rfl
  | usersList =>
    exact keeps_ignore <| maintains_bind (keeps_request hne fun _ => trivial) fun _ =>
      maintains_pure _
  | usersCreate dto => exact keeps_ignore (keeps_usersCreate hne dto)
  | usersUpdate id dto => exact keeps_ignore (keeps_usersUpdate hne id dto)
  | geofencesCreate dto => exact keeps_ignore (keeps_geofencesCreate hne dto)
  | geofencesList => exact keeps_ignore (keeps_request hne fun _ => trivial)
  | geofencesRemove id => exact keeps_found hne fun _ => rfl
  | alertsList deviceId limit => exact keeps_ignore (keeps_request hne fun _ => trivial)
  | alertsGetConfig => exact keeps_ignore (keeps_request hne fun _ => trivial)
  | alertsSetConfig patch =>
    exact keeps_ignore <| maintains_bind (keeps_request hne fun _ => trivial) fun _ =>
      keeps_request hne fun _ => rfl
  | alertsClear types deviceId => exact keeps_ignore (keeps_request hne fun _ => rfl)
  | alertsListTrips deviceId start stop =>
    exact keeps_ignore (keeps_request hne fun _ => trivial)
  | billingSubscribe planId => exact keeps_ignore (keeps_subscribe hne planId)
  | immobilizerGetConfig deviceId =>
    refine keeps_ignore <| maintains_bind (keeps_getScoped hne deviceId false) fun _ => ?_
    refine maintains_bind (keeps_request hne fun _ => trivial) fun existing => ?_
    cases existing with
    | none => exact maintains_bind keeps_nowText fun _ => maintains_pure _
    | some cfg => exact maintains_pure _
  | immobilizerHistory deviceId limit =>
    exact keeps_ignore <| maintains_bind (keeps_getScoped hne deviceId false) fun _ =>
      keeps_request hne fun _ => trivial
  | immobilizerConfigure deviceId dto => exact keeps_ignore (keeps_configure hne deviceId dto)
  | immobilizerImmobilize deviceId =>
    exact keeps_ignore (keeps_actuate hne deviceId true .immobilize)
  | immobilizerMobilize deviceId =>
    exact keeps_ignore (keeps_actuate hne deviceId false .mobilize)
  | immobilizerTest deviceId => exact keeps_ignore (keeps_test hne deviceId)

end Calls

/-! ## Reachable states -/

/-- What else may happen to the stores, in telemetry, logins, registrations and settings: no
device, department, vehicle, geofence or immobilizer is written, and users get ids of their
own. -/
structure Store.Beside (D : ApiDeployment) (s s' : Store) : Prop where
  devices : s'.backend.devices = s.backend.devices
  orgUnits : s'.backend.orgUnits = s.backend.orgUnits
  geofences : s'.backend.geofences = s.backend.geofences
  immobilizers : s'.backend.immobilizers = s.backend.immobilizers
  vehicles : s'.vehicles = s.vehicles
  users : s'.Unused D (s'.users.rows.map User.id)
  drawn : s.drawn ≤ s'.drawn

/-- What happens at the API. -/
inductive ApiEvent where
  -- A call, run to completion with these outcomes of its requests.
  | call (user : AuthUser) (call : ServiceCall) (ω : Nat → Outcome)
  -- Something else that leads to `s'`.
  | beside (s' : Store)

def Store.serve (D : ApiDeployment) (s : Store) : ApiEvent → Option Store
  | .call user call ω => (s.complete D ω (call.code D user)).map Prod.snd
  | .beside s' => some s'

/-- The events that are admitted: any call, and what `Beside` allows. -/
def Store.Admits (D : ApiDeployment) (s : Store) : ApiEvent → Prop
  | .call _ _ _ => True
  | .beside s' => s.Beside D s'

section Reachable

variable {D : ApiDeployment} {s s' : Store}

theorem wellFormed_new (D : ApiDeployment) :
    (Store.new (Backend.new Table.empty)).WellFormed D where
  orgUnits := List.Pairwise.nil
  geofences := List.Pairwise.nil
  immobilizers _ _ h := nomatch h
  deviceIds _ h := nomatch h
  orgUnitIds _ h := nomatch h
  geofenceIds _ h := nomatch h
  userIds _ h := nomatch h
  vehicleIds _ h := nomatch h

theorem wellFormed_beside (h : s.WellFormed D) (hbeside : s.Beside D s') : s'.WellFormed D := by
  have hmono : ∀ ids, s.Unused D ids → s'.Unused D ids :=
    fun ids hids id hid n hn => hids id hid n (hbeside.drawn.trans hn)
  exact
    { orgUnits := hbeside.orgUnits ▸ h.orgUnits
      geofences := hbeside.geofences ▸ h.geofences
      immobilizers := by
        rw [hbeside.immobilizers, hbeside.devices]
        exact h.immobilizers
      deviceIds := hbeside.devices ▸ hmono _ h.deviceIds
      orgUnitIds := hbeside.orgUnits ▸ hmono _ h.orgUnitIds
      geofenceIds := hbeside.geofences ▸ hmono _ h.geofenceIds
      userIds := hbeside.users
      vehicleIds := hbeside.vehicles ▸ hmono _ h.vehicleIds }

/-- A call leaves the stores well-formed. -/
theorem wellFormed_call (h : s.WellFormed D) {user : AuthUser} {call : ServiceCall}
    {ω : Nat → Outcome} {r : Except ApiError Unit}
    (hcall : s.complete D ω (call.code D user) = some (r, s')) : s'.WellFormed D := by
  have hne : user.tenantId ++ "x" ≠ user.tenantId := by
    intro heq
    simpa using congrArg String.length heq
  have hkept : Store.Ends D (fun _ => True) (fun _ s' => s.Kept D _ s') (call.code D user) s :=
    keeps_call hne call s ⟨.refl _ _, h⟩
  exact (hkept.of_complete (fun _ => trivial) hcall).2

/-- The stores are well-formed in every reachable state. -/
theorem wellFormed_of_run {es : List ApiEvent}
    (hrun : Run (Store.serve D) (Store.Admits D) (Store.new (Backend.new Table.empty)) es s) :
    s.WellFormed D := by
  refine hrun.invariant (wellFormed_new D) fun s e s' h hok hstep => ?_
  cases e with
  | call user call ω =>
    obtain ⟨⟨r, s''⟩, hcall, rfl⟩ := Option.map_eq_some_iff.mp hstep
    exact wellFormed_call h hcall
  | beside s'' =>
    cases hstep
    exact wellFormed_beside h hok

end Reachable

/-- **Tenants are isolated.** In every reachable state, no operation of the services changes
anything that is read for another tenant than its user's, whether it returns or throws. -/
theorem tenant_isolation (D : ApiDeployment) (es : List ApiEvent) (s s' : Store)
    (hrun : Run (Store.serve D) (Store.Admits D) (Store.new (Backend.new Table.empty)) es s)
    (user : AuthUser) (call : ServiceCall) (ω : Nat → Outcome) (r : Except ApiError Unit)
    (hcall : s.complete D ω (call.code D user) = some (r, s')) (tenantId : String)
    (hne : tenantId ≠ user.tenantId) (read : TenantRead) (reply : String) :
    s'.answer reply (read.op tenantId) = s.answer reply (read.op tenantId) := by
  have hkept : Store.Ends D (fun _ => True) (fun _ s' => s.Kept D tenantId s')
      (call.code D user) s :=
    keeps_call hne call s ⟨.refl _ _, wellFormed_of_run hrun⟩
  exact same_answer (hkept.of_complete (fun _ => trivial) hcall).1 read reply

/-- A tenant renames the device of another one, by the id that was drawn for it: it is not found,
and the other tenant is still shown the one device, without a name. -/
theorem sample_isolated : ∃ s s' d, Run (Store.serve sampleApi) (Store.Admits sampleApi)
      (Store.new (Backend.new Table.empty))
      [.call ⟨"b", "beta", .admin, "admin@beta.test", none⟩
        (.device (.provision "356307042441013" "FTC927" none none .car)) fun _ => .resolves ""] s ∧
    s.backend.devices.rows = [d] ∧ d.id = "x" ∧ d.tenantId = "beta" ∧
    s.complete sampleApi (fun _ => .resolves "")
      ((ServiceCall.device (.rename "x" (some "taken"))).code sampleApi
        ⟨"a", "acme", .admin, "admin@acme.test", none⟩) =
          some (.error (.notFound "Device not found"), s') ∧
    s'.answer "" ((TenantRead.devicesList none).op "beta") =
      s.answer "" ((TenantRead.devicesList none).op "beta") := by
  obtain ⟨s, hserve⟩ : ∃ s, Store.serve sampleApi (Store.new (Backend.new Table.empty))
      (.call ⟨"b", "beta", .admin, "admin@beta.test", none⟩
        (.device (.provision "356307042441013" "FTC927" none none .car)) fun _ => .resolves "") =
          some s := ⟨_, rfl⟩
  have hrun : Run (Store.serve sampleApi) (Store.Admits sampleApi) _ _ s :=
    .single (by trivial) hserve
  cases hserve
  refine ⟨_, _, _, hrun, rfl, rfl, rfl, rfl, ?_⟩
  exact tenant_isolation sampleApi _ _ _ hrun ⟨"a", "acme", .admin, "admin@acme.test", none⟩
    (.device (.rename "x" (some "taken"))) (fun _ => .resolves "") _ rfl "beta" (by decide)
    (.devicesList none) ""

end FleetTracking.ControlPlane
