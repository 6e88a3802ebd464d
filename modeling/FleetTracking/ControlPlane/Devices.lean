import FleetTracking.ControlPlane.StoreRules

/-!
# Devices and Their Quota

The service that provisions, changes, deletes and restores the devices of a tenant, and the
plans that limit how many there may be.

1. Plans, and `BillingService`.
2. `DevicesService`, operation by operation.
3. `DeviceCall`: a call of one of its operations that write.
4. What the checks of the service do: they leave the store as it is.
-/

namespace FleetTracking.ControlPlane

open Async

/-! ## Plans -/

inductive PlanId where
  | trial
  | free
  | pro
  | enterprise
  deriving DecidableEq

structure PlanLimits where
  devices : Nat
  users : Nat

structure Plan where
  id : PlanId
  name : String
  priceUsdMonthly : Nat
  limits : PlanLimits

def PLANS : PlanId → Plan
  | .trial => ⟨.trial, "Trial", 0, ⟨2, 1⟩⟩
  | .free => ⟨.free, "Free", 0, ⟨25, 10⟩⟩
  | .pro => ⟨.pro, "Pro", 199, ⟨1000, 100⟩⟩
  | .enterprise => ⟨.enterprise, "Enterprise", 1999, ⟨100000, 5000⟩⟩

def DEFAULT_PLAN : PlanId := .free

def PlanId.text : PlanId → String
  | .trial => "trial"
  | .free => "free"
  | .pro => "pro"
  | .enterprise => "enterprise"

/-- `isPlanId`: the plan with that id, if there is one. `in` also finds the names that `PLANS`
inherits, as `constructor`: they are left out, since no subscription has one. `subscribe` is the
only writer of a subscription, and its DTO takes no other id than those of the plans. -/
def planOf (id : String) : Option PlanId :=
  [PlanId.trial, .free, .pro, .enterprise].find? fun p => p.text = id

structure Usage where
  devices : Nat
  users : Nat

/-- What a plan limits. -/
inductive Resource where
  | devices
  | users
  deriving DecidableEq

def PlanLimits.get (limits : PlanLimits) : Resource → Nat
  | .devices => limits.devices
  | .users => limits.users

def Usage.get (usage : Usage) : Resource → Nat
  | .devices => usage.devices
  | .users => usage.users

/-- Would one more exceed the limit? -/
def wouldExceed (plan : Plan) (usage : Usage) (resource : Resource) : Bool :=
  plan.limits.get resource ≤ usage.get resource

namespace BillingService

def planFor (tenantId : String) : Api Plan := do
  let sub ← Api.request (.subscriptionGet tenantId)
  pure (PLANS ((sub.bind fun sub => planOf sub.planId).getD DEFAULT_PLAN))

def usage (tenantId : String) : Api Usage := do
  let devices ← Api.request (.devicesCount tenantId)
  let users ← Api.request (.usersCount tenantId)
  pure ⟨devices, users⟩

/-- The refusal of a plan that is used up. -/
def exceeded (plan : Plan) : Resource → String
  | .devices => s!"Device limit reached for the {plan.name} plan ({plan.limits.devices}). " ++
    "Upgrade to add more."
  | .users => s!"User limit reached for the {plan.name} plan ({plan.limits.users}). " ++
    "Upgrade to add more."

/-- `assertCanAddDevice` and `assertCanAddUser`. -/
def assertCanAdd (tenantId : String) (resource : Resource) : Api Unit := do
  let plan ← planFor tenantId
  let used ← usage tenantId
  if wouldExceed plan used resource then
    throw (ApiError.paymentRequired (exceeded plan resource))
  else pure ()

def assertCanAddDevice (tenantId : String) : Api Unit := assertCanAdd tenantId .devices

def assertCanAddUser (tenantId : String) : Api Unit := assertCanAdd tenantId .users

end BillingService

/-! ## The service -/

/-- `SENDING_STATUSES`: a device may send data only while provisioned or active. -/
def SENDING_STATUSES : List DeviceStatus := [.provisioned, .active]

namespace DevicesService

open BillingService

def get (user : AuthUser) (id : String) : Api Device := Api.lift (getScoped user id false)

def getIncludingDeleted (user : AuthUser) (id : String) : Api Device :=
  Api.lift (getScoped user id true)

def list (user : AuthUser) : Api (List Device) := do
  let scope ← Api.lift (scopeFor user)
  Api.request (.devicesList user.tenantId scope)

/-- The soft-deleted devices of the tenant, or of the departments the user may access. -/
def listDeleted (user : AuthUser) : Api (List Device) := do
  let scope ← Api.lift (scopeFor user)
  let all ← Api.request (.devicesListDeleted user.tenantId)
  pure (all.filter fun d => ¬ outOfScope scope d)

/-- The target department exists in the tenant and is one the user may access. -/
def assertDepartmentInScope (user : AuthUser) (departmentId : Option String) : Api Unit := do
  match departmentId with
  | none =>
    -- Only tenant-wide users may leave a device unassigned.
    if user.departmentId.any truthy then
      throw (ApiError.forbidden "You must assign the device to your department")
    else pure ()
  | some departmentId => do
    let found ← Api.request (.orgUnitsFindById user.tenantId departmentId)
    match found with
    | none => throw (ApiError.notFound "Department not found")
    | some _ => do
      let scope ← Api.lift (scopeFor user)
      if scope.any fun ids => departmentId ∉ ids then
        throw (ApiError.forbidden "Department is outside your scope")
      else pure ()

/-- A device with the IMEI; `departmentId = none` is an argument left out. -/
def provision (user : AuthUser) (imei model : String) (departmentId : Option (Option String))
    (name : Option String) (assetType : AssetType) : Api Device := do
  let existing ← Api.request (.backend (.findByImei imei))
  match existing with
  | some _ => throw (ApiError.conflict s!"Device with IMEI {imei} already exists")
  | none => do
    assertCanAddDevice user.tenantId
    -- Default to the provisioner's own department.
    let dept := departmentId.getD user.departmentId
    assertDepartmentInScope user dept
    let id ← Api.step .randomUUID
    let device ← Api.request (.devicesCreate
      { id, tenantId := user.tenantId, imei, name, model, assetType, status := .provisioned
        vehicleId := none, departmentId := dept, deletedAt := none })
    let _ ← Api.request (.allowListAdd imei)
    pure device

/-- `update` of the repository; a device that is gone is an error. -/
def updateFound (user : AuthUser) (id : String) (patch : DevicePatch) : Api Device := do
  let updated ← Api.request (.devicesUpdate user.tenantId id patch)
  match updated with
  | none => throw (ApiError.notFound "Device not found")
  | some d => pure d

def rename (user : AuthUser) (id : String) (name : Option String) : Api Device := do
  let _ ← get user id
  updateFound user id { name := some name }

def setAssetType (user : AuthUser) (id : String) (assetType : AssetType) : Api Device := do
  let _ ← get user id
  updateFound user id { assetType := some assetType }

/-- Tell the ingestion whether to accept the device. -/
def setStatus (user : AuthUser) (id : String) (status : DeviceStatus) : Api Device := do
  let existing ← get user id
  let updated ← updateFound user id { status := some status }
  if status ∈ SENDING_STATUSES then do
    let _ ← Api.request (.allowListAdd existing.imei)
    pure updated
  else do
    let _ ← Api.request (.allowListRemove existing.imei)
    pure updated

def assignDepartment (user : AuthUser) (id : String) (departmentId : Option String) :
    Api Device := do
  let _ ← get user id
  assertDepartmentInScope user departmentId
  updateFound user id { departmentId := some departmentId }

/-- Soft delete: the row stays, and ingestion stops accepting the IMEI. -/
def remove (user : AuthUser) (id : String) : Api Unit := do
  let existing ← get user id
  let at' ← Api.lift nowText
  let _ ← Api.request (.devicesSoftDelete user.tenantId id at')
  let _ ← Api.request (.allowListRemove existing.imei)
  Api.step (.forgetImei existing.imei)

/-- What follows a successful `restore` of the repository. -/
def welcome (user : AuthUser) (id : String) : Api Device := do
  let restored ← Api.request (.backend (.devicesFindById user.tenantId id false))
  match restored with
  | none => throw (ApiError.error "Cannot read properties of null (reading 'status')")
  | some restored =>
    if restored.status ∈ SENDING_STATUSES then do
      let _ ← Api.request (.allowListAdd restored.imei)
      let _ ← Api.step (.forgetImei restored.imei)
      pure restored
    else do
      let _ ← Api.step (.forgetImei restored.imei)
      pure restored

/-- Undo a soft delete, unless the IMEI has since been provisioned again. -/
def restore (user : AuthUser) (id : String) : Api Device := do
  let found ← Api.request (.backend (.devicesFindById user.tenantId id true))
  match found.filter fun d => d.deletedAt ≠ none with
  | none => throw (ApiError.notFound "No deleted device with that id")
  | some d => do
    let scope ← Api.lift (scopeFor user)
    if outOfScope scope d then throw (ApiError.notFound "No deleted device with that id")
    else do
      assertCanAddDevice user.tenantId
      let ok ← Api.request (.devicesRestore user.tenantId id)
      if ok then welcome user id
      else throw (ApiError.conflict
        s!"IMEI {d.imei} is now used by another live device — cannot restore")

end DevicesService

/-- A call of an operation of `DevicesService` that writes. -/
inductive DeviceCall where
  | provision (imei model : String) (departmentId : Option (Option String))
      (name : Option String) (assetType : AssetType)
  | rename (id : String) (name : Option String)
  | setAssetType (id : String) (assetType : AssetType)
  | setStatus (id : String) (status : DeviceStatus)
  | assignDepartment (id : String) (departmentId : Option String)
  | remove (id : String)
  | restore (id : String)

/-- The code of the call; what it returns is left out. -/
def DeviceCall.code (user : AuthUser) : DeviceCall → Api Unit
  | .provision imei model departmentId name assetType => do
    let _ ← DevicesService.provision user imei model departmentId name assetType
    pure ()
  | .rename id name => do
    let _ ← DevicesService.rename user id name
    pure ()
  | .setAssetType id assetType => do
    let _ ← DevicesService.setAssetType user id assetType
    pure ()
  | .setStatus id status => do
    let _ ← DevicesService.setStatus user id status
    pure ()
  | .assignDepartment id departmentId => do
    let _ ← DevicesService.assignDepartment user id departmentId
    pure ()
  | .remove id => DevicesService.remove user id
  | .restore id => do
    let _ ← DevicesService.restore user id
    pure ()

/-! ## What the checks do -/

section Checks

variable {β : Type} {D : ApiDeployment} {may : Outcome → Prop} {s : Store} {user : AuthUser}
  {Q : Except ApiError β → Store → Prop}

/-- The quota check reads the plan and what is used of it. -/
theorem ends_assertCanAdd {tenantId : String} {resource : Resource} {f : Unit → Api β}
    (hok : Store.Ends D may Q (f ()) s) (herr : ∀ e, Q (.error e) s) :
    Store.Ends D may Q (BillingService.assertCanAdd tenantId resource >>= f) s := by
  simp only [BillingService.assertCanAdd, BillingService.planFor, BillingService.usage,
    bind_assoc, pure_bind]
  refine ends_read rfl rfl (fun _ => ?_) fun e _ _ => herr e
  refine ends_read rfl rfl (fun _ => ?_) fun e _ _ => herr e
  refine ends_read rfl rfl (fun _ => ?_) fun e _ _ => herr e
  split
  · exact herr _
  · exact hok

/-- May the user put a device there? -/
def Store.mayAssign (s : Store) (user : AuthUser) : Option String → Prop
  | none => user.departmentId.filter truthy = none
  | some departmentId =>
    (findUnit s.backend.orgUnits user.tenantId departmentId).isSome ∧
      ∀ ids, user.scope s.backend.orgUnits = some ids → departmentId ∈ ids

/-- The check of a target department. -/
theorem ends_assertDepartmentInScope {departmentId : Option String} {f : Unit → Api β}
    (hok : s.mayAssign user departmentId → Store.Ends D may Q (f ()) s)
    (herr : ∀ e, Q (.error e) s) :
    Store.Ends D may Q (DevicesService.assertDepartmentInScope user departmentId >>= f) s := by
  unfold DevicesService.assertDepartmentInScope
  cases departmentId with
  | none =>
    -- no department is allowed to a caller who has none
    by_cases hdep : user.departmentId.any truthy = true
    · simp only [hdep, if_true]
      exact herr _
    · simp only [hdep]
      apply hok
      cases h : user.departmentId with
      | none => simp [Store.mayAssign, h]
      | some departmentId =>
        rw [h] at hdep
        simpa [Store.mayAssign, h, Option.filter_eq_none_iff] using hdep
  | some departmentId =>
    simp only [bind_assoc]
    refine ends_read rfl rfl (fun _ => ?_) fun e _ _ => herr e
    simp only [Store.answer]
    cases hfound : findUnit s.backend.orgUnits user.tenantId departmentId with
    | none => exact herr _
    | some u =>
      simp only [bind_assoc]
      refine ends_scopeFor ?_ fun e _ _ => herr e
      split
      case isTrue => exact herr _
      case isFalse hin =>
        refine hok ⟨by simp [hfound], fun ids hids => ?_⟩
        simpa [hids] using hin

/-- A field of a device is changed, if the device is there. -/
theorem ends_updateFound {id : String} {patch : DevicePatch} {f : Device → Api β}
    (hok : ∀ d, s.backend.devices.findById user.tenantId id false = some d →
      Store.Ends D may Q (f (patch.apply d))
        { s with backend.devices := s.backend.devices.put (patch.apply d) })
    (herr : ∀ e, Q (.error e) s)
    (hlate : ∀ d e, s.backend.devices.findById user.tenantId id false = some d →
      may (.rejects e true) →
        Q (.error e) { s with backend.devices := s.backend.devices.put (patch.apply d) }) :
    Store.Ends D may Q (DevicesService.updateFound user id patch >>= f) s := by
  simp only [DevicesService.updateFound, bind_assoc]
  cases hfound : s.backend.devices.findById user.tenantId id false with
  | none =>
    have hnone : s.backend.devices.update user.tenantId id patch = none := by
      rw [DeviceTable.update, hfound, Option.map_none]
    refine ends_write rfl (fun _ => ?_) (fun e _ => herr e) fun e _ => ?_
    · simp only [Store.answer, Store.effect, hnone]
      exact herr _
    · simp only [Store.effect, hnone]
      exact herr e
  | some d =>
    have hsome : s.backend.devices.update user.tenantId id patch = some (patch.apply d) := by
      rw [DeviceTable.update, hfound, Option.map_some]
    refine ends_write rfl (fun _ => ?_) (fun e _ => herr e) fun e hx => ?_
    · simp only [Store.answer, Store.effect, hsome]
      exact hok d hfound
    · simp only [Store.effect, hsome]
      exact hlate d e hfound hx

end Checks

end FleetTracking.ControlPlane
