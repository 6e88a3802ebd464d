import FleetTracking.ControlPlane.Devices

/-!
# The Other Services of the API

Users, logins, departments, vehicles, geofences, alerts, billing, and the two reads of the
immobilizer, each as the source has them: what they look up, what they refuse, what they write.
-/

namespace FleetTracking.ControlPlane

open Async

/-! ## Users -/

/-- What the API shows of a user. -/
structure PublicUser where
  id : String
  tenantId : String
  email : String
  role : Role
  active : Bool
  mfaEnabled : Bool
  departmentId : Option String

/-- Strip secrets before returning a user over the API. -/
def toPublic (u : User) : PublicUser :=
  ⟨u.id, u.tenantId, u.email, u.role, u.active, u.mfaEnabled, u.departmentId⟩

structure CreateUserDto where
  email : String
  password : String
  role : Role
  departmentId : Option String

/-- Of `departmentId`, `some none` is an explicit `null`. -/
structure UpdateUserDto where
  role : Option Role
  active : Option Bool
  departmentId : Option (Option String)
  password : Option String

namespace UsersService

def list (tenantId : String) : Api (List PublicUser) := do
  let users ← Api.request (.usersList tenantId)
  pure (users.map toPublic)

def create (D : ApiDeployment) (tenantId : String) (dto : CreateUserDto) : Api PublicUser := do
  let existing ← Api.request (.usersFindByEmail dto.email)
  if existing.isSome then throw (ApiError.conflict "Email already registered") else do
    BillingService.assertCanAddUser tenantId
    let id ← Api.step .randomUUID
    let user ← Api.request (.usersCreate
      { id, tenantId, email := dto.email, passwordHash := D.hashPassword dto.password
        role := dto.role, active := true, mfaEnabled := false, mfaSecret := none
        departmentId := dto.departmentId })
    pure (toPublic user)

/-- The fields that a request sets; an empty password sets none. -/
def patchOf (D : ApiDeployment) (dto : UpdateUserDto) : UserPatch where
  role := dto.role
  active := dto.active
  departmentId := dto.departmentId
  passwordHash := (dto.password.filter truthy).map D.hashPassword

def update (D : ApiDeployment) (tenantId id actingUserId : String) (dto : UpdateUserDto) :
    Api PublicUser := do
  let target ← Api.request (.usersFindById id)
  match target.filter fun target => target.tenantId = tenantId with
  | none => throw (ApiError.notFound "User not found")
  | some _ =>
    if id = actingUserId ∧ dto.active = some false then
      throw (ApiError.conflict "You cannot deactivate your own account")
    else do
      let updated ← Api.request (.usersUpdate id (patchOf D dto))
      match updated with
      | none => throw (ApiError.error "Cannot destructure property 'passwordHash' of 'u'")
      | some u => pure (toPublic u)

end UsersService

/-! ## Logins -/

/-- What a login yields: what the access token says, or a challenge. -/
inductive LoginResult where
  | tokens (accessToken : AuthUser)
  | mfaRequired (userId : String)

namespace AuthService

/-- What the access token of a user says. -/
def accessToken (user : User) : AuthUser :=
  ⟨user.id, user.tenantId, user.role, user.email, user.departmentId⟩

def login (D : ApiDeployment) (email password : String) : Api LoginResult := do
  let found ← Api.request (.usersFindByEmail email)
  match found.filter fun user => user.active ∧ D.verifyPassword password user.passwordHash with
  | none => throw (ApiError.unauthorized "Invalid credentials")
  | some user =>
    if user.mfaEnabled then pure (.mfaRequired user.id) else pure (.tokens (accessToken user))

/-- Complete a login with a code. -/
def verifyMfa (D : ApiDeployment) (userId code : String) : Api AuthUser := do
  let found ← Api.request (.usersFindById userId)
  match found.filter fun user => user.mfaEnabled ∧ user.mfaSecret.any truthy with
  | none => throw (ApiError.unauthorized "MFA not enabled")
  | some user => do
    let now ← Api.step (.backend .now)
    if D.verifyTotp (user.mfaSecret.getD "") code now then pure (accessToken user)
    else throw (ApiError.unauthorized "Invalid MFA code")

end AuthService

/-! ## Departments -/

structure CreateDepartmentDto where
  name : String
  parentId : Option String

/-- `hop` and its parents, as far as `fuel` goes; in a cycle of parents the source's loop would
not end. -/
def ancestors (all : List OrgUnit) : Nat → Option String → List String
  | 0, _ => []
  | fuel + 1, hop =>
    match hop.filter truthy with
    | none => []
    | some hop =>
      hop :: ancestors all fuel ((all.find? fun u => u.id = hop).bind OrgUnit.parentId)

/-- `update` of the departments: it looks the row up, and then writes it as a whole, as it was when
it was read but for the fields supplied. (In Postgres both are one statement, with nothing in
between.) -/
def OrgUnitRepository.update (tenantId id : String) (patch : OrgUnitPatch) :
    Api (Option OrgUnit) := do
  let found ← Api.request (.orgUnitsFindById tenantId id)
  match found with
  | none => pure none
  | some o => do
    let next ← Api.request (.orgUnitsSet (patch.apply o))
    pure (some next)

namespace DepartmentsService

/-- The parent of a new department, if it has one, exists. -/
def checkExists (tenantId : String) (parentId : Option String) : Api Unit :=
  match parentId.filter truthy with
  | none => pure ()
  | some parentId => do
    let parent ← Api.request (.orgUnitsFindById tenantId parentId)
    if parent.isSome then pure () else throw (ApiError.notFound "Parent department not found")

def create (tenantId : String) (dto : CreateDepartmentDto) : Api OrgUnit := do
  checkExists tenantId dto.parentId
  let id ← Api.step .randomUUID
  Api.request (.orgUnitsCreate { id, tenantId, name := dto.name, parentId := dto.parentId })

def list (tenantId : String) : Api (List OrgUnit) :=
  Api.request (.backend (.orgUnitsList tenantId))

/-- The proposed parent, if there is one, exists and is not `id` or below it. -/
def checkParent (tenantId id : String) : Option (Option String) → Api Unit
  | some (some parentId) =>
    if parentId = id then throw (ApiError.badRequest "A group cannot be its own parent") else do
      let parent ← Api.request (.orgUnitsFindById tenantId parentId)
      if parent.isSome then do
        -- Walk up from the proposed parent. Reaching `id` means the move would detach the cycle
        -- from the root and strand every group inside it.
        let all ← Api.request (.backend (.orgUnitsList tenantId))
        if id ∈ ancestors all (all.length + 1) (some parentId) then
          throw (ApiError.badRequest "Cannot move a group into its own subtree")
        else pure ()
      else throw (ApiError.notFound "Parent department not found")
  | _ => pure ()

def update (tenantId id : String) (dto : OrgUnitPatch) : Api OrgUnit := do
  let current ← Api.request (.orgUnitsFindById tenantId id)
  if current.isSome then do
    checkParent tenantId id dto.parentId
    let updated ← OrgUnitRepository.update tenantId id dto
    match updated with
    | none => throw (ApiError.notFound "Department not found")
    | some u => pure u
  else throw (ApiError.notFound "Department not found")

def remove (tenantId id : String) : Api Unit := do
  let removed ← Api.request (.orgUnitsRemove tenantId id)
  if removed then pure () else throw (ApiError.notFound "Department not found")

end DepartmentsService

/-! ## Vehicles and geofences -/

namespace VehiclesService

def create (tenantId name : String) : Api Vehicle := do
  let id ← Api.step .randomUUID
  Api.request (.vehiclesCreate { id, tenantId, name, deviceId := none })

def list (tenantId : String) : Api (List Vehicle) := Api.request (.vehiclesList tenantId)

def get (tenantId id : String) : Api Vehicle := do
  let found ← Api.request (.vehiclesFindById tenantId id)
  match found with
  | none => throw (ApiError.notFound "Vehicle not found")
  | some v => pure v

/-- Link a device to a vehicle, on both sides. -/
def linkDevice (tenantId vehicleId deviceId : String) : Api (Option Vehicle) := do
  let _ ← get tenantId vehicleId
  let device ← Api.request (.backend (.devicesFindById tenantId deviceId false))
  match device with
  | none => throw (ApiError.notFound "Device not found")
  | some _ => do
    let _ ← Api.request (.devicesUpdate tenantId deviceId { vehicleId := some (some vehicleId) })
    Api.request (.vehiclesUpdate tenantId vehicleId (some deviceId))

end VehiclesService

inductive GeofenceKind where
  | circle
  | polygon

structure CreateGeofenceDto where
  name : String
  kind : GeofenceKind
  centerLat : Option ℚ
  centerLon : Option ℚ
  radiusM : Option ℚ
  ring : Option (List (ℚ × ℚ))

namespace GeofencesService

/-- The shape that a request describes. -/
def shapeOf (dto : CreateGeofenceDto) : Except String GeofenceShape :=
  match dto.kind with
  | .circle =>
    match dto.centerLat, dto.centerLon, dto.radiusM.filter fun r => r ≠ 0 with
    | some centerLat, some centerLon, some radiusM => .ok (.circle centerLat centerLon radiusM)
    | _, _, _ => .error "circle requires centerLat, centerLon, radiusM"
  | .polygon =>
    match dto.ring.filter fun ring => 3 ≤ ring.length with
    | some ring => .ok (.polygon ring)
    | none => .error "polygon requires a ring of at least 3 [lon,lat] points"

def create (tenantId : String) (dto : CreateGeofenceDto) : Api Geofence := do
  let id ← Api.step .randomUUID
  match shapeOf dto with
  | .error message => throw (ApiError.badRequest message)
  | .ok shape => Api.request (.geofencesCreate { id, tenantId, name := dto.name, shape })

def list (tenantId : String) : Api (List Geofence) :=
  Api.request (.backend (.geofencesList tenantId))

def remove (tenantId id : String) : Api Unit := do
  let removed ← Api.request (.geofencesRemove tenantId id)
  if removed then pure () else throw (ApiError.notFound "Geofence not found")

end GeofencesService

/-! ## Alerts -/

/-- Of `overspeedKph`, `some none` is an explicit `null`. -/
structure AlertConfigPatch where
  overspeedKph : Option (Option ℚ)
  ignitionAlerts : Option Bool
  geofenceAlerts : Option Bool
  offlineAfterSec : Option ℚ

/-- Merge only the keys that are there. -/
def AlertConfigPatch.apply (patch : AlertConfigPatch) (c : AlertConfig) : AlertConfig where
  overspeedKph := patch.overspeedKph.getD c.overspeedKph
  ignitionAlerts := patch.ignitionAlerts.getD c.ignitionAlerts
  geofenceAlerts := patch.geofenceAlerts.getD c.geofenceAlerts
  offlineAfterSec := patch.offlineAfterSec.getD c.offlineAfterSec

namespace AlertsService

def list (tenantId : String) (deviceId : Option String) (limit : Int) : Api (List AlertEvent) :=
  Api.request (.alertsList tenantId deviceId (min limit 500))

def getConfig (tenantId : String) : Api AlertConfig :=
  Api.request (.backend (.alertConfigGet tenantId))

def setConfig (tenantId : String) (patch : AlertConfigPatch) : Api AlertConfig := do
  let current ← Api.request (.backend (.alertConfigGet tenantId))
  Api.request (.alertConfigSet tenantId (patch.apply current))

def clear (tenantId : String) (types : Option (List AlertType)) (deviceId : Option String) :
    Api Nat :=
  Api.request (.alertsClear tenantId types deviceId)

def listTrips (tenantId deviceId start stop : String) : Api (List Trip) :=
  Api.request (.tripsList tenantId deviceId start stop 500)

end AlertsService

/-! ## Billing -/

structure BillingSummary where
  plan : Plan
  usage : Usage

namespace BillingService

def summary (tenantId : String) : Api BillingSummary := do
  let plan ← planFor tenantId
  let usage ← usage tenantId
  pure ⟨plan, usage⟩

def subscribe (tenantId : String) (planId : PlanId) : Api BillingSummary := do
  let status ← Api.request (.paymentsSubscribe tenantId planId.text)
  let createdAt ← Api.lift nowText
  let _ ← Api.request (.subscriptionSet tenantId
    { tenantId, planId := planId.text, status, createdAt })
  summary tenantId

end BillingService

/-! ## Reads of the immobilizer -/

namespace ImmobilizerService

/-- Config as stored, or a disabled default. -/
def getConfig (user : AuthUser) (deviceId : String) : Api ImmobilizerConfig := do
  let _ ← DevicesService.get user deviceId
  let existing ← Api.request (.backend (.immobilizerGet user.tenantId deviceId))
  match existing with
  | some cfg => pure cfg
  | none => do
    let createdAt ← Api.lift nowText
    pure { deviceId, tenantId := user.tenantId, enabled := false, dout := DEFAULTS.dout
           activeHigh := DEFAULTS.activeHigh, maxEngageKph := DEFAULTS.maxEngageKph
           immobilized := false, lastCommand := none, lastReply := none, lastBy := none
           lastAt := none, testedAt := none, createdAt }

def history (user : AuthUser) (deviceId : String) (limit : Int) :
    Api (List ImmobilizerEvent) := do
  let _ ← DevicesService.get user deviceId
  Api.request (.immobilizerEvents user.tenantId deviceId (min limit 200))

end ImmobilizerService

end FleetTracking.ControlPlane
