import FleetTracking.Auth.Totp
import FleetTracking.ControlPlane.Telemetry
import FleetTracking.Lib.Lifting
import Mathlib.Data.Finset.Basic

/-!
# The Store Behind the API

What the services of the API read and write: the stores the immobilizer and the telemetry
consumer use (`Backend`), and those of users, vehicles, subscriptions and notifications, and
the allow-list of the ingestion.

1. The repositories: their queries and updates, on the rows.
2. `Store`, `ApiOp`, `ApiAct`: everything together, and the requests to it.
3. `Store.settle`, `Store.act`: the effects of the requests.
4. `lift`: code that only needs the `Backend`.
-/

namespace FleetTracking.ControlPlane

open Async

/-! ## Repositories -/

/-- The fields of a device that an update may set. -/
structure DevicePatch where
  name : Option (Option String) := none
  assetType : Option AssetType := none
  status : Option DeviceStatus := none
  vehicleId : Option (Option String) := none
  departmentId : Option (Option String) := none

/-- `{ ...d, ...patch }`. -/
def DevicePatch.apply (patch : DevicePatch) (d : Device) : Device :=
  { d with
    name := patch.name.getD d.name
    assetType := patch.assetType.getD d.assetType
    status := patch.status.getD d.status
    vehicleId := patch.vehicleId.getD d.vehicleId
    departmentId := patch.departmentId.getD d.departmentId }

/-- A live device that may send data. -/
def Device.sends (d : Device) : Bool :=
  d.deletedAt = none ∧ (d.status = .active ∨ d.status = .provisioned)

namespace DeviceTable

/-- `list`: the live devices of a tenant, or of some of its departments. -/
def list (t : DeviceTable) (tenantId : String) (departmentIds : Option (List String)) :
    List Device :=
  t.rows.filter fun d => d.tenantId = tenantId ∧ d.deletedAt = none ∧
    departmentIds.all fun ids => d.departmentId.any fun departmentId => departmentId ∈ ids

/-- `listDeleted`: the soft-deleted devices of a tenant, last deleted first. -/
def listDeleted (t : DeviceTable) (tenantId : String) : List Device :=
  (t.rows.filter fun d => d.tenantId = tenantId ∧ d.deletedAt ≠ none).mergeSort
    fun d e => e.deletedAt.getD "" ≤ d.deletedAt.getD ""

/-- `count`. -/
def count (t : DeviceTable) (tenantId : String) : Nat := (t.list tenantId none).length

/-- `update`: the device after it, if there is a live one. -/
def update (t : DeviceTable) (tenantId id : String) (patch : DevicePatch) : Option Device :=
  (t.findById tenantId id false).map patch.apply

/-- `softDelete`: the device after it, if there is a live one. -/
def softDelete (t : DeviceTable) (tenantId id at' : String) : Option Device :=
  (t.findById tenantId id false).map fun d => { d with deletedAt := some at' }

/-- `restore`: the device after it, if it is deleted and no live device has its IMEI. -/
def restore (t : DeviceTable) (tenantId id : String) : Option Device :=
  ((t.findById tenantId id true).filter fun d =>
    d.deletedAt ≠ none ∧ t.findByImei d.imei = none).map fun d => { d with deletedAt := none }

/-- `activeImeis`. -/
def activeImeis (t : DeviceTable) : List String := (t.rows.filter Device.sends).map Device.imei

/-- Write the device that an operation has found. -/
def write (t : DeviceTable) : Option Device → DeviceTable
  | none => t
  | some d => t.put d

end DeviceTable

/-- The fields of a department that an update may set. -/
structure OrgUnitPatch where
  name : Option String := none
  parentId : Option (Option String) := none

def OrgUnitPatch.apply (patch : OrgUnitPatch) (u : OrgUnit) : OrgUnit :=
  { u with name := patch.name.getD u.name, parentId := patch.parentId.getD u.parentId }

/-- `findById` of the departments. -/
def findUnit (units : List OrgUnit) (tenantId id : String) : Option OrgUnit :=
  units.find? fun u => u.id = id ∧ u.tenantId = tenantId

/-- The departments that go with `id`, in the loop of `remove`: its subtree in the tenant. In a
cycle of parents the source's loop would not end. -/
def doomed (units : List OrgUnit) (tenantId id : String) : List String :=
  Worklist.closure ((units.filter fun u => u.tenantId = tenantId).filterMap fun u =>
    u.parentId.map fun parentId => (parentId, u.id)) id

/-- `remove` of the departments: the unit with its whole subtree, if there is one. -/
def removeUnit (units : List OrgUnit) (tenantId id : String) : Option (List OrgUnit) :=
  (findUnit units tenantId id).map fun _ =>
    units.filter fun u => u.id ∉ doomed units tenantId id

/-- The fields of a user that an update may set. -/
structure UserPatch where
  role : Option Role := none
  active : Option Bool := none
  departmentId : Option (Option String) := none
  passwordHash : Option String := none

def UserPatch.apply (patch : UserPatch) (u : User) : User :=
  { u with
    role := patch.role.getD u.role
    active := patch.active.getD u.active
    departmentId := patch.departmentId.getD u.departmentId
    passwordHash := patch.passwordHash.getD u.passwordHash }

abbrev UserTable := Table User User.id
abbrev VehicleTable := Table Vehicle Vehicle.id

/-- `findById` of the vehicles. -/
def VehicleTable.findById (t : VehicleTable) (tenantId id : String) : Option Vehicle :=
  t.rows.find? fun v => v.id = id ∧ v.tenantId = tenantId

/-- `findById` of the geofences. -/
def findGeofence (fences : List Geofence) (tenantId id : String) : Option Geofence :=
  fences.find? fun g => g.id = id ∧ g.tenantId = tenantId

/-- `slice(0, limit)`: a negative limit counts from the end. -/
def slice {α : Type} (l : List α) (limit : Int) : List α :=
  if 0 ≤ limit then l.take limit.toNat else l.take (l.length - limit.natAbs)

/-- Is the alert one of those that `opts` names? -/
def AlertEvent.of (a : AlertEvent) (tenantId : String) (deviceId : Option String) : Bool :=
  a.tenantId = tenantId ∧ (deviceId.filter truthy).all fun id => a.deviceId = id

/-- `list` of the alerts, newest first. -/
def listAlerts (alerts : List AlertEvent) (tenantId : String) (deviceId : Option String)
    (limit : Int) : List AlertEvent :=
  slice ((alerts.filter fun a => a.of tenantId deviceId).mergeSort fun a b => b.ts ≤ a.ts) limit

/-- Does `clear` delete the alert? -/
def AlertEvent.cleared (a : AlertEvent) (tenantId : String) (types : Option (List AlertType))
    (deviceId : Option String) : Bool :=
  a.of tenantId deviceId ∧ (types.filter fun l => l ≠ []).all fun l => a.type ∈ l

/-- `list` of the trips, oldest first. -/
def listTrips (trips : List Trip) (tenantId deviceId start stop : String) (limit : Int) :
    List Trip :=
  slice ((trips.filter fun t => t.tenantId = tenantId ∧ t.deviceId = deviceId ∧
    start ≤ t.startTs ∧ t.startTs ≤ stop).mergeSort fun a b => a.startTs ≤ b.startTs) limit

/-- `history`: the positions of a device, oldest first. -/
def PositionTable.history (t : PositionTable) (tenantId deviceId start stop : String)
    (limit : Int) : List Position :=
  slice ((t.rows.filter fun p => p.Of tenantId deviceId ∧ start ≤ p.ts ∧ p.ts ≤ stop).mergeSort
    fun p q => p.ts ≤ q.ts) limit

/-- `events` of the immobilizer, newest first. -/
def listEvents (events : List ImmobilizerEvent) (tenantId deviceId : String) (limit : Int) :
    List ImmobilizerEvent :=
  slice ((events.reverse.filter fun e => e.tenantId = tenantId ∧ e.deviceId = deviceId).mergeSort
    fun a b => b.ts ≤ a.ts) limit

/-! ## Requests -/

/-- What the API is deployed with, besides the immobilizer and the rules engine. -/
structure ApiDeployment extends Deployment where
  -- `randomUUID`: no id is drawn twice.
  uuid : Nat → String
  fresh : Function.Injective uuid
  hashPassword : String → String
  -- Of a password and a stored hash.
  verifyPassword : String → String → Bool
  hmacSha1 : Auth.Totp.HmacSha1

/-- `verifyTotp` of a secret, a code and the time. -/
def ApiDeployment.verifyTotp (D : ApiDeployment) : String → String → Nat → Bool :=
  Auth.Totp.verifyTotp D.hmacSha1

/-- A deployment whose random ids are of growing length. -/
def sampleApi : ApiDeployment where
  haversineMeters := fun _ _ _ _ => 0
  tripOptions := {}
  commander := true
  uuid n := String.ofList (List.replicate (n + 1) 'x')
  fresh m n h := by simpa using congrArg String.length h
  hashPassword password := password
  verifyPassword password stored := password = stored
  hmacSha1 := Auth.sampleHmac

/-- An id with another character is never drawn. -/
theorem ne_sampleApi_uuid {id : String} (h : id.toList.all (· = 'x') = false) (n : Nat) :
    id ≠ sampleApi.uuid n := by
  intro heq
  rw [heq] at h
  simp [sampleApi, String.toList_ofList] at h

/-- Everything the services of the API share. -/
structure Store where
  backend : Backend
  users : UserTable
  vehicles : VehicleTable
  subscriptions : JsMap String Subscription
  notificationConfigs : JsMap String NotificationConfig
  -- The IMEIs that the ingestion accepts.
  allowList : Finset String
  -- How many random ids were drawn.
  drawn : Nat

/-- A store around a backend, in which nothing else is. -/
def Store.new (backend : Backend) : Store :=
  { backend, users := Table.empty, vehicles := Table.empty, subscriptions := JsMap.empty
    notificationConfigs := JsMap.empty, allowList := ∅, drawn := 0 }

/-- What the services of the API await. -/
inductive ApiOp where
  | backend (op : CpOp)
  | devicesCreate (d : Device)
  | devicesList (tenantId : String) (departmentIds : Option (List String))
  | devicesListDeleted (tenantId : String)
  | devicesCount (tenantId : String)
  | devicesUpdate (tenantId id : String) (patch : DevicePatch)
  | devicesSoftDelete (tenantId id at' : String)
  | devicesRestore (tenantId id : String)
  | activeImeis
  | allowListAdd (imei : String)
  | allowListRemove (imei : String)
  | allowListReplaceAll (imeis : List String)
  | orgUnitsFindById (tenantId id : String)
  | orgUnitsCreate (u : OrgUnit)
  | orgUnitsSet (u : OrgUnit)
  | orgUnitsRemove (tenantId id : String)
  | usersCreate (u : User)
  | usersFindByEmail (email : String)
  | usersFindById (id : String)
  | usersList (tenantId : String)
  | usersCount (tenantId : String)
  | usersUpdate (id : String) (patch : UserPatch)
  | vehiclesCreate (v : Vehicle)
  | vehiclesFindById (tenantId id : String)
  | vehiclesList (tenantId : String)
  | vehiclesUpdate (tenantId id : String) (deviceId : Option String)
  | geofencesCreate (g : Geofence)
  | geofencesRemove (tenantId id : String)
  | positionsHistory (tenantId deviceId start stop : String) (limit : Int)
  | alertsList (tenantId : String) (deviceId : Option String) (limit : Int)
  | alertsClear (tenantId : String) (types : Option (List AlertType)) (deviceId : Option String)
  | alertConfigSet (tenantId : String) (config : AlertConfig)
  | tripsList (tenantId deviceId start stop : String) (limit : Int)
  | immobilizerEvents (tenantId deviceId : String) (limit : Int)
  | subscriptionGet (tenantId : String)
  | subscriptionSet (tenantId : String) (sub : Subscription)
  | paymentsSubscribe (tenantId planId : String)
  | notificationConfigGet (tenantId : String)

/-- What the requests resolve with. -/
@[reducible] def ApiOp.Res : ApiOp → Type
  | .backend op => op.Res
  | .devicesCreate _ => Device
  | .devicesList _ _ => List Device
  | .devicesListDeleted _ => List Device
  | .devicesCount _ => Nat
  | .devicesUpdate _ _ _ => Option Device
  | .devicesSoftDelete _ _ _ => Bool
  | .devicesRestore _ _ => Bool
  | .activeImeis => List String
  | .allowListAdd _ => Unit
  | .allowListRemove _ => Unit
  | .allowListReplaceAll _ => Unit
  | .orgUnitsFindById _ _ => Option OrgUnit
  | .orgUnitsCreate _ => OrgUnit
  | .orgUnitsSet _ => OrgUnit
  | .orgUnitsRemove _ _ => Bool
  | .usersCreate _ => User
  | .usersFindByEmail _ => Option User
  | .usersFindById _ => Option User
  | .usersList _ => List User
  | .usersCount _ => Nat
  | .usersUpdate _ _ => Option User
  | .vehiclesCreate _ => Vehicle
  | .vehiclesFindById _ _ => Option Vehicle
  | .vehiclesList _ => List Vehicle
  | .vehiclesUpdate _ _ _ => Option Vehicle
  | .geofencesCreate _ => Geofence
  | .geofencesRemove _ _ => Bool
  | .positionsHistory _ _ _ _ _ => List Position
  | .alertsList _ _ _ => List AlertEvent
  | .alertsClear _ _ _ => Nat
  | .alertConfigSet _ _ => AlertConfig
  | .tripsList _ _ _ _ _ => List Trip
  | .immobilizerEvents _ _ _ => List ImmobilizerEvent
  | .subscriptionGet _ => Option Subscription
  | .subscriptionSet _ _ => Subscription
  | .paymentsSubscribe _ _ => SubscriptionStatus
  | .notificationConfigGet _ => NotificationConfig

/-- What the services of the API do without awaiting. -/
inductive ApiAct where
  | backend (a : CpAct)
  | randomUUID
  -- `TelemetryConsumer.forgetImei`.
  | forgetImei (imei : String)
  -- `AlertEngine.sweepOffline`.
  | sweepOffline (nowMs : Nat) (config : AlertConfig)

@[reducible] def ApiAct.Ret : ApiAct → Type
  | .backend a => a.Ret
  | .randomUUID => String
  | .forgetImei _ => Unit
  | .sweepOffline _ _ => List AlertEvent

/-- The signature of the services of the API. -/
abbrev apiSig : Sig := ⟨ApiOp, ApiOp.Res, ApiAct, ApiAct.Ret, ApiError⟩

/-- A computation of the services of the API. -/
abbrev Api := Async apiSig

namespace Api

abbrev request (op : ApiOp) : Api op.Res := Async.perform (S := apiSig) op
abbrev step (a : ApiAct) : Api a.Ret := Async.action (S := apiSig) a

/-- Code that only needs the backend. -/
def lift {α : Type} (x : Cp α) : Api α :=
  Async.lift (T := apiSig) ApiOp.backend ApiAct.backend x

end Api

/-! ## Effects -/

/-- The effect of a request. -/
def Store.effect (s : Store) : ApiOp → Store
  | .backend op => { s with backend := s.backend.effect op }
  | .devicesCreate d =>
    { s with backend.devices := s.backend.devices.put { d with deletedAt := none } }
  -- A row of these tables is changed by one statement, as in Postgres.
  | .devicesUpdate tenantId id patch =>
    { s with backend.devices :=
        s.backend.devices.write (s.backend.devices.update tenantId id patch) }
  | .devicesSoftDelete tenantId id at' =>
    { s with backend.devices :=
        s.backend.devices.write (s.backend.devices.softDelete tenantId id at') }
  | .devicesRestore tenantId id =>
    { s with backend.devices := s.backend.devices.write (s.backend.devices.restore tenantId id) }
  | .allowListAdd imei => { s with allowList := insert imei s.allowList }
  | .allowListRemove imei => { s with allowList := s.allowList.erase imei }
  | .allowListReplaceAll imeis => { s with allowList := imeis.toFinset }
  | .orgUnitsCreate u => { s with backend.orgUnits := putRow OrgUnit.id s.backend.orgUnits u }
  | .orgUnitsSet u => { s with backend.orgUnits := putRow OrgUnit.id s.backend.orgUnits u }
  | .orgUnitsRemove tenantId id =>
    { s with backend.orgUnits :=
        (removeUnit s.backend.orgUnits tenantId id).getD s.backend.orgUnits }
  | .usersCreate u => { s with users := s.users.put u }
  | .usersUpdate id patch =>
    match s.users.get id with
    | none => s
    | some u => { s with users := s.users.put (patch.apply u) }
  | .vehiclesCreate v => { s with vehicles := s.vehicles.put v }
  | .vehiclesUpdate tenantId id deviceId =>
    match s.vehicles.findById tenantId id with
    | none => s
    | some v => { s with vehicles := s.vehicles.put { v with deviceId } }
  | .geofencesCreate g =>
    { s with backend.geofences := putRow Geofence.id s.backend.geofences g }
  | .geofencesRemove tenantId id =>
    match findGeofence s.backend.geofences tenantId id with
    | none => s
    | some _ => { s with backend.geofences := s.backend.geofences.filter fun g => g.id ≠ id }
  | .alertsClear tenantId types deviceId =>
    { s with backend.alerts :=
        s.backend.alerts.filter fun a => ¬ a.cleared tenantId types deviceId }
  | .alertConfigSet tenantId config =>
    { s with backend.alertConfigs := s.backend.alertConfigs.set tenantId config }
  | .subscriptionSet tenantId sub =>
    { s with subscriptions := s.subscriptions.set tenantId sub }
  | _ => s

/-- What a request resolves with; `reply` is the answer of what lies outside: the tracker, the
payment provider. -/
def Store.answer (s : Store) (reply : String) : (op : ApiOp) → op.Res
  | .backend op => s.backend.answer reply op
  | .devicesCreate d => { d with deletedAt := none }
  | .devicesList tenantId departmentIds => s.backend.devices.list tenantId departmentIds
  | .devicesListDeleted tenantId => s.backend.devices.listDeleted tenantId
  | .devicesCount tenantId => s.backend.devices.count tenantId
  | .devicesUpdate tenantId id patch => s.backend.devices.update tenantId id patch
  | .devicesSoftDelete tenantId id at' => (s.backend.devices.softDelete tenantId id at').isSome
  | .devicesRestore tenantId id => (s.backend.devices.restore tenantId id).isSome
  | .activeImeis => s.backend.devices.activeImeis
  | .allowListAdd _ => ()
  | .allowListRemove _ => ()
  | .allowListReplaceAll _ => ()
  | .orgUnitsFindById tenantId id => findUnit s.backend.orgUnits tenantId id
  | .orgUnitsCreate u => u
  | .orgUnitsSet u => u
  | .orgUnitsRemove tenantId id => (removeUnit s.backend.orgUnits tenantId id).isSome
  | .usersCreate u => u
  | .usersFindByEmail email => s.users.rows.find? fun u => u.email = email
  | .usersFindById id => s.users.get id
  | .usersList tenantId => s.users.rows.filter fun u => u.tenantId = tenantId
  | .usersCount tenantId => (s.users.rows.filter fun u => u.tenantId = tenantId).length
  | .usersUpdate id patch => (s.users.get id).map patch.apply
  | .vehiclesCreate v => v
  | .vehiclesFindById tenantId id => s.vehicles.findById tenantId id
  | .vehiclesList tenantId => s.vehicles.rows.filter fun v => v.tenantId = tenantId
  | .vehiclesUpdate tenantId id deviceId =>
    (s.vehicles.findById tenantId id).map fun v => { v with deviceId }
  | .geofencesCreate g => g
  | .geofencesRemove tenantId id => (findGeofence s.backend.geofences tenantId id).isSome
  | .positionsHistory tenantId deviceId start stop limit =>
    s.backend.positions.history tenantId deviceId start stop limit
  | .alertsList tenantId deviceId limit => listAlerts s.backend.alerts tenantId deviceId limit
  | .alertsClear tenantId types deviceId =>
    (s.backend.alerts.filter fun a => a.cleared tenantId types deviceId).length
  | .alertConfigSet _ config => config
  | .tripsList tenantId deviceId start stop limit =>
    listTrips s.backend.trips tenantId deviceId start stop limit
  | .immobilizerEvents tenantId deviceId limit =>
    listEvents s.backend.events tenantId deviceId limit
  | .subscriptionGet tenantId => s.subscriptions.get tenantId
  | .subscriptionSet _ sub => sub
  | .paymentsSubscribe _ _ => if reply = "past_due" then .past_due else .active
  | .notificationConfigGet tenantId =>
    (s.notificationConfigs.get tenantId).getD (emptyNotificationConfig tenantId)

/-- Ghost: what `Backend` notes about reads. -/
def Store.noteRead (s : Store) (i : Nat) : ApiOp → Store
  | .backend op => { s with backend := s.backend.noteRead i op }
  | _ => s

/-- The effect and the result of a request made by call `i`. -/
def Store.settle (s : Store) (i : Nat) (op : ApiOp) (x : Outcome) :
    Store × Except ApiError op.Res :=
  let s := s.noteRead i op
  (if x.takesEffect then s.effect op else s,
    match x with
    | .resolves reply => .ok (s.answer reply op)
    | .rejects e _ => .error e)

/-- The effect and the result of a step made at once. -/
def Store.act (D : ApiDeployment) (s : Store) : (a : ApiAct) → Store × a.Ret
  | .backend a =>
    let out := s.backend.act D.toDeployment a
    ({ s with backend := out.1 }, out.2)
  | .randomUUID => ({ s with drawn := s.drawn + 1 }, D.uuid s.drawn)
  | .forgetImei imei =>
    ({ s with backend.consumer.imeiCache := s.backend.consumer.imeiCache.delete imei }, ())
  | .sweepOffline nowMs config =>
    let out := s.backend.consumer.alertEngine.sweepOffline nowMs config
    ({ s with backend.consumer.alertEngine := out.1 }, out.2)

/-- The services of the API against the store. -/
def Store.world (D : ApiDeployment) : World apiSig Nat Unit Store Outcome where
  settle i _ op x s := some (s.settle i op x)
  act _ _ a s := s.act D a

/-- Run a call to completion; its `n`-th request has the outcome `ω n`. -/
def Store.complete {α : Type} (D : ApiDeployment) (ω : Nat → Outcome) (x : Api α) (s : Store) :
    Option (Except ApiError α × Store) :=
  ((Store.world D).exec 0 () ω x 0 s).map fun out => (out.1, out.2.2)

end FleetTracking.ControlPlane
