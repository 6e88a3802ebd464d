import FleetTracking.ControlPlane.ImmobilizerCommand
import FleetTracking.ControlPlane.PositionTable
import FleetTracking.ControlPlane.TripDetector
import FleetTracking.Lib.Interleaving
import FleetTracking.Lib.Table

/-!
# What the Control Plane Runs Against

The services await repositories, the hot-state cache and the trackers themselves, and keep
some memory of their own. `Backend` is all of that in one state; `cpSig` lists what the
services do to it.

1. The stores, the memory of the telemetry consumer, and `Backend`.
2. `CpOp`, `CpAct`: the requests that are awaited and the steps made at once.
3. `Backend.settle`, `Backend.act`: their effects. A request resolves, or it rejects; one
   that rejects may have taken effect all the same.
-/

namespace FleetTracking.ControlPlane

open Async

/-! ## Stores -/

/-- The devices, no id twice. -/
abbrev DeviceTable := Table Device Device.id

namespace DeviceTable

/-- `findById`; a soft-deleted device is only found on request. -/
def findById (t : DeviceTable) (tenantId id : String) (includeDeleted : Bool) : Option Device :=
  t.rows.find? fun d => d.id = id ∧ d.tenantId = tenantId ∧ (includeDeleted ∨ d.deletedAt = none)

/-- `findByImei`: live devices only. -/
def findByImei (t : DeviceTable) (imei : String) : Option Device :=
  t.rows.find? fun d => d.imei = imei ∧ d.deletedAt = none

end DeviceTable

/-- A cached answer to the lookup of an IMEI: tenant and id of the device, if there is one. -/
structure ImeiEntry where
  ref : Option (String × String)
  expiresAt : Nat

/-- The memory of the telemetry consumer. -/
structure Consumer where
  imeiCache : JsMap String ImeiEntry
  -- For each tenant, when its geofences were read, and the geofences.
  geofenceCache : JsMap String (Nat × List Geofence)
  configCache : JsMap String (Nat × AlertConfig)
  alertEngine : AlertEngine
  tripDetector : TripDetector

def Consumer.new : Consumer :=
  ⟨JsMap.empty, JsMap.empty, JsMap.empty, AlertEngine.new, TripDetector.new⟩

/-- Everything the services share. -/
structure Backend where
  -- The clock, in milliseconds.
  now : Nat
  devices : DeviceTable
  orgUnits : List OrgUnit
  immobilizers : JsMap String ImmobilizerConfig
  events : List ImmobilizerEvent
  -- The commands the trackers have applied, newest first, with the IMEI.
  applied : List (String × SetDigout)
  positions : PositionTable
  -- The hot state, by tenant and device.
  hot : JsMap (String × String) Position
  alerts : List AlertEvent
  trips : List Trip
  alertConfigs : JsMap String AlertConfig
  geofences : List Geofence
  consumer : Consumer
  -- What was pushed to connected clients.
  published : List Position
  publishedAlerts : List AlertEvent
  -- Ghost: the newest stored position at each read of a last position, with the number of
  -- the call that read, newest first.
  speedReads : List (Nat × Option Position)

/-- A server without data except for its devices. -/
def Backend.new (devices : DeviceTable) : Backend :=
  { now := 0, devices, orgUnits := [], immobilizers := JsMap.empty, events := [], applied := []
    positions := PositionTable.empty, hot := JsMap.empty, alerts := [], trips := []
    alertConfigs := JsMap.empty, geofences := [], consumer := Consumer.new, published := []
    publishedAlerts := [], speedReads := [] }

/-- The stored immobilizer of a device of the tenant. -/
def Backend.immobilizer (s : Backend) (tenantId deviceId : String) : Option ImmobilizerConfig :=
  (s.immobilizers.get deviceId).filter fun c => c.tenantId = tenantId

/-! ## Requests -/

/-- What the services await. -/
inductive CpOp where
  | devicesFindById (tenantId id : String) (includeDeleted : Bool)
  | orgUnitsList (tenantId : String)
  | findByImei (imei : String)
  | immobilizerGet (tenantId deviceId : String)
  | immobilizerUpsert (cfg : ImmobilizerConfig)
  -- `patch` of the repository reads the row, and then writes it back as a whole.
  | immobilizerPatchGet (tenantId deviceId : String)
  | immobilizerPatch (deviceId : String) (row : ImmobilizerConfig) (patch : ImmobilizerPatch)
  | addEvent (e : ImmobilizerEvent)
  | send (imei : String) (command : SetDigout)
  | hotGetLast (tenantId deviceId : String)
  | hotSetLast (p : Position)
  | positionsLatest (tenantId deviceId : String)
  | positionsInsertMany (ps : List Position)
  | alertConfigGet (tenantId : String)
  | geofencesList (tenantId : String)
  | alertsInsertMany (events : List AlertEvent)
  | tripsInsert (trip : Trip)

/-- What the requests resolve with. -/
@[reducible] def CpOp.Res : CpOp → Type
  | .devicesFindById _ _ _ => Option Device
  | .orgUnitsList _ => List OrgUnit
  | .findByImei _ => Option Device
  | .immobilizerGet _ _ => Option ImmobilizerConfig
  | .immobilizerUpsert _ => ImmobilizerConfig
  | .immobilizerPatchGet _ _ => Option ImmobilizerConfig
  | .immobilizerPatch _ _ _ => ImmobilizerConfig
  | .addEvent _ => Unit
  | .send _ _ => String
  | .hotGetLast _ _ => Option Position
  | .hotSetLast _ => Unit
  | .positionsLatest _ _ => Option Position
  | .positionsInsertMany _ => Unit
  | .alertConfigGet _ => AlertConfig
  | .geofencesList _ => List Geofence
  | .alertsInsertMany _ => Unit
  | .tripsInsert _ => Unit

/-- What the services do without awaiting. -/
inductive CpAct where
  | now
  | imeiCacheGet (imei : String)
  | imeiCacheSet (imei : String) (entry : ImeiEntry)
  | geofenceCacheGet (tenantId : String)
  | geofenceCacheSet (tenantId : String) (entry : Nat × List Geofence)
  | configCacheGet (tenantId : String)
  | configCacheSet (tenantId : String) (entry : Nat × AlertConfig)
  | evaluate (pos : Position) (config : AlertConfig) (geofences : List Geofence) (nowMs : Nat)
  | update (pos : Position)
  | publish (pos : Position)
  | publishAlert (alert : AlertEvent)

/-- What these steps return. -/
@[reducible] def CpAct.Ret : CpAct → Type
  | .now => Nat
  | .imeiCacheGet _ => Option ImeiEntry
  | .geofenceCacheGet _ => Option (Nat × List Geofence)
  | .configCacheGet _ => Option (Nat × AlertConfig)
  | .evaluate _ _ _ _ => List AlertEvent
  | .update _ => Option Trip
  | _ => Unit

/-- The signature of the control-plane services. -/
abbrev cpSig : Sig := ⟨CpOp, CpOp.Res, CpAct, CpAct.Ret, ApiError⟩

/-! ## Effects -/

/-- The effect of a request on the stores. -/
def Backend.effect (s : Backend) : CpOp → Backend
  | .immobilizerUpsert cfg => { s with immobilizers := s.immobilizers.set cfg.deviceId cfg }
  | .immobilizerPatch deviceId row patch =>
    { s with immobilizers := s.immobilizers.set deviceId (patch.apply row) }
  | .addEvent e => { s with events := e :: s.events }
  | .send imei command => { s with applied := (imei, command) :: s.applied }
  | .hotSetLast p => { s with hot := s.hot.set (p.tenantId, p.deviceId) p }
  | .positionsInsertMany ps => { s with positions := s.positions.insertMany ps }
  | .alertsInsertMany events => { s with alerts := s.alerts ++ events }
  | .tripsInsert trip => { s with trips := s.trips ++ [trip] }
  | _ => s

/-- What a request resolves with; `reply` is the answer of the tracker to a command. -/
def Backend.answer (s : Backend) (reply : String) : (op : CpOp) → op.Res
  | .devicesFindById tenantId id includeDeleted => s.devices.findById tenantId id includeDeleted
  | .orgUnitsList tenantId => s.orgUnits.filter fun u => u.tenantId = tenantId
  | .findByImei imei => s.devices.findByImei imei
  | .immobilizerGet tenantId deviceId => s.immobilizer tenantId deviceId
  | .immobilizerUpsert cfg => cfg
  | .immobilizerPatchGet tenantId deviceId => s.immobilizer tenantId deviceId
  | .immobilizerPatch _ row patch => patch.apply row
  | .addEvent _ => ()
  | .send _ _ => reply
  | .hotGetLast tenantId deviceId => s.hot.get (tenantId, deviceId)
  | .hotSetLast _ => ()
  | .positionsLatest tenantId deviceId => s.positions.latest tenantId deviceId
  | .positionsInsertMany _ => ()
  | .alertConfigGet tenantId => (s.alertConfigs.get tenantId).getD DEFAULT_ALERT_CONFIG
  | .geofencesList tenantId => s.geofences.filter fun g => g.tenantId = tenantId
  | .alertsInsertMany _ => ()
  | .tripsInsert _ => ()

/-- Ghost: what the newest stored position is when call `i` reads a last position. -/
def Backend.noteRead (s : Backend) (i : Nat) : CpOp → Backend
  | .hotGetLast tenantId deviceId | .positionsLatest tenantId deviceId =>
    { s with speedReads := (i, s.positions.latest tenantId deviceId) :: s.speedReads }
  | _ => s

/-- How a request turns out. -/
inductive Outcome where
  -- It takes effect and the promise resolves.
  | resolves (reply : String)
  -- The promise rejects, and the request took effect or did not.
  | rejects (e : ApiError) (applied : Bool)

/-- The promise resolves. -/
def Outcome.isOk : Outcome → Bool
  | .resolves _ => true
  | .rejects _ _ => false

/-- The request takes effect. -/
def Outcome.takesEffect : Outcome → Bool
  | .resolves _ => true
  | .rejects _ applied => applied

/-- The effect and the result of a request made by call `i`. -/
def Backend.settle (s : Backend) (i : Nat) (op : CpOp) (x : Outcome) :
    Backend × Except ApiError op.Res :=
  let s := s.noteRead i op
  (if x.takesEffect then s.effect op else s,
    match x with
    | .resolves reply => .ok (s.answer reply op)
    | .rejects e _ => .error e)

/-- What is fixed when the server starts. -/
structure Deployment where
  haversineMeters : Distance
  tripOptions : TripDetectorOptions
  -- Remote commands are enabled.
  commander : Bool

/-- The effect and the result of a step made at once. -/
def Backend.act (D : Deployment) (s : Backend) : (a : CpAct) → Backend × a.Ret
  | .now => (s, s.now)
  | .imeiCacheGet imei => (s, s.consumer.imeiCache.get imei)
  | .imeiCacheSet imei entry =>
    ({ s with consumer.imeiCache := s.consumer.imeiCache.set imei entry }, ())
  | .geofenceCacheGet tenantId => (s, s.consumer.geofenceCache.get tenantId)
  | .geofenceCacheSet tenantId entry =>
    ({ s with consumer.geofenceCache := s.consumer.geofenceCache.set tenantId entry }, ())
  | .configCacheGet tenantId => (s, s.consumer.configCache.get tenantId)
  | .configCacheSet tenantId entry =>
    ({ s with consumer.configCache := s.consumer.configCache.set tenantId entry }, ())
  | .evaluate pos config geofences nowMs =>
    let out := s.consumer.alertEngine.evaluate D.haversineMeters pos config geofences nowMs
    ({ s with consumer.alertEngine := out.1 }, out.2)
  | .update pos =>
    let out := s.consumer.tripDetector.update D.haversineMeters D.tripOptions pos
    ({ s with consumer.tripDetector := out.1 }, out.2)
  | .publish pos => ({ s with published := s.published ++ [pos] }, ())
  | .publishAlert alert => ({ s with publishedAlerts := s.publishedAlerts ++ [alert] }, ())

/-- What happens between the calls. -/
inductive EnvMove where
  -- Time passes.
  | elapse (ms : Nat)
  -- A hot-state key expires, or the cache restarts without it.
  | expire (tenantId deviceId : String)

/-- The effect of a move of the environment. -/
def Backend.env (s : Backend) : EnvMove → Backend
  | .elapse ms => { s with now := s.now + ms }
  | .expire tenantId deviceId => { s with hot := s.hot.delete (tenantId, deviceId) }

end FleetTracking.ControlPlane
