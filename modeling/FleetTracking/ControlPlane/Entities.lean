import FleetTracking.Lib.JsMap
import FleetTracking.Lib.JsNumber
import Mathlib.Algebra.Order.Ring.Unbundled.Rat

/-!
# Entities of the Control Plane

The records the control plane stores and passes around, and the errors its services throw.
Ids drawn from `randomUUID` are left out where nothing reads them. Numbers are rationals.
-/

namespace FleetTracking.ControlPlane

/-- Why a command did not reach the device, or was not confirmed. -/
inductive DeviceCommandErrorCode where
  | not_connected
  | timeout
  | disabled
  | unavailable
  | rejected
  deriving DecidableEq, Repr

/-- What the services throw. The first ones are the HTTP exceptions of the API. -/
inductive ApiError where
  | badRequest (message : String)
  | unauthorized (message : String)
  | paymentRequired (message : String)
  | forbidden (message : String)
  | notFound (message : String)
  | conflict (message : String)
  | badGateway (message : String)
  | serviceUnavailable (message : String)
  | gatewayTimeout (message : String)
  | deviceCommand (code : DeviceCommandErrorCode) (message : String)
  | immobilizerCommand (message : String)
  | error (message : String)
  deriving DecidableEq, Repr

/-- `err.message`. -/
def ApiError.message : ApiError → String
  | .badRequest m => m
  | .unauthorized m => m
  | .paymentRequired m => m
  | .forbidden m => m
  | .notFound m => m
  | .conflict m => m
  | .badGateway m => m
  | .serviceUnavailable m => m
  | .gatewayTimeout m => m
  | .deviceCommand _ m => m
  | .immobilizerCommand m => m
  | .error m => m

inductive Role where
  | admin
  | operator
  | viewer
  deriving DecidableEq

/-- The user a request is made for. A user of a department sees its subtree only. -/
structure AuthUser where
  userId : String
  tenantId : String
  role : Role
  email : String
  departmentId : Option String
  deriving DecidableEq

/-- A department. -/
structure OrgUnit where
  id : String
  tenantId : String
  name : String
  parentId : Option String
  deriving DecidableEq

/-- A user as stored; `departmentId = none` is access to the whole tenant. -/
structure User where
  id : String
  tenantId : String
  email : String
  passwordHash : String
  role : Role
  active : Bool
  mfaEnabled : Bool
  mfaSecret : Option String
  departmentId : Option String
  deriving DecidableEq

inductive DeviceStatus where
  | provisioned
  | active
  | suspended
  | retired
  deriving DecidableEq

inductive AssetType where
  | car
  | motorcycle
  | bus
  | truck
  | boat
  | trailer
  | equipment
  | other
  deriving DecidableEq

/-- A tracker; `deletedAt` is set when it is soft-deleted. -/
structure Device where
  id : String
  tenantId : String
  imei : String
  name : Option String
  model : String
  assetType : AssetType
  status : DeviceStatus
  vehicleId : Option String
  departmentId : Option String
  deletedAt : Option String
  deriving DecidableEq

structure Vehicle where
  id : String
  tenantId : String
  name : String
  deviceId : Option String
  deriving DecidableEq

inductive SubscriptionStatus where
  | active
  | past_due
  | canceled
  deriving DecidableEq

/-- The plan a tenant is subscribed to. -/
structure Subscription where
  tenantId : String
  planId : String
  status : SubscriptionStatus
  createdAt : String
  deriving DecidableEq

/-- What ingestion publishes for a record. -/
structure Normalized where
  imei : String
  ts : String
  latitude : ℚ
  longitude : ℚ
  altitude : ℚ
  heading : ℚ
  speedKph : ℚ
  satellites : ℚ
  fields : JsMap String ℚ
  attrs : List (String × ℚ)

/-- What `JSON.parse` makes of the payload of a message. -/
inductive Payload where
  -- The text is not JSON.
  | invalid
  -- A value whose `fields` cannot be read: `toPosition` throws a `TypeError`.
  | malformed (message : String)
  -- A record.
  | record (n : Normalized)

/-- A message of the telemetry stream. -/
structure TelemetryMessage where
  imei : String
  data : Payload

/-- A normalised telemetry record attached to a device. -/
structure Position where
  tenantId : String
  deviceId : String
  imei : String
  ts : String
  latitude : ℚ
  longitude : ℚ
  altitude : ℚ
  heading : ℚ
  speedKph : ℚ
  satellites : ℚ
  ignition : Option Bool
  attrs : List (String × ℚ)
  deriving DecidableEq

/-- Per-tenant alert settings; `overspeedKph = none` disables the overspeed alert. -/
structure AlertConfig where
  overspeedKph : Option ℚ
  ignitionAlerts : Bool
  geofenceAlerts : Bool
  offlineAfterSec : ℚ

def DEFAULT_ALERT_CONFIG : AlertConfig := ⟨some 90, true, true, 600⟩

inductive AlertType where
  | overspeed
  | ignition_on
  | ignition_off
  | geofence_enter
  | geofence_exit
  | device_offline
  deriving DecidableEq

/-- An alert. Of `meta`, the geofence and the speeds are kept as fields of their own. -/
structure AlertEvent where
  tenantId : String
  deviceId : String
  imei : String
  type : AlertType
  ts : String
  message : String
  geofenceId : Option String
  speeds : Option (ℚ × ℚ)
  deriving DecidableEq

/-- Where the alerts of a tenant are delivered; `types = none` delivers all of them. -/
structure NotificationConfig where
  tenantId : String
  webhookUrls : List String
  emailRecipients : List String
  webhookSecret : String
  types : Option (List AlertType)
  deriving DecidableEq

def emptyNotificationConfig (tenantId : String) : NotificationConfig :=
  ⟨tenantId, [], [], "", none⟩

inductive GeofenceShape where
  | circle (centerLat centerLon radiusM : ℚ)
  | polygon (ring : List (ℚ × ℚ))

structure Geofence where
  id : String
  tenantId : String
  name : String
  shape : GeofenceShape

structure Trip where
  tenantId : String
  deviceId : String
  startTs : String
  endTs : String
  distanceM : ℚ
  maxSpeedKph : ℚ
  points : Nat
  deriving DecidableEq

/-- A digital output of the tracker, 1 to 4. -/
abbrev Dout := { n : Nat // 1 ≤ n ∧ n ≤ 4 }

/-- The engage limits an admin may set, in km/h. -/
abbrev EngageKph := { n : Nat // n ≤ 50 }

/-- The immobilizer of a device, as stored; the ranges are those of the table's checks. -/
structure ImmobilizerConfig where
  deviceId : String
  tenantId : String
  enabled : Bool
  dout : Dout
  activeHigh : Bool
  maxEngageKph : EngageKph
  immobilized : Bool
  lastCommand : Option String
  lastReply : Option String
  lastBy : Option String
  lastAt : Option String
  testedAt : Option String
  createdAt : String
  deriving DecidableEq

/-- The fields a partial update of the row can set. -/
structure ImmobilizerPatch where
  immobilized : Option Bool := none
  lastCommand : Option String := none
  lastReply : Option String := none
  lastBy : Option String := none
  lastAt : Option String := none
  testedAt : Option String := none

/-- `{ ...c, ...patch }`. -/
def ImmobilizerPatch.apply (patch : ImmobilizerPatch) (c : ImmobilizerConfig) :
    ImmobilizerConfig :=
  { c with
    immobilized := patch.immobilized.getD c.immobilized
    lastCommand := patch.lastCommand <|> c.lastCommand
    lastReply := patch.lastReply <|> c.lastReply
    lastBy := patch.lastBy <|> c.lastBy
    lastAt := patch.lastAt <|> c.lastAt
    testedAt := patch.testedAt <|> c.testedAt }

inductive ImmobilizerAction where
  | immobilize
  | mobilize
  | test
  | enable
  | disable
  deriving DecidableEq

structure ImmobilizerEvent where
  tenantId : String
  deviceId : String
  action : ImmobilizerAction
  actorId : String
  actorEmail : String
  command : Option String
  reply : Option String
  ok : Bool
  ts : String

end FleetTracking.ControlPlane
