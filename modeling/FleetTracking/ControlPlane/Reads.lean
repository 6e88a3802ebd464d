import FleetTracking.ControlPlane.Services

/-!
# What the API Shows

The reads of positions, trips and alerts, each as the source has it: the REST controllers, the
reports, the GraphQL resolver, and the messages that are pushed to connected clients.

1. `PositionsController`, `ReportsService`, `FleetResolver`.
2. `ApiRead`: a read that is requested, with its code.
3. `RealtimeGateway`: the messages on a client's socket.
-/

namespace FleetTracking.ControlPlane

open Async

/-! ## Positions -/

namespace PositionsController

/-- Read-only history: still served for a soft-deleted device. -/
def history (user : AuthUser) (deviceId start stop : String) (limit : Int) :
    Api (List Position) := do
  let _ ← DevicesService.getIncludingDeleted user deviceId
  Api.request (.positionsHistory user.tenantId deviceId start stop (min limit 10000))

end PositionsController

/-! ## Reports -/

/-- `PER_DEVICE`: the reports of one device. -/
inductive DeviceReport where
  | trips
  | speeding
  | geofence
  | summary

def DeviceReport.text : DeviceReport → String
  | .trips => "trips"
  | .speeding => "speeding"
  | .geofence => "geofence"
  | .summary => "summary"

inductive ReportType where
  | device (type : DeviceReport)
  | fleet

/-- What the fleet report is told of a device. -/
structure FleetEntry where
  label : String
  trips : List Trip
  alerts : List AlertEvent

/-- A call of the reporting engine, whose functions are pure: what the report is made of. -/
inductive ReportCall where
  | trips (trips : List Trip) (start stop generatedAt : String)
  | speeding (alerts : List AlertEvent) (start stop generatedAt : String)
  | geofence (alerts : List AlertEvent) (start stop generatedAt : String)
  | summary (trips : List Trip) (alerts : List AlertEvent) (start stop generatedAt : String)
  | fleet (perDevice : List FleetEntry) (start stop generatedAt : String)

namespace ReportsService

def LIMIT : Int := 5000

/-- The repository has no range filter: trim to the range here. -/
def alertsInRange (tenantId deviceId start stop : String) : Api (List AlertEvent) := do
  let all ← Api.request (.alertsList tenantId (some deviceId) LIMIT)
  pure (all.filter fun a => start ≤ a.ts ∧ a.ts ≤ stop)

/-- The trips and alerts of each device. -/
def perDevice (tenantId start stop : String) : List Device → Api (List FleetEntry)
  | [] => pure []
  | d :: rest => do
    let trips ← Api.request (.tripsList tenantId d.id start stop LIMIT)
    let alerts ← alertsInRange tenantId d.id start stop
    let entries ← perDevice tenantId start stop rest
    pure (⟨s!"{d.model} {d.imei}", trips, alerts⟩ :: entries)

def fleet (user : AuthUser) (start stop now : String) : Api ReportCall := do
  let devices ← DevicesService.list user
  let entries ← perDevice user.tenantId start stop (devices.take 500)
  pure (.fleet entries start stop now)

/-- The report of one device. -/
def ofDevice (user : AuthUser) (type : DeviceReport) (deviceId start stop now : String) :
    Api ReportCall := do
  let _ ← DevicesService.get user deviceId
  let trips ← Api.request (.tripsList user.tenantId deviceId start stop LIMIT)
  let alerts ← alertsInRange user.tenantId deviceId start stop
  pure (match type with
    | .trips => .trips trips start stop now
    | .speeding => .speeding alerts start stop now
    | .geofence => .geofence alerts start stop now
    | .summary => .summary trips alerts start stop now)

def generate (user : AuthUser) (type : ReportType) (deviceId : Option String)
    (start stop : String) : Api ReportCall := do
  let now ← Api.lift nowText
  match type with
  | .fleet => fleet user start stop now
  | .device type =>
    match deviceId.filter truthy with
    | none => throw (ApiError.badRequest s!"report type \"{type.text}\" requires deviceId")
    | some deviceId => ofDevice user type deviceId start stop now

end ReportsService

/-! ## GraphQL -/

namespace FleetResolver

def me (user : AuthUser) : Api AuthUser := pure user

def devices (user : AuthUser) : Api (List Device) := DevicesService.list user

def device (user : AuthUser) (id : String) : Api Device := DevicesService.get user id

def latestPosition (user : AuthUser) (deviceId : String) : Api (Option Position) := do
  let _ ← DevicesService.get user deviceId
  Api.request (.backend (.hotGetLast user.tenantId deviceId))

def geofences (user : AuthUser) : Api (List Geofence) := GeofencesService.list user.tenantId

def alerts (user : AuthUser) (deviceId : Option String) (limit : Int) : Api (List AlertEvent) :=
  AlertsService.list user.tenantId deviceId limit

def billing (user : AuthUser) : Api BillingSummary := BillingService.summary user.tenantId

end FleetResolver

/-! ## Reads -/

/-- A read that a user requests. -/
inductive ApiRead where
  | devicesList
  | devicesGet (id : String)
  | devicesGetIncludingDeleted (id : String)
  | devicesListDeleted
  | latest (deviceId : String)
  | history (deviceId start stop : String) (limit : Int)
  | trips (deviceId start stop : String)
  | alerts (deviceId : Option String) (limit : Int)
  | report (type : ReportType) (deviceId : Option String) (start stop : String)
  | graphqlMe
  | graphqlDevices
  | graphqlDevice (id : String)
  | graphqlLatestPosition (deviceId : String)
  | graphqlGeofences
  | graphqlAlerts (deviceId : Option String) (limit : Int)
  | graphqlBilling

/-- What the reads return. -/
@[reducible] def ApiRead.Answer : ApiRead → Type
  | .devicesList => List Device
  | .devicesGet _ => Device
  | .devicesGetIncludingDeleted _ => Device
  | .devicesListDeleted => List Device
  | .latest _ => Position
  | .history _ _ _ _ => List Position
  | .trips _ _ _ => List Trip
  | .alerts _ _ => List AlertEvent
  | .report _ _ _ _ => ReportCall
  | .graphqlMe => AuthUser
  | .graphqlDevices => List Device
  | .graphqlDevice _ => Device
  | .graphqlLatestPosition _ => Option Position
  | .graphqlGeofences => List Geofence
  | .graphqlAlerts _ _ => List AlertEvent
  | .graphqlBilling => BillingSummary

/-- The code of the read, made for a user. -/
def ApiRead.code (user : AuthUser) : (read : ApiRead) → Api read.Answer
  | .devicesList => DevicesService.list user
  | .devicesGet id => DevicesService.get user id
  | .devicesGetIncludingDeleted id => DevicesService.getIncludingDeleted user id
  | .devicesListDeleted => DevicesService.listDeleted user
  | .latest deviceId => Api.lift (ControlPlane.latest user deviceId)
  | .history deviceId start stop limit =>
    PositionsController.history user deviceId start stop limit
  | .trips deviceId start stop => AlertsService.listTrips user.tenantId deviceId start stop
  | .alerts deviceId limit => AlertsService.list user.tenantId deviceId limit
  | .report type deviceId start stop => ReportsService.generate user type deviceId start stop
  | .graphqlMe => FleetResolver.me user
  | .graphqlDevices => FleetResolver.devices user
  | .graphqlDevice id => FleetResolver.device user id
  | .graphqlLatestPosition deviceId => FleetResolver.latestPosition user deviceId
  | .graphqlGeofences => FleetResolver.geofences user
  | .graphqlAlerts deviceId limit => FleetResolver.alerts user deviceId limit
  | .graphqlBilling => FleetResolver.billing user

/-! ## Live messages -/

/-- A message on a socket. -/
inductive RtMessage where
  | connected (tenantId : String)
  | error (message : String)
  | position (position : Position)
  | alert (alert : AlertEvent)

/-- The sockets that are connected, each with the tenant it is bound to. -/
structure RealtimeGateway where
  tenantOf : JsMap Nat String

namespace RealtimeGateway

/-- A client connects with a token; `none` is one that does not verify. -/
def handleConnection (g : RealtimeGateway) (client : Nat) :
    Option AuthUser → RealtimeGateway × List (Nat × RtMessage)
  | some payload =>
    (⟨g.tenantOf.set client payload.tenantId⟩, [(client, .connected payload.tenantId)])
  | none => (g, [(client, .error "unauthorized")])

def handleDisconnect (g : RealtimeGateway) (client : Nat) : RealtimeGateway :=
  ⟨g.tenantOf.delete client⟩

/-- Send to every open socket of the tenant. -/
def broadcast (g : RealtimeGateway) (isOpen : Nat → Bool) (tenantId : String)
    (payload : RtMessage) : List (Nat × RtMessage) :=
  (g.tenantOf.entries.filter fun e => e.2 = tenantId ∧ isOpen e.1).map fun e => (e.1, payload)

def publish (g : RealtimeGateway) (isOpen : Nat → Bool) (tenantId : String)
    (position : Position) : List (Nat × RtMessage) := g.broadcast isOpen tenantId (.position position)

def publishAlert (g : RealtimeGateway) (isOpen : Nat → Bool) (tenantId : String)
    (alert : AlertEvent) : List (Nat × RtMessage) := g.broadcast isOpen tenantId (.alert alert)

end RealtimeGateway

end FleetTracking.ControlPlane
