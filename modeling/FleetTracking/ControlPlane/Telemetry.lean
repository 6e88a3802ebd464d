import FleetTracking.ControlPlane.Immobilizer

/-!
# Telemetry: Consumer and Read API

`process` handles one batch of the telemetry stream: it resolves the devices, runs the
rules engine position by position, stores the positions and updates the hot state. `latest`
serves the last position from the hot state, and re-warms it from the durable store.
-/

namespace FleetTracking.ControlPlane

open Async

/-! ## Lookups with a cache -/

def NEGATIVE_CACHE_MS : Nat := 10000
def POSITIVE_CACHE_MS : Nat := 30000
def CACHE_TTL_MS : Nat := 15000

/-- Tenant and id of the live device with an IMEI. -/
def resolveDevice (imei : String) : Cp (Option (String × String)) := do
  let hit ← step (.imeiCacheGet imei)
  let now ← step .now
  match hit.filter fun e => now < e.expiresAt with
  | some e => pure e.ref
  | none => do
    let device ← request (.findByImei imei)
    let ref := device.map fun d => (d.tenantId, d.id)
    let now ← step .now
    let ttl := if ref.isSome then POSITIVE_CACHE_MS else NEGATIVE_CACHE_MS
    step (.imeiCacheSet imei ⟨ref, now + ttl⟩)
    pure ref

/-- The entry of a cache, if it is fresh, or else what is loaded, which is cached. -/
def throughCache {α : Type} (get : Cp (Option (Nat × α))) (load : Cp α) (set : Nat × α → Cp Unit) :
    Cp α := do
  let hit ← get
  let now ← step .now
  match hit.filter fun e => now < e.1 + CACHE_TTL_MS with
  | some e => pure e.2
  | none => do
    let value ← load
    let now ← step .now
    set (now, value)
    pure value

/-- The alert settings of a tenant. -/
def configFor (tenantId : String) : Cp AlertConfig :=
  throughCache (step (.configCacheGet tenantId)) (request (.alertConfigGet tenantId)) fun e =>
    step (.configCacheSet tenantId e)

/-- The geofences of a tenant. -/
def geofencesFor (tenantId : String) : Cp (List Geofence) :=
  throughCache (step (.geofenceCacheGet tenantId)) (request (.geofencesList tenantId)) fun e =>
    step (.geofenceCacheSet tenantId e)

/-! ## Processing a batch -/

/-- `n.fields.ignition` as a flag. -/
def ignitionOf (n : Normalized) : Option Bool := (n.fields.get "ignition").map fun v => v = 1

/-- `toPosition`. -/
def toPosition (tenantId deviceId : String) (n : Normalized) : Position where
  tenantId := tenantId
  deviceId := deviceId
  imei := n.imei
  ts := n.ts
  latitude := n.latitude
  longitude := n.longitude
  altitude := n.altitude
  heading := n.heading
  speedKph := n.speedKph
  satellites := n.satellites
  ignition := ignitionOf n
  attrs := n.attrs

/-- What is collected over a batch. -/
structure Batch where
  toInsert : List Position
  latestPerDevice : JsMap String Position

def Batch.empty : Batch := ⟨[], JsMap.empty⟩

/-- Collect one more position; of a device, the newest one is kept. -/
def Batch.push (b : Batch) (pos : Position) : Batch where
  toInsert := b.toInsert ++ [pos]
  latestPerDevice :=
    if (b.latestPerDevice.get pos.deviceId).all fun prev => prev.ts < pos.ts then
      b.latestPerDevice.set pos.deviceId pos
    else b.latestPerDevice

/-- Push alerts to connected clients. -/
def publishAlerts : List AlertEvent → Cp Unit
  | [] => pure ()
  | a :: rest => do
    step (.publishAlert a)
    publishAlerts rest

/-- Store the alerts of a position, if there are any, and push them. -/
def storeAlerts (alertEvents : List AlertEvent) : Cp Unit :=
  if alertEvents.isEmpty then pure ()
  else do
    request (.alertsInsertMany alertEvents)
    publishAlerts alertEvents

/-- Store the trip that a position ended, if it ended one. -/
def storeTrip : Option Trip → Cp Unit
  | none => pure ()
  | some trip => request (.tripsInsert trip)

/-- The rules engine on one position. -/
def runRules (now : Nat) (pos : Position) : Cp Unit := do
  let config ← configFor pos.tenantId
  let fences ← geofencesFor pos.tenantId
  let alertEvents ← step (.evaluate pos config fences now)
  storeAlerts alertEvents
  let trip ← step (.update pos)
  storeTrip trip

/-- The loop over the messages of a batch. -/
def processMessages (now : Nat) : List TelemetryMessage → Batch → Cp Batch
  | [], b => pure b
  | msg :: rest, b => do
    let ref ← resolveDevice msg.imei
    match ref with
    | none => processMessages now rest b
    | some (tenantId, deviceId) =>
      match msg.data with
      | .invalid => processMessages now rest b
      | .malformed message => throw (ApiError.error message)
      | .record n => do
        let pos := toPosition tenantId deviceId n
        runRules now pos
        processMessages now rest (b.push pos)

/-- Store the positions of a batch, if there are any. -/
def storePositions (toInsert : List Position) : Cp Unit :=
  if toInsert.isEmpty then pure () else request (.positionsInsertMany toInsert)

/-- Update the hot state with the newest position of each device. -/
def setLatest : List Position → Cp Unit
  | [] => pure ()
  | pos :: rest => do
    request (.hotSetLast pos)
    step (.publish pos)
    setLatest rest

/-- `TelemetryConsumer.process`. -/
def process (batch : List TelemetryMessage) : Cp Unit := do
  let now ← step .now
  let b ← processMessages now batch Batch.empty
  storePositions b.toInsert
  setLatest (b.latestPerDevice.entries.map Prod.snd)

/-! ## The read API -/

/-- `PositionsController.latest`. -/
def latest (user : AuthUser) (deviceId : String) : Cp Position := do
  let _ ← getScoped user deviceId true
  let pos ← request (.hotGetLast user.tenantId deviceId)
  match pos with
  | some pos => pure pos
  | none => do
    let pos ← request (.positionsLatest user.tenantId deviceId)
    match pos with
    | none => throw (ApiError.notFound "No position yet for this device")
    | some pos => do
      tryCatch (request (.hotSetLast pos)) fun _ => pure ()
      pure pos

/-! ## The control plane -/

/-- A request to the immobilizer of a device. -/
inductive ImmobilizerRequest where
  | configure (dto : ImmobilizerConfigDto)
  | immobilize
  | mobilize
  | test

/-- A call of one of the services. -/
inductive Call where
  | immobilizer (user : AuthUser) (deviceId : String) (request : ImmobilizerRequest)
  | process (batch : List TelemetryMessage)
  | latest (user : AuthUser) (deviceId : String)

/-- What the services return. -/
inductive Response where
  | immobilizer (row : Option ImmobilizerConfig)
  | processed
  | position (pos : Position)

/-- The immobilizer service. -/
def serveImmobilizer (D : Deployment) (user : AuthUser) (deviceId : String) :
    ImmobilizerRequest → Cp (Option ImmobilizerConfig)
  | .configure dto => configure user deviceId dto
  | .immobilize => immobilize D user deviceId
  | .mobilize => mobilize D user deviceId
  | .test => test D user deviceId

/-- The function a call runs. -/
def serve (D : Deployment) : Call → Cp Response
  | .immobilizer user deviceId request => .immobilizer <$> serveImmobilizer D user deviceId request
  | .process batch => (fun _ => .processed) <$> process batch
  | .latest user deviceId => .position <$> latest user deviceId

/-- The services running against one backend. -/
def controlPlane (D : Deployment) : System cpSig Nat Call Response Backend Outcome EnvMove where
  settle i _ op x s := some (s.settle i op x)
  act _ _ a s := s.act D a
  code := serve D
  env e s := some (s.env e)

end FleetTracking.ControlPlane
