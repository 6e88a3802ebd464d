import FleetTracking.ControlPlane.Entities

/-!
# The Alert Engine

Per-device state machine that turns positions into alerts. An alert is emitted on a
transition (a speed limit crossed, the ignition flipped, a geofence entered or left), so
the alerts of a position depend on the state the earlier positions left behind.

Great-circle distance is computed in floating point; it is a parameter here.
-/

namespace FleetTracking.ControlPlane

/-! ## Geofences -/

/-- `haversineMeters(lat1, lon1, lat2, lon2)`. -/
abbrev Distance := ℚ → ℚ → ℚ → ℚ → ℚ

/-- Does the edge from `(xj, yj)` to `(xi, yi)` cross the ray from the point? -/
def crosses (lon lat : ℚ) (i j : ℚ × ℚ) : Bool :=
  (decide (lat < i.2) != decide (lat < j.2)) &&
    decide (lon < (j.1 - i.1) * (lat - i.2) / (j.2 - i.2) + i.1)

/-- `pointInRing`: ray casting over the edges, each vertex with the one before it. -/
def pointInRing (lon lat : ℚ) (ring : List (ℚ × ℚ)) : Bool :=
  match ring.getLast? with
  | none => false
  | some last => (ring.foldl
      (fun (acc : Bool × (ℚ × ℚ)) i => (acc.1 != crosses lon lat i acc.2, i)) (false, last)).1

section Engine

variable (haversineMeters : Distance)

/-- `geofenceContains`. -/
def geofenceContains (g : Geofence) (lat lon : ℚ) : Bool :=
  match g.shape with
  | .circle centerLat centerLon radiusM => haversineMeters lat lon centerLat centerLon ≤ radiusM
  | .polygon ring => pointInRing lon lat ring

/-- The ids of the geofences that contain a position, each once. -/
def geofencesContaining (geofences : List Geofence) (p : Position) : List String :=
  geofences.foldl (fun inside g =>
    if geofenceContains haversineMeters g p.latitude p.longitude ∧ g.id ∉ inside then
      inside ++ [g.id]
    else inside) []

/-! ## The state of a device -/

structure DeviceAlertState where
  deviceId : String
  tenantId : String
  imei : String
  lastSeenMs : Nat
  lastIgnition : Option Bool
  -- Fire once per over-limit episode, not every packet.
  overspeedActive : Bool
  insideGeofences : List String
  offlineAlerted : Bool

/-- The state of a device that has not been seen before. -/
def DeviceAlertState.new (pos : Position) (nowMs : Nat) : DeviceAlertState :=
  { deviceId := pos.deviceId, tenantId := pos.tenantId, imei := pos.imei, lastSeenMs := nowMs
    lastIgnition := none, overspeedActive := false, insideGeofences := [], offlineAlerted := false }

/-- An alert about a position. -/
def emitAlert (pos : Position) (type : AlertType) (message : String)
    (geofenceId : Option String := none) (speeds : Option (ℚ × ℚ) := none) : AlertEvent :=
  { tenantId := pos.tenantId, deviceId := pos.deviceId, imei := pos.imei, ts := pos.ts
    type, message, geofenceId, speeds }

/-- Overspeed (edge-triggered). -/
def overspeedAlerts (pos : Position) (config : AlertConfig) (st : DeviceAlertState) :
    DeviceAlertState × List AlertEvent :=
  match config.overspeedKph with
  | none => (st, [])
  | some limit =>
    let isOver := decide (limit < pos.speedKph)
    let message := "Speed " ++ JsNumber.numberText pos.speedKph ++ " km/h exceeded limit " ++
      JsNumber.numberText limit ++ " km/h"
    ({ st with overspeedActive := isOver },
      if isOver && !st.overspeedActive then
        [emitAlert pos .overspeed message none (some (pos.speedKph, limit))]
      else [])

/-- Ignition change; the first known ignition state is not a change. -/
def ignitionAlerts (pos : Position) (config : AlertConfig) (st : DeviceAlertState) :
    DeviceAlertState × List AlertEvent :=
  match config.ignitionAlerts, pos.ignition with
  | true, some ignition =>
    ({ st with lastIgnition := some ignition },
      if st.lastIgnition = some !ignition then
        [emitAlert pos (if ignition then .ignition_on else .ignition_off)
          ("Ignition " ++ if ignition then "on" else "off")]
      else [])
  | _, _ => (st, [])

/-- `geofences.find((g) => g.id === id)?.name ?? id`. -/
def nameOf (geofences : List Geofence) (id : String) : String :=
  match geofences.find? fun g => g.id = id with
  | some g => g.name
  | none => id

/-- Geofence enter and exit. -/
def geofenceAlerts (pos : Position) (config : AlertConfig) (geofences : List Geofence)
    (st : DeviceAlertState) : DeviceAlertState × List AlertEvent :=
  if config.geofenceAlerts ∧ geofences ≠ [] then
    let nowInside := geofencesContaining haversineMeters geofences pos
    let entered := nowInside.filter fun id => id ∉ st.insideGeofences
    let left := st.insideGeofences.filter fun id => id ∉ nowInside
    ({ st with insideGeofences := nowInside },
      entered.map (fun id =>
        emitAlert pos .geofence_enter ("Entered " ++ nameOf geofences id) (some id)) ++
      left.map fun id =>
        emitAlert pos .geofence_exit ("Left " ++ nameOf geofences id) (some id))
  else (st, [])

/-- The three checks, one after the other. -/
def DeviceAlertState.check (pos : Position) (config : AlertConfig) (geofences : List Geofence)
    (st : DeviceAlertState) : DeviceAlertState × List AlertEvent :=
  let (st, speed) := overspeedAlerts pos config st
  let (st, ignition) := ignitionAlerts pos config st
  let (st, fences) := geofenceAlerts haversineMeters pos config geofences st
  (st, speed ++ ignition ++ fences)

/-! ## The engine -/

/-- The states of the devices seen so far. -/
structure AlertEngine where
  state : JsMap String DeviceAlertState

/-- `new AlertEngine()`. -/
def AlertEngine.new : AlertEngine := ⟨JsMap.empty⟩

/-- The state of the device of a position. -/
def AlertEngine.get (eng : AlertEngine) (pos : Position) (nowMs : Nat) : DeviceAlertState :=
  (eng.state.get pos.deviceId).getD (.new pos nowMs)

/-- `evaluate`: the alerts of a position. -/
def AlertEngine.evaluate (eng : AlertEngine) (pos : Position) (config : AlertConfig)
    (geofences : List Geofence) (nowMs : Nat) : AlertEngine × List AlertEvent :=
  -- any packet means the device is back online
  let st := { eng.get pos nowMs with lastSeenMs := nowMs, offlineAlerted := false }
  let (st, events) := st.check haversineMeters pos config geofences
  (⟨eng.state.set pos.deviceId st⟩, events)

end Engine

/-! ## Devices that stopped reporting -/

/-- Is the device silent for too long, and was no alert given about it? -/
def DeviceAlertState.overdue (st : DeviceAlertState) (nowMs : Nat) (config : AlertConfig) : Bool :=
  !st.offlineAlerted && decide (config.offlineAfterSec * 1000 < (nowMs : ℚ) - st.lastSeenMs)

/-- The alert that a device is offline. -/
def DeviceAlertState.offlineAlert (st : DeviceAlertState) (nowMs : Nat) : AlertEvent :=
  { tenantId := st.tenantId, deviceId := st.deviceId, imei := st.imei, type := .device_offline
    ts := JsDate.isoText nowMs
    message := "No data for " ++
      toString (JsNumber.mathRound (((nowMs : ℚ) - st.lastSeenMs) / 1000)) ++ "s"
    geofenceId := none, speeds := none }

/-- `sweepOffline`: flag the devices whose last position is older than the threshold. -/
def AlertEngine.sweepOffline (eng : AlertEngine) (nowMs : Nat) (config : AlertConfig) :
    AlertEngine × List AlertEvent :=
  let overdue := eng.state.entries.filter fun e => e.2.overdue nowMs config
  (⟨overdue.foldl (fun m e => m.set e.1 { e.2 with offlineAlerted := true }) eng.state⟩,
    overdue.map fun e => e.2.offlineAlert nowMs)

end FleetTracking.ControlPlane
