import FleetTracking.ControlPlane.AlertEngine

/-!
# The Trip Detector

A trip starts when a device moves and ends once it has been stopped for long enough. The
detector keeps the current trip of each device; its clock are the timestamps of the
positions.
-/

namespace FleetTracking.ControlPlane

structure TripDetectorOptions where
  -- Speed at or above which a trip starts.
  moveSpeedKph : ℚ := 5
  -- Speed at or below which the vehicle counts as stopped.
  stopSpeedKph : ℚ := 3
  -- Stopped for at least this long ends the trip.
  stopMinSec : ℚ := 180

inductive TripMode where
  | idle
  | moving
  deriving DecidableEq

structure TripState where
  mode : TripMode
  startTs : String
  lastLat : ℚ
  lastLon : ℚ
  distanceM : ℚ
  maxSpeedKph : ℚ
  points : Nat
  -- When the current stop began; the inner `none` is `NaN`.
  stoppedSinceMs : Option (Option Int)

/-- The state after a position at which a trip starts. -/
def TripState.starting (pos : Position) : TripState :=
  { mode := .moving, startTs := pos.ts, lastLat := pos.latitude, lastLon := pos.longitude
    distanceM := 0, maxSpeedKph := pos.speedKph, points := 1, stoppedSinceMs := none }

/-- The state of a device that is not on a trip. -/
def TripState.resting (pos : Position) : TripState :=
  { mode := .idle, startTs := pos.ts, lastLat := pos.latitude, lastLon := pos.longitude
    distanceM := 0, maxSpeedKph := 0, points := 0, stoppedSinceMs := none }

/-- `tMs - sinceMs >= stopMinSec * 1000`, which is false of `NaN`. -/
def stoppedLongEnough (opts : TripDetectorOptions) (tMs sinceMs : Option Int) : Bool :=
  match tMs, sinceMs with
  | some t, some since => opts.stopMinSec * 1000 ≤ ((t - since : Int) : ℚ)
  | _, _ => false

section Detector

variable (haversineMeters : Distance) (opts : TripDetectorOptions)

/-- One more position of a moving device, before the stop is looked at. -/
def TripState.extend (st : TripState) (pos : Position) : TripState :=
  { st with
    distanceM := st.distanceM +
      haversineMeters st.lastLat st.lastLon pos.latitude pos.longitude
    lastLat := pos.latitude
    lastLon := pos.longitude
    maxSpeedKph := max st.maxSpeedKph pos.speedKph
    points := st.points + 1 }

/-- The trip that ends at a position. -/
def TripState.finish (st : TripState) (pos : Position) : Trip :=
  { tenantId := pos.tenantId, deviceId := pos.deviceId, startTs := st.startTs, endTs := pos.ts
    distanceM := JsNumber.mathRound st.distanceM, maxSpeedKph := st.maxSpeedKph
    points := st.points }

/-- The state of a device after a position, and the trip that ended there. -/
def TripState.update (st : Option TripState) (pos : Position) : TripState × Option Trip :=
  let tMs := JsDate.parse pos.ts
  match st with
  | none =>
    (if opts.moveSpeedKph ≤ pos.speedKph then .starting pos else .resting pos, none)
  | some st =>
    match st.mode with
    | .idle => (if opts.moveSpeedKph ≤ pos.speedKph then .starting pos else st, none)
    | .moving =>
      let st := st.extend haversineMeters pos
      if pos.speedKph ≤ opts.stopSpeedKph then
        match st.stoppedSinceMs with
        | none => ({ st with stoppedSinceMs := some tMs }, none)
        | some sinceMs =>
          if stoppedLongEnough opts tMs sinceMs then (.resting pos, some (st.finish pos))
          else (st, none)
      else ({ st with stoppedSinceMs := none }, none)

/-- The trips in progress. -/
structure TripDetector where
  state : JsMap String TripState

/-- `new TripDetector()`. -/
def TripDetector.new : TripDetector := ⟨JsMap.empty⟩

/-- `update`: feed one position; returns a trip if this position ended one. -/
def TripDetector.update (det : TripDetector) (pos : Position) : TripDetector × Option Trip :=
  let out := TripState.update haversineMeters opts (det.state.get pos.deviceId) pos
  (⟨det.state.set pos.deviceId out.1⟩, out.2)

end Detector

end FleetTracking.ControlPlane
