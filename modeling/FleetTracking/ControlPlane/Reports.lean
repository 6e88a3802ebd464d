import FleetTracking.ControlPlane.Reads

/-!
# The Reporting Engine

Stored trips and alerts are aggregated into reports of one shape: columns, rows and a summary, which
one set of exporters serves. Numbers are exact; `none` is the `NaN` that dates come to which
`Date.parse` does not read. `Date.parse` is a parameter.

1. `Report`: columns, rows, summary.
2. `deviceStats`: what the summaries are made of.
3. `tripsReport`, `speedingReport`, …: the reports.
4. `ReportCall.report`: what a call of the engine returns.
-/

namespace FleetTracking.ControlPlane

/-! ## Reports -/

structure ReportColumn where
  key : String
  label : String

/-- A value of type `string | number`. -/
inductive ReportValue where
  | text (s : String)
  -- `none` is `NaN`.
  | number (x : Option ℚ)

/-- Values by key, in the order in which they were set. -/
abbrev ReportRow := List (String × ReportValue)

structure Report where
  title : String
  generatedAt : String
  -- `from` and `to`.
  range : String × String
  columns : List ReportColumn
  rows : List ReportRow
  summary : ReportRow

/-- `row[key] ?? ''`. -/
def ReportRow.cell (row : ReportRow) (key : String) : ReportValue :=
  (row.lookup key).getD (.text "")

namespace ReportEngine

/-- A number that is not `NaN`. -/
def number (x : ℚ) : ReportValue := .number (some x)

/-- Metres to kilometres, with one decimal. -/
def km (m : ℚ) : ℚ := JsNumber.mathRound (m / 100) / 10

def hm : Option Int → String
  | some min => s!"{min.fdiv 60}h {min.tmod 60}m"
  | none => "NaNh NaNm"

/-- `ts.replace('T', ' ')`: the first one only. -/
def replaceFirst (c d : Char) : List Char → List Char
  | [] => []
  | x :: xs => if x = c then d :: xs else x :: replaceFirst c d xs

/-- What `.` does not match. -/
def isLineTerminator (c : Char) : Bool := c ∈ ['\n', '\r', '\u2028', '\u2029']

/-- `.replace(/\..*/, ' UTC')`: from the first point to the end of its line. -/
def replaceFraction (ts : List Char) : List Char :=
  match ts.dropWhile (· ≠ '.') with
  | [] => ts
  | _ :: rest =>
    ts.takeWhile (· ≠ '.') ++ " UTC".toList ++ rest.dropWhile fun c => !isLineTerminator c

def time (ts : String) : String := String.ofList (replaceFraction (replaceFirst 'T' ' ' ts.toList))

example : time "2025-01-01T08:30:00.000Z" = "2025-01-01 08:30:00 UTC" := by decide +kernel

def isGeofence (a : AlertEvent) : Bool := a.type = .geofence_enter ∨ a.type = .geofence_exit

/-- `Number(a.meta.speedKph ?? 0)`. -/
def speedKph (a : AlertEvent) : ℚ := (a.speeds.map Prod.fst).getD 0

/-- `Number(a.meta.limitKph ?? 0)`. -/
def limitKph (a : AlertEvent) : ℚ := (a.speeds.map Prod.snd).getD 0

section Engine

variable (dateParse : String → Option Int)

def minutes (fromTs toTs : String) : Option Int := do
  let stop ← dateParse toTs
  let start ← dateParse fromTs
  pure (JsNumber.mathRound (((stop - start : Int) : ℚ) / 60000))

/-- `trips.reduce((s, t) => s + t.distanceM, 0)`. -/
def totalDistanceM (trips : List Trip) : ℚ := trips.foldl (fun s t => s + t.distanceM) 0

/-- `trips.reduce((s, t) => s + minutes(t.startTs, t.endTs), 0)`. -/
def totalMinutes (trips : List Trip) : Option Int :=
  trips.foldl (fun s t => do pure ((← s) + (← minutes dateParse t.startTs t.endTs))) (some 0)

/-! ## Statistics -/

structure DeviceStats where
  distanceKm : ℚ
  tripCount : Nat
  driveMinutes : Option Int
  maxSpeedKph : ℚ
  overspeedCount : Nat
  geofenceEvents : Nat
  -- 0 to 100; overspeed events are penalised.
  score : Int

def deviceStats (trips : List Trip) (alerts : List AlertEvent) : DeviceStats :=
  let overspeedCount := (alerts.filter fun a => a.type = .overspeed).length
  { distanceKm := km (totalDistanceM trips)
    tripCount := trips.length
    driveMinutes := totalMinutes dateParse trips
    maxSpeedKph := trips.foldl (fun m t => max m t.maxSpeedKph) 0
    overspeedCount
    geofenceEvents := (alerts.filter isGeofence).length
    score := max 0 (100 - overspeedCount * 3) }

/-! ## The reports -/

def tripsReport (trips : List Trip) (start stop generatedAt : String) : Report where
  title := "Trips"
  generatedAt := generatedAt
  range := (start, stop)
  columns := [⟨"start", "Start"⟩, ⟨"end", "End"⟩, ⟨"durationMin", "Duration (min)"⟩,
    ⟨"distanceKm", "Distance (km)"⟩, ⟨"maxSpeedKph", "Max speed (km/h)"⟩]
  rows := trips.map fun t =>
    [("start", .text (time t.startTs)), ("end", .text (time t.endTs)),
      ("durationMin", .number ((minutes dateParse t.startTs t.endTs).map Int.cast)),
      ("distanceKm", number (km t.distanceM)), ("maxSpeedKph", number t.maxSpeedKph)]
  summary := [("trips", number trips.length),
    ("totalDistanceKm", number (km (totalDistanceM trips))),
    ("totalDriveTime", .text (hm (totalMinutes dateParse trips)))]

def speedingReport (alerts : List AlertEvent) (start stop generatedAt : String) : Report :=
  let overs := alerts.filter fun a => a.type = .overspeed
  { title := "Speeding events"
    generatedAt := generatedAt
    range := (start, stop)
    columns := [⟨"time", "Time"⟩, ⟨"speedKph", "Speed (km/h)"⟩, ⟨"limitKph", "Limit (km/h)"⟩]
    rows := overs.map fun a =>
      [("time", .text (time a.ts)), ("speedKph", number (speedKph a)),
        ("limitKph", number (limitKph a))]
    summary := [("events", number overs.length),
      ("maxSpeedKph", number (overs.foldl (fun m a => max m (speedKph a)) 0))] }

def geofenceActivityReport (alerts : List AlertEvent) (start stop generatedAt : String) : Report :=
  let geo := alerts.filter isGeofence
  { title := "Geofence activity"
    generatedAt := generatedAt
    range := (start, stop)
    columns := [⟨"time", "Time"⟩, ⟨"event", "Event"⟩, ⟨"detail", "Detail"⟩]
    rows := geo.map fun a =>
      [("time", .text (time a.ts)),
        ("event", .text (if a.type = .geofence_enter then "Enter" else "Exit")),
        ("detail", .text a.message)]
    summary := [("entries", number (geo.filter fun a => a.type = .geofence_enter).length),
      ("exits", number (geo.filter fun a => a.type = .geofence_exit).length)] }

/-- Per-device scorecard as a metric/value table. -/
def deviceSummaryReport (trips : List Trip) (alerts : List AlertEvent)
    (start stop generatedAt : String) : Report :=
  let s := deviceStats dateParse trips alerts
  let metric (name : String) (value : ReportValue) : ReportRow :=
    [("metric", .text name), ("value", value)]
  { title := "Device summary"
    generatedAt := generatedAt
    range := (start, stop)
    columns := [⟨"metric", "Metric"⟩, ⟨"value", "Value"⟩]
    rows := [
      metric "Distance (km)" (number s.distanceKm),
      metric "Trips" (number s.tripCount),
      metric "Drive time" (.text (hm s.driveMinutes)),
      metric "Max speed (km/h)" (number s.maxSpeedKph),
      metric "Overspeed events" (number s.overspeedCount),
      metric "Geofence events" (number s.geofenceEvents),
      metric "Safety score" (.text s!"{s.score}/100")]
    summary := [("safetyScore", number s.score), ("distanceKm", number s.distanceKm),
      ("overspeedEvents", number s.overspeedCount)] }

/-- Fleet roll-up: one row per device. -/
def fleetSummaryReport (perDevice : List FleetEntry) (start stop generatedAt : String) : Report :=
  let stats := perDevice.map fun d => (d.label, deviceStats dateParse d.trips d.alerts)
  { title := "Fleet summary"
    generatedAt := generatedAt
    range := (start, stop)
    columns := [⟨"device", "Device"⟩, ⟨"distanceKm", "Distance (km)"⟩, ⟨"trips", "Trips"⟩,
      ⟨"overspeed", "Overspeed"⟩, ⟨"score", "Score"⟩]
    rows := stats.map fun (label, s) =>
      [("device", .text label), ("distanceKm", number s.distanceKm), ("trips", number s.tripCount),
        ("overspeed", number s.overspeedCount), ("score", number s.score)]
    summary := [("devices", number stats.length),
      ("totalDistanceKm", number
        (JsNumber.mathRound ((stats.foldl (fun s r => s + r.2.distanceKm) 0) * 10) / 10)),
      ("totalOverspeed", number (stats.foldl (fun s r => s + r.2.overspeedCount) 0 : Nat))] }

end Engine

end ReportEngine

/-- The report that a call of the engine returns. -/
def ReportCall.report (dateParse : String → Option Int) : ReportCall → Report
  | .trips ts start stop now => ReportEngine.tripsReport dateParse ts start stop now
  | .speeding alerts start stop now => ReportEngine.speedingReport alerts start stop now
  | .geofence alerts start stop now => ReportEngine.geofenceActivityReport alerts start stop now
  | .summary ts alerts start stop now =>
    ReportEngine.deviceSummaryReport dateParse ts alerts start stop now
  | .fleet perDevice start stop now =>
    ReportEngine.fleetSummaryReport dateParse perDevice start stop now

end FleetTracking.ControlPlane
