import FleetTracking.Lib.JsMap
import FleetTracking.Protocol.Codec8
import Mathlib.Data.Rat.Defs

/-!
# Normalised Telemetry

The mapping of AVL records to canonical fields. Numbers are exact rationals, rounded
where JavaScript rounds them to a double.
-/

namespace FleetTracking.Ingestion

open FleetTracking.Protocol

/-- `Number(n)` for a non-negative integer: 53 significant bits, ties to even. -/
def toNumber (n : Nat) : Nat :=
  let e := n.log2 + 1 - 53
  let q := n / 2 ^ e
  let r := n % 2 ^ e
  if 2 ^ e < 2 * r ∨ (2 * r = 2 ^ e ∧ q % 2 = 1) then (q + 1) * 2 ^ e else q * 2 ^ e

/-- How a known AVL id is named and scaled. -/
structure Spec where
  name : String
  scale : Nat → ℚ := fun r => r

/-- `r * 0.001` in doubles: the literal is the double `4611686018427388 / 2 ^ 62`. -/
def milli (r : Nat) : ℚ := (toNumber (r * 4611686018427388) : ℚ) / 2 ^ 62

/-- The AVL ids of the FTC927. -/
def FTC927 : Nat → Option Spec
  | 1 => some { name := "digitalInput1" }
  | 9 => some { name := "analogInput1V", scale := milli }
  | 16 => some { name := "totalOdometerM" }
  | 17 => some { name := "accelX" }
  | 18 => some { name := "accelY" }
  | 19 => some { name := "accelZ" }
  | 21 => some { name := "gsmSignal" }
  | 66 => some { name := "externalVoltageMv" }
  | 67 => some { name := "batteryVoltageMv" }
  | 68 => some { name := "batteryCurrentMa" }
  | 69 => some { name := "gnssStatus" }
  | 113 => some { name := "batteryLevelPct" }
  | 179 => some { name := "digitalOutput1" }
  | 181 => some { name := "gnssPdop" }
  | 182 => some { name := "gnssHdop" }
  | 199 => some { name := "tripOdometerM" }
  | 200 => some { name := "sleepMode" }
  | 237 => some { name := "networkType" }
  | 239 => some { name := "ignition" }
  | 240 => some { name := "movement" }
  | 241 => some { name := "gsmOperator" }
  | 449 => some { name := "ignitionOnCounterS" }
  | 800 => some { name := "externalVoltageMv" }
  | 1148 => some { name := "connectivityQuality" }
  | 1433 => some { name := "deadReckoningStatus" }
  | _ => none

/-- A normalised record. Coordinates are in units of 1e-7 degrees. -/
structure NormalizedTelemetry where
  imei : String
  ts : String
  latitude : Int
  longitude : Int
  altitude : Int
  heading : Nat
  speedKph : Nat
  satellites : Nat
  priority : Nat
  eventId : Nat
  fields : JsMap String ℚ
  attrs : JsRecord ℚ

/-- Known ids become named fields, the others are kept under their number. -/
def mapValues : List (Nat × Nat) → JsMap String ℚ → JsRecord ℚ → JsMap String ℚ × JsRecord ℚ
  | [], fields, attrs => (fields, attrs)
  | (id, raw) :: rest, fields, attrs =>
    let n := toNumber raw
    match FTC927 id with
    | some spec => mapValues rest (fields.set spec.name (spec.scale n)) attrs
    | none => mapValues rest fields (attrs.set id n)

/-- `normalize`: fails only at `toISOString`, for a record whose date is invalid. -/
def normalize (imei : String) (rec : AvlRecord) : Except JsError NormalizedTelemetry :=
  let (fields, attrs) := mapValues rec.io.values.entries JsMap.empty JsRecord.empty
  match rec.timestamp.toISOString with
  | none => .error (.rangeError "Invalid time value")
  | some ts => .ok
    { imei, ts, fields, attrs
      latitude := rec.gps.latitude
      longitude := rec.gps.longitude
      altitude := rec.gps.altitude
      heading := rec.gps.angle
      speedKph := rec.gps.speed
      satellites := rec.gps.satellites
      priority := rec.priority
      eventId := rec.io.eventId }

/-- What a record is normalised to. -/
theorem normalize_eq_ok {imei : String} {rec : AvlRecord} {tel : NormalizedTelemetry}
    (h : normalize imei rec = .ok tel) : ∃ ms, rec.timestamp = some ms ∧ tel =
      { imei
        ts := JsDate.isoText ms
        fields := (mapValues rec.io.values.entries JsMap.empty JsRecord.empty).1
        attrs := (mapValues rec.io.values.entries JsMap.empty JsRecord.empty).2
        latitude := rec.gps.latitude
        longitude := rec.gps.longitude
        altitude := rec.gps.altitude
        heading := rec.gps.angle
        speedKph := rec.gps.speed
        satellites := rec.gps.satellites
        priority := rec.priority
        eventId := rec.io.eventId } := by
  cases htime : rec.timestamp with
  | none =>
    -- `toISOString` throws
    simp only [normalize, htime, JsDate.toISOString, Option.map_none] at h
    cases h
  | some ms =>
    simp only [normalize, htime, JsDate.toISOString, Option.map_some] at h
    cases h
    exact ⟨ms, rfl, rfl⟩

/-- A record can be normalised exactly when its timestamp is a valid date. -/
theorem normalize_isOk (imei : String) (rec : AvlRecord) :
    (∃ tel, normalize imei rec = .ok tel) ↔ rec.timestamp.isSome := by
  unfold normalize JsDate.toISOString
  cases rec.timestamp with
  | none => simp
  | some ms => simp

end FleetTracking.Ingestion
