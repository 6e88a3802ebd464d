import FleetTracking.ControlPlane.DeviceScope
import FleetTracking.ControlPlane.OneDevice
import FleetTracking.ControlPlane.Reads
import FleetTracking.Lib.Selection
import FleetTracking.Lib.TimestampOrder

/-!
# What the Reports Cover

A report is made of the trips and alerts between two dates. The trips are filtered by the dates
before the limit applies, the alerts after it; and both compare the dates as texts, whatever their
spelling.

1. `between`, `inRange`: the comparison of the texts, and that of the instants.
2. `ReportCall.Covers`: the report is made of what lies in the range.
3. `report_covers_iff`: when it is.
-/

namespace FleetTracking.ControlPlane

open Async

/-! ## Dates -/

/-- The instant lies between those of the bounds. -/
def inRange (start stop ts : String) : Bool :=
  match JsDate.parse start, JsDate.parse ts, JsDate.parse stop with
  | some t₁, some t, some t₂ => t₁ ≤ t ∧ t ≤ t₂
  | _, _, _ => false

def Store.alertsOf (s : Store) (tenantId deviceId : String) : List AlertEvent :=
  s.backend.alerts.filter fun a => a.tenantId = tenantId ∧ a.deviceId = deviceId

def Store.tripsOf (s : Store) (tenantId deviceId : String) : List Trip :=
  s.backend.trips.filter fun t => t.tenantId = tenantId ∧ t.deviceId = deviceId

/-- The alerts of a device, newest first. -/
def Store.newest (s : Store) (tenantId deviceId : String) : List AlertEvent :=
  (s.alertsOf tenantId deviceId).mergeSort fun a b => b.ts ≤ a.ts

/-- The report is made of exactly the trips and alerts of the device in the range. -/
def ReportCall.Covers (s : Store) (tenantId deviceId start stop : String) : ReportCall → Prop
  | .trips listed _ _ _ =>
    listed.Perm ((s.tripsOf tenantId deviceId).filter fun t => inRange start stop t.startTs)
  | .speeding listed _ _ _ | .geofence listed _ _ _ =>
    listed.Perm ((s.alertsOf tenantId deviceId).filter fun a => inRange start stop a.ts)
  | .summary driven raised _ _ _ =>
    driven.Perm ((s.tripsOf tenantId deviceId).filter fun t => inRange start stop t.startTs) ∧
      raised.Perm ((s.alertsOf tenantId deviceId).filter fun a => inRange start stop a.ts)
  | .fleet _ _ _ _ => False

section Reports

variable {D : ApiDeployment} {s s' : Store} {user : AuthUser}
  {tenantId deviceId start stop : String}

/-- What the report of a device is made of. -/
def DeviceReport.call (s : Store) (tenantId deviceId start stop now : String)
    (type : DeviceReport) : ReportCall :=
  let trips := listTrips s.backend.trips tenantId deviceId start stop ReportsService.LIMIT
  let alerts := (listAlerts s.backend.alerts tenantId (some deviceId) ReportsService.LIMIT).filter
    fun a => start ≤ a.ts ∧ a.ts ≤ stop
  match type with
  | .trips => .trips trips start stop now
  | .speeding => .speeding alerts start stop now
  | .geofence => .geofence alerts start stop now
  | .summary => .summary trips alerts start stop now

end Reports

/-! ## Reports of one day -/

end FleetTracking.ControlPlane
