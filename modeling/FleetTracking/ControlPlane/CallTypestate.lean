import FleetTracking.ControlPlane.Telemetry
import FleetTracking.Lib.Typestate

/-!
# The Typestate of the Service Calls

What a call of a service may do depends on what it has seen. A call to the immobilizer
only sends the command built from the row it has read, an engage command only after the
speed guard let it through, and it writes the row once. A batch is stored before the hot
state is updated, with positions of devices that were looked up. A read of the last
position only writes to the hot state what it has read from the durable store.

- `RelayPhase`, `IngestPhase`, `ServePhase`: how far a call of each kind has come.
- `controlCalls`: the typestate.
-/

namespace FleetTracking.ControlPlane

open Async

/-! ## Calls to the immobilizer -/

/-- The kind of command a request sends: engage (`true`) or release. -/
def ImmobilizerRequest.engages : ImmobilizerRequest → Option Bool
  | .configure _ => none
  | .immobilize => some true
  | .mobilize => some false
  | .test => some false

/-- What a request records in the `immobilized` flag once its command is confirmed. -/
def ImmobilizerRequest.flag : ImmobilizerRequest → Option Bool
  | .immobilize => some true
  | .mobilize => some false
  | _ => none

/-- How far a call to the immobilizer has come. -/
structure RelayPhase where
  user : AuthUser
  deviceId : String
  request : ImmobilizerRequest
  -- The device as last looked up.
  device : Option Device := none
  -- The row, once it was read.
  row : Option (Option ImmobilizerConfig) := none
  -- The last known speed, once it was read.
  speed : Option (Option ℚ) := none
  -- The tracker has confirmed the command.
  confirmed : Bool := false
  -- The row that the update of the row begins with, once it was read.
  stored : Option ImmobilizerConfig := none
  -- The row was written, or the write was attempted.
  written : Bool := false
  -- The event log or the row could not be written, or the row was not found again.
  failed : Bool := false

namespace RelayPhase

/-- One more thing has been seen. -/
def next (q : RelayPhase) : Seen cpSig → RelayPhase
  | .answered (.devicesFindById _ _ _) (.ok (some d)) => { q with device := some d }
  | .answered (.immobilizerGet _ _) (.ok row) => { q with row := some row }
  | .answered (.hotGetLast _ _) (.ok (some p)) => { q with speed := some (some p.speedKph) }
  | .answered (.positionsLatest _ _) (.ok p) => { q with speed := some (p.map Position.speedKph) }
  | .answered (.positionsLatest _ _) (.error _) => { q with speed := some none }
  | .answered (.send _ _) (.ok _) => { q with confirmed := true }
  | .answered (.immobilizerUpsert _) (.ok _) => { q with written := true }
  | .answered (.immobilizerUpsert _) (.error _) => { q with written := true, failed := true }
  | .answered (.immobilizerPatchGet _ _) (.ok (some row)) => { q with stored := some row }
  | .answered (.immobilizerPatchGet _ _) _ => { q with failed := true }
  | .answered (.immobilizerPatch _ _ _) (.ok _) => { q with written := true }
  | .answered (.immobilizerPatch _ _ _) (.error _) => { q with written := true, failed := true }
  | .answered (.addEvent _) (.error _) => { q with failed := true }
  | _ => q

/-- A request for the data of the device the call is about. -/
def Targets (q : RelayPhase) (tenantId deviceId : String) : Prop :=
  tenantId = q.user.tenantId ∧ deviceId = q.deviceId

/-- The last known speed, where there is one, allows to engage. -/
def Safe (q : RelayPhase) (cfg : ImmobilizerConfig) : Prop :=
  ∃ speed, q.speed = some speed ∧ ∀ v ∈ speed, v ≤ ((cfg.maxEngageKph : Nat) : ℚ)

/-- What a call to the immobilizer may await. -/
def may (D : Deployment) (q : RelayPhase) : CpOp → Prop
  | .devicesFindById tenantId id includeDeleted => q.Targets tenantId id ∧ includeDeleted = false
  | .orgUnitsList _ => True
  | .immobilizerGet tenantId deviceId => q.Targets tenantId deviceId ∧ q.written = false ∧
      q.row = none
  | .immobilizerUpsert cfg => q.written = false ∧ ∃ dto current createdAt,
      q.request = .configure dto ∧ q.row = some current ∧
        cfg = configured q.user q.deviceId dto current createdAt
  | .addEvent _ => True
  | .hotGetLast tenantId deviceId => q.Targets tenantId deviceId ∧ q.request = .immobilize
  | .positionsLatest tenantId deviceId => q.Targets tenantId deviceId ∧ q.request = .immobilize
  | .send imei command => D.commander = true ∧ q.written = false ∧ q.confirmed = false ∧
      q.failed = false ∧ ∃ device cfg immobilize, q.device = some device ∧ imei = device.imei ∧
        q.row = some (some cfg) ∧ cfg.enabled = true ∧ q.request.engages = some immobilize ∧
        command = cfg.command immobilize ∧ (immobilize = true → q.Safe cfg)
  | .immobilizerPatchGet tenantId deviceId => q.Targets tenantId deviceId ∧
      q.confirmed = true ∧ q.written = false
  | .immobilizerPatch deviceId row patch => deviceId = q.deviceId ∧ q.stored = some row ∧
      q.confirmed = true ∧ q.written = false ∧ patch.immobilized = q.request.flag ∧
        (patch.testedAt.isSome → q.request = .test)
  | _ => False

/-- The flag of the row is still to be set to what was commanded. -/
def pending (q : RelayPhase) : Bool := q.confirmed && !q.written && q.request.flag.isSome

/-- A call whose command was confirmed ends with the row written, or with a failure. -/
def done (q : RelayPhase) : Prop := q.pending = true → q.failed = true

end RelayPhase

/-! ## Batches -/

/-- The newest position of each device, as collected over a batch. -/
def newestPerDevice (ps : List Position) : List Position :=
  (ps.foldl Batch.push Batch.empty).latestPerDevice.entries.map Prod.snd

/-- How far the handling of a batch has come. -/
inductive IngestPhase where
  -- Positions are collected; the devices looked up so far, with their tenants.
  | gathering (refs : List (String × String))
  -- The positions are stored; these hot-state updates are still to be made.
  | writing (rest : List Position)
  -- A request was rejected.
  | over

namespace IngestPhase

/-- One more device has been looked up. -/
def learn (q : IngestPhase) (ref : String × String) : IngestPhase :=
  match q with
  | .gathering refs => .gathering (ref :: refs)
  | q => q

/-- One more thing has been seen. -/
def next (q : IngestPhase) : Seen cpSig → IngestPhase
  | .answered (.findByImei _) (.ok (some d)) => q.learn (d.tenantId, d.id)
  | .did (.imeiCacheGet _) (some ⟨some ref, _⟩) => q.learn ref
  | .answered (.positionsInsertMany ps) (.ok _) => .writing (newestPerDevice ps)
  | .answered (.hotSetLast _) (.ok _) =>
    match q with
    | .writing rest => .writing rest.tail
    | q => q
  | .answered _ (.error _) => .over
  | _ => q

/-- The tenant and the id of the device are among those looked up. -/
def Knows (q : IngestPhase) (ref : String × String) : Prop :=
  match q with
  | .gathering refs => ref ∈ refs
  | _ => False

/-- What the handling of a batch may await. -/
def may (q : IngestPhase) : CpOp → Prop
  | .findByImei _ | .alertConfigGet _ | .geofencesList _ | .alertsInsertMany _
  | .tripsInsert _ => ∃ refs, q = .gathering refs
  | .positionsInsertMany ps => ∃ refs, q = .gathering refs ∧
      ∀ p ∈ ps, (p.tenantId, p.deviceId) ∈ refs
  | .hotSetLast p => ∃ rest, q = .writing (p :: rest)
  | _ => False

/-- What it may do at once: only answers that were looked up are cached. -/
def mayAct (q : IngestPhase) : CpAct → Prop
  | .imeiCacheSet _ entry => ∀ ref ∈ entry.ref, q.Knows ref
  | _ => True

/-- A batch is over when all hot-state updates are made, or a request was rejected. -/
def done (q : IngestPhase) : Prop := ∀ p rest, q ≠ .writing (p :: rest)

theorem done_gathering (refs : List (String × String)) : (gathering refs).done := by
  intro p rest h
  cases h

theorem done_written : (writing []).done := by
  intro p rest h
  cases h

theorem done_over : over.done := by
  intro p rest h
  cases h

end IngestPhase

/-! ## Reads of the last position -/

/-- How far a read of the last position has come. -/
structure ServePhase where
  user : AuthUser
  deviceId : String
  -- What the durable store has answered.
  found : Option Position := none

namespace ServePhase

/-- One more thing has been seen. -/
def next (q : ServePhase) : Seen cpSig → ServePhase
  | .answered (.positionsLatest _ _) (.ok p) => { q with found := p }
  | _ => q

/-- What a read may await. -/
def may (q : ServePhase) : CpOp → Prop
  | .devicesFindById _ _ _ | .orgUnitsList _ => True
  | .hotGetLast _ _ | .positionsLatest _ _ => True
  | .hotSetLast p => q.found = some p
  | _ => False

end ServePhase

/-! ## The typestate -/

/-- How far a call has come. -/
inductive CallPhase where
  | relay (q : RelayPhase)
  | ingest (q : IngestPhase)
  | serve (q : ServePhase)

/-- The typestate of the service calls. -/
def controlCalls (D : Deployment) : Typestate cpSig Call Response where
  Phase := CallPhase
  init
    | .immobilizer user deviceId request => .relay { user, deviceId, request }
    | .process _ => .ingest (.gathering [])
    | .latest user deviceId => .serve { user, deviceId }
  next
    | .relay q, e => .relay (q.next e)
    | .ingest q, e => .ingest (q.next e)
    | .serve q, e => .serve (q.next e)
  may
    | .relay q, op => q.may D op
    | .ingest q, op => q.may op
    | .serve q, op => q.may op
  mayAct
    | .relay _, a => a = .now
    | .ingest q, a => q.mayAct a
    | .serve _, _ => False
  done
    | .relay q, _ => q.done
    | .ingest q, _ => q.done
    | .serve _, _ => True

end FleetTracking.ControlPlane
