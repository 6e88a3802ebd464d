import FleetTracking.ControlPlane.Backend
import FleetTracking.ControlPlane.Org

/-!
# The Immobilizer Service

Cut and restore a vehicle's starter circuit through a relay on a digital output. The
service reads the stored configuration of the device, relays a `setdigout` command to it
and records what was commanded.
-/

namespace FleetTracking.ControlPlane

open Async

/-- A computation of the services. -/
abbrev Cp := Async cpSig

abbrev request (op : CpOp) : Cp op.Res := Async.perform (S := cpSig) op
abbrev step (a : CpAct) : Cp a.Ret := Async.action (S := cpSig) a

/-- `new Date().toISOString()`. -/
def nowText : Cp String := do
  let t ← step .now
  pure (JsDate.isoText t)

/-! ## Access to devices -/

/-- `scopeFor`: the departments a user may access, `none` for the whole tenant. -/
def scopeFor (user : AuthUser) : Cp (Option (List String)) :=
  match user.departmentId.filter truthy with
  | none => pure none
  | some departmentId => do
    let units ← request (.orgUnitsList user.tenantId)
    pure (some (descendantIds units departmentId))

/-- `DevicesService.getScoped`. -/
def getScoped (user : AuthUser) (id : String) (includeDeleted : Bool) : Cp Device := do
  let found ← request (.devicesFindById user.tenantId id includeDeleted)
  match found with
  | none => throw (ApiError.notFound "Device not found")
  | some d => do
    let scope ← scopeFor user
    if outOfScope scope d then throw (ApiError.notFound "Device not found") else pure d

/-! ## Configuration -/

/-- The body of a configuration request, validated. -/
structure ImmobilizerConfigDto where
  enabled : Bool
  dout : Option Dout
  activeHigh : Option Bool
  maxEngageKph : Option EngageKph

namespace DEFAULTS

def dout : Dout := ⟨1, by decide⟩
def activeHigh : Bool := true
def maxEngageKph : EngageKph := ⟨5, by decide⟩

end DEFAULTS

/-- Does the request change the wiring as stored? -/
def wiringChanged (dto : ImmobilizerConfigDto) (current : Option ImmobilizerConfig) : Bool :=
  let dout := (current.map ImmobilizerConfig.dout).getD DEFAULTS.dout
  let activeHigh := (current.map ImmobilizerConfig.activeHigh).getD DEFAULTS.activeHigh
  dto.dout.any (fun d => d ≠ dout) || dto.activeHigh.any fun a => a ≠ activeHigh

/-- The row that `configure` writes, from the row it has read. -/
def configured (user : AuthUser) (deviceId : String) (dto : ImmobilizerConfigDto)
    (current : Option ImmobilizerConfig) (createdAt : String) : ImmobilizerConfig where
  deviceId := deviceId
  tenantId := user.tenantId
  enabled := dto.enabled
  dout := dto.dout.getD ((current.map ImmobilizerConfig.dout).getD DEFAULTS.dout)
  activeHigh :=
    dto.activeHigh.getD ((current.map ImmobilizerConfig.activeHigh).getD DEFAULTS.activeHigh)
  maxEngageKph := dto.maxEngageKph.getD
    ((current.map ImmobilizerConfig.maxEngageKph).getD DEFAULTS.maxEngageKph)
  immobilized := (current.map ImmobilizerConfig.immobilized).getD false
  lastCommand := current.bind ImmobilizerConfig.lastCommand
  lastReply := current.bind ImmobilizerConfig.lastReply
  lastBy := current.bind ImmobilizerConfig.lastBy
  lastAt := current.bind ImmobilizerConfig.lastAt
  -- any wiring change invalidates a prior physical test
  testedAt := if wiringChanged dto current then none else current.bind ImmobilizerConfig.testedAt
  createdAt := createdAt

/-- Append to the event log. -/
def log (user : AuthUser) (deviceId : String) (action : ImmobilizerAction)
    (command reply : Option String) (ok : Bool) : Cp Unit := do
  let ts ← nowText
  request (.addEvent
    { tenantId := user.tenantId, deviceId, action, actorId := user.userId
      actorEmail := user.email, command, reply, ok, ts })

/-- `current?.createdAt ?? new Date().toISOString()`. -/
def createdAtOf : Option ImmobilizerConfig → Cp String
  | some c => pure c.createdAt
  | none => nowText

/-- Enable or disable, and set the wiring. -/
def configure (user : AuthUser) (deviceId : String) (dto : ImmobilizerConfigDto) :
    Cp (Option ImmobilizerConfig) := do
  let _ ← getScoped user deviceId false
  let current ← request (.immobilizerGet user.tenantId deviceId)
  let createdAt ← createdAtOf current
  let saved ← request (.immobilizerUpsert (configured user deviceId dto current createdAt))
  log user deviceId (if dto.enabled then .enable else .disable) none none true
  pure (some saved)

/-! ## Commands -/

/-- The row of a device whose immobilizer is enabled. -/
def requireEnabled (user : AuthUser) (deviceId : String) : Cp ImmobilizerConfig := do
  let _ ← getScoped user deviceId false
  let cfg ← request (.immobilizerGet user.tenantId deviceId)
  match cfg with
  | none => throw (ApiError.badRequest "Immobilizer is not enabled for this device")
  | some cfg =>
    if cfg.enabled then pure cfg
    else throw (ApiError.badRequest "Immobilizer is not enabled for this device")

/-- What the caller gets for an error of the command channel. -/
def relayError : ApiError → ApiError
  | .deviceCommand .not_connected _ =>
    .conflict "Device is offline — it must be connected to receive the command"
  | .deviceCommand .timeout _ =>
    .gatewayTimeout "Device did not confirm in time — its state is unknown; check the vehicle"
  | .deviceCommand .disabled message => .serviceUnavailable message
  | .deviceCommand _ message => .badGateway message
  | e => e

/-- The command channel: send, and log the confirmation. -/
def sendCommand (user : AuthUser) (deviceId : String) (command : SetDigout)
    (action : ImmobilizerAction) : Cp String := do
  let device ← getScoped user deviceId false
  let reply ← request (.send device.imei command)
  log user deviceId action (some command.text) (some reply) true
  pure reply

/-- Send a command and log it, confirmed or not. -/
def relay (D : Deployment) (user : AuthUser) (deviceId : String) (command : SetDigout)
    (action : ImmobilizerAction) : Cp String :=
  if D.commander then
    tryCatch (sendCommand user deviceId command action) fun err => do
      log user deviceId action (some command.text) (some err.message) false
      throw (relayError err)
  else throw (ApiError.serviceUnavailable "Remote commands are not enabled on the server")

/-- The last known speed: from the hot state, else from the durable store; a read that fails
counts as no position. -/
def lastKnownSpeed (user : AuthUser) (deviceId : String) : Cp (Option ℚ) := do
  let last ← tryCatch (request (.hotGetLast user.tenantId deviceId)) fun _ => pure none
  match last with
  | some p => pure (some p.speedKph)
  | none => do
    let latest ← tryCatch (request (.positionsLatest user.tenantId deviceId)) fun _ => pure none
    pure (latest.map Position.speedKph)

/-- The speed guard of an engage: refuse if the last known speed is above the limit. A release
is never gated. -/
def speedGuard (user : AuthUser) (deviceId : String) (immobilize : Bool)
    (cfg : ImmobilizerConfig) : Cp Unit :=
  if immobilize then do
    let speed ← lastKnownSpeed user deviceId
    match assertSafeToImmobilize speed cfg.maxEngageKph with
    | .ok () => pure ()
    | .error message => throw (ApiError.conflict message)
  else pure ()

/-- `patch` of the repository: it awaits a read of its own, and then writes back the whole row it
has read, with the fields of the patch over it. (In Postgres both are one statement, with nothing
in between.) -/
def ImmobilizerRepository.patch (tenantId deviceId : String) (patch : ImmobilizerPatch) :
    Cp (Option ImmobilizerConfig) := do
  let c ← request (.immobilizerPatchGet tenantId deviceId)
  match c with
  | none => pure none
  | some c => do
    let next ← request (.immobilizerPatch deviceId c patch)
    pure (some next)

/-- Engage or release the relay. -/
def actuate (D : Deployment) (user : AuthUser) (deviceId : String) (immobilize : Bool)
    (action : ImmobilizerAction) : Cp (Option ImmobilizerConfig) := do
  let cfg ← requireEnabled user deviceId
  speedGuard user deviceId immobilize cfg
  let command ← ofExcept (S := cpSig) (cfg.setDigout immobilize)
  let reply ← relay D user deviceId command action
  let lastAt ← nowText
  ImmobilizerRepository.patch user.tenantId deviceId
    { immobilized := some immobilize, lastCommand := some command.text, lastReply := some reply
      lastBy := some user.userId, lastAt := some lastAt }

def immobilize (D : Deployment) (user : AuthUser) (deviceId : String) :
    Cp (Option ImmobilizerConfig) :=
  actuate D user deviceId true .immobilize

def mobilize (D : Deployment) (user : AuthUser) (deviceId : String) :
    Cp (Option ImmobilizerConfig) :=
  actuate D user deviceId false .mobilize

/-- A dry test: sends the release command so an admin can watch the relay click. -/
def test (D : Deployment) (user : AuthUser) (deviceId : String) :
    Cp (Option ImmobilizerConfig) := do
  let cfg ← requireEnabled user deviceId
  let command ← ofExcept (S := cpSig) (cfg.setDigout false)
  let reply ← relay D user deviceId command .test
  let testedAt ← nowText
  let lastAt ← nowText
  ImmobilizerRepository.patch user.tenantId deviceId
    { testedAt := some testedAt, lastCommand := some command.text, lastReply := some reply
      lastBy := some user.userId, lastAt := some lastAt }

end FleetTracking.ControlPlane
