import FleetTracking.ControlPlane.Entities
import FleetTracking.Protocol.TeltonikaParams

/-!
# Remote Device Configuration

A reporting profile is written with `setparam` and read back with `getparam`. The result says
`applied` by the reply to the first command, and holds the values of the second one.

1. `relay`, `DeviceConfigService.write`.
2. `write_eq_ok_iff`: when a call returns, and what.
3. `applied_is_held_iff`: when what was applied is held.
-/

namespace FleetTracking.ControlPlane

open FleetTracking.Protocol.TeltonikaParams Fallible

/-- What sends a command to the tracker with an IMEI. -/
abbrev DeviceCommander := String → Text → Except ApiError Text

namespace DeviceConfigService

/-- What the caller gets for an error of the commander. -/
def relayError : ApiError → ApiError
  | .deviceCommand .not_connected message => .conflict message
  | .deviceCommand .timeout message => .gatewayTimeout message
  | .deviceCommand .disabled message => .serviceUnavailable message
  | .deviceCommand _ message => .badGateway message
  | e => e

/-- `relay`; there may be no commander. -/
def relay (commander : Option DeviceCommander) (imei : String) (command : Text) :
    Except ApiError Text :=
  match commander with
  | none => .error (.serviceUnavailable "Remote device configuration is not enabled")
  | some send => (send imei command).mapError relayError

/-- What the caller gets for an error of the parameters. -/
def commandError : ParamError → ApiError
  | .paramValue message => .badRequest message
  | .range message => .error message

structure ProfileReadResult where
  network : NetworkMode
  motion : MotionMode
  values : JsMap Field JsInteger
  raw : Text

structure ProfileWriteResult extends ProfileReadResult where
  applied : Bool
  command : Text

/-- `read`, of the device that `devices.get` has found. -/
def read (commander : Option DeviceCommander) (found : Except ApiError Device)
    (network : NetworkMode) (motion : MotionMode) : Except ApiError ProfileReadResult := do
  let device ← found
  let cmd ← (buildGetParam network motion).mapError commandError
  let raw ← relay commander device.imei cmd
  let values ← (parseGetParamResponse network motion raw).mapError commandError
  return { network, motion, values, raw }

/-- `write`, of the device that `devices.get` has found. -/
def write (commander : Option DeviceCommander) (found : Except ApiError Device)
    (network : NetworkMode) (motion : MotionMode) (values : PartialProfile) :
    Except ApiError ProfileWriteResult := do
  let device ← found
  let cmd ← (buildSetParam network motion values).mapError commandError
  let raw ← relay commander device.imei cmd
  let applied := setParamAccepted raw
  if !applied then throw (.conflict ("Device rejected the change: " ++ String.ofList raw))
  -- The fields that were just set are read back.
  let query ← (buildGetParam network motion).mapError commandError
  let verifyRaw ← relay commander device.imei query
  let held ← (parseGetParamResponse network motion verifyRaw).mapError commandError
  return { network, motion, values := held, raw := verifyRaw, applied, command := cmd }

/-! ## Results -/

section Results

variable {commander : Option DeviceCommander} {found : Except ApiError Device}
  {net : NetworkMode} {motion : MotionMode} {values : PartialProfile}

/-- The tracker has accepted the command, and has answered `verifyRaw` to the read-back. -/
structure ReadBack (commander : Option DeviceCommander) (found : Except ApiError Device)
    (net : NetworkMode) (motion : MotionMode) (values : PartialProfile) (command verifyRaw : Text) :
    Prop where
  built : buildSetParam net motion values = .ok command
  accepted : ∃ device raw query, found = .ok device ∧
    relay commander device.imei command = .ok raw ∧ setParamAccepted raw = true ∧
      buildGetParam net motion = .ok query ∧ relay commander device.imei query = .ok verifyRaw

/-- **When a call returns, and what.** -/
theorem write_eq_ok_iff {result : ProfileWriteResult} :
    write commander found net motion values = .ok result ↔ ∃ command verifyRaw held,
      ReadBack commander found net motion values command verifyRaw ∧
        parseGetParamResponse net motion verifyRaw = .ok held ∧
          result = ⟨⟨net, motion, held, verifyRaw⟩, true, command⟩ := by
  unfold write
  simp only [bind_eq_ok_iff, mapError_eq_ok_iff]
  constructor
  · rintro ⟨device, hdevice, command, hcommand, raw, hraw, h⟩
    by_cases happlied : setParamAccepted raw = true
    · simp only [happlied, Bool.not_true, Bool.false_eq_true, if_false, bind_eq_ok_iff,
        mapError_eq_ok_iff] at h
      obtain ⟨query, hquery, verifyRaw, hverify, held, hheld, hresult⟩ := h
      exact ⟨command, verifyRaw, held, ⟨hcommand, device, raw, query, hdevice, hraw, happlied, hquery,
        hverify⟩, hheld, (Except.ok.inj hresult).symm⟩
    · simp only [happlied, Bool.not_false, if_true] at h
      cases h
  · rintro ⟨command, verifyRaw, held, ⟨hcommand, device, raw, query, hdevice, hraw, happlied, hquery,
      hverify⟩, hheld, rfl⟩
    refine ⟨device, hdevice, command, hcommand, raw, hraw, ?_⟩
    simp only [happlied, Bool.not_true, Bool.false_eq_true, if_false, bind_eq_ok_iff,
      mapError_eq_ok_iff]
    exact ⟨query, hquery, verifyRaw, hverify, held, hheld, rfl⟩

/-- The values hold what was requested. -/
def Holds (values : PartialProfile) (held : JsMap Field JsInteger) : Prop :=
  ∀ field v, values.get field = some (some v) → ∃ n, held.get field = some n ∧ (n.val : ℚ) = v

/-- In a reply, the last token for each requested field has the requested value. -/
def Reads (net : NetworkMode) (motion : MotionMode) (values : PartialProfile) (reply : Text) : Prop :=
  ∀ field v, values.get field = some (some v) →
    ∃ n, lastRead reply (idNumber net motion field) = some n ∧ (n.val : ℚ) = v

/-- What the values of a profile say is what the reply reads. -/
theorem holds_iff_reads {reply : Text} {held : JsMap Field JsInteger}
    (hvalid : validateProfile motion values = .ok ())
    (hheld : parseGetParamResponse net motion reply = .ok held) :
    Holds values held ↔ Reads net motion values reply := by
  refine forall₂_congr fun field v => forall_congr' fun hv => ?_
  have hfield := (validateProfile_ok hvalid (field, v) (mem_requested.mpr hv)).1
  rw [parse_get hheld hfield]

theorem validateProfile_of_build {command : Text}
    (h : buildSetParam net motion values = .ok command) : validateProfile motion values = .ok () := by
  obtain ⟨⟨⟩, hvalid, -⟩ := bind_eq_ok_iff.mp h
  exact hvalid

end Results

/-- **Applied means held, if the read-back says so.** For every commander, device and partial profile:
a call of `write` that returns says `applied` of values that hold what was requested, exactly if, in
the reply to the read-back that follows an accepted command, the last token for each requested field
has the requested value. -/
theorem applied_is_held_iff (commander : Option DeviceCommander) (found : Except ApiError Device)
    (net : NetworkMode) (motion : MotionMode) (values : PartialProfile) :
    (∀ result, write commander found net motion values = .ok result → result.applied = true →
      Holds values result.values) ↔
    ∀ command verifyRaw, ReadBack commander found net motion values command verifyRaw →
      Reads net motion values verifyRaw := by
  constructor
  · intro h command verifyRaw hback
    obtain ⟨held, hheld⟩ := exists_parse net motion verifyRaw
    have hheld' := h _ (write_eq_ok_iff.mpr ⟨command, verifyRaw, held, hback, hheld, rfl⟩) rfl
    exact (holds_iff_reads (validateProfile_of_build hback.built) hheld).mp hheld'
  · intro h result hresult _
    obtain ⟨command, verifyRaw, held, hback, hheld, rfl⟩ := write_eq_ok_iff.mp hresult
    exact (holds_iff_reads (validateProfile_of_build hback.built) hheld).mpr
      (h command verifyRaw hback)

/-- A tracker that clamps what it is sent: it accepts a record every minute, and holds one every
five. -/
def clampingCommander : DeviceCommander := fun _ command =>
  if "setparam ".toList <+: command then .ok "New value 10050:60 was successfully applied".toList
  else .ok "Param ID:10050 Val:300".toList

theorem applied_not_held : ∃ result,
    write (some clampingCommander) (.ok ⟨"device", "acme", "356307042441013", none, "FTC927", .car,
      .active, none, none, none⟩) .home .moving sampleProfile = .ok result ∧
        result.applied = true ∧ ¬ Holds sampleProfile result.values := by
  have hread : (write (some clampingCommander) (.ok ⟨"device", "acme", "356307042441013", none,
      "FTC927", .car, .active, none, none, none⟩) .home .moving sampleProfile).toOption.map
        (fun result => (result.applied, result.values.get .minPeriodSec)) =
          some (true, some (JsInteger.ofNat 300)) := by decide +kernel
  obtain ⟨result, hresult, hvalues⟩ := Option.map_eq_some_iff.mp hread
  obtain ⟨happlied, hheld⟩ := Prod.mk.inj hvalues
  refine ⟨result, toOption_eq_some_iff.mp hresult, happlied, fun h => ?_⟩
  obtain ⟨n, hn, hvalue⟩ := h .minPeriodSec 60 (by decide +kernel)
  obtain rfl := Option.some.inj (hheld.symm.trans hn)
  exact absurd hvalue (by decide +kernel)

end DeviceConfigService

end FleetTracking.ControlPlane
