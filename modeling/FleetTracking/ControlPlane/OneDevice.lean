import FleetTracking.ControlPlane.Conformance
import FleetTracking.Lib.Execution

/-!
# The Immobilizer of One Device

What the guarantees about the immobilizer of a device have in common: the commands its
tracker has applied, the conditions under which they are stated, and what the requests of
the services leave alone.
-/

namespace FleetTracking.ControlPlane

open Async

/-- The commands the tracker with this IMEI has applied, newest first. -/
def commandsTo (s : Backend) (imei : String) : List SetDigout :=
  (s.applied.filter fun e => e.1 = imei).map Prod.snd

theorem commandsTo_cons {s s' : Backend} {imei : String} {command : SetDigout}
    (h : s'.applied = (imei, command) :: s.applied) :
    commandsTo s' imei = command :: commandsTo s imei := by
  simp [commandsTo, h]

/-! ## Conditions -/

/-- A request that sends a command. -/
def CpOp.sends : CpOp → Bool
  | .send _ _ => true
  | _ => false

section Conditions

variable (dev : Device) {ι : Type} [DecidableEq ι]

/-- Calls to the immobilizer are about the device, for users of its tenant. -/
def OnDevice (_ : Config cpSig Call Response Backend ι) : Event Call Outcome EnvMove ι → Prop
  | .start _ (.immobilizer user deviceId _) => user.tenantId = dev.tenantId ∧ deviceId = dev.id
  | _ => True

/-- Every command that is sent is applied and confirmed by the tracker. -/
def Confirmed (cfg : Config cpSig Call Response Backend ι) :
    Event Call Outcome EnvMove ι → Prop
  | .settle i x => ∀ th ∈ cfg.threads.lookup i, th.op.sends = true → x.isOk = true
  | _ => True

instance (cfg : Config cpSig Call Response Backend ι) :
    (e : Event Call Outcome EnvMove ι) → Decidable (OnDevice dev cfg e)
  | .start _ (.immobilizer user deviceId _) =>
    inferInstanceAs (Decidable (user.tenantId = dev.tenantId ∧ deviceId = dev.id))
  | .start _ (.process _) | .start _ (.latest _ _) | .settle _ _ | .resume _ | .env _ =>
    .isTrue trivial

instance (cfg : Config cpSig Call Response Backend ι) :
    (e : Event Call Outcome EnvMove ι) → Decidable (Confirmed cfg e)
  | .settle i x => inferInstanceAs
    (Decidable (∀ th ∈ cfg.threads.lookup i, th.op.sends = true → x.isOk = true))
  | .start _ _ | .resume _ | .env _ => .isTrue trivial

end Conditions

/-! ## What a request leaves alone -/

/-- The devices, the immobilizer rows and the commands applied are the same. -/
structure SameRelay (s s' : Backend) : Prop where
  devices : s'.devices = s.devices
  immobilizers : s'.immobilizers = s.immobilizers
  applied : s'.applied = s.applied

theorem SameRelay.immobilizer {s s' : Backend} (h : SameRelay s s') (tenantId deviceId : String) :
    s'.immobilizer tenantId deviceId = s.immobilizer tenantId deviceId := by
  rw [Backend.immobilizer, Backend.immobilizer, h.immobilizers]

theorem SameRelay.commandsTo {s s' : Backend} (h : SameRelay s s') (imei : String) :
    commandsTo s' imei = commandsTo s imei := by
  rw [ControlPlane.commandsTo, ControlPlane.commandsTo, h.applied]

/-- A request that writes rows or sends commands. -/
def CpOp.Relays : CpOp → Prop
  | .immobilizerUpsert _ | .immobilizerPatch _ _ _ | .send _ _ => True
  | _ => False

theorem noteRead_sameRelay (s : Backend) (i : Nat) (op : CpOp) :
    SameRelay s (s.noteRead i op) := by
  cases op <;> exact ⟨rfl, rfl, rfl⟩

theorem settle_sameRelay {s : Backend} {i : Nat} {x : Outcome} (op : CpOp)
    (h : ¬ op.Relays ∨ x.takesEffect = false) : SameRelay s (s.settle i op x).1 := by
  cases hx : x.takesEffect with
  | false => simpa [Backend.settle, hx] using noteRead_sameRelay s i op
  | true =>
    have hop : ¬ op.Relays := h.resolve_right (by simp [hx])
    simp only [Backend.settle, hx]
    cases op with
    | immobilizerUpsert cfg => exact absurd trivial hop
    | immobilizerPatch tenantId deviceId patch => exact absurd trivial hop
    | send imei command => exact absurd trivial hop
    | _ => exact ⟨rfl, rfl, rfl⟩

theorem act_sameRelay (D : Deployment) (s : Backend) (a : CpAct) : SameRelay s (s.act D a).1 := by
  cases a <;> exact ⟨rfl, rfl, rfl⟩

theorem env_sameRelay (s : Backend) (e : EnvMove) : SameRelay s (s.env e) := by
  cases e <;> exact ⟨rfl, rfl, rfl⟩

/-- The device table never changes. -/
theorem settle_devices (s : Backend) (i : Nat) (op : CpOp) (x : Outcome) :
    (s.settle i op x).1.devices = s.devices := by
  have hnote : (s.noteRead i op).devices = s.devices := (noteRead_sameRelay s i op).devices
  simp only [Backend.settle]
  split
  case isFalse => exact hnote
  case isTrue =>
    rw [← hnote]
    cases op <;> rfl

/-- The effect of a request that takes effect. -/
theorem settle_effect {s : Backend} {x : Outcome} {i : Nat} (op : CpOp) (hop : op.Relays)
    (hx : x.takesEffect = true) : (s.settle i op x).1 = s.effect op := by
  simp only [Backend.settle, hx, if_true]
  cases op with
  | immobilizerUpsert cfg => rfl
  | immobilizerPatch tenantId deviceId patch => rfl
  | send imei command => rfl
  | _ => cases hop

/-- A request that resolves gives its answer. -/
theorem settle_ok {s : Backend} {i : Nat} {op : CpOp} {x : Outcome} {a : op.Res}
    (h : (s.settle i op x).2 = .ok a) :
    x.isOk = true ∧ ∃ reply, a = (s.noteRead i op).answer reply op := by
  cases x with
  | resolves reply =>
    cases h
    exact ⟨rfl, reply, rfl⟩
  | rejects e applied => cases h

/-! ## What the requests of a call do to its row -/

/-- The row of the device after a configuration was written. -/
theorem immobilizer_upsert (s : Backend) (cfg : ImmobilizerConfig) :
    (s.effect (.immobilizerUpsert cfg)).immobilizer cfg.tenantId cfg.deviceId = some cfg := by
  simp [Backend.effect, Backend.immobilizer]

/-- The row of the device after a row of its tenant was written back with a patch over it. -/
theorem immobilizer_patch (s : Backend) {tenantId deviceId : String} {row : ImmobilizerConfig}
    (patch : ImmobilizerPatch) (htenant : row.tenantId = tenantId) :
    (s.effect (.immobilizerPatch deviceId row patch)).immobilizer tenantId deviceId =
      some (patch.apply row) := by
  simp [Backend.effect, Backend.immobilizer, ImmobilizerPatch.apply, htenant]

/-! ## Calls about the device -/

/-- A call about the device, with the device it has looked up, and a row of its tenant. -/
structure RelayPhase.About (dev : Device) (q : RelayPhase) : Prop where
  tenantId : q.user.tenantId = dev.tenantId
  deviceId : q.deviceId = dev.id
  device : ∀ d, q.device = some d → d = dev
  stored : ∀ row, q.stored = some row → row.tenantId = dev.tenantId

namespace RelayPhase

variable {dev : Device} {q : RelayPhase}

/-- Nothing a call sees changes what it is about. -/
theorem next_request (q : RelayPhase) (e : Seen cpSig) :
    (q.next e).request = q.request ∧ (q.next e).user = q.user ∧
      (q.next e).deviceId = q.deviceId := by
  unfold next
  split <;> exact ⟨rfl, rfl, rfl⟩

/-- The device a call has looked up is the last one it was answered. -/
theorem device_next {e : Seen cpSig} {d : Device} (h : (q.next e).device = some d) :
    q.device = some d ∨ ∃ tenantId id includeDeleted,
      e = .answered (.devicesFindById tenantId id includeDeleted) (.ok (some d)) := by
  unfold next at h
  split at h
  case h_1 tenantId id includeDeleted d' =>
    cases h
    exact Or.inr ⟨tenantId, id, includeDeleted, rfl⟩
  all_goals exact Or.inl h

/-- The row a call has read is the last one it was answered. -/
theorem row_next {e : Seen cpSig} {row : Option ImmobilizerConfig}
    (h : (q.next e).row = some row) :
    q.row = some row ∨ ∃ tenantId deviceId,
      e = .answered (.immobilizerGet tenantId deviceId) (.ok row) := by
  unfold next at h
  split at h
  case h_2 tenantId deviceId row' =>
    cases h
    exact Or.inr ⟨tenantId, deviceId, rfl⟩
  all_goals exact Or.inl h

/-- A call is confirmed by the answer to its command. -/
theorem confirmed_next {e : Seen cpSig} (h : (q.next e).confirmed = true) :
    q.confirmed = true ∨ ∃ imei command reply, e = .answered (.send imei command) (.ok reply) := by
  unfold next at h
  split at h
  case h_6 imei command reply => exact Or.inr ⟨imei, command, reply, rfl⟩
  all_goals exact Or.inl h

/-- What was confirmed stays confirmed. -/
theorem confirmed_kept {e : Seen cpSig} (h : q.confirmed = true) : (q.next e).confirmed = true := by
  unfold next
  split
  case h_6 => rfl
  all_goals exact h

/-- The row that is to be written back is the last one the repository was answered. -/
theorem stored_next {e : Seen cpSig} {row : ImmobilizerConfig}
    (h : (q.next e).stored = some row) :
    q.stored = some row ∨ ∃ tenantId deviceId,
      e = .answered (.immobilizerPatchGet tenantId deviceId) (.ok (some row)) := by
  unfold next at h
  split at h
  case h_9 tenantId deviceId row' =>
    cases h
    exact Or.inr ⟨tenantId, deviceId, rfl⟩
  all_goals exact Or.inl h

/-- What was written stays written. -/
theorem written_next {e : Seen cpSig} (h : (q.next e).written = false) : q.written = false := by
  unfold next at h
  split at h
  all_goals first | exact h | cases h

/-- A call about the device goes on to be about it. -/
theorem About.settle {D : Deployment} {s : Backend} {i : Nat} {op : CpOp} {x : Outcome}
    (h : q.About dev) (hdev : dev ∈ s.devices.rows) (hmay : q.may D op) :
    (q.next (.answered op (s.settle i op x).2)).About dev := by
  obtain ⟨-, huser, hid⟩ := next_request q (.answered op (s.settle i op x).2)
  refine ⟨by rw [huser, h.tenantId], by rw [hid, h.deviceId], fun d hd => ?_, fun row hrow => ?_⟩
  · rcases device_next hd with hd | ⟨tenantId, id, includeDeleted, he⟩
    · exact h.device d hd
    -- the device found has the id of the call's device
    generalize hr : (s.settle i op x).2 = r at he
    cases he
    obtain ⟨-, reply, hfound⟩ := settle_ok hr
    obtain ⟨⟨rfl, rfl⟩, rfl⟩ := hmay
    have hfound' : s.devices.findById q.user.tenantId q.deviceId false = some d := hfound.symm
    have hprop := List.find?_some hfound'
    simp only [decide_eq_true_eq] at hprop
    exact Table.eq_of_key (List.mem_of_find?_eq_some hfound') hdev
      (hprop.1.trans h.deviceId)
  · rcases stored_next hrow with hrow | ⟨tenantId, deviceId, he⟩
    · exact h.stored row hrow
    -- the row found is one of the caller's tenant
    generalize hr : (s.settle i op x).2 = r at he
    cases he
    obtain ⟨-, reply, hanswer⟩ := settle_ok hr
    obtain ⟨⟨rfl, rfl⟩, -⟩ := hmay
    have hfound : s.immobilizer q.user.tenantId q.deviceId = some row := hanswer.symm
    have htenant := (Option.filter_eq_some_iff.mp hfound).2
    rw [← h.tenantId]
    exact of_decide_eq_true htenant

end RelayPhase

/-! ## A sample device -/

def sampleDevice : Device :=
  { id := "d1", tenantId := "t1", imei := "356307042441013", name := none, model := "FTC927"
    assetType := .car, status := .active, vehicleId := none, departmentId := none
    deletedAt := none }

/-- A server on which nothing has happened yet. -/
def sampleBackend : Backend :=
  Backend.new ⟨[sampleDevice], List.pairwise_singleton _ _⟩

def sampleAdmin : AuthUser :=
  { userId := "u1", tenantId := "t1", role := .admin, email := "admin@example.com", departmentId := none }

/-- Remote commands are enabled; all positions of the samples are at one place. -/
def sampleDeployment : Deployment := ⟨fun _ _ _ _ => 0, {}, true⟩

/-- All requests resolve. -/
def resolving (_ : Nat) : Outcome := .resolves "OK"

/-- A call to the immobilizer of the sample device whose requests resolve. -/
def sampleCall (req : ImmobilizerRequest) : Call × (Nat → Outcome) :=
  (.immobilizer sampleAdmin "d1" req, resolving)

/-- Enable, or disable, and keep the wiring. -/
def switchTo (enabled : Bool) : ImmobilizerRequest :=
  .configure ⟨enabled, none, none, none⟩

end FleetTracking.ControlPlane
