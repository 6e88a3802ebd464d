import FleetTracking.ControlPlane.AlertHistory
import FleetTracking.ControlPlane.OneDevice
import FleetTracking.ControlPlane.Overlap
import FleetTracking.ControlPlane.Services

/-!
# The Offline Sweep

A timer of the telemetry consumer runs the offline sweep. Between the sweeps batches are processed
and tenants change their alert settings, all of it interleaved at the awaits.

1. `runOfflineSweep`, `monitor`: the calls, and a record of every sweep.
2. `Monitor.Faithful`: the engine is the one that its recorded calls lead to.
3. `offline_alerts`: which devices a sweep reports.
-/

namespace FleetTracking.ControlPlane

open Async Transition

/-- `runOfflineSweep`: it uses the default threshold. -/
def runOfflineSweep : Api Unit := do
  let nowMs ← Api.step (.backend .now)
  let offline ← Api.step (.sweepOffline nowMs DEFAULT_ALERT_CONFIG)
  Api.lift (storeAlerts offline)

/-- What reaches the consumer and the alert settings. -/
inductive MonitorCall where
  | process (batch : List TelemetryMessage)
  | setConfig (tenantId : String) (patch : AlertConfigPatch)
  | sweep

/-- The function a call runs. -/
def MonitorCall.code : MonitorCall → Api Unit
  | .process batch => Api.lift (ControlPlane.process batch)
  | .setConfig tenantId patch => do
    let _ ← AlertsService.setConfig tenantId patch
    pure ()
  | .sweep => runOfflineSweep

/-! ## The record of the sweeps -/

/-- A call of the alert engine. -/
def ApiAct.engineCall : ApiAct → Option EngineCall
  | .backend (.evaluate pos config geofences nowMs) =>
    some (.evaluate ⟨pos, config, geofences, nowMs⟩)
  | .sweepOffline nowMs config => some (.sweepOffline nowMs config)
  | _ => none

/-- What is noted of a sweep. -/
structure Sweep where
  nowMs : Nat
  -- The calls of the engine before it.
  before : List EngineCall
  -- The settings stored for the tenants.
  configs : JsMap String AlertConfig
  -- The alerts that it emits.
  offline : List AlertEvent

/-- The store, the calls of the engine so far, and the sweeps. -/
structure Monitor where
  store : Store
  past : List EngineCall
  sweeps : List Sweep

/-- Ghost: what is noted of an action and its result. -/
def Monitor.note (m : Monitor) : (a : ApiAct) → a.Ret → List Sweep
  | .sweepOffline nowMs _, offline =>
    [⟨nowMs, m.past, m.store.backend.alertConfigs, offline⟩]
  | _, _ => []

/-- An action made at once. -/
def Monitor.act (D : ApiDeployment) (m : Monitor) (a : ApiAct) : Monitor × a.Ret :=
  let out := m.store.act D a
  (⟨out.1, a.engineCall.toList ++ m.past, m.note a out.2 ++ m.sweeps⟩, out.2)

/-- Batches, changes of the settings and sweeps, interleaved at their awaits. -/
def monitor (D : ApiDeployment) : System apiSig Nat MonitorCall Unit Monitor Outcome EnvMove where
  settle i _ op x m :=
    let out := m.store.settle i op x
    some ({ m with store := out.1 }, out.2)
  act _ _ a m := m.act D a
  code := MonitorCall.code
  env e m := some { m with store.backend := m.store.backend.env e }

/-! ## The engine follows its calls -/

/-- Every sweep is made with the default settings. -/
def sweeping : Typestate apiSig MonitorCall Unit where
  Phase := Unit
  init _ := ()
  next _ _ := ()
  may _ _ := True
  mayAct _
    | .sweepOffline _ config => config = DEFAULT_ALERT_CONFIG
    | _ => True
  done _ _ := True

/-- Code of the backend makes no sweeps. -/
theorem sweeping_lift {α : Type} (x : Cp α) (post : sweeping.Phase → Except ApiError α → Prop)
    (hpost : ∀ q r, post q r) (q : sweeping.Phase) : sweeping.Conforms (Api.lift x) q post := by
  induction x generalizing q with
  | pure a => exact hpost _ _
  | throw e => exact hpost _ _
  | await op k ih => exact ⟨trivial, fun r => ih r _⟩
  | act a k ih => exact ⟨trivial, fun r => ih r _⟩

theorem monitor_conforms (c : MonitorCall) :
    sweeping.Conforms c.code () sweeping.done := by
  cases c with
  | process batch => exact sweeping_lift _ _ (fun _ _ => trivial) _
  | setConfig tenantId patch =>
    have hset : sweeping.Conforms (AlertsService.setConfig tenantId patch) () fun _ _ => True :=
      Typestate.Conforms.perform_bind trivial
        (fun current => Typestate.conforms_perform.mpr ⟨trivial, fun _ => trivial⟩)
        fun _ => trivial
    exact hset.bind (fun _ _ _ => trivial) fun _ _ _ => trivial
  | sweep =>
    refine Typestate.Conforms.action_bind trivial fun nowMs => ?_
    refine Typestate.Conforms.action_bind rfl fun offline => ?_
    exact sweeping_lift _ _ (fun _ _ => trivial) _

variable {D : ApiDeployment} {m : Monitor}

/-- The engine is the one that its calls lead to, and each sweep emitted what it then emits. -/
structure Monitor.Faithful (D : ApiDeployment) (m : Monitor) : Prop where
  engine : m.store.backend.consumer.alertEngine = .after D.haversineMeters m.past
  sweeps : ∀ sweep ∈ m.sweeps, sweep.offline =
    emittedAt D.haversineMeters sweep.before (.sweepOffline sweep.nowMs DEFAULT_ALERT_CONFIG)

/-- No request touches the engine. -/
theorem engine_settle (s : Store) (i : Nat) (op : ApiOp) (x : Outcome) :
    (s.settle i op x).1.backend.consumer.alertEngine = s.backend.consumer.alertEngine := by
  have hnote : (s.noteRead i op).backend.consumer = s.backend.consumer := by
    cases op with
    | backend op => cases op <;> rfl
    | _ => rfl
  have heffect : ∀ s : Store, (s.effect op).backend.consumer = s.backend.consumer := by
    intro s
    cases op with
    | backend op => cases op <;> rfl
    | geofencesRemove tenantId id =>
      simp only [Store.effect]
      split <;> rfl
    | usersUpdate id patch =>
      simp only [Store.effect]
      split <;> rfl
    | vehiclesUpdate tenantId id deviceId =>
      simp only [Store.effect]
      split <;> rfl
    | _ => rfl
  simp only [Store.settle]
  split
  · rw [heffect, hnote]
  · rw [hnote]

/-- An action steps the engine by the call that it is. -/
theorem engine_act (s : Store) (a : ApiAct) :
    (s.act D a).1.backend.consumer.alertEngine = (a.engineCall.toList).foldr
      (fun c eng => (eng.call D.haversineMeters c).1) s.backend.consumer.alertEngine := by
  cases a with
  | backend a => cases a <;> rfl
  | _ => rfl

/-- **One action** keeps the record faithful. -/
theorem Monitor.Faithful.act (h : m.Faithful D) {a : ApiAct} (hmay : sweeping.mayAct () a) :
    (m.act D a).1.Faithful D where
  engine := by
    show (m.store.act D a).1.backend.consumer.alertEngine =
      .after D.haversineMeters (a.engineCall.toList ++ m.past)
    rw [engine_act, h.engine]
    cases a.engineCall with
    | none => rfl
    | some c => rfl
  sweeps := by
    intro sweep hsweep
    rcases List.mem_append.mp hsweep with hnew | hold
    · cases a with
      | sweepOffline nowMs config =>
        obtain rfl : config = DEFAULT_ALERT_CONFIG := hmay
        obtain rfl := List.mem_singleton.mp hnew
        show (m.store.backend.consumer.alertEngine.sweepOffline nowMs DEFAULT_ALERT_CONFIG).2 = _
        rw [h.engine]
        rfl
      | _ => exact absurd hnew List.not_mem_nil
    · exact h.sweeps sweep hold

/-- **The invariant rule**: the record is faithful throughout. -/
theorem monitor_preserves (D : ApiDeployment) :
    sweeping.Preserves (monitor D) (fun _ _ => True) fun m _ => m.Faithful D where
  code := monitor_conforms
  start _ _ _ h _ _ := h
  act _ _ _ _ _ _ h _ hmay := h.act hmay
  settle cfg i th x s' r h _ _ _ hs := by
    obtain ⟨rfl, -⟩ := Prod.mk.inj (Option.some.inj hs)
    exact ⟨(engine_settle ..).trans h.engine, h.sweeps⟩
  finish _ _ _ _ _ _ h _ _ := h
  env cfg e s' h _ hs := by
    cases hs
    refine ⟨?_, h.sweeps⟩
    rw [← h.engine]
    cases e with
    | elapse ms => rfl
    | expire tenantId deviceId => rfl

/-! ## Which devices a sweep reports -/

/-- A sweep reports each device that was evaluated, for which the alert was not given since, and
that is silent for longer than the threshold of its tenant. -/
def Sweep.Reports (haversineMeters : Distance) (threshold : String → ℚ) (sweep : Sweep) : Prop :=
  ∀ deviceId, (∃ ev ∈ sweep.offline, ev.saysOffline deviceId = true) ↔
    ∃ last, (evaluationsOf deviceId sweep.before).head? = some last ∧
      (¬ ∃ ev ∈ emittedSince haversineMeters deviceId sweep.before,
        ev.saysOffline deviceId = true) ∧
      threshold last.pos.tenantId * 1000 < (sweep.nowMs : ℚ) - last.nowMs

/-- The threshold that is stored for a tenant. -/
def Sweep.stored (sweep : Sweep) (tenantId : String) : ℚ :=
  ((sweep.configs.get tenantId).getD DEFAULT_ALERT_CONFIG).offlineAfterSec

theorem reports_default {sweep : Sweep} (h : sweep.offline = emittedAt D.haversineMeters
    sweep.before (.sweepOffline sweep.nowMs DEFAULT_ALERT_CONFIG)) :
    sweep.Reports D.haversineMeters fun _ => DEFAULT_ALERT_CONFIG.offlineAfterSec := by
  intro deviceId
  rw [h, saysOffline_at_sweep]
  cases hlast : (evaluationsOf deviceId sweep.before).head? with
  | none =>
    -- a device that was never evaluated
    simp [offlineEvent, hlast]
  | some last =>
    rw [offlineEvent_isSome hlast, ← Bool.not_eq_true,
      @alertedOffline_iff D.haversineMeters _ _ _ hlast]
    simp [silentFor, and_comm]

/-- **Offline alerts**: in every run of the consumer, whatever batches come, whatever settings the
tenants store and whenever the sweeps are, a sweep reports exactly the devices that are silent for
longer than the default threshold and were not reported since their last position. -/
theorem offline_alerts (D : ApiDeployment) (s₀ : Store)
    (hnew : s₀.backend.consumer.alertEngine = .new)
    {es : List (Event MonitorCall Outcome EnvMove Nat)}
    {cfg : Config apiSig MonitorCall Unit Monitor Nat}
    (hrun : Run (monitor D).step (fun _ _ => True) (Config.start ⟨s₀, [], []⟩) es cfg) :
    ∀ sweep ∈ cfg.shared.sweeps,
      sweep.Reports D.haversineMeters fun _ => DEFAULT_ALERT_CONFIG.offlineAfterSec := by
  intro sweep hsweep
  have hinit : Monitor.Faithful D ⟨s₀, [], []⟩ := ⟨hnew, fun _ h => absurd h List.not_mem_nil⟩
  exact reports_default (((monitor_preserves D).invariant hinit hrun).sweeps sweep hsweep)

/-- A position of the sample device. -/
def sampleMessage : TelemetryMessage where
  imei := "356307042441013"
  data := .record
    { imei := "356307042441013", ts := "2026-07-24T10:00:00.000Z", latitude := 19
      longitude := -81, altitude := 0, heading := 0, speedKph := 40, satellites := 8
      fields := JsMap.empty, attrs := [] }

/-- The tenant sets a threshold of two minutes, the device sends a position, and there is a sweep
130 s later. -/
def quietDevice : List (Event MonitorCall Outcome EnvMove Nat) :=
  let ok := Outcome.resolves ""
  [.start 0 (.setConfig "t1" ⟨none, none, none, some 120⟩), .settle 0 ok, .resume 0, .settle 0 ok,
    .resume 0, .start 1 (.process [sampleMessage]), .settle 1 ok, .resume 1, .settle 1 ok,
    .resume 1, .settle 1 ok, .resume 1, .settle 1 ok, .resume 1, .settle 1 ok, .resume 1,
    .env (.elapse 130000), .start 2 .sweep]

/-- One sweep reported nothing, although the device was silent for longer than the threshold of its
tenant. -/
abbrev Monitor.Overlooks (m : Monitor) : Prop :=
  ∃ sweep ∈ m.sweeps, sweep.offline.isEmpty = true ∧
    (emittedSince (fun _ _ _ _ => 0) "d1" sweep.before).isEmpty = true ∧
    (evaluationsOf "d1" sweep.before).head?.any (fun last =>
      sweep.stored last.pos.tenantId * 1000 < (sweep.nowMs : ℚ) - last.nowMs) = true

theorem quiet_run : ∃ cfg, Run (monitor sampleApi).step (fun _ _ => True)
    (Config.start ⟨Store.new sampleBackend, [], []⟩) quietDevice cfg ∧ cfg.shared.Overlooks := by
  apply Run.exists_of_any
  decide +kernel

theorem quiet_offline_alerts : ∃ cfg, Run (monitor sampleApi).step (fun _ _ => True)
    (Config.start ⟨Store.new sampleBackend, [], []⟩) quietDevice cfg ∧ cfg.shared.sweeps ≠ [] ∧
    ∀ sweep ∈ cfg.shared.sweeps,
      sweep.Reports sampleApi.haversineMeters fun _ => DEFAULT_ALERT_CONFIG.offlineAfterSec := by
  obtain ⟨cfg, hrun, sweep, hsweep, -⟩ := quiet_run
  exact ⟨cfg, hrun, List.ne_nil_of_mem hsweep, offline_alerts sampleApi _ rfl hrun⟩

/-- The threshold of the tenant is not the one that is used. -/
theorem stored_threshold_ignored : ∃ cfg, Run (monitor sampleApi).step (fun _ _ => True)
    (Config.start ⟨Store.new sampleBackend, [], []⟩) quietDevice cfg ∧
    ∃ sweep ∈ cfg.shared.sweeps, ¬ sweep.Reports sampleApi.haversineMeters sweep.stored := by
  obtain ⟨cfg, hrun, sweep, hsweep, hnothing, hquiet, hsilent⟩ := quiet_run
  refine ⟨cfg, hrun, sweep, hsweep, fun hreports => ?_⟩
  obtain ⟨last, hlast, hlong⟩ := (Option.any_eq_true _ _).mp hsilent
  have hsince : emittedSince sampleApi.haversineMeters "d1" sweep.before = [] :=
    List.isEmpty_iff.mp hquiet
  obtain ⟨ev, hev, -⟩ :=
    (hreports "d1").mpr ⟨last, hlast, by simp [hsince], of_decide_eq_true hlong⟩
  rw [List.isEmpty_iff.mp hnothing] at hev
  exact absurd hev List.not_mem_nil

end FleetTracking.ControlPlane
