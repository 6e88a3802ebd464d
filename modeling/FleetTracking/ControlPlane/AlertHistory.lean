import FleetTracking.ControlPlane.AlertEngine
import Mathlib.Data.List.Dedup

/-!
# Alerts as a Function of the History

The alert engine keeps a state for each device and updates it position by position. What it emits
is determined by the history of its calls alone.

1. `historyEvents`: the alerts of a call, given the calls before it.
2. `engine_state`: the state of the engine in terms of the history.
3. `engine_history`: the engine emits exactly these alerts, the alerts of one device depend on no
   other device, and enter and exit of one geofence alternate.

Histories are written with the most recent call first.
-/

namespace FleetTracking.ControlPlane

/-! ## Runs of the engine -/

/-- A position, with what it is evaluated against. -/
structure Evaluation where
  pos : Position
  config : AlertConfig
  geofences : List Geofence
  nowMs : Nat

inductive EngineCall where
  | evaluate (e : Evaluation)
  | sweepOffline (nowMs : Nat) (config : AlertConfig)

section Runs

variable (haversineMeters : Distance)

/-- One call of the engine. -/
def AlertEngine.call (eng : AlertEngine) : EngineCall → AlertEngine × List AlertEvent
  | .evaluate e => eng.evaluate haversineMeters e.pos e.config e.geofences e.nowMs
  | .sweepOffline nowMs config => eng.sweepOffline nowMs config

/-- The engine after the calls of a history. -/
def AlertEngine.after : List EngineCall → AlertEngine
  | [] => .new
  | c :: past => ((AlertEngine.after past).call haversineMeters c).1

/-- What the engine emits at a call. -/
def emittedAt (past : List EngineCall) (c : EngineCall) : List AlertEvent :=
  ((AlertEngine.after haversineMeters past).call haversineMeters c).2

/-- All that was emitted over a history, oldest first. -/
def emitted : List EngineCall → List AlertEvent
  | [] => []
  | c :: past => emitted past ++ emittedAt haversineMeters past c

end Runs

/-! ## What a history says of a device -/

/-- The evaluations of positions of a device, most recent first. -/
def evaluationsOf (deviceId : String) : List EngineCall → List Evaluation
  | [] => []
  | .evaluate e :: past =>
    if e.pos.deviceId = deviceId then e :: evaluationsOf deviceId past
    else evaluationsOf deviceId past
  | .sweepOffline _ _ :: past => evaluationsOf deviceId past

/-- What the most recent evaluation of a device says that says something. -/
def lastOf {α : Type} (f : Evaluation → Option α) (deviceId : String) (past : List EngineCall) :
    Option α :=
  ((evaluationsOf deviceId past).filterMap f).head?

/-- The devices in the order of their first evaluation. -/
def devicesSeen (past : List EngineCall) : List String :=
  (past.filterMap fun c =>
    match c with
    | .evaluate e => some e.pos.deviceId
    | .sweepOffline _ _ => none).dedup.reverse

/-- The limit is set: is the position over it? -/
def Evaluation.overLimit (e : Evaluation) : Option Bool :=
  e.config.overspeedKph.map fun limit => limit < e.pos.speedKph

/-- Ignition alerts are on: the ignition, if it is known. -/
def Evaluation.ignition (e : Evaluation) : Option Bool :=
  if e.config.ignitionAlerts then e.pos.ignition else none

/-- The threshold is exceeded at a sweep. -/
def silentFor (seenMs nowMs : Nat) (config : AlertConfig) : Bool :=
  config.offlineAfterSec * 1000 < (nowMs : ℚ) - seenMs

/-- A sweep since the last evaluation of the device has found the threshold exceeded. -/
def alertedOffline (deviceId : String) (seenMs : Nat) : List EngineCall → Bool
  | [] => false
  | .evaluate e :: past => e.pos.deviceId ≠ deviceId && alertedOffline deviceId seenMs past
  | .sweepOffline nowMs config :: past =>
    silentFor seenMs nowMs config || alertedOffline deviceId seenMs past

section History

variable (haversineMeters : Distance)

/-- Geofence alerts are on, and there are geofences: those that contain the position. -/
def Evaluation.inside (e : Evaluation) : Option (List String) :=
  if e.config.geofenceAlerts ∧ e.geofences ≠ [] then
    some (geofencesContaining haversineMeters e.geofences e.pos)
  else none

/-! ## The alerts of a call -/

/-- Over the limit, and not so at the previous position that was measured against one. -/
def overspeedEvents (past : List EngineCall) (e : Evaluation) : List AlertEvent :=
  match e.config.overspeedKph with
  | none => []
  | some limit =>
    if limit < e.pos.speedKph ∧
        lastOf Evaluation.overLimit e.pos.deviceId past ≠ some true then
      [emitAlert e.pos .overspeed ("Speed " ++ JsNumber.numberText e.pos.speedKph ++
        " km/h exceeded limit " ++ JsNumber.numberText limit ++ " km/h") none
        (some (e.pos.speedKph, limit))]
    else []

/-- The ignition differs from the previous one that was known. -/
def ignitionEvents (past : List EngineCall) (e : Evaluation) : List AlertEvent :=
  match e.ignition with
  | none => []
  | some on =>
    if lastOf Evaluation.ignition e.pos.deviceId past = some !on then
      [emitAlert e.pos (if on then .ignition_on else .ignition_off)
        ("Ignition " ++ if on then "on" else "off")]
    else []

/-- The difference to the geofences around the previous position. -/
def fenceEvents (past : List EngineCall) (e : Evaluation) : List AlertEvent :=
  match e.inside haversineMeters with
  | none => []
  | some inside =>
    let before :=
      (lastOf (Evaluation.inside haversineMeters) e.pos.deviceId past).getD []
    (inside.filter (· ∉ before)).map (fun id =>
      emitAlert e.pos .geofence_enter ("Entered " ++ nameOf e.geofences id) (some id)) ++
    (before.filter (· ∉ inside)).map fun id =>
      emitAlert e.pos .geofence_exit ("Left " ++ nameOf e.geofences id) (some id)

/-- The device is silent for too long, and no sweep has said so since its last position. -/
def offlineEvent (past : List EngineCall) (nowMs : Nat) (config : AlertConfig)
    (deviceId : String) : Option AlertEvent := do
  let last ← (evaluationsOf deviceId past).head?
  let first ← (evaluationsOf deviceId past).getLast?
  if silentFor last.nowMs nowMs config ∧ alertedOffline deviceId last.nowMs past = false then
    some { tenantId := first.pos.tenantId, deviceId, imei := first.pos.imei, type := .device_offline
           ts := JsDate.isoText nowMs
           message := "No data for " ++
             toString (JsNumber.mathRound (((nowMs : ℚ) - last.nowMs) / 1000)) ++ "s"
           geofenceId := none, speeds := none }
  else none

/-- The alerts of a call, given the calls before it. -/
def historyEvents (past : List EngineCall) : EngineCall → List AlertEvent
  | .evaluate e => overspeedEvents past e ++ ignitionEvents past e ++
      fenceEvents haversineMeters past e
  | .sweepOffline nowMs config => (devicesSeen past).filterMap (offlineEvent past nowMs config)

/-! ## The state of the engine -/

/-- What the engine remembers of a device. -/
def rememberedOf (past : List EngineCall) (deviceId : String) : Option DeviceAlertState := do
  let last ← (evaluationsOf deviceId past).head?
  let first ← (evaluationsOf deviceId past).getLast?
  some { deviceId, tenantId := first.pos.tenantId, imei := first.pos.imei
         lastSeenMs := last.nowMs
         lastIgnition := lastOf Evaluation.ignition deviceId past
         overspeedActive := (lastOf Evaluation.overLimit deviceId past).getD false
         insideGeofences := (lastOf (Evaluation.inside haversineMeters) deviceId past).getD []
         offlineAlerted := alertedOffline deviceId last.nowMs past }

end History

/-! ## Histories -/

section Histories

variable {haversineMeters : Distance} {past : List EngineCall} {deviceId : String} {e : Evaluation}

theorem lastOf_evaluate {α : Type} (f : Evaluation → Option α) :
    lastOf f deviceId (.evaluate e :: past) =
      if e.pos.deviceId = deviceId then (f e).or (lastOf f deviceId past)
      else lastOf f deviceId past := by
  unfold lastOf
  rw [evaluationsOf]
  split
  case isTrue =>
    cases hf : f e with
    | none => simp [hf]
    | some a => simp [hf]
  case isFalse => rfl

@[simp] theorem lastOf_sweep {α : Type} (f : Evaluation → Option α) (nowMs : Nat)
    (config : AlertConfig) :
    lastOf f deviceId (.sweepOffline nowMs config :: past) = lastOf f deviceId past := rfl

/-- Of a device that was not evaluated yet, nothing is known. -/
theorem lastOf_eq_none {α : Type} (f : Evaluation → Option α)
    (h : evaluationsOf deviceId past = []) : lastOf f deviceId past = none := by
  rw [lastOf, h]
  rfl

theorem devicesSeen_evaluate : devicesSeen (.evaluate e :: past) =
    if e.pos.deviceId ∈ devicesSeen past then devicesSeen past
    else devicesSeen past ++ [e.pos.deviceId] := by
  simp only [devicesSeen, List.filterMap_cons, List.mem_reverse, List.mem_dedup]
  split
  case isTrue h => rw [List.dedup_cons_of_mem h]
  case isFalse h => rw [List.dedup_cons_of_notMem h, List.reverse_cons]

@[simp] theorem devicesSeen_sweep (nowMs : Nat) (config : AlertConfig) :
    devicesSeen (.sweepOffline nowMs config :: past) = devicesSeen past := rfl

/-- A device that was evaluated is remembered. -/
theorem rememberedOf_eq_none :
    rememberedOf haversineMeters past deviceId = none ↔ evaluationsOf deviceId past = [] := by
  cases h : evaluationsOf deviceId past with
  | nil => simp [rememberedOf, h]
  | cons last rest =>
    obtain ⟨first, hfirst⟩ := Option.isSome_iff_exists.mp
      (List.getLast?_isSome.mpr (List.cons_ne_nil last rest))
    simp [rememberedOf, h, hfirst]

/-! ## One position -/

/-- The state after the three checks. -/
theorem check_state (st : DeviceAlertState) :
    (st.check haversineMeters e.pos e.config e.geofences).1 =
      { st with
        overspeedActive := e.overLimit.getD st.overspeedActive
        lastIgnition := e.ignition.or st.lastIgnition
        insideGeofences := (e.inside haversineMeters).getD st.insideGeofences } := by
  -- each rule writes its own field
  have hspeed : (overspeedAlerts e.pos e.config st).1 =
      { st with overspeedActive := e.overLimit.getD st.overspeedActive } := by
    unfold overspeedAlerts Evaluation.overLimit
    cases e.config.overspeedKph with
    | none => rfl
    | some limit => rfl
  have hignition : ∀ st, (ignitionAlerts e.pos e.config st).1 =
      { st with lastIgnition := e.ignition.or st.lastIgnition } := by
    intro st
    unfold ignitionAlerts Evaluation.ignition
    cases e.config.ignitionAlerts with
    | false => rfl
    | true =>
      cases e.pos.ignition with
      | none => rfl
      | some on => rfl
  have hfences : ∀ st, (geofenceAlerts haversineMeters e.pos e.config e.geofences st).1 =
      { st with insideGeofences := (e.inside haversineMeters).getD st.insideGeofences } := by
    intro st
    unfold geofenceAlerts Evaluation.inside
    split
    · rfl
    · rfl
  simp only [DeviceAlertState.check]
  rw [hfences, hignition, hspeed]

/-- The alerts of the three checks, from the state before. -/
theorem check_events {st : DeviceAlertState}
    (hspeed : st.overspeedActive = (lastOf Evaluation.overLimit e.pos.deviceId past).getD false)
    (hignition : st.lastIgnition = lastOf Evaluation.ignition e.pos.deviceId past)
    (hfences : st.insideGeofences =
      (lastOf (Evaluation.inside haversineMeters) e.pos.deviceId past).getD []) :
    (st.check haversineMeters e.pos e.config e.geofences).2 =
      historyEvents haversineMeters past (.evaluate e) := by
  -- the three rules run one after the other; each reads its own part of the state and leaves the
  -- parts of the later ones
  have hover : (overspeedAlerts e.pos e.config st).2 = overspeedEvents past e ∧
      (overspeedAlerts e.pos e.config st).1.lastIgnition = st.lastIgnition ∧
      (overspeedAlerts e.pos e.config st).1.insideGeofences = st.insideGeofences := by
    unfold overspeedAlerts overspeedEvents
    cases e.config.overspeedKph with
    | none => exact ⟨rfl, rfl, rfl⟩
    | some limit =>
      refine ⟨?_, rfl, rfl⟩
      simp only [hspeed]
      cases lastOf Evaluation.overLimit e.pos.deviceId past with
      | none => simp
      | some isOver => cases isOver <;> simp
  have hon : ∀ st', st'.lastIgnition = st.lastIgnition →
      (ignitionAlerts e.pos e.config st').2 = ignitionEvents past e ∧
      (ignitionAlerts e.pos e.config st').1.insideGeofences = st'.insideGeofences := by
    intro st' hst
    unfold ignitionAlerts ignitionEvents Evaluation.ignition
    cases hconfig : e.config.ignitionAlerts with
    | false => exact ⟨rfl, rfl⟩
    | true =>
      cases hpos : e.pos.ignition with
      | none => exact ⟨rfl, rfl⟩
      | some on =>
        refine ⟨?_, rfl⟩
        simp only [hst, hignition]
        rfl
  have hinside : ∀ st', st'.insideGeofences = st.insideGeofences →
      (geofenceAlerts haversineMeters e.pos e.config e.geofences st').2 =
        fenceEvents haversineMeters past e := by
    intro st' hst
    unfold geofenceAlerts fenceEvents Evaluation.inside
    split
    case isTrue h =>
      simp only [hst, hfences]
      rfl
    case isFalse h => rfl
  simp only [DeviceAlertState.check, historyEvents]
  obtain ⟨hover, hkeep, hkeep'⟩ := hover
  obtain ⟨hon, hkeep''⟩ := hon _ hkeep
  rw [hinside _ (hkeep''.trans hkeep'), hon, hover]

/-- The device of a position, after the position. -/
theorem rememberedOf_evaluate (nowSt : DeviceAlertState)
    (h : nowSt = ((rememberedOf haversineMeters past e.pos.deviceId).getD (.new e.pos e.nowMs))) :
    rememberedOf haversineMeters (.evaluate e :: past) e.pos.deviceId =
      some ({ nowSt with lastSeenMs := e.nowMs, offlineAlerted := false }.check haversineMeters
        e.pos e.config e.geofences).1 := by
  subst h
  rw [check_state]
  have heval : evaluationsOf e.pos.deviceId (.evaluate e :: past) =
      e :: evaluationsOf e.pos.deviceId past := by
    rw [evaluationsOf, if_pos rfl]
  -- the first evaluation of a device starts from a new state
  cases hpast : evaluationsOf e.pos.deviceId past with
  | nil =>
    have hnone := (@rememberedOf_eq_none haversineMeters _ _).mpr hpast
    rw [hpast] at heval
    simp [rememberedOf, heval, hpast, lastOf_evaluate, lastOf_eq_none _ hpast, DeviceAlertState.new,
      alertedOffline]
  | cons last rest =>
    obtain ⟨first, hfirst⟩ := Option.isSome_iff_exists.mp
      (List.getLast?_isSome.mpr (List.cons_ne_nil last rest))
    rw [hpast] at heval
    have hfirst' : (e :: last :: rest).getLast? = some first := by
      rw [List.getLast?_cons_cons]
      exact hfirst
    simp [rememberedOf, heval, hpast, hfirst, hfirst', lastOf_evaluate, alertedOffline]

/-- Positions of other devices change nothing. -/
theorem rememberedOf_evaluate_of_ne (h : e.pos.deviceId ≠ deviceId) :
    rememberedOf haversineMeters (.evaluate e :: past) deviceId =
      rememberedOf haversineMeters past deviceId := by
  simp only [rememberedOf, evaluationsOf, if_neg h, lastOf_evaluate, alertedOffline]
  simp [h]

/-! ## One sweep -/

/-- What a sweep makes of the state of a device. -/
def DeviceAlertState.swept (st : DeviceAlertState) (nowMs : Nat) (config : AlertConfig) :
    DeviceAlertState :=
  { st with offlineAlerted := st.offlineAlerted || silentFor st.lastSeenMs nowMs config }

theorem overdue_eq (st : DeviceAlertState) (nowMs : Nat) (config : AlertConfig) :
    st.overdue nowMs config = (!st.offlineAlerted && silentFor st.lastSeenMs nowMs config) := rfl

theorem rememberedOf_sweep (nowMs : Nat) (config : AlertConfig) :
    rememberedOf haversineMeters (.sweepOffline nowMs config :: past) deviceId =
      (rememberedOf haversineMeters past deviceId).map fun st => st.swept nowMs config := by
  cases hpast : evaluationsOf deviceId past with
  | nil => simp [rememberedOf, evaluationsOf, hpast]
  | cons last rest =>
    obtain ⟨first, hfirst⟩ := Option.isSome_iff_exists.mp
      (List.getLast?_isSome.mpr (List.cons_ne_nil last rest))
    simp [rememberedOf, evaluationsOf, hpast, hfirst, alertedOffline, DeviceAlertState.swept,
      Bool.or_comm]

/-- The alert about a device at a sweep, from its state. -/
theorem offlineEvent_eq (nowMs : Nat) (config : AlertConfig) :
    offlineEvent past nowMs config deviceId =
      ((rememberedOf haversineMeters past deviceId).filter fun st => st.overdue nowMs config).map
        fun st => st.offlineAlert nowMs := by
  cases hpast : evaluationsOf deviceId past with
  | nil => simp [rememberedOf, offlineEvent, hpast]
  | cons last rest =>
    obtain ⟨first, hfirst⟩ := Option.isSome_iff_exists.mp
      (List.getLast?_isSome.mpr (List.cons_ne_nil last rest))
    simp only [rememberedOf, offlineEvent, hpast, hfirst, overdue_eq, Option.filter]
    by_cases halerted : alertedOffline deviceId last.nowMs past = true
    · simp [halerted]
    · simp only [Bool.not_eq_true] at halerted
      by_cases hsilent : silentFor last.nowMs nowMs config = true
      · simp [halerted, hsilent, DeviceAlertState.offlineAlert]
      · simp [halerted, hsilent]

/-! ## The engine -/

/-- A sweep changes the states of the devices it gives an alert about. -/
theorem sweep_state (eng : AlertEngine) (nowMs : Nat) (config : AlertConfig) :
    (eng.sweepOffline nowMs config).1.state.keys = eng.state.keys ∧
      ∀ deviceId, (eng.sweepOffline nowMs config).1.state.get deviceId =
        (eng.state.get deviceId).map fun st => st.swept nowMs config := by
  obtain ⟨hkeys, hget⟩ := eng.state.update_where (fun st => st.overdue nowMs config)
    fun st => { st with offlineAlerted := true }
  refine ⟨hkeys, fun deviceId => (hget deviceId).trans ?_⟩
  congr 1
  funext st
  obtain ⟨id, tenantId, imei, seenMs, ignition, isOver, inside, alerted⟩ := st
  cases alerted with
  | true => simp [overdue_eq, DeviceAlertState.swept]
  | false =>
    cases hsilent : silentFor seenMs nowMs config with
    | true => simp [overdue_eq, DeviceAlertState.swept, hsilent]
    | false => simp [overdue_eq, DeviceAlertState.swept, hsilent]

/-- **The state of the engine** is what the history says of the devices. -/
theorem engine_state (past : List EngineCall) :
    (AlertEngine.after haversineMeters past).state.keys = devicesSeen past ∧
      ∀ deviceId, (AlertEngine.after haversineMeters past).state.get deviceId =
        rememberedOf haversineMeters past deviceId := by
  induction past with
  | nil => exact ⟨rfl, fun _ => rfl⟩
  | cons c past ih =>
    obtain ⟨hkeys, hget⟩ := ih
    cases c with
    | evaluate e =>
      simp only [AlertEngine.after, AlertEngine.call, AlertEngine.evaluate]
      refine ⟨?_, fun deviceId => ?_⟩
      · rw [JsMap.keys_set, hkeys, devicesSeen_evaluate]
      · by_cases hdev : e.pos.deviceId = deviceId
        · subst hdev
          rw [JsMap.get_set_self, rememberedOf_evaluate _ rfl, AlertEngine.get, hget]
        · rw [JsMap.get_set_of_ne _ _ fun h => hdev h.symm, hget, rememberedOf_evaluate_of_ne hdev]
    | sweepOffline nowMs config =>
      obtain ⟨hkeys', hget'⟩ :=
        sweep_state (AlertEngine.after haversineMeters past) nowMs config
      refine ⟨?_, fun deviceId => ?_⟩
      · rw [devicesSeen_sweep, ← hkeys, ← hkeys']
        rfl
      · rw [rememberedOf_sweep, ← hget, ← hget']
        rfl

/-- **The engine emits what the history says.** -/
theorem emittedAt_eq (past : List EngineCall) (c : EngineCall) :
    emittedAt haversineMeters past c = historyEvents haversineMeters past c := by
  obtain ⟨hkeys, hget⟩ := @engine_state haversineMeters past
  cases c with
  | evaluate e =>
    unfold emittedAt
    simp only [AlertEngine.call, AlertEngine.evaluate, AlertEngine.get, hget]
    cases hpast : evaluationsOf e.pos.deviceId past with
    -- the first evaluation of the device: the engine starts from nothing
    | nil =>
      rw [rememberedOf_eq_none.mpr hpast]
      apply check_events
      · rw [lastOf_eq_none _ hpast]
        rfl
      · rw [lastOf_eq_none _ hpast]
        rfl
      · rw [lastOf_eq_none _ hpast]
        rfl
    -- the engine remembers what the history says
    | cons last rest =>
      obtain ⟨first, hfirst⟩ := Option.isSome_iff_exists.mp
        (List.getLast?_isSome.mpr (List.cons_ne_nil last rest))
      simp only [rememberedOf, hpast, hfirst, List.head?_cons, Option.bind_eq_bind,
        Option.bind_some, Option.getD_some]
      exact check_events rfl rfl rfl
  | sweepOffline nowMs config =>
    unfold emittedAt
    simp only [AlertEngine.call, AlertEngine.sweepOffline, historyEvents]
    -- the sweep goes over the devices in the order of their first evaluation
    rw [JsMap.entries_eq_filterMap, hkeys, List.filter_filterMap, List.map_filterMap]
    apply List.filterMap_congr
    intro deviceId _
    rw [@offlineEvent_eq haversineMeters, hget]
    cases rememberedOf haversineMeters past deviceId with
    | none => rfl
    | some st =>
      by_cases hoverdue : st.overdue nowMs config = true
      · simp [hoverdue, Option.filter]
      · simp [hoverdue, Option.filter]

end Histories

/-! ## One device -/

/-- The calls that have to do with a device: its positions, and the sweeps. -/
def EngineCall.concerns (deviceId : String) : EngineCall → Bool
  | .evaluate e => e.pos.deviceId = deviceId
  | .sweepOffline _ _ => true

/-- The alerts about a device at a call. -/
def eventsOf (haversineMeters : Distance) (deviceId : String) (past : List EngineCall) :
    EngineCall → List AlertEvent
  | .evaluate e =>
    if e.pos.deviceId = deviceId then historyEvents haversineMeters past (.evaluate e) else []
  | .sweepOffline nowMs config => (offlineEvent past nowMs config deviceId).toList

section Devices

variable {haversineMeters : Distance} {past : List EngineCall} {deviceId : String}

/-- The alerts at a position are about its device. -/
theorem deviceId_of_evaluate {e : Evaluation} {ev : AlertEvent}
    (h : ev ∈ historyEvents haversineMeters past (.evaluate e)) : ev.deviceId = e.pos.deviceId := by
  simp only [historyEvents, List.mem_append] at h
  rcases h with (h | h) | h
  · unfold overspeedEvents at h
    split at h
    · cases h
    · split at h
      · rw [List.mem_singleton.mp h]
        rfl
      · cases h
  · unfold ignitionEvents at h
    split at h
    · cases h
    · split at h
      · rw [List.mem_singleton.mp h]
        rfl
      · cases h
  · unfold fenceEvents at h
    split at h
    · cases h
    · simp only [List.mem_append, List.mem_map] at h
      rcases h with ⟨id, -, rfl⟩ | ⟨id, -, rfl⟩
      · rfl
      · rfl

theorem of_offlineEvent {nowMs : Nat} {config : AlertConfig} {ev : AlertEvent}
    (h : offlineEvent past nowMs config deviceId = some ev) :
    ev.deviceId = deviceId ∧ ev.type = .device_offline ∧ ev.geofenceId = none ∧
      evaluationsOf deviceId past ≠ [] := by
  unfold offlineEvent at h
  cases hpast : evaluationsOf deviceId past with
  | nil => simp [hpast] at h
  | cons last rest =>
    obtain ⟨first, hfirst⟩ := Option.isSome_iff_exists.mp
      (List.getLast?_isSome.mpr (List.cons_ne_nil last rest))
    simp only [hpast, hfirst, List.head?_cons, Option.bind_eq_bind, Option.bind_some] at h
    split at h
    · cases h
      exact ⟨rfl, rfl, rfl, List.cons_ne_nil _ _⟩
    · cases h

theorem mem_devicesSeen : deviceId ∈ devicesSeen past ↔ evaluationsOf deviceId past ≠ [] := by
  induction past with
  | nil => simp [devicesSeen, evaluationsOf]
  | cons c past ih =>
    cases c with
    | evaluate e =>
      rw [devicesSeen_evaluate, evaluationsOf]
      by_cases hdev : e.pos.deviceId = deviceId
      · subst hdev
        rw [if_pos rfl]
        by_cases hmem : e.pos.deviceId ∈ devicesSeen past
        · simp [hmem]
        · simp [hmem]
      · rw [if_neg hdev, ← ih]
        by_cases hmem : e.pos.deviceId ∈ devicesSeen past
        · rw [if_pos hmem]
        · rw [if_neg hmem, List.mem_append, List.mem_singleton]
          exact or_iff_left fun heq => hdev heq.symm
    | sweepOffline nowMs config => exact ih

theorem nodup_devicesSeen : (devicesSeen past).Nodup :=
  List.nodup_reverse.mpr (List.nodup_dedup _)

/-- The alerts of a call about one device. -/
theorem filter_historyEvents (c : EngineCall) :
    (historyEvents haversineMeters past c).filter (fun ev => ev.deviceId = deviceId) =
      eventsOf haversineMeters deviceId past c := by
  cases c with
  -- an evaluation speaks of its own device only
  | evaluate e =>
    by_cases hdev : e.pos.deviceId = deviceId
    · rw [eventsOf, if_pos hdev]
      apply List.filter_eq_self.mpr
      intro ev hev
      simp [deviceId_of_evaluate hev, hdev]
    · rw [eventsOf, if_neg hdev]
      apply List.filter_eq_nil_iff.mpr
      intro ev hev
      simp [deviceId_of_evaluate hev, hdev]
  | sweepOffline nowMs config =>
    simp only [historyEvents, eventsOf, List.filter_filterMap]
    -- a sweep has at most one event for each device
    have hother : ∀ id, (offlineEvent past nowMs config id).filter
        (fun ev => ev.deviceId = deviceId) =
          if id = deviceId then offlineEvent past nowMs config deviceId else none := by
      intro id
      by_cases hid : id = deviceId
      · subst hid
        rw [if_pos rfl]
        cases hev : offlineEvent past nowMs config id with
        | none => rfl
        | some ev => simp [Option.filter, (of_offlineEvent hev).1]
      · rw [if_neg hid]
        cases hev : offlineEvent past nowMs config id with
        | none => rfl
        | some ev => simp [Option.filter, (of_offlineEvent hev).1, hid]
    simp only [hother]
    by_cases hmem : deviceId ∈ devicesSeen past
    -- the device occurs once among those seen, so it gets one event
    · obtain ⟨before, rest, hsplit⟩ := List.append_of_mem hmem
      have hnodup := @nodup_devicesSeen past
      rw [hsplit, List.nodup_append, List.nodup_cons] at hnodup
      have hbefore : before.filterMap (fun id => if id = deviceId then
          offlineEvent past nowMs config deviceId else none) = [] := by
        apply List.filterMap_eq_nil_iff.mpr
        intro id hid
        exact if_neg fun heq => hnodup.2.2 id hid deviceId List.mem_cons_self heq
      have hrest : rest.filterMap (fun id => if id = deviceId then
          offlineEvent past nowMs config deviceId else none) = [] := by
        apply List.filterMap_eq_nil_iff.mpr
        intro id hid
        refine if_neg fun heq => hnodup.2.1.1 ?_
        rw [← heq]
        exact hid
      rw [hsplit, List.filterMap_append, List.filterMap_cons, if_pos rfl, hbefore, hrest]
      cases offlineEvent past nowMs config deviceId with
      | none => rfl
      | some ev => rfl
    · have hnone : offlineEvent past nowMs config deviceId = none := by
        rw [mem_devicesSeen, not_not] at hmem
        simp [offlineEvent, hmem]
      rw [hnone]
      simp

/-- What a history says of a device, it says without the positions of other devices. -/
theorem evaluationsOf_filter :
    evaluationsOf deviceId (past.filter (EngineCall.concerns deviceId)) =
      evaluationsOf deviceId past := by
  induction past with
  | nil => rfl
  | cons c past ih =>
    cases c with
    | evaluate e =>
      by_cases hdev : e.pos.deviceId = deviceId
      · simp [evaluationsOf, EngineCall.concerns, hdev, ih]
      · simp [evaluationsOf, EngineCall.concerns, hdev, ih]
    | sweepOffline nowMs config =>
      rw [List.filter_cons_of_pos rfl]
      exact ih

theorem lastOf_filter {α : Type} (f : Evaluation → Option α) :
    lastOf f deviceId (past.filter (EngineCall.concerns deviceId)) = lastOf f deviceId past := by
  rw [lastOf, evaluationsOf_filter, lastOf]

theorem alertedOffline_filter (seenMs : Nat) :
    alertedOffline deviceId seenMs (past.filter (EngineCall.concerns deviceId)) =
      alertedOffline deviceId seenMs past := by
  induction past with
  | nil => rfl
  | cons c past ih =>
    cases c with
    | evaluate e =>
      by_cases hdev : e.pos.deviceId = deviceId
      · simp [alertedOffline, EngineCall.concerns, hdev]
      · simp [alertedOffline, EngineCall.concerns, hdev, ih]
    | sweepOffline nowMs config =>
      rw [List.filter_cons_of_pos rfl, alertedOffline, alertedOffline, ih]

theorem eventsOf_filter (c : EngineCall) :
    eventsOf haversineMeters deviceId (past.filter (EngineCall.concerns deviceId)) c =
      eventsOf haversineMeters deviceId past c := by
  cases c with
  | evaluate e =>
    by_cases hdev : e.pos.deviceId = deviceId
    · subst hdev
      rw [eventsOf, eventsOf, if_pos rfl, if_pos rfl]
      rw [historyEvents, historyEvents]
      unfold overspeedEvents ignitionEvents fenceEvents
      rw [lastOf_filter, lastOf_filter, lastOf_filter]
    · rw [eventsOf, eventsOf, if_neg hdev, if_neg hdev]
  | sweepOffline nowMs config =>
    simp only [eventsOf, offlineEvent, evaluationsOf_filter, alertedOffline_filter]

/-- **The alerts of a device depend on no other device.** -/
theorem emitted_filter (past : List EngineCall) (deviceId : String) :
    (emitted haversineMeters past).filter (fun ev => ev.deviceId = deviceId) =
      (emitted haversineMeters (past.filter (EngineCall.concerns deviceId))).filter
        fun ev => ev.deviceId = deviceId := by
  induction past with
  | nil => rfl
  | cons c past ih =>
    rw [emitted, List.filter_append, ih, emittedAt_eq, filter_historyEvents]
    cases hc : c.concerns deviceId with
    | true =>
      rw [List.filter_cons_of_pos hc, emitted, List.filter_append, emittedAt_eq,
        filter_historyEvents, eventsOf_filter]
    | false =>
      rw [List.filter_cons_of_neg (by simp [hc])]
      cases c with
      | evaluate e =>
        have hdev : ¬ e.pos.deviceId = deviceId := by simpa [EngineCall.concerns] using hc
        simp [eventsOf, hdev]
      | sweepOffline nowMs config => cases hc

/-! ## Entering and leaving -/

/-- Each geofence that contains the position, once. -/
theorem geofencesContaining_spec (geofences : List Geofence) (p : Position) :
    (geofencesContaining haversineMeters geofences p).Nodup ∧
      ∀ id, id ∈ geofencesContaining haversineMeters geofences p ↔
        ∃ g ∈ geofences, g.id = id ∧
          geofenceContains haversineMeters g p.latitude p.longitude = true := by
  -- induction on the geofences, from any list without duplicates to start with
  have hfold : ∀ inside : List String, inside.Nodup →
      (geofences.foldl (fun inside g =>
        if geofenceContains haversineMeters g p.latitude p.longitude ∧ g.id ∉ inside then
          inside ++ [g.id] else inside) inside).Nodup ∧
      ∀ id, id ∈ geofences.foldl (fun inside g =>
        if geofenceContains haversineMeters g p.latitude p.longitude ∧ g.id ∉ inside then
          inside ++ [g.id] else inside) inside ↔ id ∈ inside ∨ ∃ g ∈ geofences, g.id = id ∧
            geofenceContains haversineMeters g p.latitude p.longitude = true := by
    induction geofences with
    | nil =>
      intro inside hnodup
      simp [hnodup]
    | cons g geofences ih =>
      intro inside hnodup
      rw [List.foldl_cons]
      by_cases hin : geofenceContains haversineMeters g p.latitude p.longitude ∧ g.id ∉ inside
      · rw [if_pos hin]
        have hnodup' : (inside ++ [g.id]).Nodup := by
          rw [List.nodup_append]
          refine ⟨hnodup, List.nodup_singleton _, fun a ha b hb hab => ?_⟩
          rw [List.mem_singleton.mp hb] at hab
          exact hin.2 (hab ▸ ha)
        obtain ⟨hnodup'', hmem⟩ := ih _ hnodup'
        refine ⟨hnodup'', fun id => ?_⟩
        rw [hmem, List.mem_append, List.mem_singleton, or_assoc]
        refine or_congr_right ?_
        rw [List.exists_mem_cons_iff]
        refine or_congr_left ?_
        constructor
        · intro heq
          exact ⟨heq.symm, hin.1⟩
        · intro h
          exact h.1.symm
      · rw [if_neg hin]
        obtain ⟨hnodup', hmem⟩ := ih _ hnodup
        refine ⟨hnodup', fun id => ?_⟩
        rw [hmem, List.exists_mem_cons_iff, ← or_assoc]
        refine or_congr_left ?_
        constructor
        · exact Or.inl
        · intro h
          rcases h with h | ⟨rfl, hcontains⟩
          · exact h
          · by_contra hnot
            exact hin ⟨hcontains, hnot⟩
  obtain ⟨hnodup, hmem⟩ := hfold [] List.nodup_nil
  refine ⟨hnodup, fun id => ?_⟩
  rw [geofencesContaining, hmem]
  simp

/-- What a device is remembered to be inside of. -/
def insideOf (haversineMeters : Distance) (past : List EngineCall) (deviceId : String) :
    List String :=
  (lastOf (Evaluation.inside haversineMeters) deviceId past).getD []

theorem nodup_insideOf : (insideOf haversineMeters past deviceId).Nodup := by
  unfold insideOf lastOf
  cases hlast : ((evaluationsOf deviceId past).filterMap
      (Evaluation.inside haversineMeters)).head? with
  | none => exact List.nodup_nil
  | some inside =>
    obtain ⟨e, -, he⟩ := List.mem_filterMap.mp (List.mem_of_head? hlast)
    unfold Evaluation.inside at he
    split at he
    · cases he
      exact (geofencesContaining_spec _ _).1
    · cases he

/-- The alert says that the device has entered or left the geofence. -/
def crossing (deviceId geofenceId : String) (ev : AlertEvent) : Option AlertType :=
  if ev.deviceId = deviceId ∧ ev.geofenceId = some geofenceId then some ev.type else none

/-- What was said about a device and a geofence, oldest first. -/
def crossings (haversineMeters : Distance) (deviceId geofenceId : String)
    (past : List EngineCall) : List AlertType :=
  (emitted haversineMeters past).filterMap (crossing deviceId geofenceId)

/-- One alert about each geofence of a list. -/
theorem filterMap_crossing (pos : Position) (type : AlertType) (message : String → String)
    {ids : List String} (hids : ids.Nodup) {geofenceId : String} :
    (ids.map fun id => emitAlert pos type (message id) (some id)).filterMap
        (crossing pos.deviceId geofenceId) = if geofenceId ∈ ids then [type] else [] := by
  induction ids with
  | nil => rfl
  | cons id ids ih =>
    rw [List.nodup_cons] at hids
    rw [List.map_cons, List.filterMap_cons, ih hids.2]
    by_cases hid : id = geofenceId
    · subst hid
      simp [crossing, emitAlert, hids.1]
    · have hne : ¬ geofenceId = id := fun heq => hid heq.symm
      simp [crossing, emitAlert, hid, hne]

/-- At a position of the device: an enter if it was not remembered inside, an exit if it was. -/
theorem filterMap_fenceEvents {e : Evaluation} {geofenceId : String} :
    (historyEvents haversineMeters past (.evaluate e)).filterMap
        (crossing e.pos.deviceId geofenceId) =
      match e.inside haversineMeters with
      | none => []
      | some inside =>
        if geofenceId ∈ inside then
          if geofenceId ∈ insideOf haversineMeters past e.pos.deviceId then [] else [.geofence_enter]
        else if geofenceId ∈ insideOf haversineMeters past e.pos.deviceId then [.geofence_exit]
        else [] := by
  -- events of the other rules cross no fence
  have hover : (overspeedEvents past e).filterMap (crossing e.pos.deviceId geofenceId) = [] := by
    unfold overspeedEvents
    split
    · rfl
    · split
      · simp [crossing, emitAlert]
      · rfl
  have hon : (ignitionEvents past e).filterMap (crossing e.pos.deviceId geofenceId) = [] := by
    unfold ignitionEvents
    split
    · rfl
    · split
      · simp [crossing, emitAlert]
      · rfl
  rw [historyEvents, List.filterMap_append, List.filterMap_append, hover, hon]
  unfold fenceEvents
  cases hinside : e.inside haversineMeters with
  | none => rfl
  | some inside =>
    -- each fence is listed once before and after, so it is crossed at most once
    have hnodup : inside.Nodup := by
      unfold Evaluation.inside at hinside
      split at hinside
      · cases hinside
        exact (geofencesContaining_spec _ _).1
      · cases hinside
    have hbefore := @nodup_insideOf haversineMeters past e.pos.deviceId
    unfold insideOf at hbefore ⊢
    simp only [List.nil_append, List.filterMap_append]
    rw [filterMap_crossing e.pos .geofence_enter (fun id => "Entered " ++ nameOf e.geofences id)
        (hnodup.filter _),
      filterMap_crossing e.pos .geofence_exit (fun id => "Left " ++ nameOf e.geofences id)
        (hbefore.filter _)]
    simp only [List.mem_filter, decide_eq_true_eq]
    by_cases hin : geofenceId ∈ inside
    · by_cases hwas : geofenceId ∈
          (lastOf (Evaluation.inside haversineMeters) e.pos.deviceId past).getD []
      · simp [hin, hwas]
      · simp [hin, hwas]
    · by_cases hwas : geofenceId ∈
          (lastOf (Evaluation.inside haversineMeters) e.pos.deviceId past).getD []
      · simp [hin, hwas]
      · simp [hin, hwas]

theorem insideOf_evaluate {e : Evaluation} (hdev : e.pos.deviceId = deviceId) :
    insideOf haversineMeters (.evaluate e :: past) deviceId =
      (e.inside haversineMeters).getD (insideOf haversineMeters past deviceId) := by
  unfold insideOf
  rw [lastOf_evaluate, if_pos hdev]
  cases e.inside haversineMeters with
  | none => rfl
  | some inside => rfl

/-- Enter, exit, enter and so on, `n` times. -/
def alternation (n : Nat) : List AlertType :=
  (List.range n).map fun k => if k % 2 = 0 then .geofence_enter else .geofence_exit

theorem alternation_succ (n : Nat) : alternation (n + 1) =
    alternation n ++ [if n % 2 = 0 then .geofence_enter else .geofence_exit] := by
  rw [alternation, List.range_succ, List.map_append]
  rfl

/-- **Enter and exit of a geofence alternate**, and a device is remembered inside of it between an
enter and the next exit. -/
theorem crossings_alternate (past : List EngineCall) (deviceId geofenceId : String) :
    ∃ n, crossings haversineMeters deviceId geofenceId past = alternation n ∧
      (geofenceId ∈ insideOf haversineMeters past deviceId ↔ n % 2 = 1) := by
  induction past with
  | nil => exact ⟨0, rfl, by simp [insideOf, lastOf, evaluationsOf]⟩
  | cons c past ih =>
    obtain ⟨n, hcrossings, hinside⟩ := ih
    have hcons : crossings haversineMeters deviceId geofenceId (c :: past) =
        crossings haversineMeters deviceId geofenceId past ++
          (historyEvents haversineMeters past c).filterMap (crossing deviceId geofenceId) := by
      rw [crossings, emitted, List.filterMap_append, emittedAt_eq]
      rfl
    -- where nothing is said about the two, nothing changes
    have hquiet : (historyEvents haversineMeters past c).filterMap
          (crossing deviceId geofenceId) = [] →
        insideOf haversineMeters (c :: past) deviceId = insideOf haversineMeters past deviceId →
        ∃ n, crossings haversineMeters deviceId geofenceId (c :: past) = alternation n ∧
          (geofenceId ∈ insideOf haversineMeters (c :: past) deviceId ↔ n % 2 = 1) := by
      intro hnone hsame
      refine ⟨n, ?_, ?_⟩
      · rw [hcons, hnone, List.append_nil, hcrossings]
      · rw [hsame, hinside]
    cases c with
    | sweepOffline nowMs config =>
      apply hquiet
      · apply List.filterMap_eq_nil_iff.mpr
        intro ev hev
        obtain ⟨id, -, hid⟩ := List.mem_filterMap.mp hev
        have hfence := (of_offlineEvent hid).2.2.1
        simp [crossing, hfence]
      · rfl
    | evaluate e =>
      by_cases hdev : e.pos.deviceId = deviceId
      · subst hdev
        rw [filterMap_fenceEvents] at hcons hquiet
        have hnow := @insideOf_evaluate haversineMeters past _ e rfl
        cases hfences : e.inside haversineMeters with
        | none =>
          rw [hfences] at hnow hquiet
          exact hquiet rfl hnow
        | some inside =>
          rw [hfences] at hnow hcons
          rw [hcons, hnow, hcrossings]
          simp only [Option.getD_some]
          by_cases hin : geofenceId ∈ inside
          · by_cases hwas : geofenceId ∈ insideOf haversineMeters past e.pos.deviceId
            · exact ⟨n, by simp [hin, hwas], by simp [hin, hinside.mp hwas]⟩
            · have heven : n % 2 = 0 := by
                have := mt hinside.mpr hwas
                omega
              refine ⟨n + 1, ?_, ?_⟩
              · simp [hin, hwas, alternation_succ, heven]
              · simp only [hin, true_iff]
                omega
          · by_cases hwas : geofenceId ∈ insideOf haversineMeters past e.pos.deviceId
            · have hodd : n % 2 = 1 := hinside.mp hwas
              refine ⟨n + 1, ?_, ?_⟩
              · simp [hin, hwas, alternation_succ, hodd]
              · simp only [hin, false_iff]
                omega
            · refine ⟨n, by simp [hin, hwas], ?_⟩
              rw [← hinside]
              simp [hin, hwas]
      · apply hquiet
        · apply List.filterMap_eq_nil_iff.mpr
          intro ev hev
          simp [crossing, deviceId_of_evaluate hev, hdev]
        · unfold insideOf
          rw [lastOf_evaluate, if_neg hdev]

/-! ## Offline alerts -/

/-- What was emitted since the last position of a device. -/
def emittedSince (haversineMeters : Distance) (deviceId : String) :
    List EngineCall → List AlertEvent
  | [] => []
  | .evaluate e :: past =>
    if e.pos.deviceId = deviceId then []
    else emittedSince haversineMeters deviceId past ++
      emittedAt haversineMeters past (.evaluate e)
  | .sweepOffline nowMs config :: past =>
    emittedSince haversineMeters deviceId past ++
      emittedAt haversineMeters past (.sweepOffline nowMs config)

/-- The alert says that the device is offline. -/
def AlertEvent.saysOffline (deviceId : String) (ev : AlertEvent) : Bool :=
  ev.type = .device_offline ∧ ev.deviceId = deviceId

/-- A sweep says that a device is offline exactly if the device is due. -/
theorem saysOffline_at_sweep {nowMs : Nat} {config : AlertConfig} :
    (∃ ev ∈ emittedAt haversineMeters past (.sweepOffline nowMs config),
      ev.saysOffline deviceId = true) ↔
      (offlineEvent past nowMs config deviceId).isSome = true := by
  rw [emittedAt_eq]
  have hfilter := @filter_historyEvents haversineMeters past deviceId
    (.sweepOffline nowMs config)
  constructor
  · intro ⟨ev, hev, hoffline⟩
    simp only [AlertEvent.saysOffline, decide_eq_true_eq] at hoffline
    have hmem : ev ∈ (offlineEvent past nowMs config deviceId).toList := by
      show ev ∈ eventsOf haversineMeters deviceId past (.sweepOffline nowMs config)
      rw [← hfilter, List.mem_filter]
      exact ⟨hev, by simp [hoffline.2]⟩
    exact Option.isSome_of_mem (Option.mem_toList.mp hmem)
  · intro hsome
    obtain ⟨ev, hev⟩ := Option.isSome_iff_exists.mp hsome
    have hmem : ev ∈ (historyEvents haversineMeters past (.sweepOffline nowMs config)).filter
        (fun ev => ev.deviceId = deviceId) := by
      rw [hfilter]
      exact Option.mem_toList.mpr hev
    obtain ⟨hid, htype, -⟩ := of_offlineEvent hev
    exact ⟨ev, List.mem_of_mem_filter hmem, by simp [AlertEvent.saysOffline, hid, htype]⟩

/-- The alert is given once the device is silent for too long and was not given yet. -/
theorem offlineEvent_isSome {nowMs : Nat} {config : AlertConfig} {last : Evaluation}
    (hlast : (evaluationsOf deviceId past).head? = some last) :
    (offlineEvent past nowMs config deviceId).isSome = true ↔
      silentFor last.nowMs nowMs config = true ∧
        alertedOffline deviceId last.nowMs past = false := by
  obtain ⟨first, hfirst⟩ := Option.isSome_iff_exists.mp
    (List.getLast?_isSome.mpr (List.ne_nil_of_mem (List.mem_of_head? hlast)))
  simp only [offlineEvent, hlast, hfirst, Option.bind_eq_bind, Option.bind_some]
  split
  case isTrue h => simp [h]
  case isFalse h => simpa using h

/-- A sweep has found the threshold exceeded exactly if it was said that the device is offline. -/
theorem alertedOffline_iff {last : Evaluation}
    (hlast : (evaluationsOf deviceId past).head? = some last) :
    alertedOffline deviceId last.nowMs past = true ↔
      ∃ ev ∈ emittedSince haversineMeters deviceId past, ev.saysOffline deviceId = true := by
  -- induction on the history, back to the last evaluation of the device
  induction past with
  | nil => cases hlast
  | cons c past ih =>
    cases c with
    | evaluate e =>
      by_cases hdev : e.pos.deviceId = deviceId
      · simp [alertedOffline, emittedSince, hdev]
      -- an evaluation of another device says nothing about this one
      · rw [evaluationsOf, if_neg hdev] at hlast
        have hother : ¬ ∃ ev ∈ emittedAt haversineMeters past (.evaluate e),
            ev.saysOffline deviceId = true := by
          intro ⟨ev, hev, hoffline⟩
          rw [emittedAt_eq] at hev
          simp [AlertEvent.saysOffline, deviceId_of_evaluate hev, hdev] at hoffline
        have halerted : alertedOffline deviceId last.nowMs (.evaluate e :: past) =
            alertedOffline deviceId last.nowMs past := by
          simp [alertedOffline, hdev]
        rw [halerted, ih hlast]
        simp only [emittedSince, hdev, if_false, List.mem_append, or_and_right, exists_or]
        exact (or_iff_left hother).symm
    | sweepOffline nowMs config =>
      have hpast : (evaluationsOf deviceId past).head? = some last := hlast
      simp only [alertedOffline, emittedSince, List.mem_append, or_and_right, exists_or,
        saysOffline_at_sweep, offlineEvent_isSome hpast, ← ih hpast, Bool.or_eq_true]
      cases alertedOffline deviceId last.nowMs past with
      | true => simp
      | false => simp

end Devices

/-! ## The engine and its history -/

/-- What holds of the engine after any calls, for any distance. -/
structure HistoryLaws (haversineMeters : Distance) (past : List EngineCall) : Prop where
  -- Every next call emits what the calls before it say.
  exact : ∀ c, emittedAt haversineMeters past c = historyEvents haversineMeters past c
  -- That a sweep has found the threshold exceeded is that the alert was given.
  offline : ∀ deviceId last, (evaluationsOf deviceId past).head? = some last →
    (alertedOffline deviceId last.nowMs past = true ↔
      ∃ ev ∈ emittedSince haversineMeters deviceId past, ev.saysOffline deviceId = true)
  -- The alerts of a device are those of its own positions and the sweeps.
  own : ∀ deviceId, (emitted haversineMeters past).filter (fun ev => ev.deviceId = deviceId) =
    (emitted haversineMeters (past.filter (EngineCall.concerns deviceId))).filter
      fun ev => ev.deviceId = deviceId
  -- Enter and exit of a geofence alternate, beginning with an enter.
  alternate : ∀ deviceId geofenceId, ∃ n,
    crossings haversineMeters deviceId geofenceId past = alternation n

/-- **The alert engine equals its history specification**: after any calls, with configurations and
geofences that may differ from call to call. -/
theorem engine_history (haversineMeters : Distance) (past : List EngineCall) :
    HistoryLaws haversineMeters past where
  exact c := emittedAt_eq past c
  offline _ _ hlast := alertedOffline_iff hlast
  own deviceId := emitted_filter past deviceId
  alternate deviceId geofenceId := by
    obtain ⟨n, hcrossings, -⟩ :=
      @crossings_alternate haversineMeters past deviceId geofenceId
    exact ⟨n, hcrossings⟩

end FleetTracking.ControlPlane
