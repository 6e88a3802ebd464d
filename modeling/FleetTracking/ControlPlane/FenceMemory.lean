import FleetTracking.ControlPlane.AlertHistory

/-!
# Remembered Geofences

The engine remembers inside which geofences a device is, so as to tell what it enters and leaves.
It looks at the geofences only if the tenant has any: when the last one is deleted, what was
remembered stays.

1. `Accurate`: after a position, what is remembered is what contains it, and what was entered and
   does not contain it any more was left.
2. `fences_accurate_iff`: so it is, all along, exactly if no position of a device that is remembered
   inside a geofence is evaluated against none.
-/

namespace FleetTracking.ControlPlane

section Fences

variable {haversineMeters : Distance} {past : List EngineCall} {e : Evaluation}

/-- `insideGeofences` of a device. -/
def remembered (haversineMeters : Distance) (past : List EngineCall) (deviceId : String) :
    List String :=
  match (AlertEngine.after haversineMeters past).state.get deviceId with
  | some st => st.insideGeofences
  | none => []

/-- After the position: the device is remembered inside the geofences that contain it, and each
other one that it was said to have entered it was then said to have left. -/
structure Accurate (haversineMeters : Distance) (past : List EngineCall) (e : Evaluation) :
    Prop where
  inside : remembered haversineMeters (.evaluate e :: past) e.pos.deviceId =
    geofencesContaining haversineMeters e.geofences e.pos
  left : ∀ id, .geofence_enter ∈ crossings haversineMeters e.pos.deviceId id (.evaluate e :: past) →
    id ∉ geofencesContaining haversineMeters e.geofences e.pos →
      (crossings haversineMeters e.pos.deviceId id (.evaluate e :: past)).getLast? =
        some .geofence_exit

/-- There are geofences, or the device is not remembered inside any. -/
def Evaluation.Sees (haversineMeters : Distance) (past : List EngineCall) (e : Evaluation) : Prop :=
  e.geofences ≠ [] ∨ remembered haversineMeters past e.pos.deviceId = []

theorem remembered_eq (past : List EngineCall) (deviceId : String) :
    remembered haversineMeters past deviceId = insideOf haversineMeters past deviceId := by
  unfold remembered
  rw [(engine_state past).2]
  cases hst : rememberedOf haversineMeters past deviceId with
  | none => rw [insideOf, lastOf_eq_none _ (rememberedOf_eq_none.mp hst)]; rfl
  | some st =>
    simp only [rememberedOf, Option.bind_eq_bind, Option.bind_eq_some_iff] at hst
    obtain ⟨last, -, first, -, hst⟩ := hst
    cases hst
    rfl

/-- A geofence that was entered and that the device is not inside of was left last. -/
theorem left_of_crossings {deviceId id : String}
    (hentered : .geofence_enter ∈ crossings haversineMeters deviceId id past)
    (hout : id ∉ insideOf haversineMeters past deviceId) :
    (crossings haversineMeters deviceId id past).getLast? = some .geofence_exit := by
  obtain ⟨n, hcrossings, hinside⟩ := crossings_alternate past deviceId id
  rw [hcrossings] at hentered ⊢
  have heven : n % 2 = 0 := by
    have := mt hinside.mpr hout
    omega
  cases n with
  | zero => cases hentered
  | succ n =>
    have hodd : n % 2 ≠ 0 := by omega
    rw [alternation_succ, if_neg hodd, List.getLast?_concat]

/-- With geofence alerts on, a position is followed up exactly if it is seen. -/
theorem accurate_iff (hon : e.config.geofenceAlerts = true) :
    Accurate haversineMeters past e ↔ e.Sees haversineMeters past := by
  have hnow := @insideOf_evaluate haversineMeters past _ e rfl
  have hinside : insideOf haversineMeters (.evaluate e :: past) e.pos.deviceId =
      geofencesContaining haversineMeters e.geofences e.pos ↔ e.Sees haversineMeters past := by
    rw [hnow, Evaluation.Sees, remembered_eq, Evaluation.inside]
    by_cases hfences : e.geofences = []
    · simp [hfences, geofencesContaining]
    · simp [hon, hfences]
  constructor
  · intro h
    rw [← hinside, ← remembered_eq]
    exact h.inside
  · intro hsees
    refine ⟨?_, fun id hentered hout => ?_⟩
    · rw [remembered_eq]
      exact hinside.mpr hsees
    · rw [← hinside.mpr hsees] at hout
      exact left_of_crossings hentered hout

/-- **Remembered geofences are accurate** after every position of a run with geofence alerts on,
whatever geofences there are at each of them, exactly if every position of a device that is
remembered inside a geofence is evaluated against some. -/
theorem fences_accurate_iff (haversineMeters : Distance) (calls : List EngineCall)
    (hon : ∀ e, .evaluate e ∈ calls → e.config.geofenceAlerts = true) :
    (∀ e past, .evaluate e :: past <:+ calls → Accurate haversineMeters past e) ↔
      ∀ e past, .evaluate e :: past <:+ calls → e.Sees haversineMeters past := by
  have hiff : ∀ e past, .evaluate e :: past <:+ calls →
      (Accurate haversineMeters past e ↔ e.Sees haversineMeters past) := by
    intro e past hsuffix
    apply accurate_iff
    exact hon e (hsuffix.subset List.mem_cons_self)
  constructor
  · intro h e past hsuffix
    exact (hiff e past hsuffix).mp (h e past hsuffix)
  · intro h e past hsuffix
    exact (hiff e past hsuffix).mpr (h e past hsuffix)

/-- All places are at one point. -/
def onePlace : Distance := fun _ _ _ _ => 0

def sampleFence (id : String) : Geofence := ⟨id, "acme", id, .circle 0 0 100⟩

/-- A position of one device, evaluated against these geofences. -/
def evaluatedAgainst (geofences : List Geofence) (nowMs : Nat) : EngineCall :=
  .evaluate ⟨⟨"acme", "van", "356307042441013", "2025-01-01T00:00:00.000Z", 0, 0, 0, 0, 0, 9, none,
    []⟩, DEFAULT_ALERT_CONFIG, geofences, nowMs⟩

/-- One of two geofences is deleted. -/
theorem sample_fences_accurate : ∃ e, evaluatedAgainst [sampleFence "yard"] 2000 = .evaluate e ∧
    Accurate onePlace
      [evaluatedAgainst [sampleFence "depot", sampleFence "yard"] 1000] e := by
  refine ⟨_, rfl, (fences_accurate_iff onePlace [evaluatedAgainst [sampleFence "yard"] 2000,
    evaluatedAgainst [sampleFence "depot", sampleFence "yard"] 1000] ?_).mpr ?_ _ _
    List.suffix_rfl⟩
  · intro e hmem
    simp only [evaluatedAgainst, List.mem_cons, EngineCall.evaluate.injEq, List.not_mem_nil,
      or_false] at hmem
    rcases hmem with rfl | rfl
    · rfl
    · rfl
  · intro e past hsuffix
    left
    have hmem := hsuffix.subset List.mem_cons_self
    simp only [evaluatedAgainst, List.mem_cons, EngineCall.evaluate.injEq, List.not_mem_nil,
      or_false] at hmem
    rcases hmem with rfl | rfl
    · exact List.cons_ne_nil _ _
    · exact List.cons_ne_nil _ _

/-- **A deleted geofence is never left.** The device is inside the only geofence when it is deleted;
at the next position nothing is said, and the device is still remembered inside. -/
theorem last_fence_deleted : ∃ e,
    e.config.geofenceAlerts = true ∧
    evaluatedAgainst [] 2000 = .evaluate e ∧
    ¬ Accurate onePlace [evaluatedAgainst [sampleFence "depot"] 1000] e ∧
    crossings onePlace "van" "depot"
      [evaluatedAgainst [] 2000, evaluatedAgainst [sampleFence "depot"] 1000] =
        [.geofence_enter] := by
  refine ⟨_, rfl, rfl, fun h => ?_, by decide +kernel⟩
  have hinside := h.inside
  have hfalse : remembered onePlace [evaluatedAgainst [] 2000,
      evaluatedAgainst [sampleFence "depot"] 1000] "van" ≠ [] := by
    decide +kernel
  exact hfalse hinside

end Fences

end FleetTracking.ControlPlane
