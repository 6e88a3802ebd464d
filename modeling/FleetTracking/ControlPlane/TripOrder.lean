import FleetTracking.ControlPlane.TripSegmentation

/-!
# Trips of Positions in Any Order

Trackers resend old records, so the positions of a device need not come in the order of their
times. The detector compares a position with the beginning of the stop it is in, but not with the
beginning of the trip.

1. `Trip.Forward`: a trip that does not end before it starts.
2. `mem_feed`: each trip is returned at one position of the stream.
3. `trips_forward_iff`: when all trips are forward.
-/

namespace FleetTracking.ControlPlane

/-- `minutes` of the reports: the duration of a trip. -/
def minutes (fromTs toTs : String) : Int :=
  JsNumber.mathRound ((msOf toTs - msOf fromTs) / 60000)

/-- A trip that does not end before it starts. -/
def Trip.Forward (t : Trip) : Prop := msOf t.startTs ≤ msOf t.endTs

/-- The duration of such a trip is not negative. -/
theorem minutes_nonneg {t : Trip} (h : t.Forward) : 0 ≤ minutes t.startTs t.endTs := by
  unfold Trip.Forward at h
  rw [minutes, JsNumber.mathRound]
  apply Rat.le_floor_iff.mpr
  have hdiff : 0 ≤ msOf t.endTs - msOf t.startTs := sub_nonneg.mpr h
  push_cast
  linarith

/-- A position ends a trip before the trip starts: the stop it is in began so long before the
first position of the trip that it ends the trip although it is itself older than that one. -/
def ClosesBeforeStart (opts : TripDetectorOptions) (st : TripState) (pos : Position) : Prop :=
  ∃ since : Int, st.mode = .moving ∧ st.stoppedSinceMs = some (some since) ∧ IsSlow opts pos ∧
    since + opts.stopMinSec * 1000 ≤ pos.ms ∧ pos.ms < msOf st.startTs

variable {haversineMeters : Distance} {opts : TripDetectorOptions}

/-- **One position**: a trip that it ends is forward unless it ends it before its start. -/
theorem update_forward {o : Option TripState} {pos : Position}
    (hparse : (JsDate.parse pos.ts).isSome = true) :
    (∀ t, (TripState.update haversineMeters opts o pos).2 = some t → t.Forward) ↔
      ∀ st, o = some st → ¬ ClosesBeforeStart opts st pos := by
  obtain ⟨now, hnow⟩ := Option.isSome_iff_exists.mp hparse
  have hms : pos.ms = now := by rw [Position.ms, hnow, Option.getD_some]
  cases o with
  | none => simp [TripState.update]
  | some st =>
    simp only [Option.some.injEq, forall_eq']
    cases hmode : st.mode with
    | idle => simp [TripState.update, hmode, ClosesBeforeStart]
    | moving =>
      by_cases hslow : pos.speedKph ≤ opts.stopSpeedKph
      · have hsince : (st.extend haversineMeters pos).stoppedSinceMs = st.stoppedSinceMs := rfl
        cases hstop : st.stoppedSinceMs with
        | none => simp [TripState.update, hmode, hslow, hsince, hstop, ClosesBeforeStart]
        | some sinceMs =>
          cases sinceMs with
          | none =>
            -- no number is at least as large as `NaN`
            simp [TripState.update, hmode, hslow, hsince, hstop, ClosesBeforeStart,
              stoppedLongEnough]
          | some since =>
            have hlong : stoppedLongEnough opts (JsDate.parse pos.ts) (some since) = true ↔
                since + opts.stopMinSec * 1000 ≤ pos.ms := by
              rw [hnow, stoppedLongEnough, decide_eq_true_iff, hms]
              push_cast
              exact ⟨fun h => by linarith, fun h => by linarith⟩
            have hcloses : ClosesBeforeStart opts st pos ↔
                since + opts.stopMinSec * 1000 ≤ pos.ms ∧ pos.ms < msOf st.startTs := by
              simp [ClosesBeforeStart, hmode, hstop, IsSlow, hslow]
            rw [hcloses, ← hlong]
            simp only [TripState.update, hmode, if_pos hslow, hsince, hstop]
            by_cases hend : stoppedLongEnough opts (JsDate.parse pos.ts) (some since) = true
            · rw [if_pos hend]
              simp only [Option.some.injEq, forall_eq', hend, true_and, not_lt]
              rfl
            · simp [hend]
      · simp [TripState.update, hmode, hslow, ClosesBeforeStart, IsSlow]

/-- Each trip is returned at one position of the stream. -/
theorem mem_feed (det : TripDetector) (stream : List Position) (t : Trip) :
    t ∈ (det.feed haversineMeters opts stream).2 ↔ ∃ before pos after,
      stream = before ++ pos :: after ∧
        (((det.feed haversineMeters opts before).1).update haversineMeters opts pos).2 =
          some t := by
  induction stream generalizing det with
  | nil => simp [TripDetector.feed]
  | cons p ps ih =>
    rw [TripDetector.feed, List.mem_append, Option.mem_toList, ih]
    constructor
    · rintro (hnow | ⟨before, pos, after, rfl, hlater⟩)
      · exact ⟨[], p, ps, rfl, hnow⟩
      · exact ⟨p :: before, pos, after, rfl, hlater⟩
    · rintro ⟨before, pos, after, hsplit, ht⟩
      cases before with
      | nil =>
        obtain ⟨rfl, rfl⟩ := List.cons.inj hsplit
        exact Or.inl ht
      | cons q before =>
        obtain ⟨rfl, rfl⟩ := List.cons.inj hsplit
        exact Or.inr ⟨before, pos, after, rfl, ht⟩

/-- **Trips of positions in any order**: all trips are forward, and their durations not negative,
iff no position ends a trip before the trip starts. -/
theorem trips_forward_iff (haversineMeters : Distance) (opts : TripDetectorOptions)
    (stream : List Position) (hparse : ∀ p ∈ stream, (JsDate.parse p.ts).isSome = true) :
    (∀ t ∈ (TripDetector.new.feed haversineMeters opts stream).2,
      t.Forward ∧ 0 ≤ minutes t.startTs t.endTs) ↔
    ∀ before pos after, stream = before ++ pos :: after →
      ∀ st, (TripDetector.new.feed haversineMeters opts before).1.state.get pos.deviceId =
        some st → ¬ ClosesBeforeStart opts st pos := by
  -- one position at a time: its trip runs forward unless it closes before the start
  have hstep : ∀ before pos after, stream = before ++ pos :: after →
      ((∀ t, (((TripDetector.new.feed haversineMeters opts before).1).update haversineMeters opts
        pos).2 = some t → t.Forward) ↔
      ∀ st, (TripDetector.new.feed haversineMeters opts before).1.state.get pos.deviceId =
        some st → ¬ ClosesBeforeStart opts st pos) := by
    intro before pos after hsplit
    apply update_forward
    apply hparse
    rw [hsplit]
    exact List.mem_append_right _ List.mem_cons_self
  constructor
  · intro hall before pos after hsplit
    apply (hstep before pos after hsplit).mp
    intro t ht
    exact (hall t ((mem_feed _ _ _).mpr ⟨before, pos, after, hsplit, ht⟩)).1
  · intro hnever t ht
    obtain ⟨before, pos, after, hsplit, ht⟩ := (mem_feed _ _ _).mp ht
    have hforward := (hstep before pos after hsplit).mpr (hnever before pos after hsplit) t ht
    exact ⟨hforward, minutes_nonneg hforward⟩

/-- A drive, and then two records from before it that were buffered while the vehicle stood. -/
def bufferedRecords : List Position :=
  let fix := fun (ts : String) (speedKph : ℚ) =>
    { tenantId := "acme", deviceId := "van", imei := "350000000000001", ts := ts, latitude := 19
      longitude := -81, altitude := 0, heading := 0, speedKph := speedKph, satellites := 8
      ignition := none, attrs := [] : Position }
  [fix "2026-07-24T10:00:30.000Z" 40, fix "2026-07-24T09:00:00.000Z" 0,
    fix "2026-07-24T09:05:00.000Z" 0]

theorem buffered_forward_iff :
    (∀ t ∈ (TripDetector.new.feed (fun _ _ _ _ => 250) { } bufferedRecords).2,
      t.Forward ∧ 0 ≤ minutes t.startTs t.endTs) ↔
    ∀ before pos after, bufferedRecords = before ++ pos :: after →
      ∀ st, (TripDetector.new.feed (fun _ _ _ _ => 250) { } before).1.state.get pos.deviceId =
        some st → ¬ ClosesBeforeStart { } st pos :=
  trips_forward_iff _ _ bufferedRecords (by decide +kernel)

/-- The trip of that drive ends almost an hour before it starts. -/
theorem trip_ends_before_start : ∃ stream : List Position,
    (∀ p ∈ stream, (JsDate.parse p.ts).isSome = true) ∧
      ∃ t ∈ (TripDetector.new.feed (fun _ _ _ _ => 250) { } stream).2,
        msOf t.endTs < msOf t.startTs ∧ minutes t.startTs t.endTs = -55 :=
  ⟨bufferedRecords, by decide +kernel, by decide +kernel⟩

end FleetTracking.ControlPlane
