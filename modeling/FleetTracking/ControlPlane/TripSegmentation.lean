import FleetTracking.ControlPlane.TripDetector
import FleetTracking.Lib.Segments
import Mathlib.Data.List.DropRight

/-!
# Trips as a Segmentation of the Positions

The trip detector looks at one position at a time. What it returns for a device is the greedy
segmentation of that device's own positions.

1. `IsStart`, `ClosesTrip`, `tripOf`: where a trip starts and ends, and what it carries.
2. `Represents`: the state of the detector while a segment is open.
3. `feed_own`: of a stream, the detector sees for each device its own positions.
4. `trips_segmented`: the trips of a device are those of its segments.
-/

namespace FleetTracking.ControlPlane

open Segments

section Segmentation

variable (haversineMeters : Distance) (opts : TripDetectorOptions)

/-! ## The reference -/

/-- A trip may start at this position. -/
def IsStart (p : Position) : Prop := opts.moveSpeedKph ≤ p.speedKph

/-- The vehicle counts as stopped. -/
def IsSlow (p : Position) : Prop := p.speedKph ≤ opts.stopSpeedKph

/-- The time of a position, in milliseconds; all timestamps here can be parsed. -/
def Position.ms (p : Position) : ℚ := (((JsDate.parse p.ts).getD 0 : Int) : ℚ)

/-- The last positions form a stop that is long enough. -/
def ClosesTrip (seg : List Position) : Prop :=
  ∃ before run first last, seg = before ++ run ∧ (∀ p ∈ run, IsSlow opts p) ∧
    run.head? = some first ∧ run.getLast? = some last ∧
      opts.stopMinSec * 1000 ≤ last.ms - first.ms

/-- The sum of the distances between consecutive positions. -/
def pathLength : Position → List Position → ℚ
  | _, [] => 0
  | p, q :: rest =>
    haversineMeters p.latitude p.longitude q.latitude q.longitude + pathLength q rest

/-- The maximum of the speeds. -/
def topSpeed (p : Position) (rest : List Position) : ℚ :=
  (rest.map Position.speedKph).foldl max p.speedKph

/-- The trip of a segment. -/
def tripOf : List Position → Option Trip
  | [] => none
  | start :: rest =>
    let last := rest.getLastD start
    some
      { tenantId := last.tenantId, deviceId := last.deviceId, startTs := start.ts, endTs := last.ts
        distanceM := JsNumber.mathRound (pathLength haversineMeters start rest)
        maxSpeedKph := topSpeed start rest, points := (start :: rest).length }

/-! ## The detector on a stream -/

/-- Feed a stream of positions. -/
def TripDetector.feed (det : TripDetector) : List Position → TripDetector × List Trip
  | [] => (det, [])
  | p :: ps =>
    let out := det.update haversineMeters opts p
    let rest := TripDetector.feed out.1 ps
    (rest.1, out.2.toList ++ rest.2)

/-- Feed the positions of one device. -/
def TripState.feed (st : Option TripState) : List Position → List Trip
  | [] => []
  | p :: ps =>
    let out := TripState.update haversineMeters opts st p
    out.2.toList ++ TripState.feed (some out.1) ps

/-- The trips returned for a device. -/
def tripsOf (stream : List Position) (deviceId : String) : List Trip :=
  (TripDetector.new.feed haversineMeters opts stream).2.filter fun t => t.deviceId = deviceId

/-- The positions of a device. -/
def ownPositions (stream : List Position) (deviceId : String) : List Position :=
  stream.filter fun p => p.deviceId = deviceId

end Segmentation

section Proofs

variable {haversineMeters : Distance} {opts : TripDetectorOptions}

/-- A trip is returned for the device of the position that ends it. -/
theorem deviceId_of_update {st : TripState} {o : Option TripState} {pos : Position} {t : Trip}
    (h : TripState.update haversineMeters opts o pos = (st, some t)) :
    t.deviceId = pos.deviceId := by
  unfold TripState.update at h
  split at h
  · cases h
  · split at h
    · cases h
    · simp only at h
      split at h
      · split at h
        · cases h
        · split at h
          · cases h
            rfl
          · cases h
      · cases h

/-- **Devices do not mix**: of a stream the detector sees for each device its own positions. -/
theorem feed_own (det : TripDetector) (stream : List Position) (deviceId : String) :
    (det.feed haversineMeters opts stream).2.filter (fun t => t.deviceId = deviceId) =
      TripState.feed haversineMeters opts (det.state.get deviceId)
        (ownPositions stream deviceId) := by
  induction stream generalizing det with
  | nil => rfl
  | cons p ps ih =>
    have hout : ∀ t ∈ (det.update haversineMeters opts p).2, t.deviceId = p.deviceId := by
      intro t ht
      apply deviceId_of_update
      exact Prod.ext rfl ht
    rw [TripDetector.feed]
    simp only [List.filter_append, ih]
    -- a position moves the state of its own device alone
    by_cases hdev : p.deviceId = deviceId
    · have hown : ownPositions (p :: ps) deviceId = p :: ownPositions ps deviceId := by
        simp [ownPositions, hdev]
      have hkeep : (det.update haversineMeters opts p).2.toList.filter
          (fun t => t.deviceId = deviceId) = (det.update haversineMeters opts p).2.toList := by
        apply List.filter_eq_self.mpr
        intro t ht
        simp [hout t (Option.mem_toList.mp ht), hdev]
      rw [hown, hkeep, TripState.feed]
      subst hdev
      simp [TripDetector.update]
    · have hown : ownPositions (p :: ps) deviceId = ownPositions ps deviceId := by
        simp [ownPositions, hdev]
      have hdrop : (det.update haversineMeters opts p).2.toList.filter
          (fun t => t.deviceId = deviceId) = [] := by
        apply List.filter_eq_nil_iff.mpr
        intro t ht
        simp [hout t (Option.mem_toList.mp ht), hdev]
      rw [hown, hdrop, List.nil_append, TripDetector.update,
        JsMap.get_set_of_ne _ _ fun h => hdev h.symm]

/-! ## While a segment is open -/

/-- The stop at the end of a segment: its longest slow end. -/
def slowEnd (opts : TripDetectorOptions) (seg : List Position) : List Position :=
  seg.rtakeWhile fun p => p.speedKph ≤ opts.stopSpeedKph

/-- The state of the detector after the positions of an open segment. -/
structure Represents (haversineMeters : Distance) (opts : TripDetectorOptions) (st : TripState)
    (start : Position) (rest : List Position) : Prop where
  mode : st.mode = .moving
  startTs : st.startTs = start.ts
  lastLat : st.lastLat = (rest.getLastD start).latitude
  lastLon : st.lastLon = (rest.getLastD start).longitude
  distanceM : st.distanceM = pathLength haversineMeters start rest
  maxSpeedKph : st.maxSpeedKph = topSpeed start rest
  points : st.points = (start :: rest).length
  stoppedSinceMs : st.stoppedSinceMs =
    (slowEnd opts (start :: rest)).head?.map fun p => JsDate.parse p.ts

theorem pathLength_concat (p : Position) (rest : List Position) (q : Position) :
    pathLength haversineMeters p (rest ++ [q]) = pathLength haversineMeters p rest +
      haversineMeters (rest.getLastD p).latitude (rest.getLastD p).longitude q.latitude
        q.longitude := by
  induction rest generalizing p with
  | nil => simp [pathLength]
  | cons r rest ih =>
    rw [List.cons_append, pathLength, ih, pathLength, List.getLastD_cons, add_assoc]

theorem topSpeed_concat (p : Position) (rest : List Position) (q : Position) :
    topSpeed p (rest ++ [q]) = max (topSpeed p rest) q.speedKph := by
  simp [topSpeed, List.foldl_append]

/-- The first position of a stop, after one more position. -/
theorem slowEnd_concat (seg : List Position) (q : Position) :
    slowEnd opts (seg ++ [q]) =
      if q.speedKph ≤ opts.stopSpeedKph then slowEnd opts seg ++ [q] else [] := by
  unfold slowEnd
  by_cases hq : q.speedKph ≤ opts.stopSpeedKph
  · rw [List.rtakeWhile_concat_pos _ _ _ (by simpa using hq), if_pos hq]
  · rw [List.rtakeWhile_concat_neg _ _ _ (by simpa using hq), if_neg hq]

/-- A slow end of a segment is part of its longest one. -/
theorem slowEnd_append (before : List Position) {run : List Position}
    (hrun : ∀ p ∈ run, IsSlow opts p) : slowEnd opts (before ++ run) = slowEnd opts before ++ run := by
  have hall : ∀ p ∈ run.reverse, decide (p.speedKph ≤ opts.stopSpeedKph) = true := by
    intro p hp
    simpa [IsSlow] using hrun p (List.mem_reverse.mp hp)
  rw [slowEnd, List.rtakeWhile, List.reverse_append, List.takeWhile_append_of_pos hall,
    List.reverse_append, List.reverse_reverse]
  rfl

/-- Positions come in the order of their times. -/
def InOrder (ps : List Position) : Prop := ps.Pairwise fun p q => p.ms ≤ q.ms

/-- A position closes a trip if the stop that it is part of is long enough. -/
theorem closesTrip_iff {seg : List Position} {q : Position} (horder : InOrder (seg ++ [q])) :
    ClosesTrip opts (seg ++ [q]) ↔ IsSlow opts q ∧
      ∃ first, (slowEnd opts seg ++ [q]).head? = some first ∧
        opts.stopMinSec * 1000 ≤ q.ms - first.ms := by
  constructor
  · intro ⟨before, run, first, last, hseg, hslow, hfirst, hlast, hlong⟩
    -- the run ends with q, so what stands before it is slow throughout
    obtain ⟨front, rfl⟩ := List.getLast?_eq_some_iff.mp hlast
    rw [← List.append_assoc] at hseg
    obtain ⟨rfl, heq⟩ := List.append_inj' hseg rfl
    obtain rfl := (List.cons.inj heq).1
    refine ⟨hslow q (by simp), ?_⟩
    rw [slowEnd_append before fun p hp => hslow p (List.mem_append_left _ hp), List.append_assoc]
    -- the slow end may reach further back than the run: its first position is older still
    cases hstop : slowEnd opts before with
    | nil => exact ⟨first, hfirst, hlong⟩
    | cons p stop =>
      refine ⟨p, rfl, ?_⟩
      have hp : p ∈ before := (List.rtakeWhile_suffix ..).subset
        (show p ∈ before.rtakeWhile _ from hstop ▸ List.mem_cons_self)
      have hle : p.ms ≤ first.ms := by
        rw [List.append_assoc] at horder
        exact (List.pairwise_append.mp horder).2.2 p hp first (List.mem_of_head? hfirst)
      linarith
  · intro ⟨hq, first, hfirst, hlong⟩
    -- conversely the slow end with q behind it is such a run
    obtain ⟨before, hbefore⟩ :=
      List.rtakeWhile_suffix (fun p : Position => decide (p.speedKph ≤ opts.stopSpeedKph)) seg
    refine ⟨before, slowEnd opts seg ++ [q], first, q, ?_, ?_, hfirst, by simp, hlong⟩
    · rw [← List.append_assoc]
      exact congrArg (· ++ [q]) hbefore.symm
    · intro p hp
      rcases List.mem_append.mp hp with hp | hp
      · simpa [IsSlow] using List.mem_rtakeWhile_imp hp
      · rw [List.mem_singleton.mp hp]
        exact hq

theorem stoppedLongEnough_iff {p q : Position} {t s : Int} (hq : JsDate.parse q.ts = some t)
    (hp : JsDate.parse p.ts = some s) :
    stoppedLongEnough opts (JsDate.parse q.ts) (JsDate.parse p.ts) = true ↔
      opts.stopMinSec * 1000 ≤ q.ms - p.ms := by
  rw [Position.ms, Position.ms, hq, hp, stoppedLongEnough]
  simp

/-- **One position of an open segment**: it closes the segment and a trip is returned, or the
segment goes on. -/
theorem update_moving {st : TripState} {start : Position} {rest : List Position} {q : Position}
    (hrep : Represents haversineMeters opts st start rest) (hpos : 0 < opts.stopMinSec)
    (horder : InOrder (start :: rest ++ [q]))
    (hparse : ∀ p ∈ start :: rest ++ [q], (JsDate.parse p.ts).isSome = true) :
    (ClosesTrip opts (start :: (rest ++ [q])) →
      (TripState.update haversineMeters opts (some st) q).2 =
        tripOf haversineMeters (start :: (rest ++ [q])) ∧
      (TripState.update haversineMeters opts (some st) q).1.mode = .idle) ∧
    (¬ ClosesTrip opts (start :: (rest ++ [q])) →
      (TripState.update haversineMeters opts (some st) q).2 = none ∧
      Represents haversineMeters opts (TripState.update haversineMeters opts (some st) q).1 start
        (rest ++ [q])) := by
  obtain ⟨t, ht⟩ := Option.isSome_iff_exists.mp (hparse q (by simp))
  have hcloses := @closesTrip_iff opts _ _ horder
  have hconcat := @slowEnd_concat opts (start :: rest) q
  -- everything but the stop goes on in the same way
  have hextend : ∀ stopped, stopped = (slowEnd opts (start :: (rest ++ [q]))).head?.map
      (fun p => JsDate.parse p.ts) → Represents haversineMeters opts
        { st.extend haversineMeters q with stoppedSinceMs := stopped } start (rest ++ [q]) := by
    intro stopped hstopped
    refine ⟨hrep.mode, hrep.startTs, ?_, ?_, ?_, ?_, ?_, hstopped⟩
    · simp [TripState.extend]
    · simp [TripState.extend]
    · simp [TripState.extend, pathLength_concat, hrep.distanceM, hrep.lastLat, hrep.lastLon]
    · simp [TripState.extend, topSpeed_concat, hrep.maxSpeedKph]
    · simp [TripState.extend, hrep.points]
  rw [List.cons_append] at hcloses hconcat
  by_cases hslow : q.speedKph ≤ opts.stopSpeedKph
  · rw [if_pos hslow] at hconcat
    cases hstop : slowEnd opts (start :: rest) with
    | nil =>
      -- the stop begins here
      have hsince : st.stoppedSinceMs = none := by rw [hrep.stoppedSinceMs, hstop]; rfl
      have hnot : ¬ ClosesTrip opts (start :: (rest ++ [q])) := by
        rw [hcloses, hstop]
        intro ⟨_, first, hfirst, hlong⟩
        cases hfirst
        rw [sub_self] at hlong
        linarith
      refine ⟨fun h => absurd h hnot, fun _ => ?_⟩
      simp only [TripState.update, hrep.mode, if_pos hslow,
        show (st.extend haversineMeters q).stoppedSinceMs = none from hsince]
      refine ⟨trivial, hextend _ ?_⟩
      rw [hconcat, hstop]
      rfl
    | cons first stop =>
      have hmem : first ∈ start :: rest := (List.rtakeWhile_suffix ..).subset
        (show first ∈ (start :: rest).rtakeWhile _ from hstop ▸ List.mem_cons_self)
      obtain ⟨s, hs⟩ := Option.isSome_iff_exists.mp (hparse first (List.mem_append_left _ hmem))
      have hsince : st.stoppedSinceMs = some (JsDate.parse first.ts) := by
        rw [hrep.stoppedSinceMs, hstop]
        rfl
      have hiff : ClosesTrip opts (start :: (rest ++ [q])) ↔
          stoppedLongEnough opts (JsDate.parse q.ts) (JsDate.parse first.ts) = true := by
        rw [hcloses, hstop, stoppedLongEnough_iff ht hs]
        simp [IsSlow, hslow]
      rw [hiff]
      simp only [TripState.update, hrep.mode, if_pos hslow,
        show (st.extend haversineMeters q).stoppedSinceMs = some (JsDate.parse first.ts) from hsince]
      refine ⟨fun hlong => ?_, fun hshort => ?_⟩
      · rw [if_pos hlong]
        refine ⟨?_, rfl⟩
        simp [tripOf, TripState.finish, TripState.extend, hrep.startTs, hrep.distanceM, hrep.lastLat,
          hrep.lastLon, hrep.maxSpeedKph, hrep.points, pathLength_concat, topSpeed_concat]
      · rw [if_neg hshort]
        refine ⟨rfl, ?_⟩
        have hgoes := hextend (some (JsDate.parse first.ts)) (by rw [hconcat, hstop]; rfl)
        rw [← hsince] at hgoes
        exact hgoes
  · rw [if_neg hslow] at hconcat
    have hnot : ¬ ClosesTrip opts (start :: (rest ++ [q])) := by
      rw [hcloses]
      exact fun h => hslow h.1
    refine ⟨fun h => absurd h hnot, fun _ => ?_⟩
    simp only [TripState.update, hrep.mode, if_neg hslow]
    refine ⟨trivial, hextend none ?_⟩
    rw [hconcat]
    rfl

/-! ## The trips of a device -/

/-- An open segment is never closed, or it is closed and a trip is returned. -/
theorem feed_moving {st : TripState} {start : Position} {rest ps : List Position}
    (hrep : Represents haversineMeters opts st start rest) (hpos : 0 < opts.stopMinSec)
    (horder : InOrder (start :: rest ++ ps))
    (hparse : ∀ p ∈ start :: rest ++ ps, (JsDate.parse p.ts).isSome = true)
    (hopen : ∀ l, l <+: rest → ¬ ClosesTrip opts (start :: l)) :
    ((∀ l, l <+: rest ++ ps → ¬ ClosesTrip opts (start :: l)) ∧
      TripState.feed haversineMeters opts (some st) ps = []) ∨
    ∃ middle stop tail st', rest ++ ps = middle ++ stop :: tail ∧
      (∀ l, l <+: middle → ¬ ClosesTrip opts (start :: l)) ∧
      ClosesTrip opts (start :: (middle ++ [stop])) ∧ st'.mode = .idle ∧
      TripState.feed haversineMeters opts (some st) ps =
        (tripOf haversineMeters (start :: (middle ++ [stop]))).toList ++
          TripState.feed haversineMeters opts (some st') tail := by
  induction ps generalizing st rest with
  | nil =>
    left
    rw [List.append_nil]
    exact ⟨hopen, rfl⟩
  | cons q ps ih =>
    have hsplit : start :: rest ++ q :: ps = start :: rest ++ [q] ++ ps := by simp
    rw [hsplit] at horder hparse
    obtain ⟨hclosed, hgoes⟩ := update_moving hrep hpos (List.pairwise_append.mp horder).1
      fun p hp => hparse p (List.mem_append_left _ hp)
    -- q closes the trip, or the trip stays open with q in it
    by_cases hcloses : ClosesTrip opts (start :: (rest ++ [q]))
    · right
      obtain ⟨htrip, hidle⟩ := hclosed hcloses
      refine ⟨rest, q, ps, _, rfl, hopen, hcloses, hidle, ?_⟩
      rw [TripState.feed, htrip]
    · obtain ⟨hnone, hrep'⟩ := hgoes hcloses
      have hopen' : ∀ l, l <+: rest ++ [q] → ¬ ClosesTrip opts (start :: l) := by
        intro l hl
        rcases List.prefix_concat_iff.mp hl with rfl | hl
        · exact hcloses
        · exact hopen l hl
      have hrest : rest ++ q :: ps = rest ++ [q] ++ ps := by simp
      rw [TripState.feed, hnone, hrest]
      exact ih hrep' horder hparse hopen'

/-- A device that is not on a trip. -/
def AtRest (st : Option TripState) : Prop := ∀ s, st = some s → s.mode = .idle

theorem represents_starting (p : Position) (h : IsStart opts p)
    (hthresholds : opts.stopSpeedKph < opts.moveSpeedKph) :
    Represents haversineMeters opts (.starting p) p [] where
  mode := rfl
  startTs := rfl
  lastLat := rfl
  lastLon := rfl
  distanceM := rfl
  maxSpeedKph := rfl
  points := rfl
  stoppedSinceMs := by
    have hfast : ¬ p.speedKph ≤ opts.stopSpeedKph := by
      unfold IsStart at h
      linarith
    have hnone := @slowEnd_concat opts [] p
    rw [if_neg hfast, List.nil_append] at hnone
    rw [hnone]
    rfl

/-- A position at which no trip starts leaves a device at rest, one at which a trip starts not. -/
theorem update_atRest {st : Option TripState} {p : Position} (hrest : AtRest st) :
    (TripState.update haversineMeters opts st p).2 = none ∧
      (IsStart opts p → (TripState.update haversineMeters opts st p).1 = .starting p) ∧
      (¬ IsStart opts p → (TripState.update haversineMeters opts st p).1.mode = .idle) := by
  unfold IsStart
  cases st with
  | none =>
    simp only [TripState.update]
    refine ⟨trivial, fun h => if_pos h, fun h => ?_⟩
    rw [if_neg h]
    rfl
  | some s =>
    have hidle := hrest s rfl
    simp only [TripState.update, hidle]
    refine ⟨trivial, fun h => if_pos h, fun h => ?_⟩
    rw [if_neg h]
    exact hidle

/-- **The trips of a device are those of the greedy segmentation of its positions.** -/
theorem feed_segmented (hthresholds : opts.stopSpeedKph < opts.moveSpeedKph)
    (hpos : 0 < opts.stopMinSec) (n : Nat) (ps : List Position) (hn : ps.length ≤ n)
    {st : Option TripState} (hrest : AtRest st) (horder : InOrder ps)
    (hparse : ∀ p ∈ ps, (JsDate.parse p.ts).isSome = true) :
    ∃ segments, Greedy (IsStart opts) (ClosesTrip opts) ps segments ∧
      TripState.feed haversineMeters opts st ps =
        segments.filterMap (tripOf haversineMeters) := by
  induction n generalizing ps st with
  | zero =>
    obtain rfl := List.eq_nil_of_length_eq_zero (Nat.le_zero.mp hn)
    exact ⟨[], .idle (fun a ha => absurd ha List.not_mem_nil), rfl⟩
  | succ n ih =>
    cases ps with
    | nil => exact ⟨[], .idle (fun a ha => absurd ha List.not_mem_nil), rfl⟩
    | cons p ps =>
      rw [List.length_cons, Nat.add_le_add_iff_right] at hn
      obtain ⟨hnone, hstarts, hstays⟩ :=
        @update_atRest haversineMeters opts _ p hrest
      have hparse' : ∀ q ∈ ps, (JsDate.parse q.ts).isSome = true := fun q hq =>
        hparse q (List.mem_cons_of_mem _ hq)
      -- at rest no position closes a trip; only one that is fast enough opens one
      rw [TripState.feed, hnone, Option.toList_none, List.nil_append]
      by_cases hstart : IsStart opts p
      · rw [hstarts hstart]
        -- the start itself is too fast to be a stop
        have hopen : ∀ l, l <+: [] → ¬ ClosesTrip opts (p :: l) := by
          intro l hl
          rw [List.prefix_nil.mp hl]
          have horder' : InOrder ([] ++ [p]) := List.pairwise_singleton _ _
          rw [show [p] = [] ++ [p] from rfl, closesTrip_iff horder']
          intro ⟨hslow, _⟩
          unfold IsSlow at hslow
          unfold IsStart at hstart
          linarith
        -- either the trip stays open to the end, or a stop closes it and the rest is shorter
        rcases feed_moving (represents_starting p hstart hthresholds) hpos horder hparse hopen with
          ⟨hnever, hfeed⟩ | ⟨middle, stop, tail, st', hsplit, hopen', hcloses, hidle, hfeed⟩
        · refine ⟨[], ?_, hfeed⟩
          exact @Greedy.pending _ _ _ [] _ _ (fun b hb => absurd hb List.not_mem_nil) hstart hnever
        · rw [List.nil_append] at hsplit
          subst hsplit
          have htail : tail.length ≤ n := by
            rw [List.length_append, List.length_cons] at hn
            omega
          have hparts := List.pairwise_append.mp (List.pairwise_cons.mp horder).2
          obtain ⟨segments, hgreedy, htrips⟩ := @ih tail htail (some st')
            (fun s hs => Option.some.inj hs ▸ hidle) (List.pairwise_cons.mp hparts.2.1).2
            fun q hq => hparse' q (List.mem_append_right _ (List.mem_cons_of_mem _ hq))
          refine ⟨(p :: (middle ++ [stop])) :: segments, ?_, ?_⟩
          · exact @Greedy.segment _ _ _ [] _ _ _ _ _ (fun b hb => absurd hb List.not_mem_nil) hstart
              hopen' hcloses hgreedy
          · rw [hfeed, htrips]
            rfl
      · obtain ⟨segments, hgreedy, htrips⟩ := @ih ps hn (some _)
          (fun s hs => Option.some.inj hs ▸ hstays hstart) (List.pairwise_cons.mp horder).2 hparse'
        exact ⟨segments, hgreedy.skip hstart, htrips⟩

/-- The time of a timestamp, in milliseconds. -/
def msOf (ts : String) : ℚ := (((JsDate.parse ts).getD 0 : Int) : ℚ)

/-- What is returned for a device. -/
structure ReferenceTrips (haversineMeters : Distance) (opts : TripDetectorOptions)
    (stream : List Position) (deviceId : String) : Prop where
  -- The trips of the greedy segmentation of its positions, of which there is one.
  trips : ∃ segments, (∀ l, Greedy (IsStart opts) (ClosesTrip opts)
    (ownPositions stream deviceId) l ↔ l = segments) ∧
    tripsOf haversineMeters opts stream deviceId = segments.filterMap (tripOf haversineMeters) ∧
    -- The segments are disjoint parts of its positions, in their order.
    segments.flatten.Sublist (ownPositions stream deviceId)
  -- The trips are in order of time and do not overlap.
  inOrder : (tripsOf haversineMeters opts stream deviceId).Pairwise fun t t' =>
    msOf t.endTs ≤ msOf t'.startTs
  forward : ∀ t ∈ tripsOf haversineMeters opts stream deviceId, msOf t.startTs ≤ msOf t.endTs

/-- A trip starts and ends at positions of its segment. -/
theorem tripOf_ends {seg : List Position} {t : Trip} (h : tripOf haversineMeters seg = some t) :
    ∃ first ∈ seg, ∃ last ∈ seg, msOf t.startTs = first.ms ∧ msOf t.endTs = last.ms ∧
      (InOrder seg → first.ms ≤ last.ms) := by
  cases seg with
  | nil => cases h
  | cons start rest =>
    cases h
    cases rest using List.reverseRecOn with
    | nil => exact ⟨start, by simp, start, by simp, rfl, rfl, fun _ => le_rfl⟩
    | append_singleton rest last =>
      refine ⟨start, by simp, last, by simp, rfl, ?_, fun horder => ?_⟩
      · simp [msOf, Position.ms]
      · exact (List.pairwise_cons.mp horder).1 last (by simp)

/-- **Trip detection**: of any stream in which the timestamps of each device do not decrease, the
trips of a device are those of the greedy segmentation of its own positions. -/
theorem trips_segmented (hthresholds : opts.stopSpeedKph < opts.moveSpeedKph)
    (hpos : 0 < opts.stopMinSec) (stream : List Position)
    (horder : ∀ deviceId, InOrder (ownPositions stream deviceId))
    (hparse : ∀ p ∈ stream, (JsDate.parse p.ts).isSome = true) (deviceId : String) :
    ReferenceTrips haversineMeters opts stream deviceId := by
  have hfed : tripsOf haversineMeters opts stream deviceId =
      TripState.feed haversineMeters opts none (ownPositions stream deviceId) :=
    feed_own TripDetector.new stream deviceId
  obtain ⟨segments, hgreedy, htrips⟩ := @feed_segmented haversineMeters opts
    hthresholds hpos _ (ownPositions stream deviceId) le_rfl none
    (fun _ h => nomatch h) (horder deviceId) fun p hp => hparse p (List.mem_of_mem_filter hp)
  have hparts := hgreedy.sublist
  -- the segments come one after the other in the order of time
  obtain ⟨hwithin, hbetween⟩ := List.pairwise_flatten.mp ((horder deviceId).sublist hparts)
  rw [← hfed] at htrips
  refine ⟨⟨segments, fun l => ⟨fun h => h.unique hgreedy, fun h => h ▸ hgreedy⟩, htrips, hparts⟩,
    ?_, ?_⟩
  · rw [htrips, List.pairwise_filterMap]
    refine hbetween.imp fun {seg seg'} hle t ht t' ht' => ?_
    obtain ⟨_, _, last, hlast, _, hend, _⟩ := tripOf_ends ht
    obtain ⟨first, hfirst, _, _, hstart, _, _⟩ := tripOf_ends ht'
    rw [hend, hstart]
    exact hle last hlast first hfirst
  · intro t ht
    rw [htrips] at ht
    obtain ⟨seg, hseg, hof⟩ := List.mem_filterMap.mp ht
    obtain ⟨first, _, last, _, hstart, hend, hforward⟩ := tripOf_ends hof
    rw [hstart, hend]
    exact hforward (hwithin seg hseg)

/-- A drive of one vehicle, with one of another in between. -/
def sampleDrive : List Position :=
  let fix := fun (deviceId ts : String) (speedKph : ℚ) =>
    { tenantId := "acme", deviceId := deviceId, imei := "350000000000001", ts := ts, latitude := 19
      longitude := -81, altitude := 0, heading := 0, speedKph := speedKph, satellites := 8
      ignition := none, attrs := [] : Position }
  [fix "van" "2026-07-24T10:00:30.000Z" 40, fix "bus" "2026-07-24T10:00:00.000Z" 30,
    fix "van" "2026-07-24T10:01:30.000Z" 0, fix "van" "2026-07-24T10:04:40.000Z" 0]

theorem sample_trips_segmented :
    ReferenceTrips (fun _ _ _ _ => 250) { } sampleDrive "van" ∧
      ((tripsOf (fun _ _ _ _ => 250) { } sampleDrive "van").map fun t => (t.startTs, t.points)) =
        [("2026-07-24T10:00:30.000Z", 3)] := by
  refine ⟨trips_segmented (by decide +kernel) (by decide +kernel) sampleDrive ?_ (by decide +kernel)
    "van", by decide +kernel⟩
  -- the positions of one device are in order, those of the two devices together are not
  have horder : sampleDrive.Pairwise fun p q => p.deviceId = q.deviceId → p.ms ≤ q.ms := by
    decide +kernel
  intro deviceId
  apply (horder.filter _).imp_of_mem
  intro p q hp hq hle
  have hown : p.deviceId = deviceId := by simpa using List.of_mem_filter hp
  have hown' : q.deviceId = deviceId := by simpa using List.of_mem_filter hq
  exact hle (hown.trans hown'.symm)

end Proofs

end FleetTracking.ControlPlane
