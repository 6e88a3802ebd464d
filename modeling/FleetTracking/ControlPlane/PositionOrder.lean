import FleetTracking.ControlPlane.RepositoryRefinement

/-!
# The Order of Positions

A position carries its time as the text of `toISOString`. The consumer, the repository in memory and
the ranges of alerts and trips compare these texts where they mean the times.

1. `dated_of_decode`: the texts of the records that the decoder returns.
2. `text_order_iff`: which two records compare as texts like their times.
3. `latest_newest_iff`: when the repository in memory finds the newest position.
-/

namespace FleetTracking

/-! ## The times of the records -/

namespace Protocol.Codec8

open Reader

/-- A time that is read is one that a `Date` can hold. -/
theorem yields_timestamp (extended : Bool) :
    Yields (readRecord extended) fun r => ∀ ms, r.timestamp = some ms → ms ≤ JsDate.maxTime := by
  have hrange : ∀ n ms, JsDate.ofMillis n = some ms → ms ≤ JsDate.maxTime := by
    intro n ms hms
    rw [JsDate.ofMillis, Option.ite_none_right_eq_some] at hms
    rw [← Option.some.inj hms.2]
    exact hms.1
  -- of the fields only the time matters
  refine .after fun timestamp => .after fun priority => .after fun longitude => ?_
  refine .after fun latitude => .after fun altitude => .after fun angle => ?_
  refine .after fun satellites => .after fun speed => .after fun eventId => ?_
  refine .after fun total => .after fun v₁ => .after fun v₂ => .after fun v₄ => ?_
  refine .after fun v₈ => ?_
  split
  · exact .after fun nx => .after fun variableIo => yields_pure (hrange timestamp)
  · exact yields_pure (hrange timestamp)

end Protocol.Codec8

namespace ControlPlane

open Protocol Ingestion

/-- The text is that of a time. -/
def Dated (ts : String) (ms : Nat) : Prop := ts = JsDate.isoText ms ∧ ms ≤ JsDate.maxTime

/-- A record that is accepted has a time, and the text of it. -/
theorem dated_of_decode {dataField : Buffer} {pkt : DecodedAvl}
    (hdecode : decodeAvlArray dataField = .ok pkt) {rec : AvlRecord} (hrec : rec ∈ pkt.records)
    {imei : String} {tel : NormalizedTelemetry} (hnormal : normalize imei rec = .ok tel) :
    ∃ ms, rec.timestamp = some ms ∧ Dated tel.ts ms := by
  have hrange := Codec8.records_of_decode Codec8.yields_timestamp hdecode rec hrec
  obtain ⟨ms, htime, rfl⟩ := normalize_eq_ok hnormal
  exact ⟨ms, htime, rfl, hrange ms htime⟩

/-- **Text order and time order**: of every two records of any byte strings that the decoder
accepts, and that can be normalized, the texts compare as the times do iff both times are before
the year 10000 or neither is. -/
theorem text_order_iff {dataField dataField' : Buffer} {pkt pkt' : DecodedAvl}
    (hdecode : decodeAvlArray dataField = .ok pkt) (hdecode' : decodeAvlArray dataField' = .ok pkt')
    {rec rec' : AvlRecord} (hrec : rec ∈ pkt.records) (hrec' : rec' ∈ pkt'.records)
    {imei imei' : String} {tel tel' : NormalizedTelemetry} (hnormal : normalize imei rec = .ok tel)
    (hnormal' : normalize imei' rec' = .ok tel') :
    ∃ ms ms', rec.timestamp = some ms ∧ rec'.timestamp = some ms' ∧
      (JsDate.ComparesAs tel.ts tel'.ts ms ms' ↔
        (ms < JsDate.year10000 ↔ ms' < JsDate.year10000)) := by
  obtain ⟨ms, htime, htext, hrange⟩ := dated_of_decode hdecode hrec hnormal
  obtain ⟨ms', htime', htext', hrange'⟩ := dated_of_decode hdecode' hrec' hnormal'
  refine ⟨ms, ms', htime, htime', ?_⟩
  rw [htext, htext']
  exact JsDate.comparesAs_isoText_iff hrange hrange'

/-- An array whose only record has the time. -/
private theorem exists_at (ms : Nat) (h : (decodeAvlArray (plainArray ms 0 0 0)).toOption.any
      (fun pkt => pkt.records.any fun rec =>
        rec.timestamp.isSome && decide (rec.timestamp = some ms)) = true) :
    ∃ pkt rec tel, decodeAvlArray (plainArray ms 0 0 0) = .ok pkt ∧ rec ∈ pkt.records ∧
      normalize "350000000000001" rec = .ok tel ∧ rec.timestamp = some ms := by
  obtain ⟨pkt, rec, tel, hpkt, hrec, htel, htime⟩ := exists_record (plainArray ms 0 0 0)
    (fun rec => decide (rec.timestamp = some ms)) "350000000000001" h
  exact ⟨pkt, rec, tel, hpkt, hrec, htel, of_decide_eq_true htime⟩

theorem sample_text_order : ∃ pkt pkt' rec rec' tel tel',
    decodeAvlArray (plainArray 1560166592048 0 0 0) = .ok pkt ∧
    decodeAvlArray (plainArray 1560166592049 0 0 0) = .ok pkt' ∧
    rec ∈ pkt.records ∧ rec' ∈ pkt'.records ∧ normalize "350000000000001" rec = .ok tel ∧
    normalize "350000000000001" rec' = .ok tel' ∧ rec.timestamp = some 1560166592048 ∧
    rec'.timestamp = some 1560166592049 ∧ tel.ts < tel'.ts := by
  obtain ⟨pkt, rec, tel, hpkt, hrec, htel, htime⟩ := exists_at 1560166592048 (by decide +kernel)
  obtain ⟨pkt', rec', tel', hpkt', hrec', htel', htime'⟩ :=
    exists_at 1560166592049 (by decide +kernel)
  refine ⟨pkt, pkt', rec, rec', tel, tel', hpkt, hpkt', hrec, hrec', htel, htel', htime, htime', ?_⟩
  obtain ⟨ms, ms', hms, hms', hiff⟩ := text_order_iff hpkt hpkt' hrec hrec' htel htel'
  obtain rfl := Option.some.inj (htime.symm.trans hms)
  obtain rfl := Option.some.inj (htime'.symm.trans hms')
  exact (hiff.mpr (by decide)).before.mpr (by decide)

/-- The last millisecond of the year 9999 and the next one: the later text is the smaller one. -/
theorem text_order_reversed : ∃ pkt pkt' rec rec' tel tel',
    decodeAvlArray (plainArray 253402300799999 0 0 0) = .ok pkt ∧
    decodeAvlArray (plainArray 253402300800000 0 0 0) = .ok pkt' ∧
    rec ∈ pkt.records ∧ rec' ∈ pkt'.records ∧ normalize "350000000000001" rec = .ok tel ∧
    normalize "350000000000001" rec' = .ok tel' ∧ rec.timestamp = some 253402300799999 ∧
    rec'.timestamp = some 253402300800000 ∧ tel'.ts < tel.ts := by
  obtain ⟨pkt, rec, tel, hpkt, hrec, htel, htime⟩ := exists_at 253402300799999 (by decide +kernel)
  obtain ⟨pkt', rec', tel', hpkt', hrec', htel', htime'⟩ :=
    exists_at 253402300800000 (by decide +kernel)
  refine ⟨pkt, pkt', rec, rec', tel, tel', hpkt, hpkt', hrec, hrec', htel, htel', htime, htime', ?_⟩
  obtain ⟨ms, hms, htext, -⟩ := dated_of_decode hpkt hrec htel
  obtain ⟨ms', hms', htext', -⟩ := dated_of_decode hpkt' hrec' htel'
  obtain rfl := Option.some.inj (htime.symm.trans hms)
  obtain rfl := Option.some.inj (htime'.symm.trans hms')
  rw [htext, htext']
  exact JsDate.isoText_lt_of_signed (by decide) (by decide)

/-! ## The newest position -/

/-- The position with the greatest text has the greatest time iff the device has no positions on
both sides of the year 10000. -/
theorem latest_newest_iff {m : Memory} {time : Position → Nat}
    (hdated : ∀ q ∈ m.positions, Dated q.ts (time q)) {tenantId deviceId : String} {p : Position}
    (hlatest : m.latest tenantId deviceId = some p) :
    (∀ q ∈ m.positions, q.Of tenantId deviceId → time q ≤ time p) ↔
      (∀ q ∈ m.positions, q.Of tenantId deviceId → time q < JsDate.year10000) ∨
        ∀ q ∈ m.positions, q.Of tenantId deviceId → JsDate.year10000 ≤ time q := by
  rw [latest_eq] at hlatest
  have hmem := List.argmax_mem (Option.mem_def.mpr hlatest)
  simp only [and_true, List.mem_filter, decide_eq_true_eq] at hmem
  obtain ⟨hp, hof⟩ := hmem
  -- no text is greater; what this says about the times
  have hgreatest : ∀ q ∈ m.positions, q.Of tenantId deviceId →
      ¬ (time p < time q ∧ (time p < JsDate.year10000 ↔ time q < JsDate.year10000) ∨
        time q < JsDate.year10000 ∧ JsDate.year10000 ≤ time p) := by
    intro q hq hqof
    have hle : q.ts ≤ p.ts := by
      apply List.le_of_mem_argmax (l := m.positions.filter fun q => q.Of tenantId deviceId ∧ true) _
        hlatest
      simp [hq, hqof]
    rw [← JsDate.isoText_lt_iff (hdated p hp).2 (hdated q hq).2, ← (hdated p hp).1,
      ← (hdated q hq).1]
    exact not_lt.mpr hle
  constructor
  · intro hnewest
    -- the side of the position that was found is the side of all
    by_cases hfour : time p < JsDate.year10000
    · exact Or.inl fun q hq hqof => (hnewest q hq hqof).trans_lt hfour
    · right
      intro q hq hqof
      have hno := hgreatest q hq hqof
      omega
  · intro hside q hq hqof
    have hno := hgreatest q hq hqof
    rcases hside with hbefore | hafter
    · have hlt := hbefore q hq hqof
      have hlt' := hbefore p hp hof
      omega
    · have hle := hafter q hq hqof
      have hle' := hafter p hp hof
      omega

end ControlPlane

end FleetTracking
