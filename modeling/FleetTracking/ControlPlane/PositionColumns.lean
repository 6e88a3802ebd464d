import FleetTracking.ControlPlane.Telemetry
import FleetTracking.Ingestion.AvlMap
import FleetTracking.Lib.Timestamp
import FleetTracking.Protocol.ReaderRules
import Mathlib.Tactic.NormNum

/-!
# The Columns of the Position Table

A record of a tracker passes the decoder, the normalizer and the consumer before it becomes a row of
the position table. The fields on the wire and the columns have different widths and signs.

1. `records_of_decode`: what holds of the records that the decoder returns; `Ranged`.
2. `Position.Storable`: the parameters of an insert are in the range of their columns.
3. `storable_iff`: which records can be stored.
-/

namespace FleetTracking

/-! ## What the decoder returns -/

namespace Protocol

namespace Codec8

open Reader

/-- The ranges of the numbers of a record. -/
structure Ranged (r : AvlRecord) : Prop where
  altitude : -2 ^ 15 ≤ r.gps.altitude ∧ r.gps.altitude < 2 ^ 15
  speed : r.gps.speed < 2 ^ 16

theorem yields_record (extended : Bool) : Yields (readRecord extended) Ranged := by
  refine .after fun timestamp => .after fun priority => .after fun longitude => ?_
  refine .after fun latitude => .bind yields_i16 fun altitude haltitude => ?_
  refine .after fun angle => .after fun satellites => ?_
  refine .bind (yields_uint 2) fun speed hspeed => ?_
  refine .after fun eventId => .after fun total => .after fun v₁ => .after fun v₂ => ?_
  refine .after fun v₄ => .after fun v₈ => ?_
  split
  · exact .after fun nx => .after fun variableIo => yields_pure ⟨haltitude, hspeed⟩
  · exact yields_pure ⟨haltitude, hspeed⟩

section Records

variable {P : AvlRecord → Prop}

theorem yields_records {extended : Bool} (hrecord : Yields (readRecord extended) P) (n : Nat) :
    Yields (readRecords extended n) fun rs => ∀ r ∈ rs, P r := by
  induction n with
  | zero => exact yields_pure fun r hr => absurd hr List.not_mem_nil
  | succ n ih =>
    refine .bind hrecord fun r hr => .bind ih fun rs hrs => ?_
    exact yields_pure (List.forall_mem_cons.mpr ⟨hr, hrs⟩)

theorem yields_array (hrecord : ∀ extended, Yields (readRecord extended) P) :
    Yields readArray fun pkt => ∀ r ∈ pkt.records, P r := by
  refine .after fun codecId => .after fun recordCount => ?_
  dsimp only
  -- an unsupported codec and another count at the end are errors
  split
  · exact yields_throw_bind
  · split
    · exact yields_throw_bind
    · refine .bind (yields_records (hrecord _) _) fun records hrecords => .after fun trailing => ?_
      split
      · exact yields_throw_bind
      · exact yields_pure hrecords

/-- What holds of every record that is read holds of the records of an array. -/
theorem records_of_decode (hrecord : ∀ extended, Yields (readRecord extended) P)
    {dataField : Buffer} {pkt : DecodedAvl} (h : decodeAvlArray dataField = .ok pkt) :
    ∀ r ∈ pkt.records, P r := by
  unfold decodeAvlArray at h
  cases hread : readArray.run dataField with
  | error e =>
    rw [hread] at h
    cases h
  | ok p =>
    rw [hread] at h
    cases h
    exact yields_array hrecord _ _ _ hread

end Records

end Codec8

end Protocol

namespace ControlPlane

open Protocol Ingestion

/-! ## The columns -/

/-- The record as the consumer parses it. -/
def normalizedOf (tel : NormalizedTelemetry) : Normalized where
  imei := tel.imei
  ts := tel.ts
  latitude := degrees tel.latitude
  longitude := degrees tel.longitude
  altitude := tel.altitude
  heading := tel.heading
  speedKph := tel.speedKph
  satellites := tel.satellites
  fields := tel.fields
  attrs := tel.attrs.entries.map fun e => (toString e.1, e.2)

/-- A value of a `smallint` column. -/
def IsSmallint (q : ℚ) : Prop := ∃ n : Int, q = n ∧ -2 ^ 15 ≤ n ∧ n < 2 ^ 15

/-- The parameters of an insert are in the range of their columns. -/
structure Position.Storable (p : Position) : Prop where
  -- `timestamptz`.
  ts : JsDate.pgTimestamp p.ts = true
  -- `geography(Point,4326)`.
  longitude : -180 ≤ p.longitude ∧ p.longitude ≤ 180
  latitude : -90 ≤ p.latitude ∧ p.latitude ≤ 90
  -- `real`.
  speedKph : |p.speedKph| < 2 ^ 128
  heading : IsSmallint p.heading
  altitude : IsSmallint p.altitude

/-- The fields of a record that the columns do not take in full are in their ranges. -/
structure Fits (rec : AvlRecord) : Prop where
  angle : rec.gps.angle < 2 ^ 15
  longitude : -1800000000 ≤ rec.gps.longitude ∧ rec.gps.longitude ≤ 1800000000
  latitude : -900000000 ≤ rec.gps.latitude ∧ rec.gps.latitude ≤ 900000000
  -- Before the year 10000.
  timestamp : ∀ ms, rec.timestamp = some ms → ms < 253402300800000

theorem isSmallint_intCast {n : Int} : IsSmallint n ↔ -2 ^ 15 ≤ n ∧ n < 2 ^ 15 := by
  constructor
  · intro ⟨m, heq, hm⟩
    rwa [Int.cast_injective heq]
  · exact fun h => ⟨n, rfl, h⟩

theorem isSmallint_natCast {n : Nat} : IsSmallint n ↔ n < 2 ^ 15 := by
  have hcast := isSmallint_intCast (n := n)
  rw [Int.cast_natCast] at hcast
  rw [hcast]
  omega

/-- A coordinate is legal up to a bound in degrees. -/
theorem degrees_mem (raw : Int) (bound : ℚ) :
    (-bound ≤ degrees raw ∧ degrees raw ≤ bound) ↔
      -(bound * 10 ^ 7) ≤ (raw : ℚ) ∧ (raw : ℚ) ≤ bound * 10 ^ 7 := by
  have hpos : (0 : ℚ) < 10 ^ 7 := by norm_num
  rw [degrees, le_div_iff₀ hpos, div_le_iff₀ hpos, neg_mul]

/-- **The position table and the decoder**: of every record of every byte string that the decoder
accepts, and that can be normalized, the position can be stored iff the angle, the coordinates and
the year are in the ranges of the columns. -/
theorem storable_iff {dataField : Buffer} {pkt : DecodedAvl}
    (hdecode : decodeAvlArray dataField = .ok pkt) {rec : AvlRecord} (hrec : rec ∈ pkt.records)
    {imei : String} {tel : NormalizedTelemetry} (hnormal : normalize imei rec = .ok tel)
    (tenantId deviceId : String) :
    (toPosition tenantId deviceId (normalizedOf tel)).Storable ↔ Fits rec := by
  -- altitude and speed are bounded by their two bytes
  obtain ⟨haltitude, hspeed⟩ := Codec8.records_of_decode Codec8.yields_record hdecode rec hrec
  obtain ⟨ms, htime, rfl⟩ := normalize_eq_ok hnormal
  have hlongitude := degrees_mem rec.gps.longitude 180
  have hlatitude := degrees_mem rec.gps.latitude 90
  norm_num at hlongitude hlatitude
  constructor
  · intro h
    refine ⟨isSmallint_natCast.mp h.heading, ?_, ?_, ?_⟩
    · exact_mod_cast hlongitude.mp h.longitude
    · exact_mod_cast hlatitude.mp h.latitude
    · intro ms' hms
      obtain rfl := Option.some.inj (htime.symm.trans hms)
      exact (JsDate.pgTimestamp_isoText ms).mp h.ts
  · intro h
    refine ⟨(JsDate.pgTimestamp_isoText ms).mpr (h.timestamp ms htime), hlongitude.mpr ?_,
      hlatitude.mpr ?_, ?_, isSmallint_natCast.mpr h.angle, isSmallint_intCast.mpr haltitude⟩
    · exact_mod_cast h.longitude
    · exact_mod_cast h.latitude
    · show |((rec.gps.speed : Nat) : ℚ)| < 2 ^ 128
      rw [abs_of_nonneg (Nat.cast_nonneg _)]
      exact_mod_cast hspeed.trans (by norm_num)

/-- An array of one record without elements, of Codec 8. -/
def plainArray (timestamp : Nat) (longitude latitude : Int) (angle : Nat) : Buffer :=
  let word := fun (size : Nat) (n : Int) => Buffer.ofNatBE size (n % 2 ^ (8 * size)).toNat
  Buffer.ofNatBE 1 CODEC_8 ++ [1] ++ Buffer.ofNatBE 8 timestamp ++ [0] ++ word 4 longitude ++
    word 4 latitude ++ word 2 12 ++ Buffer.ofNatBE 2 angle ++ [9] ++ Buffer.ofNatBE 2 50 ++
    [0, 0, 0, 0, 0, 0] ++ [1]

/-- A record that passes a test and can be normalized. -/
theorem exists_record (dataField : Buffer) (test : AvlRecord → Bool) (imei : String)
    (h : (decodeAvlArray dataField).toOption.any (fun pkt =>
      pkt.records.any fun rec => rec.timestamp.isSome && test rec) = true) :
    ∃ pkt rec tel, decodeAvlArray dataField = .ok pkt ∧ rec ∈ pkt.records ∧
      normalize imei rec = .ok tel ∧ test rec = true := by
  obtain ⟨pkt, hpkt, hany⟩ := (Option.any_eq_true _ _).mp h
  obtain ⟨rec, hrec, hboth⟩ := List.any_eq_true.mp hany
  obtain ⟨htime, htest⟩ := (Bool.and_eq_true _ _).mp hboth
  obtain ⟨tel, htel⟩ := (normalize_isOk imei rec).mpr htime
  exact ⟨pkt, rec, tel, ok_of_toOption hpkt, hrec, htel, htest⟩

theorem sample_storable_iff : ∃ pkt rec tel,
    decodeAvlArray (plainArray 1560166592048 (-813800000) 193000000 270) = .ok pkt ∧
    rec ∈ pkt.records ∧ normalize "350000000000001" rec = .ok tel ∧ rec.gps.angle = 270 ∧
    ((toPosition "acme" "van" (normalizedOf tel)).Storable ↔ Fits rec) := by
  obtain ⟨pkt, rec, tel, hpkt, hrec, htel, hangle⟩ := exists_record
    (plainArray 1560166592048 (-813800000) 193000000 270) (fun rec => rec.gps.angle = 270)
    "350000000000001" (by decide +kernel)
  exact ⟨pkt, rec, tel, hpkt, hrec, htel, of_decide_eq_true hangle,
    storable_iff hpkt hrec htel "acme" "van"⟩

/-- An angle that is sent in two bytes does not fit into a `smallint`. -/
theorem heading_out_of_range : ∃ dataField pkt rec tel, decodeAvlArray dataField = .ok pkt ∧
    rec ∈ pkt.records ∧ normalize "350000000000001" rec = .ok tel ∧
    ¬ (toPosition "acme" "van" (normalizedOf tel)).Storable := by
  obtain ⟨pkt, rec, tel, hpkt, hrec, htel, hangle⟩ := exists_record
    (plainArray 1560166592048 (-813800000) 193000000 40000) (fun rec => rec.gps.angle = 40000)
    "350000000000001" (by decide +kernel)
  refine ⟨_, pkt, rec, tel, hpkt, hrec, htel, fun h => ?_⟩
  have hheading : (toPosition "acme" "van" (normalizedOf tel)).heading = (rec.gps.angle : ℚ) := by
    obtain ⟨ms, -, rfl⟩ := normalize_eq_ok htel
    rfl
  have hsmall := h.heading
  rw [hheading, isSmallint_natCast, of_decide_eq_true hangle] at hsmall
  exact absurd hsmall (by decide)

end ControlPlane

end FleetTracking
