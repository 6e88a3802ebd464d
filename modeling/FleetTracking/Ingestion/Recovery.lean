import FleetTracking.Ingestion.AvlMap
import FleetTracking.Lib.TimestampOrder

/-!
# What Normalisation Loses

From a normalised record one can read off the values of the IO elements as far as they are
distinguished by the doubles they are rounded to and by the names they are given.

1. `reading`: the field of a name, from the values.
2. `mapValues_fields`, `mapValues_attrs`: what `mapValues` builds.
3. `Blurred`: records that are normalised to the same; `normalize_injective_iff`.
-/

namespace FleetTracking.Ingestion

open FleetTracking.Protocol

/-! ## What `mapValues` builds -/

/-- The number that a value is given under a name, if its id has the name. -/
def named (name : String) (e : Nat × Nat) : Option ℚ :=
  match FTC927 e.1 with
  | some spec => if spec.name = name then some (spec.scale (toNumber e.2)) else none
  | none => none

/-- The field of a name: the last one of the values with this name. -/
def reading (name : String) : List (Nat × Nat) → Option ℚ
  | [] => none
  | e :: rest => (reading name rest).or (named name e)

theorem mapValues_fields (name : String) (l : List (Nat × Nat)) (fields : JsMap String ℚ)
    (attrs : JsRecord ℚ) :
    (mapValues l fields attrs).1.get name = (reading name l).or (fields.get name) := by
  induction l generalizing fields attrs with
  | nil => simp [mapValues, reading]
  | cons e l ih =>
    obtain ⟨id, raw⟩ := e
    unfold mapValues reading named
    simp only
    cases hspec : FTC927 id with
    | none => simp [ih]
    | some spec =>
      simp only [ih, Option.or_assoc]
      by_cases hname : spec.name = name
      · subst hname
        simp
      · rw [JsMap.get_set_of_ne _ _ (Ne.symm hname)]
        simp [hname]

/-- The attribute of an id: its own number, if the id has no name. -/
theorem mapValues_attrs {l : List (Nat × Nat)} (hl : l.Pairwise fun a b => a.1 < b.1) (id : Nat)
    (fields : JsMap String ℚ) (attrs : JsRecord ℚ) :
    (mapValues l fields attrs).2.get id =
      (if FTC927 id = none then (l.lookup id).map fun raw => (toNumber raw : ℚ) else none).or
        (attrs.get id) := by
  induction l generalizing fields attrs with
  | nil => simp [mapValues]
  | cons e l ih =>
    obtain ⟨k, raw⟩ := e
    have hrest := (List.pairwise_cons.mp hl).2
    unfold mapValues
    simp only
    by_cases hk : id = k
    · subst hk
      have hnone : l.lookup id = none := JsRecord.lookup_eq_none hl (Nat.le_refl id)
      cases hspec : FTC927 id with
      | none => simp [ih hrest, hspec, hnone, JsRecord.get_set, List.lookup_cons_self]
      | some spec => simp [ih hrest, hspec]
    · have hne : (id == k) = false := by simpa using hk
      have hlookup : ((k, raw) :: l).lookup id = l.lookup id := by
        rw [List.lookup_cons, hne]
      rw [hlookup]
      cases hspec : FTC927 k with
      | none => simp [ih hrest, JsRecord.get_set, hk]
      | some spec => simp [ih hrest]

/-! ## Names -/

/-- The ids that have a name. -/
private def knownIds : List Nat :=
  [1, 9, 16, 17, 18, 19, 21, 66, 67, 68, 69, 113, 179, 181, 182, 199, 200, 237, 239, 240, 241, 449,
    800, 1148, 1433]

private theorem mem_knownIds {id : Nat} {spec : Spec} (h : FTC927 id = some spec) :
    id ∈ knownIds := by
  unfold FTC927 at h
  split at h <;> simp [knownIds] at h ⊢

/-- Two ids have one name. -/
private theorem knownIds_names : ∀ id ∈ knownIds, ∀ id' ∈ knownIds,
    (FTC927 id).map Spec.name = (FTC927 id').map Spec.name →
      id = id' ∨ (id = 66 ∨ id = 800) ∧ (id' = 66 ∨ id' = 800) := by
  decide +kernel

theorem eq_of_name {id id' : Nat} {spec spec' : Spec} (h : FTC927 id = some spec)
    (h' : FTC927 id' = some spec') (hname : spec.name = spec'.name) :
    id = id' ∨ (id = 66 ∨ id = 800) ∧ (id' = 66 ∨ id' = 800) :=
  knownIds_names id (mem_knownIds h) id' (mem_knownIds h') (by simp [h, h', hname])

/-- A name of one id gives the value of the id. -/
theorem reading_own {id : Nat} {spec : Spec} (hspec : FTC927 id = some spec) (h66 : id ≠ 66)
    (h800 : id ≠ 800) {l : List (Nat × Nat)} (hl : l.Pairwise fun a b => a.1 < b.1) :
    reading spec.name l = (l.lookup id).map fun raw => spec.scale (toNumber raw) := by
  induction l with
  | nil => rfl
  | cons e l ih =>
    obtain ⟨k, raw⟩ := e
    rw [reading, ih (List.pairwise_cons.mp hl).2, named]
    by_cases hk : id = k
    · subst hk
      simp [JsRecord.lookup_eq_none hl (Nat.le_refl id), hspec, List.lookup_cons_self]
    · have hne : (id == k) = false := by simpa using hk
      rw [List.lookup_cons, hne]
      cases hk' : FTC927 k with
      | none => simp
      | some spec' =>
        have hnames : spec'.name ≠ spec.name := by
          intro hname
          have hcases := eq_of_name hspec hk' hname.symm
          omega
        simp [hnames]

/-- The external voltage is that of id 800, or else of id 66. -/
theorem reading_voltage {l : List (Nat × Nat)} (hl : l.Pairwise fun a b => a.1 < b.1) :
    reading "externalVoltageMv" l =
      ((l.lookup 800).or (l.lookup 66)).map fun raw => (toNumber raw : ℚ) := by
  induction l with
  | nil => rfl
  | cons e l ih =>
    obtain ⟨k, raw⟩ := e
    rw [reading, ih (List.pairwise_cons.mp hl).2, named]
    simp only
    -- 800 stands behind 66 in the order and overwrites it
    by_cases h66 : k = 66
    · subst h66
      have hnone : l.lookup 66 = none := JsRecord.lookup_eq_none hl (Nat.le_refl 66)
      have hne : ((800 : Nat) == 66) = false := rfl
      rw [List.lookup_cons, hne, List.lookup_cons_self, hnone]
      cases l.lookup 800 with
      | none => simp [FTC927]
      | some raw' => simp
    by_cases h800 : k = 800
    · subst h800
      have hnone : l.lookup 800 = none := JsRecord.lookup_eq_none hl (Nat.le_refl 800)
      have hnone' : l.lookup 66 = none := JsRecord.lookup_eq_none hl (by simp)
      rw [List.lookup_cons_self, hnone, hnone']
      simp [FTC927]
    · have hne : ∀ id, id ≠ k → (id == k) = false := fun id h => by simpa using h
      rw [List.lookup_cons, hne 800 (Ne.symm h800), List.lookup_cons, hne 66 (Ne.symm h66)]
      cases hk : FTC927 k with
      | none => simp
      | some spec =>
        -- no other id of the table carries this name
        have hnames : spec.name ≠ "externalVoltageMv" := by
          intro hname
          have hvoltage : FTC927 66 = some { name := "externalVoltageMv" } := rfl
          have hcases := eq_of_name hk hvoltage hname
          omega
        simp [hnames]

/-- Without an id that has the name there is no field. -/
theorem reading_eq_none {name : String}
    (h : ∀ id spec, FTC927 id = some spec → spec.name ≠ name) (l : List (Nat × Nat)) :
    reading name l = none := by
  induction l with
  | nil => rfl
  | cons e l ih =>
    rw [reading, ih, named]
    cases hspec : FTC927 e.1 with
    | none => rfl
    | some spec => simp [h e.1 spec hspec]

/-! ## Records -/

/-- Two results of `normalize` are the same. -/
def SameResult : Except JsError NormalizedTelemetry → Except JsError NormalizedTelemetry → Prop
  | .ok tel, .ok tel' =>
    tel = { tel' with fields := tel.fields } ∧ ∀ name, tel.fields.get name = tel'.fields.get name
  | .error e, .error e' => e = e'
  | _, _ => False

/-- Records that are normalised to the same: apart from the IO elements they are equal, and so is
the event id; an id without a name has values that are rounded to one number, or none; so has an id
with a name of its own, after scaling; and for the ids 66 and 800, which share a name, this is so of
the last one that is there. The variable elements may be any. -/
structure Blurred (r r' : AvlRecord) : Prop where
  timestamp : r.timestamp = r'.timestamp
  priority : r.priority = r'.priority
  gps : r.gps = r'.gps
  eventId : r.io.eventId = r'.io.eventId
  unnamed : ∀ id, FTC927 id = none →
    (r.io.values.get id).map toNumber = (r'.io.values.get id).map toNumber
  named : ∀ id spec, FTC927 id = some spec → id ≠ 66 → id ≠ 800 →
    (r.io.values.get id).map (fun raw => spec.scale (toNumber raw)) =
      (r'.io.values.get id).map fun raw => spec.scale (toNumber raw)
  voltage : ((r.io.values.get 800).or (r.io.values.get 66)).map toNumber =
    ((r'.io.values.get 800).or (r'.io.values.get 66)).map toNumber

/-- The two records are normalised to the same, or not at all. -/
def Lost (r r' : AvlRecord) : Prop :=
  (r.timestamp = none ∧ r'.timestamp = none) ∨ Blurred r r'

/-- Rounded numbers are compared as they are. -/
private theorem map_cast_iff {o o' : Option Nat} :
    (o.map fun raw => (toNumber raw : ℚ)) = (o'.map fun raw => (toNumber raw : ℚ)) ↔
      o.map toNumber = o'.map toNumber := by
  cases o with
  | none => simp
  | some n =>
    cases o' with
    | none => simp
    | some n' => simp

/-- The fields agree exactly if what they are read off agrees. -/
private theorem fields_iff {r r' : AvlRecord} :
    (∀ name, reading name r.io.values.entries = reading name r'.io.values.entries) ↔
      (∀ id spec, FTC927 id = some spec → id ≠ 66 → id ≠ 800 →
        (r.io.values.get id).map (fun raw => spec.scale (toNumber raw)) =
          (r'.io.values.get id).map fun raw => spec.scale (toNumber raw)) ∧
      ((r.io.values.get 800).or (r.io.values.get 66)).map toNumber =
        ((r'.io.values.get 800).or (r'.io.values.get 66)).map toNumber := by
  have hsorted := r.io.values.sorted
  have hsorted' := r'.io.values.sorted
  constructor
  · intro h
    refine ⟨fun id spec hspec h66 h800 => ?_, ?_⟩
    · have hname := h spec.name
      rwa [reading_own hspec h66 h800 hsorted, reading_own hspec h66 h800 hsorted'] at hname
    · have hname := h "externalVoltageMv"
      rwa [reading_voltage hsorted, reading_voltage hsorted', map_cast_iff] at hname
  · rintro ⟨hown, hvoltage⟩ name
    -- a name of the table belongs to one id, the voltage's to two
    by_cases hknown : ∃ id spec, FTC927 id = some spec ∧ spec.name = name
    · obtain ⟨id, spec, hspec, rfl⟩ := hknown
      by_cases h66 : id = 66
      · subst h66
        obtain rfl := Option.some.inj hspec
        rw [reading_voltage hsorted, reading_voltage hsorted', map_cast_iff]
        exact hvoltage
      by_cases h800 : id = 800
      · subst h800
        obtain rfl := Option.some.inj hspec
        rw [reading_voltage hsorted, reading_voltage hsorted', map_cast_iff]
        exact hvoltage
      · rw [reading_own hspec h66 h800 hsorted, reading_own hspec h66 h800 hsorted']
        exact hown id spec hspec h66 h800
    · have hnone : ∀ id spec, FTC927 id = some spec → spec.name ≠ name :=
        fun id spec hspec hname => hknown ⟨id, spec, hspec, hname⟩
      rw [reading_eq_none hnone, reading_eq_none hnone]

/-- The attributes agree exactly if the numbers of the ids without a name do. -/
private theorem attrs_iff {r r' : AvlRecord} {fields : JsMap String ℚ} :
    (mapValues r.io.values.entries fields JsRecord.empty).2 =
        (mapValues r'.io.values.entries fields JsRecord.empty).2 ↔
      ∀ id, FTC927 id = none →
        (r.io.values.get id).map toNumber = (r'.io.values.get id).map toNumber := by
  have hget : ∀ (r : AvlRecord) id,
      (mapValues r.io.values.entries fields JsRecord.empty).2.get id =
        if FTC927 id = none then (r.io.values.get id).map fun raw => (toNumber raw : ℚ)
        else none := by
    intro r id
    rw [mapValues_attrs r.io.values.sorted]
    exact Option.or_none
  constructor
  · intro h id hnone
    have hid := congrArg (fun attrs => attrs.get id) h
    simp only [hget, if_pos hnone] at hid
    exact map_cast_iff.mp hid
  · intro h
    refine JsRecord.ext_get fun id => ?_
    rw [hget, hget]
    split
    case isTrue hnone => exact map_cast_iff.mpr (h id hnone)
    case isFalse => rfl

private theorem gps_eq {g g' : GpsElement} (hlon : g.longitude = g'.longitude)
    (hlat : g.latitude = g'.latitude) (halt : g.altitude = g'.altitude) (hangle : g.angle = g'.angle)
    (hsat : g.satellites = g'.satellites) (hspeed : g.speed = g'.speed) : g = g' := by
  cases g
  cases g'
  simp only [GpsElement.mk.injEq]
  exact ⟨hlon, hlat, halt, hangle, hsat, hspeed⟩

/-- A record that is not normalised goes with such records only. -/
private theorem Lost.none_iff {r r' : AvlRecord} (h : Lost r r') :
    r.timestamp = none ↔ r'.timestamp = none := by
  rcases h with ⟨hnone, hnone'⟩ | hblurred
  · simp [hnone, hnone']
  · rw [hblurred.timestamp]

/-- When two records are normalised to the same. -/
theorem sameResult_iff (imei : String) (r r' : AvlRecord) :
    SameResult (normalize imei r) (normalize imei r') ↔ Lost r r' := by
  -- the fields of the result are the last readings under each name
  have hread : ∀ (r : AvlRecord) name,
      (mapValues r.io.values.entries JsMap.empty JsRecord.empty).1.get name =
        reading name r.io.values.entries := by
    intro r name
    rw [mapValues_fields, JsMap.get_empty, Option.or_none]
  unfold normalize
  simp only
  -- a record without a representable time throws, whatever else it carries
  cases htime : r.timestamp with
  | none =>
    cases htime' : r'.timestamp with
    | none => simp [JsDate.toISOString, SameResult, Lost, htime, htime']
    | some ms' =>
      have hnot : ¬ Lost r r' := fun h => by simpa [htime, htime'] using h.none_iff
      simp [JsDate.toISOString, SameResult, hnot]
  | some ms =>
    cases htime' : r'.timestamp with
    | none =>
      have hnot : ¬ Lost r r' := fun h => by simpa [htime, htime'] using h.none_iff
      simp [JsDate.toISOString, SameResult, hnot]
    | some ms' =>
      constructor
      · rintro ⟨htel, hfields⟩
        simp only [NormalizedTelemetry.mk.injEq] at htel
        obtain ⟨-, hts, hlat, hlon, halt, hheading, hspeed, hsat, hpriority, hevent, -, hattrs⟩ :=
          htel
        simp only [hread] at hfields
        obtain ⟨hown, hvoltage⟩ := fields_iff.mp hfields
        exact Or.inr {
          timestamp := by rw [htime, htime', JsDate.isoText_inj hts]
          priority := hpriority
          gps := gps_eq hlon hlat halt hheading hsat hspeed
          eventId := hevent
          unnamed := attrs_iff.mp hattrs
          named := hown
          voltage := hvoltage }
      · rintro (⟨hnone, -⟩ | h)
        · rw [htime] at hnone
          cases hnone
        · have hsame : some ms = some ms' := by rw [← htime, ← htime', h.timestamp]
          obtain rfl := Option.some.inj hsame
          refine ⟨?_, fun name => ?_⟩
          · simp only [h.gps, h.priority, h.eventId, attrs_iff.mpr h.unnamed]
          · simp only [hread]
            exact fields_iff.mpr ⟨h.named, h.voltage⟩ name

/-- **When two records with different IO elements are normalised to different results**: exactly if
they are not blurred. -/
theorem normalize_injective_iff (imei : String) (r r' : AvlRecord) :
    (SameResult (normalize imei r) (normalize imei r') → r.io = r'.io) ↔
      (Lost r r' → r.io = r'.io) := by
  rw [sameResult_iff]

/-- A record with one value, of the id 78. -/
def keyRecord (value : Nat) : AvlRecord where
  timestamp := some 1735689600000
  priority := 1
  gps := ⟨0, 0, 0, 0, 0, 0⟩
  io := ⟨0, JsRecord.empty.set 78 value, JsRecord.empty⟩

/-- Two such records, with 2^53 and with 2^53 + 1 in the group of eight bytes. -/
def keyArray : Buffer :=
  [0x08, 0x02] ++
  [0x00, 0x00, 0x01, 0x94, 0x1f, 0x29, 0x7c, 0x00, 0x01, 0x00, 0x00, 0x00, 0x00, 0x00, 0x00, 0x00,
    0x00, 0x00, 0x00, 0x00, 0x00, 0x00, 0x00, 0x00, 0x00, 0x01, 0x00, 0x00, 0x00, 0x01, 0x4e, 0x00,
    0x20, 0x00, 0x00, 0x00, 0x00, 0x00, 0x00] ++
  [0x00, 0x00, 0x01, 0x94, 0x1f, 0x29, 0x7c, 0x00, 0x01, 0x00, 0x00, 0x00, 0x00, 0x00, 0x00, 0x00,
    0x00, 0x00, 0x00, 0x00, 0x00, 0x00, 0x00, 0x00, 0x00, 0x01, 0x00, 0x00, 0x00, 0x01, 0x4e, 0x00,
    0x20, 0x00, 0x00, 0x00, 0x00, 0x00, 0x01] ++
  [0x02]

set_option maxRecDepth 20000 in
private theorem keyArray_records : decodeAvlArray keyArray =
    .ok ⟨8, 2, [keyRecord 9007199254740992, keyRecord 9007199254740993]⟩ :=
  rfl

/-- Both are kept under `attrs` as 2^53. -/
theorem attrs_rounded : ∃ pkt r r',
    decodeAvlArray keyArray = .ok pkt ∧ pkt.records = [r, r'] ∧ r.io ≠ r'.io ∧
      ∀ imei, SameResult (normalize imei r) (normalize imei r') := by
  refine ⟨_, _, _, keyArray_records, rfl, fun h => ?_, fun imei => ?_⟩
  · have hvalue := congrArg (fun io => io.values.get 78) h
    simp [keyRecord, JsRecord.get_set] at hvalue
  · have hrounded : toNumber 9007199254740993 = toNumber 9007199254740992 := by decide +kernel
    refine (sameResult_iff imei _ _).mpr (Or.inr ?_)
    exact {
      timestamp := rfl
      priority := rfl
      gps := rfl
      eventId := rfl
      unnamed := fun id _ => by
        simp only [keyRecord, JsRecord.get_set]
        split
        · simp [hrounded]
        · rfl
      named := fun id spec hspec _ _ => by
        have hne : id ≠ 78 := by
          rintro rfl
          cases hspec
        simp only [keyRecord, JsRecord.get_set, if_neg hne]
      voltage := rfl }

/-! ## What is not lost -/

/-- Numbers up to 2^53 are not rounded. -/
theorem toNumber_of_lt {n : Nat} (h : n < 2 ^ 53) : toNumber n = n := by
  have hexp : n.log2 + 1 - 53 = 0 := by
    by_cases hn : n = 0
    · subst hn
      rfl
    · have hlog := (Nat.log2_lt hn).mpr h
      omega
  unfold toNumber
  simp only [hexp, Nat.pow_zero, Nat.mod_one, Nat.div_one, Nat.mul_one]
  simp

/-- A number is rounded to one of its neighbours. -/
theorem toNumber_near {n k : Nat} (h : n < 2 ^ (53 + k)) :
    n ≤ toNumber n + 2 ^ k ∧ toNumber n ≤ n + 2 ^ k := by
  have hexp : n.log2 + 1 - 53 ≤ k := by
    by_cases hn : n = 0
    · subst hn
      simp
    · have hlog := (Nat.log2_lt hn).mpr h
      omega
  have hpow : 2 ^ (n.log2 + 1 - 53) ≤ 2 ^ k := Nat.pow_le_pow_right (by simp) hexp
  have hsplit := Nat.div_add_mod n (2 ^ (n.log2 + 1 - 53))
  have hrest := Nat.mod_lt n (Nat.two_pow_pos (n.log2 + 1 - 53))
  unfold toNumber
  simp only
  generalize 2 ^ (n.log2 + 1 - 53) = step at *
  rw [Nat.mul_comm] at hsplit
  split
  · rw [Nat.succ_mul]
    omega
  · omega

/-- Values of at most 32 bits are not lost in the scaling of volts. -/
theorem milli_inj {n m : Nat} (hn : n < 2 ^ 32) (hm : m < 2 ^ 32) (h : milli n = milli m) :
    n = m := by
  have hnumber : toNumber (n * 4611686018427388) = toNumber (m * 4611686018427388) := by
    unfold milli at h
    rw [div_left_inj' (by simp)] at h
    exact_mod_cast h
  have hnear := @toNumber_near (n * 4611686018427388) 32 (by omega)
  have hnear' := @toNumber_near (m * 4611686018427388) 32 (by omega)
  omega

/-- A record with a valid date whose IO elements have values of at most 32 bits, none of them with
the id 66 and none of variable length. -/
structure Simple (r : AvlRecord) : Prop where
  timestamp : r.timestamp ≠ none
  values : ∀ e ∈ r.io.values.entries, e.2 < 2 ^ 32 ∧ e.1 ≠ 66
  variableIo : r.io.variableIo = JsRecord.empty

private theorem Simple.get_lt {r : AvlRecord} (h : Simple r) {id n : Nat}
    (hget : r.io.values.get id = some n) : n < 2 ^ 32 :=
  (h.values _ (JsRecord.get_eq_some_iff.mp hget)).1

private theorem Simple.get_voltage {r : AvlRecord} (h : Simple r) : r.io.values.get 66 = none := by
  by_contra hsome
  obtain ⟨n, hn⟩ := Option.ne_none_iff_exists'.mp hsome
  exact (h.values _ (JsRecord.get_eq_some_iff.mp hn)).2 rfl

/-- The values that an id can have are told apart. -/
private theorem option_map_inj {f : Nat → ℚ} {o o' : Option Nat} (ho : ∀ n, o = some n → n < 2 ^ 32)
    (ho' : ∀ n, o' = some n → n < 2 ^ 32)
    (hf : ∀ n m, n < 2 ^ 32 → m < 2 ^ 32 → f n = f m → n = m) (h : o.map f = o'.map f) :
    o = o' := by
  cases o with
  | none => exact (Option.map_eq_none_iff.mp h.symm).symm
  | some n =>
    cases o' with
    | none => cases h
    | some m => exact congrArg some (hf n m (ho n rfl) (ho' m rfl) (Option.some.inj h))

/-- A value is scaled to volts, or kept as it is. -/
private theorem scale_cases {id : Nat} {spec : Spec} (h : FTC927 id = some spec) :
    spec.scale = milli ∨ spec.scale = fun r : Nat => (r : ℚ) := by
  unfold FTC927 at h
  split at h <;> cases h <;> first | exact Or.inl rfl | exact Or.inr rfl

private theorem scale_inj {id : Nat} {spec : Spec} (h : FTC927 id = some spec) {n m : Nat}
    (hn : n < 2 ^ 32) (hm : m < 2 ^ 32)
    (heq : spec.scale (toNumber n) = spec.scale (toNumber m)) : n = m := by
  rw [toNumber_of_lt (by omega), toNumber_of_lt (by omega)] at heq
  rcases scale_cases h with hscale | hscale
  · rw [hscale] at heq
    exact milli_inj hn hm heq
  · rw [hscale] at heq
    simpa using heq

/-- **What is not lost**: the IO elements of simple records. -/
theorem io_eq_of_sameResult {imei : String} {r r' : AvlRecord} (h : Simple r) (h' : Simple r')
    (hsame : SameResult (normalize imei r) (normalize imei r')) : r.io = r'.io := by
  rcases (sameResult_iff imei r r').mp hsame with ⟨hnone, -⟩ | hblurred
  · exact absurd hnone h.timestamp
  -- below 2^32 toNumber is exact
  have hrounded : ∀ {o o' : Option Nat}, (∀ n, o = some n → n < 2 ^ 32) →
      (∀ n, o' = some n → n < 2 ^ 32) → o.map toNumber = o'.map toNumber → o = o' := by
    intro o o' ho ho' hmap
    refine option_map_inj ho ho' (f := fun n => (toNumber n : ℚ)) (fun n m hn hm heq => ?_)
      (map_cast_iff.mpr hmap)
    rw [toNumber_of_lt (by omega), toNumber_of_lt (by omega)] at heq
    exact_mod_cast heq
  have hvalues : r.io.values = r'.io.values := by
    refine JsRecord.ext_get fun id => ?_
    have hlt : ∀ n, r.io.values.get id = some n → n < 2 ^ 32 := fun n => h.get_lt
    have hlt' : ∀ n, r'.io.values.get id = some n → n < 2 ^ 32 := fun n => h'.get_lt
    cases hspec : FTC927 id with
    | none => exact hrounded hlt hlt' (hblurred.unnamed id hspec)
    | some spec =>
      -- a simple record has no 66, so 800 alone gives the voltage
      by_cases h66 : id = 66
      · rw [h66, h.get_voltage, h'.get_voltage]
      by_cases h800 : id = 800
      · have hvoltage := hblurred.voltage
        rw [h.get_voltage, h'.get_voltage, Option.or_none, Option.or_none, ← h800] at hvoltage
        exact hrounded hlt hlt' hvoltage
      · exact option_map_inj hlt hlt' (fun n m hn hm => scale_inj hspec hn hm)
          (hblurred.named id spec hspec h66 h800)
  have hevent := hblurred.eventId
  have hvariable := h.variableIo.trans h'.variableIo.symm
  generalize r.io = io at *
  generalize r'.io = io' at *
  -- the three parts make the whole element
  cases io
  cases io'
  simp only [IoElement.mk.injEq]
  exact ⟨hevent, hvalues, hvariable⟩

end FleetTracking.Ingestion
