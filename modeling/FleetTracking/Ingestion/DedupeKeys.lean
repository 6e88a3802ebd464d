import FleetTracking.Ingestion.Dedupe
import FleetTracking.Lib.Decimal
import Mathlib.Data.Set.Function

/-!
# Which Records Share a Dedupe Key

What is fed to the hash is cut at its commas and equals signs, so it determines the numbers that
stand alone between two of them. Where numbers are written one behind the other, it determines
their digits only, and some fields of a record are not fed to the hash at all.

1. `degreesText_eq`: a coordinate is a run of digits and what follows it.
2. `runs_eq_iff`: what the IO values determine.
3. `Confusable`: records with the same text; `dedupeKey_injective_iff`.
-/

namespace FleetTracking.Ingestion

open FleetTracking.Protocol
open Decimal

/-! ## Coordinates -/

/-- Degrees that are written without sign and exponent. -/
def Plain (a : Int) : Prop := a = 0 ∨ 10 ≤ a

instance (a : Int) : Decidable (Plain a) := inferInstanceAs (Decidable (a = 0 ∨ 10 ≤ a))

/-- The digits at the front of a coordinate. -/
private def lead (a : Int) : List Char :=
  if a < 0 then [] else if Plain a then digits (a.toNat / 10000000) else digits a.toNat

/-- What follows them. -/
private def tail (a : Int) : List Char :=
  if a < 0 then '-' :: (degreesText (-a)).toList
  else if Plain a then
    if trimmed 7 (a.toNat % 10000000) = [] then [] else '.' :: trimmed 7 (a.toNat % 10000000)
  else ['e', '-', '7']

private theorem degreesText_neg {a : Int} (h : a < 0) :
    degreesText a = "-" ++ degreesText (-a) := by
  have hpos : ¬ -a < 0 := by omega
  have hne : ¬ a.natAbs = 0 := by omega
  simp only [degreesText, Int.natAbs_neg, if_pos h, if_neg hpos, if_neg hne]
  split
  · simp [String.append_assoc]
  · split <;> simp [String.append_assoc]

theorem degreesText_eq (a : Int) : (degreesText a).toList = lead a ++ tail a := by
  unfold lead tail
  by_cases hneg : a < 0
  · rw [if_pos hneg, if_pos hneg, degreesText_neg hneg]
    simp
  have habs : a.natAbs = a.toNat := by omega
  rw [if_neg hneg, if_neg hneg]
  simp only [degreesText, if_neg hneg, habs]
  -- zero and 10 or more units print plainly, the rest with an exponent
  by_cases hplain : Plain a
  · rw [if_pos hplain, if_pos hplain]
    rcases hplain with rfl | hten
    · decide +kernel
    · have hne : ¬ a.toNat = 0 := by omega
      have hbig : ¬ a.toNat < 10 := by omega
      rw [if_neg hne, if_neg hbig]
      change (if (trimmed 7 (a.toNat % 10000000)).isEmpty then _ else
        "" ++ _ ++ "." ++ String.ofList (trimmed 7 (a.toNat % 10000000))).toList = _
      cases trimmed 7 (a.toNat % 10000000) with
      | nil => simp [digits]
      | cons c cs => simp [digits]
  · rw [if_neg hplain, if_neg hplain]
    rw [Plain, not_or] at hplain
    have hne : ¬ a.toNat = 0 := by omega
    have hsmall : a.toNat < 10 := by omega
    rw [if_neg hne, if_pos hsmall]
    simp [digits]

private theorem isDigit_of_mem_lead {a : Int} {c : Char} (h : c ∈ lead a) : c.isDigit = true := by
  unfold lead at h
  split at h
  · cases h
  · split at h
    · exact isDigit_of_mem_digits h
    · exact isDigit_of_mem_digits h

private theorem head_tail_neg (a : Int) : (tail a).head? = some '-' ↔ a < 0 := by
  unfold tail
  split
  case isTrue hneg => simp [hneg]
  case isFalse hpos =>
    split
    · split <;> simp [hpos]
    · simp [hpos]

private theorem head_tail_exp (a : Int) :
    (tail a).head? = some 'e' ↔ ¬ a < 0 ∧ ¬ Plain a := by
  unfold tail
  split
  case isTrue hneg => simp [hneg]
  case isFalse hpos =>
    split
    case isTrue hplain => split <;> simp [hplain]
    case isFalse hplain => simp [hpos, hplain]

/-- It is no digit. -/
private theorem head_tail (a : Int) : ∀ c ∈ (tail a).head?, ¬ c.isDigit = true := by
  unfold tail
  split
  · simp
  · split
    · split <;> simp
    · simp

/-- What stands behind the digits says how the coordinate is written. -/
private theorem kind_of_tail {a a' : Int} (h : tail a = tail a') :
    (a < 0 ↔ a' < 0) ∧ (Plain a ↔ Plain a') := by
  have hneg : a < 0 ↔ a' < 0 := by rw [← head_tail_neg, ← head_tail_neg, h]
  have hexp : (¬ a < 0 ∧ ¬ Plain a) ↔ (¬ a' < 0 ∧ ¬ Plain a') := by
    rw [← head_tail_exp, ← head_tail_exp, h]
  have hpos : ∀ {a : Int}, Plain a → ¬ a < 0 := by
    rintro a (rfl | hten)
    · simp
    · omega
  refine ⟨hneg, fun hplain => ?_, fun hplain => ?_⟩
  · by_contra hnot
    exact (hexp.mpr ⟨fun h => hpos hplain (hneg.mpr h), hnot⟩).2 hplain
  · by_contra hnot
    exact (hexp.mp ⟨fun h => hpos hplain (hneg.mp h), hnot⟩).2 hplain

/-- Digits and a coordinate behind them. -/
private theorem split_degrees {ds ds' : List Char} {a a' : Int}
    (hds : ∀ c ∈ ds, c.isDigit = true) (hds' : ∀ c ∈ ds', c.isDigit = true)
    (h : ds ++ (degreesText a).toList = ds' ++ (degreesText a').toList) :
    ds ++ lead a = ds' ++ lead a' ∧ tail a = tail a' := by
  rw [degreesText_eq, degreesText_eq, ← List.append_assoc, ← List.append_assoc] at h
  refine split_unique (fun c hc => ?_) (fun c hc => ?_) (head_tail a) (head_tail a') h
  · exact (List.mem_append.mp hc).elim (hds c) isDigit_of_mem_lead
  · exact (List.mem_append.mp hc).elim (hds' c) isDigit_of_mem_lead

/-- Two latitudes behind two priorities that give the same text although they need not be the
same: both without sign and exponent, with the same fraction, and with whole degrees that give the
same digits behind the priorities. -/
structure RunTogether (p p' : Nat) (a a' : Int) : Prop where
  plain : Plain a ∧ Plain a'
  fraction : a % 10000000 = a' % 10000000
  whole : toString p ++ toString (a / 10000000).toNat =
    toString p' ++ toString (a' / 10000000).toNat

private theorem tail_plain {a : Int} (h : Plain a) : tail a =
    if trimmed 7 (a.toNat % 10000000) = [] then [] else '.' :: trimmed 7 (a.toNat % 10000000) := by
  have hpos : ¬ a < 0 := by
    rcases h with rfl | hten
    · simp
    · omega
  rw [tail, if_neg hpos, if_pos h]

private theorem lead_plain {a : Int} (h : Plain a) : lead a = digits (a / 10000000).toNat := by
  have hpos : ¬ a < 0 := by
    rcases h with rfl | hten
    · simp
    · omega
  have hwhole : a.toNat / 10000000 = (a / 10000000).toNat := by omega
  rw [lead, if_neg hpos, if_pos h, hwhole]

private theorem fraction_of_tail {a a' : Int} (ha : Plain a) (ha' : Plain a') :
    tail a = tail a' ↔ a % 10000000 = a' % 10000000 := by
  have hpos : 0 ≤ a ∧ 0 ≤ a' := by
    unfold Plain at ha ha'
    omega
  rw [tail_plain ha, tail_plain ha']
  constructor
  · intro h
    have htrimmed : trimmed 7 (a.toNat % 10000000) = trimmed 7 (a'.toNat % 10000000) := by
      split at h
      case isTrue hnil =>
        split at h
        case isTrue hnil' => rw [hnil, hnil']
        case isFalse => cases h
      case isFalse =>
        split at h
        case isTrue => cases h
        case isFalse => exact (List.cons.inj h).2
    have hfrac := trimmed_inj (by omega) (by omega) (by simp) htrimmed
    omega
  · intro h
    have hfrac : a.toNat % 10000000 = a'.toNat % 10000000 := by omega
    rw [hfrac]

private theorem lead_exp {a : Int} (hpos : ¬ a < 0) (h : ¬ Plain a) :
    lead a = digits a.toNat ∧ a.toNat < 10 := by
  refine ⟨by rw [lead, if_neg hpos, if_neg h], ?_⟩
  rw [Plain, not_or] at h
  omega

private theorem degreesText_inj_of_nonneg {a a' : Int} (ha : 0 ≤ a) (ha' : 0 ≤ a')
    (h : degreesText a = degreesText a') : a = a' := by
  obtain ⟨hlead, htail⟩ := @split_degrees [] [] a a' (by simp) (by simp) (by simp [h])
  rw [List.nil_append, List.nil_append] at hlead
  by_cases hplain : Plain a
  · have hplain' := (kind_of_tail htail).2.mp hplain
    rw [lead_plain hplain, lead_plain hplain'] at hlead
    have hwhole := digits_inj hlead
    have hfrac := (fraction_of_tail hplain hplain').mp htail
    omega
  · have hplain' := mt (kind_of_tail htail).2.mpr hplain
    rw [(lead_exp (by omega) hplain).1, (lead_exp (by omega) hplain').1] at hlead
    have hsame := digits_inj hlead
    omega

private theorem neg_of_tail {a a' : Int} (hneg : a < 0) (hneg' : a' < 0)
    (h : tail a = tail a') : a = a' := by
  rw [tail, tail, if_pos hneg, if_pos hneg'] at h
  have hsame := degreesText_inj_of_nonneg (by omega) (by omega)
    (String.toList_inj.mp (List.cons.inj h).2)
  omega

/-- The text of a coordinate determines it. -/
theorem degreesText_inj {a a' : Int} (h : degreesText a = degreesText a') : a = a' := by
  obtain ⟨-, htail⟩ := @split_degrees [] [] a a' (by simp) (by simp) (by simp [h])
  by_cases hneg : a < 0
  · exact neg_of_tail hneg ((kind_of_tail htail).1.mp hneg) htail
  · have hneg' := mt (kind_of_tail htail).1.mpr hneg
    exact degreesText_inj_of_nonneg (by omega) (by omega) h

/-- What a number and a coordinate behind it determine. -/
theorem number_degrees_iff {p p' : Nat} {a a' : Int} :
    toString p ++ degreesText a = toString p' ++ degreesText a' ↔
      (p = p' ∧ a = a') ∨ RunTogether p p' a a' := by
  constructor
  · intro h
    have hchars := congrArg String.toList h
    rw [String.toList_append, String.toList_append] at hchars
    obtain ⟨hlead, htail⟩ := split_degrees (fun c hc => isDigit_of_mem_digits hc)
      (fun c hc => isDigit_of_mem_digits hc) hchars
    obtain ⟨hsign, hkind⟩ := kind_of_tail htail
    by_cases hneg : a < 0
    · -- the sign ends the digits of the number
      left
      have hneg' := hsign.mp hneg
      rw [lead, lead, if_pos hneg, if_pos hneg', List.append_nil, List.append_nil] at hlead
      exact ⟨digits_inj hlead, neg_of_tail hneg hneg' htail⟩
    by_cases hplain : Plain a
    · right
      have hplain' := hkind.mp hplain
      rw [lead_plain hplain, lead_plain hplain'] at hlead
      refine ⟨⟨hplain, hplain'⟩, (fraction_of_tail hplain hplain').mp htail, ?_⟩
      rw [← String.toList_inj, String.toList_append, String.toList_append]
      exact hlead
    · -- a single digit stands before the exponent
      left
      obtain ⟨hdigit, hlt⟩ := lead_exp hneg hplain
      obtain ⟨hdigit', hlt'⟩ := lead_exp (mt hsign.mpr hneg) (mt hkind.mpr hplain)
      rw [hdigit, hdigit'] at hlead
      obtain ⟨hp, ha⟩ := List.append_inj' hlead
        (by rw [length_digits_of_lt hlt, length_digits_of_lt hlt'])
      have hsame := digits_inj ha
      exact ⟨digits_inj hp, by omega⟩
  · rintro (⟨rfl, rfl⟩ | ⟨⟨hplain, hplain'⟩, hfrac, hwhole⟩)
    · rfl
    · have htail := (fraction_of_tail hplain hplain').mpr hfrac
      have hchars := congrArg String.toList hwhole
      rw [String.toList_append, String.toList_append] at hchars
      rw [← String.toList_inj, String.toList_append, String.toList_append, degreesText_eq,
        degreesText_eq, htail, ← List.append_assoc, ← List.append_assoc, lead_plain hplain,
        lead_plain hplain']
      exact congrArg (· ++ tail a') hchars

/-! ## IO values -/

/-- The digits between the equals signs of a text that begins with `text` and goes on with the IO
values: each number is written behind what comes before it. -/
def runs : String → List (Nat × Nat) → List String
  | text, [] => [text]
  | text, e :: rest => (text ++ toString e.1) :: runs (toString e.2) rest

/-- The text of the IO values. -/
def valuesText (l : List (Nat × Nat)) : String :=
  String.join (l.map fun e => toString e.1 ++ "=" ++ toString e.2)

private theorem valuesText_cons (e : Nat × Nat) (l : List (Nat × Nat)) :
    valuesText (e :: l) = toString e.1 ++ "=" ++ toString e.2 ++ valuesText l := by
  rw [valuesText, List.map_cons, String.join_cons]
  rfl

/-- A text of digits has no other character. -/
private theorem notMem_of_digits {cs : List Char} {c : Char} (h : ∀ c ∈ cs, c.isDigit = true)
    (hc : c.isDigit = false) : c ∉ cs := by
  intro hmem
  rw [h c hmem] at hc
  cases hc

private theorem digits_append {text : String} {n : Nat}
    (h : ∀ c ∈ text.toList, c.isDigit = true) :
    ∀ c ∈ (text ++ toString n).toList, c.isDigit = true := by
  intro c hc
  rw [String.toList_append] at hc
  exact (List.mem_append.mp hc).elim (h c) isDigit_of_mem_digits

private theorem runs_ne_nil (text : String) (l : List (Nat × Nat)) : runs text l ≠ [] := by
  cases l with
  | nil => simp [runs]
  | cons e l => simp [runs]

/-- The text up to the first equals sign, and behind it. -/
private theorem text_cons (text : String) (e : Nat × Nat) (l : List (Nat × Nat)) :
    (text ++ valuesText (e :: l)).toList =
      (text ++ toString e.1).toList ++ '=' :: (toString e.2 ++ valuesText l).toList := by
  simp [valuesText_cons]

/-- The text is cut at the equals signs. -/
theorem runs_eq_iff {text text' : String} {l l' : List (Nat × Nat)}
    (htext : ∀ c ∈ text.toList, c.isDigit = true) (htext' : ∀ c ∈ text'.toList, c.isDigit = true) :
    text ++ valuesText l = text' ++ valuesText l' ↔ runs text l = runs text' l' := by
  induction l generalizing text text' l' with
  | nil =>
    cases l' with
    | nil => simp [valuesText, runs]
    | cons e' l' =>
      -- a text without an equals sign is no text with one
      refine ⟨fun h => ?_, fun h => absurd (List.cons.inj h).2.symm (runs_ne_nil _ _)⟩
      have hchars := congrArg String.toList h
      rw [text_cons] at hchars
      have hmem : '=' ∈ (text ++ valuesText []).toList := hchars ▸ by simp
      rw [show text ++ valuesText [] = text by simp [valuesText]] at hmem
      exact absurd hmem (notMem_of_digits htext rfl)
  | cons e l ih =>
    cases l' with
    | nil =>
      refine ⟨fun h => ?_, fun h => absurd (List.cons.inj h).2 (runs_ne_nil _ _)⟩
      have hchars := congrArg String.toList h
      rw [text_cons] at hchars
      have hmem : '=' ∈ (text' ++ valuesText []).toList := hchars ▸ by simp
      rw [show text' ++ valuesText [] = text' by simp [valuesText]] at hmem
      exact absurd hmem (notMem_of_digits htext' rfl)
    | cons e' l' =>
      have hrest := @ih (toString e.2) (toString e'.2) l'
        (fun c hc => isDigit_of_mem_digits hc) (fun c hc => isDigit_of_mem_digits hc)
      rw [runs, runs, List.cons.injEq, ← hrest, ← String.toList_inj, text_cons, text_cons]
      constructor
      · intro h
        -- digits end at the first equals sign on both sides
        obtain ⟨hfront, hback⟩ := split_at (notMem_of_digits (digits_append htext) rfl)
          (notMem_of_digits (digits_append htext') rfl) h
        exact ⟨String.toList_inj.mp hfront, String.toList_inj.mp hback⟩
      · rintro ⟨hfront, hback⟩
        rw [hfront, hback]

/-! ## Records -/

/-- Records with the same text: the same timestamp, longitude and speed; the same priority and
latitude, or two that run together; the same runs of digits from the angle on. The altitude, the
satellites and the variable elements may be any. -/
structure Confusable (r r' : AvlRecord) : Prop where
  timestamp : r.timestamp = r'.timestamp
  latitude : (r.priority = r'.priority ∧ r.gps.latitude = r'.gps.latitude) ∨
    RunTogether r.priority r'.priority r.gps.latitude r'.gps.latitude
  longitude : r.gps.longitude = r'.gps.longitude
  speed : r.gps.speed = r'.gps.speed
  values : runs (toString r.gps.angle ++ toString r.io.eventId) (sortedValues r.io.values) =
    runs (toString r'.gps.angle ++ toString r'.io.eventId) (sortedValues r'.io.values)

/-- The text of a time determines the date. -/
theorem timeText_inj {d d' : JsDate} (h : d.timeText = d'.timeText) : d = d' := by
  have hnumber : ∀ ms : Nat, toString ms ≠ "NaN" := by
    intro ms heq
    have hmem : 'N' ∈ (toString ms).toList := by simp [heq]
    exact notMem_of_digits (fun c hc => isDigit_of_mem_digits hc) rfl hmem
  cases d with
  | none =>
    cases d' with
    | none => rfl
    | some ms => exact absurd h.symm (hnumber ms)
  | some ms =>
    cases d' with
    | none => exact absurd h (hnumber ms)
    | some ms' => exact congrArg some (digits_inj (congrArg String.toList h))

/-- A coordinate has no comma. -/
private theorem comma_notMem_degreesText (a : Int) : ',' ∉ (degreesText a).toList := by
  have hpos : ∀ a : Int, 0 ≤ a → ',' ∉ (degreesText a).toList := by
    intro a ha hmem
    have hneg : ¬ a < 0 := by omega
    rw [degreesText_eq, List.mem_append] at hmem
    rcases hmem with hmem | hmem
    · exact absurd (isDigit_of_mem_lead hmem) (by simp)
    · unfold tail at hmem
      rw [if_neg hneg] at hmem
      split at hmem
      · split at hmem
        · cases hmem
        · rcases List.mem_cons.mp hmem with heq | hmem
          · cases heq
          · exact absurd (isDigit_of_mem_trimmed hmem) (by simp)
      · simp at hmem
  by_cases hneg : a < 0
  · rw [degreesText_neg hneg, String.toList_append, List.mem_append, not_or]
    exact ⟨by simp, hpos _ (by omega)⟩
  · exact hpos a (by omega)

/-- What is fed to the hash, cut at its commas. -/
private theorem dedupeText_toList (imei : String) (r : AvlRecord) :
    (dedupeText imei r).toList = (imei ++ r.timestamp.timeText).toList ++
      ((toString r.priority ++ degreesText r.gps.latitude).toList ++
        ',' :: ((degreesText r.gps.longitude).toList ++ ',' :: (digits r.gps.speed ++
          ',' :: (toString r.gps.angle ++ toString r.io.eventId ++
            valuesText (sortedValues r.io.values)).toList))) := by
  simp only [dedupeText, valuesText, digits, String.toList_append, String.toList_join]
  simp

private theorem isDigit_of_mem_angle {r : AvlRecord} :
    ∀ c ∈ (toString r.gps.angle ++ toString r.io.eventId).toList, c.isDigit = true :=
  digits_append fun _ hc => isDigit_of_mem_digits hc

/-- Records of one time have the same text exactly if they are confusable. -/
theorem dedupeText_eq_iff {imei : String} {r r' : AvlRecord} (htime : r.timestamp = r'.timestamp) :
    dedupeText imei r = dedupeText imei r' ↔ Confusable r r' := by
  -- the commas are the only separators: the text is split at the first, the second and the third
  have hfirst : ∀ r : AvlRecord,
      ',' ∉ (toString r.priority ++ degreesText r.gps.latitude).toList := by
    intro r
    rw [String.toList_append, List.mem_append, not_or]
    exact ⟨notMem_of_digits (fun c hc => isDigit_of_mem_digits hc) rfl,
      comma_notMem_degreesText _⟩
  have hspeed : ∀ r : AvlRecord, ',' ∉ digits r.gps.speed := fun r =>
    notMem_of_digits (fun c hc => isDigit_of_mem_digits hc) rfl
  rw [← String.toList_inj, dedupeText_toList, dedupeText_toList, htime]
  constructor
  · intro h
    obtain ⟨hlatitude, hrest⟩ := split_at (hfirst r) (hfirst r') (List.append_cancel_left h)
    obtain ⟨hlongitude, hrest⟩ :=
      split_at (comma_notMem_degreesText _) (comma_notMem_degreesText _) hrest
    obtain ⟨hspeeds, hvalues⟩ := split_at (hspeed r) (hspeed r') hrest
    exact {
      timestamp := htime
      latitude := number_degrees_iff.mp (String.toList_inj.mp hlatitude)
      longitude := degreesText_inj (String.toList_inj.mp hlongitude)
      speed := digits_inj hspeeds
      values := (runs_eq_iff isDigit_of_mem_angle isDigit_of_mem_angle).mp
        (String.toList_inj.mp hvalues) }
  · intro h
    rw [number_degrees_iff.mpr h.latitude, h.longitude, h.speed,
      (runs_eq_iff isDigit_of_mem_angle isDigit_of_mem_angle).mpr h.values]

/-- The part of the digest that goes into the key. -/
def truncated (sha1 : String → String) (text : String) : List Char := (sha1 text).toList.take 16

/-- A key consists of the IMEI, the time and the digest. -/
theorem dedupeKey_eq_iff {sha1 : String → String} {imei : String} {r r' : AvlRecord} :
    dedupeKey sha1 imei r = dedupeKey sha1 imei r' ↔ r.timestamp = r'.timestamp ∧
      truncated sha1 (dedupeText imei r) = truncated sha1 (dedupeText imei r') := by
  have htoList : ∀ r : AvlRecord, (dedupeKey sha1 imei r).toList = imei.toList ++
      ':' :: (r.timestamp.timeText.toList ++ ':' :: truncated sha1 (dedupeText imei r)) := by
    intro r
    simp [dedupeKey, truncated]
  have htime : ∀ d : JsDate, ':' ∉ d.timeText.toList := by
    intro d
    cases d with
    | none => simp [JsDate.timeText]
    | some ms => exact notMem_of_digits (fun c hc => isDigit_of_mem_digits hc) rfl
  rw [← String.toList_inj, htoList, htoList]
  constructor
  · intro h
    have hrest := (List.cons.inj (List.append_cancel_left h)).2
    obtain ⟨htimes, hdigest⟩ := split_at (htime _) (htime _) hrest
    exact ⟨timeText_inj (String.toList_inj.mp htimes), hdigest⟩
  · rintro ⟨htimes, hdigest⟩
    rw [htimes, hdigest]

variable {sha1 : String → String} {imei : String} {r r' : AvlRecord}

/-- **When records with one key are one record**: as long as the digests of the two texts differ
if the texts do, exactly if they are not two confusable records. -/
theorem dedupeKey_injective_iff
    (hsha1 : Set.InjOn (truncated sha1) {dedupeText imei r, dedupeText imei r'}) :
    (dedupeKey sha1 imei r = dedupeKey sha1 imei r' → r = r') ↔ (Confusable r r' → r = r') := by
  have hkey : dedupeKey sha1 imei r = dedupeKey sha1 imei r' ↔ Confusable r r' := by
    rw [dedupeKey_eq_iff]
    constructor
    · rintro ⟨htime, hdigest⟩
      exact (dedupeText_eq_iff htime).mp (hsha1 (by simp) (by simp) hdigest)
    · intro h
      exact ⟨h.timestamp, by rw [(dedupeText_eq_iff h.timestamp).mpr h]⟩
  rw [hkey]

/-- A record with nothing but a priority and a latitude. -/
def sampleRecord (priority : Nat) (latitude : Int) : AvlRecord where
  timestamp := some 1735689600000
  priority
  gps := ⟨0, latitude, 0, 0, 0, 0⟩
  io := ⟨0, JsRecord.empty, JsRecord.empty⟩

/-- The digests of two texts. -/
def sampleDigests (text : String) : String :=
  if text = "3520930864036551735689600000123.5,0,0,00" then "14195f95351b9f70253ceaa375479dbd10f1181c"
  else if text = "352093086403655173568960000013.5,0,0,00" then "2b5f48e2b509be8570fc50f93ade872357de101c"
  else ""

/-- Two records of one priority and time, at 23.5 and at 3.5 degrees. -/
theorem sample_dedupeKey_injective :
    (dedupeKey sampleDigests "352093086403655" (sampleRecord 1 235000000) =
        dedupeKey sampleDigests "352093086403655" (sampleRecord 1 35000000) →
      sampleRecord 1 235000000 = sampleRecord 1 35000000) ↔
    (Confusable (sampleRecord 1 235000000) (sampleRecord 1 35000000) →
      sampleRecord 1 235000000 = sampleRecord 1 35000000) := by
  have htext : dedupeText "352093086403655" (sampleRecord 1 235000000) =
      "3520930864036551735689600000123.5,0,0,00" := by
    decide +kernel
  have htext' : dedupeText "352093086403655" (sampleRecord 1 35000000) =
      "352093086403655173568960000013.5,0,0,00" := by
    decide +kernel
  refine dedupeKey_injective_iff ?_
  rw [htext, htext', Set.injOn_pair]
  intro h
  revert h
  decide +kernel

/-- Two records of one time: priority 1 at 23.5 degrees, and priority 12 at 3.5 degrees. -/
def collidingArray : Buffer :=
  [0x08, 0x02] ++
  [0x00, 0x00, 0x01, 0x94, 0x1f, 0x29, 0x7c, 0x00, 0x01, 0x00, 0x00, 0x00, 0x00, 0x0e, 0x01, 0xd0,
    0xc0, 0x00, 0x00, 0x00, 0x00, 0x00, 0x00, 0x00, 0x00, 0x00, 0x00, 0x00, 0x00, 0x00] ++
  [0x00, 0x00, 0x01, 0x94, 0x1f, 0x29, 0x7c, 0x00, 0x0c, 0x00, 0x00, 0x00, 0x00, 0x02, 0x16, 0x0e,
    0xc0, 0x00, 0x00, 0x00, 0x00, 0x00, 0x00, 0x00, 0x00, 0x00, 0x00, 0x00, 0x00, 0x00] ++
  [0x02]

set_option maxRecDepth 20000 in
private theorem collidingArray_records : decodeAvlArray collidingArray =
    .ok ⟨8, 2, [sampleRecord 1 235000000, sampleRecord 12 35000000]⟩ :=
  rfl

/-- The two are fed to the hash as one text. -/
theorem distinct_records_collide : ∃ pkt r r',
    decodeAvlArray collidingArray = .ok pkt ∧ pkt.records = [r, r'] ∧ r ≠ r' ∧
      ∀ sha1 imei, Set.InjOn (truncated sha1) {dedupeText imei r, dedupeText imei r'} ∧
        dedupeKey sha1 imei r = dedupeKey sha1 imei r' := by
  refine ⟨_, _, _, collidingArray_records, rfl, fun h => ?_, fun sha1 imei => ?_⟩
  · have hpriority := congrArg AvlRecord.priority h
    cases hpriority
  · have hconfusable : Confusable (sampleRecord 1 235000000) (sampleRecord 12 35000000) := {
      timestamp := rfl
      latitude := Or.inr ⟨by simp [Plain, sampleRecord], rfl, rfl⟩
      longitude := rfl
      speed := rfl
      values := rfl }
    have htext : dedupeText imei (sampleRecord 1 235000000) =
        dedupeText imei (sampleRecord 12 35000000) :=
      (dedupeText_eq_iff hconfusable.timestamp).mpr hconfusable
    rw [dedupeKey_eq_iff, htext]
    exact ⟨by simp, rfl, rfl⟩

end FleetTracking.Ingestion
