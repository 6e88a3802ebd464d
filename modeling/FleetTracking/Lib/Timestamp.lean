import FleetTracking.Lib.JsDate
import Mathlib.Algebra.Group.Nat.Defs
import Mathlib.Order.Monotone.Basic

/-!
# Timestamps

A `timestamptz` column of Postgres takes an ISO 8601 text of a date that exists, with a year of four
digits. It does not take the signed years of six digits that JavaScript writes after the year 9999.

1. `civil_valid`: a `Date` is always a date that exists.
2. `pgTimestamp`: the texts that are taken, of those in the format of `toISOString`.
3. `pgTimestamp_isoText`: which dates are taken.
-/

namespace JsDate

/-! ## Dates that exist -/

def leapYear (year : Nat) : Bool := year % 4 = 0 ∧ (year % 100 ≠ 0 ∨ year % 400 = 0)

/-- The number of days of a month. -/
def daysIn (year month : Nat) : Nat :=
  if month = 2 then if leapYear year then 29 else 28
  else if month ∈ [4, 6, 9, 11] then 30
  else 31

/-- The year of an era of 400 years in which its day `doe` lies. -/
def eraYear (doe : Nat) : Nat := (doe - doe / 1460 + doe / 36524 - doe / 146096) / 365

/-- The first day of a year of an era; years begin in March. -/
def yearStart (y : Nat) : Nat := 365 * y + y / 4 - y / 100 + y / 400

theorem daysIn_le (year month : Nat) : daysIn year month ≤ 31 := by
  unfold daysIn
  split
  · split <;> decide
  · split <;> decide

theorem eraYear_mono : Monotone eraYear := by
  apply monotone_nat_of_le_succ
  intro doe
  unfold eraYear
  apply Nat.div_le_div_right
  omega

theorem eraYear_bounds : ∀ y < 400,
    eraYear (yearStart y) = y ∧ eraYear (yearStart (y + 1) - 1) = y := by
  decide +kernel

/-- A day lies in one of the years. -/
theorem exists_year {doe n : Nat} (h : doe < yearStart n) :
    ∃ y < n, yearStart y ≤ doe ∧ doe < yearStart (y + 1) := by
  induction n with
  | zero => exact absurd h (Nat.not_lt_zero _)
  | succ n ih =>
    by_cases hlast : yearStart n ≤ doe
    · exact ⟨n, Nat.lt_succ_self n, hlast, h⟩
    · obtain ⟨y, hy, hin⟩ := ih (Nat.lt_of_not_le hlast)
      exact ⟨y, Nat.lt_succ_of_lt hy, hin⟩

theorem eraYear_spec {doe : Nat} (h : doe < 146097) : eraYear doe < 400 ∧
    yearStart (eraYear doe) ≤ doe ∧ doe < yearStart (eraYear doe + 1) := by
  obtain ⟨y, hy, hlow, hhigh⟩ := exists_year (n := 400) h
  obtain ⟨hstart, hstop⟩ := eraYear_bounds y hy
  have hyear : eraYear doe = y := by
    apply Nat.le_antisymm
    · rw [← hstop]
      exact eraYear_mono (Nat.le_sub_one_of_lt hhigh)
    · rw [← hstart]
      exact eraYear_mono hlow
  rw [hyear]
  exact ⟨hy, hlow, hhigh⟩

/-- A year has 366 days if the February at its end is that of a leap year. -/
theorem yearStart_succ : ∀ y < 400,
    yearStart (y + 1) = yearStart y + if leapYear (y + 1) then 366 else 365 := by
  decide +kernel

/-- Month and day of the day `doy` of a year that begins in March. -/
theorem month_day : ∀ doy < 366, let mp := (5 * doy + 2) / 153
    let day := doy - (153 * mp + 2) / 5 + 1
    mp < 12 ∧ 1 ≤ day ∧ day ≤ 31 ∧ (mp ∈ [1, 3, 6, 8] → day ≤ 30) ∧
      (mp = 11 → day ≤ 29 ∧ (day = 29 → doy = 365)) := by
  decide +kernel

theorem leapYear_era (y era : Nat) : leapYear (y + era * 400) = leapYear y := by
  unfold leapYear
  congr 1
  apply propext
  omega

/-- The date of a day, from its era, its year and its day of the year. -/
theorem civil_parts (days : Nat) : ∃ era yoe doy,
    days + 719468 = era * 146097 + yearStart yoe + doy ∧ yoe < 400 ∧ doy < 366 ∧
      (doy = 365 → leapYear (yoe + 1) = true) ∧
      civil days =
        let mp := (5 * doy + 2) / 153
        let month := if mp < 10 then mp + 3 else mp - 9
        (yoe + era * 400 + (if month ≤ 2 then 1 else 0), month, doy - (153 * mp + 2) / 5 + 1) := by
  have hdoe : (days + 719468) % 146097 < 146097 := Nat.mod_lt _ (by decide)
  obtain ⟨hyear, hlow, hhigh⟩ := eraYear_spec hdoe
  have hnext := yearStart_succ _ hyear
  have hsplit := Nat.div_add_mod (days + 719468) 146097
  unfold civil
  simp only
  -- era and day of the era are independent of each other from here on
  generalize (days + 719468) / 146097 = era at *
  generalize (days + 719468) % 146097 = doe at *
  rw [show (doe - doe / 1460 + doe / 36524 - doe / 146096) / 365 = eraYear doe from rfl]
  generalize eraYear doe = yoe at *
  have hstart : 365 * yoe + yoe / 4 - yoe / 100 = yearStart yoe := by
    unfold yearStart
    omega
  rw [hstart]
  obtain ⟨doy, rfl⟩ : ∃ doy, doe = yearStart yoe + doy := ⟨doe - yearStart yoe, by omega⟩
  rw [Nat.add_sub_cancel_left]
  refine ⟨era, yoe, doy, by omega, hyear, by split at hnext <;> omega, fun hlast => ?_, rfl⟩
  split at hnext
  case isTrue hleap => exact hleap
  case isFalse => omega

/-- **A `Date` is a date that exists.** -/
theorem civil_valid (days : Nat) : 1 ≤ (civil days).2.1 ∧ (civil days).2.1 ≤ 12 ∧
    1 ≤ (civil days).2.2 ∧ (civil days).2.2 ≤ daysIn (civil days).1 (civil days).2.1 := by
  obtain ⟨era, yoe, doy, -, -, hdoy, hleap, hcivil⟩ := civil_parts days
  obtain ⟨hmp, hday, h31, h30, h29⟩ := month_day doy hdoy
  rw [hcivil]
  simp only
  generalize (5 * doy + 2) / 153 = mp at *
  generalize doy - (153 * mp + 2) / 5 + 1 = day at *
  refine ⟨by split <;> omega, by split <;> omega, hday, ?_⟩
  by_cases hfeb : mp = 11
  · -- the last month of the year; its 29th day is there if the year has 366 days
    subst hfeb
    have hyear : yoe + era * 400 + 1 = yoe + 1 + era * 400 := by omega
    simp only [show ¬ 11 < 10 by decide, if_false, show 11 - 9 = 2 from rfl, Nat.le_refl, if_true,
      hyear, daysIn, leapYear_era]
    obtain ⟨hday29, hlast⟩ := h29 rfl
    split
    case isTrue => exact hday29
    case isFalse hplain =>
      have hnot : day ≠ 29 := fun h => hplain (hleap (hlast h))
      omega
  · have hmonth : (if mp < 10 then mp + 3 else mp - 9) ≠ 2 := by split <;> omega
    have hlist : (if mp < 10 then mp + 3 else mp - 9) ∈ [4, 6, 9, 11] ↔ mp ∈ [1, 3, 6, 8] := by
      simp only [List.mem_cons, List.not_mem_nil, or_false]
      split <;> omega
    rw [daysIn, if_neg hmonth]
    by_cases hshort : mp ∈ [1, 3, 6, 8]
    · rw [if_pos (hlist.mpr hshort)]
      exact h30 hshort
    · rw [if_neg (mt hlist.mp hshort)]
      exact h31

/-- The last day of the year 9999. -/
theorem civil_year_le (days : Nat) : (civil days).1 ≤ 9999 ↔ days < 2932897 := by
  obtain ⟨era, yoe, doy, hdays, hyoe, hdoy, hleap, hcivil⟩ := civil_parts days
  have hnext := yearStart_succ yoe hyoe
  rw [hcivil]
  simp only
  have hmonth : (if (5 * doy + 2) / 153 < 10 then (5 * doy + 2) / 153 + 3
      else (5 * doy + 2) / 153 - 9) ≤ 2 ↔ 306 ≤ doy := by
    split <;> omega
  rw [if_congr hmonth rfl rfl]
  have hstart : yearStart yoe = 365 * yoe + yoe / 4 - yoe / 100 := by
    unfold yearStart
    omega
  split <;> omega

/-! ## The texts that are taken -/

/-- The digits of a number, padded to their width, are read as the number. -/
theorem digits_padded {width n : Nat} (h : n < 10 ^ width) (hwidth : 0 < width) (cs : List Char) :
    digits width ((padded width n).toList ++ cs) = some (n, cs) := by
  -- the zeros fill the width up and add nothing to the value
  have hlength : (Nat.toDigits 10 n).length ≤ width :=
    (Nat.length_toDigits_le_iff (by decide) hwidth).mpr h
  have htext : (padded width n).toList =
      List.replicate (width - (Nat.toDigits 10 n).length) '0' ++ Nat.toDigits 10 n := by
    simp only [padded, Nat.toString_eq_ofList_toDigits, String.toList_append, String.toList_ofList,
      String.length_ofList]
  rw [htext]
  generalize hds : List.replicate (width - (Nat.toDigits 10 n).length) '0' ++
    Nat.toDigits 10 n = ds
  have hlen : ds.length = width := by
    rw [← hds, List.length_append, List.length_replicate]
    omega
  have hall : ds.all Char.isDigit = true := by
    rw [List.all_eq_true]
    intro c hc
    rw [← hds] at hc
    rcases List.mem_append.mp hc with hc | hc
    · rw [List.eq_of_mem_replicate hc]
      rfl
    · exact Nat.isDigit_of_mem_toDigits (by decide) (by decide) hc
  have hvalue : ds.foldl (fun v d => 10 * v + (d.toNat - 48)) 0 = n := by
    rw [← hds]
    show Nat.ofDigitChars 10 _ 0 = n
    rw [Nat.ofDigitChars_append, Nat.ofDigitChars_replicate_zero, Nat.mul_zero,
      Nat.ofDigitChars_ten_toDigits]
  rw [digits, List.take_left' hlen, List.drop_left' hlen, if_pos ⟨hlen, hall⟩, hvalue]

/-- Does Postgres take the text, one in the format of `toISOString`, for a `timestamptz`? -/
def pgTimestamp (ts : String) : Bool :=
  let checked : Option Bool := do
    let (year, cs) ← digits 4 ts.toList
    let (month, cs) ← digits 2 (← char '-' cs)
    let (day, cs) ← digits 2 (← char '-' cs)
    let (h, cs) ← digits 2 (← char 'T' cs)
    let (m, cs) ← digits 2 (← char ':' cs)
    let (sec, cs) ← digits 2 (← char ':' cs)
    let (_, cs) ← digits 3 (← char '.' cs)
    pure (decide (1 ≤ year ∧ 1 ≤ month ∧ month ≤ 12 ∧ 1 ≤ day ∧ day ≤ daysIn year month ∧ h < 24 ∧
      m < 60 ∧ sec < 60 ∧ cs = ['Z']))
  checked.getD false

theorem char_cons (c : Char) (cs : List Char) : char c (c :: cs) = some cs := if_pos rfl

/-- A separator that is there is passed over. -/
private theorem char_bind {α : Type} (c : Char) (cs : List Char) (f : List Char → Option α) :
    (char c (c :: cs)).bind f = f cs := by
  rw [char_cons, Option.bind_some]

/-- A padded number is read. -/
private theorem padded_bind {α : Type} {width n : Nat} (h : n < 10 ^ width) (hwidth : 0 < width)
    (cs : List Char) (f : Nat × List Char → Option α) :
    (digits width ((padded width n).toList ++ cs)).bind f = f (n, cs) := by
  rw [digits_padded h hwidth, Option.bind_some]

/-- A sign is not a digit. -/
private theorem sign_bind {α : Type} (cs : List Char) (f : Nat × List Char → Option α) :
    (digits 4 ('+' :: cs)).bind f = none := by
  have hnone : digits 4 ('+' :: cs) = none := by
    rw [digits, if_neg]
    intro ⟨_, hall⟩
    simp [List.all_cons] at hall
  rw [hnone, Option.bind_none]

/-- A text of padded numbers is taken if they are those of a time. The text is read from the left,
each part before what follows it. -/
private theorem pgTimestamp_padded {ts : String} {y mo d h m sec ms : Nat} (hy : y < 10 ^ 4)
    (hmo : mo < 10 ^ 2) (hd : d < 10 ^ 2) (hh : h < 10 ^ 2) (hm : m < 10 ^ 2) (hs : sec < 10 ^ 2)
    (hms : ms < 10 ^ 3)
    (hts : ts.toList = (padded 4 y).toList ++ '-' :: ((padded 2 mo).toList ++
      '-' :: ((padded 2 d).toList ++ 'T' :: ((padded 2 h).toList ++ ':' :: ((padded 2 m).toList ++
      ':' :: ((padded 2 sec).toList ++ '.' :: ((padded 3 ms).toList ++ ['Z']))))))) :
    pgTimestamp ts = decide (1 ≤ y ∧ 1 ≤ mo ∧ mo ≤ 12 ∧ 1 ≤ d ∧ d ≤ daysIn y mo ∧ h < 24 ∧ m < 60 ∧
      sec < 60) := by
  have htwo : 0 < 2 := by simp
  have hthree : 0 < 3 := by simp
  have hfour : 0 < 4 := by simp
  unfold pgTimestamp
  rw [hts]
  -- each part is read before simp looks at what follows it
  simp only [↓Option.bind_eq_bind, ↓char_bind, ↓padded_bind hy hfour, ↓padded_bind hmo htwo,
    ↓padded_bind hd htwo, ↓padded_bind hh htwo, ↓padded_bind hm htwo, ↓padded_bind hs htwo,
    ↓padded_bind hms hthree]
  simp

/-- A text that begins with a sign is not taken. -/
private theorem pgTimestamp_sign {ts : String} (hts : ∃ cs, ts.toList = '+' :: cs) :
    pgTimestamp ts = false := by
  obtain ⟨cs, hcs⟩ := hts
  unfold pgTimestamp
  rw [hcs]
  simp only [↓Option.bind_eq_bind, ↓sign_bind, Option.getD_none]

/-- **Which dates a database takes**: those up to the end of the year 9999. -/
theorem pgTimestamp_isoText (ms : Nat) :
    pgTimestamp (isoText ms) = true ↔ ms < 253402300800000 := by
  have hyear := civil_year_le (ms / 86400000)
  obtain ⟨hmonth, hmonth', hday, hday'⟩ := civil_valid (ms / 86400000)
  -- the limit is the first day of the year 10000
  have hdays : ms / 86400000 < 2932897 ↔ ms < 253402300800000 := by omega
  have hera : 1 ≤ (civil (ms / 86400000)).1 := by
    obtain ⟨era, yoe, doy, hsplit, hyoe, hdoy, -, hcivil⟩ := civil_parts (ms / 86400000)
    rw [hcivil]
    simp only
    unfold yearStart at hsplit
    omega
  have h31 := daysIn_le (civil (ms / 86400000)).1 (civil (ms / 86400000)).2.1
  rw [← hdays, ← hyear]
  unfold isoText
  generalize civil (ms / 86400000) = date at *
  obtain ⟨year, month, day⟩ := date
  simp only at *
  have hrest : ms % 86400000 < 86400000 := Nat.mod_lt _ (by decide)
  generalize ms % 86400000 = rest at *
  -- up to there the year has four digits, beyond it a sign and six
  by_cases hfour : year ≤ 9999
  · have hparts : month < 10 ^ 2 ∧ day < 10 ^ 2 ∧ rest / 3600000 < 10 ^ 2 ∧
        rest / 60000 % 60 < 10 ^ 2 ∧ rest / 1000 % 60 < 10 ^ 2 ∧ rest % 1000 < 10 ^ 3 := by
      omega
    obtain ⟨h₁, h₂, h₃, h₄, h₅, h₆⟩ := hparts
    rw [pgTimestamp_padded (show year < 10 ^ 4 by omega) h₁ h₂ h₃ h₄ h₅ h₆, decide_eq_true_eq]
    · simp only [hfour, iff_true]
      refine ⟨hera, hmonth, hmonth', hday, hday', ?_, ?_, ?_⟩ <;> omega
    · simp only [yearText, hfour, if_true, String.toList_append, String.reduceToList,
        List.append_assoc, List.cons_append, List.nil_append]
  · have hyear : yearText year = "+" ++ padded 6 year := if_neg hfour
    rw [hyear, pgTimestamp_sign]
    · exact iff_of_false Bool.false_ne_true hfour
    · simp only [String.toList_append, String.reduceToList, List.append_assoc, List.cons_append,
        List.nil_append]
      exact ⟨_, rfl⟩

end JsDate
