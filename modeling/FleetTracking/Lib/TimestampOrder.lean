import FleetTracking.Lib.Decimal
import FleetTracking.Lib.Timestamp
import Mathlib.Data.String.Basic
import Mathlib.Tactic.IntervalCases

/-!
# The Order of Timestamps

Texts in the format of `toISOString` have their digits from the greatest unit to the smallest, each
in a fixed width. Comparing two of them as texts compares the times.

1. `dayOf_lt`: a later date is a later day.
2. `append_lt_append_iff`: digits of one width compare like their numbers.
3. `lt_iff_parse_lt`: texts compare like the times they are parsed to.
4. `isoText_inj`: no two times have one text.
5. `isoText_lt_iff`: the order of all texts of `toISOString`, signed years included.
-/

namespace JsDate

/-! ## Days -/

/-- The first day of a month, counted from January of the year 0. -/
def monthStart (k : Nat) : Int := dayOf (k / 12 : Nat) (k % 12 + 1) 1

theorem dayOf_eq (year : Int) (month day : Nat) :
    dayOf year month day =
      let y := if month ≤ 2 then year - 1 else year
      365 * y + y / 4 - y / 100 + y / 400 + ((153 * ((month + 9) % 12) + 2) / 5 + day - 1 : Nat) -
        719468 := by
  simp only [dayOf, Int.fdiv_eq_ediv_of_nonneg _ (show (0 : Int) ≤ 400 by decide)]
  split <;> omega

theorem monthStart_succ (k : Nat) :
    monthStart (k + 1) = monthStart k + daysIn (k / 12) (k % 12 + 1) := by
  obtain ⟨y, r, hr, rfl⟩ : ∃ y r, r < 12 ∧ k = 12 * y + r :=
    ⟨k / 12, k % 12, Nat.mod_lt _ (by decide), (Nat.div_add_mod k 12).symm⟩
  have hyear : (12 * y + r) / 12 = y := by omega
  have hmonth : (12 * y + r) % 12 = r := by omega
  rw [monthStart, monthStart, dayOf_eq, dayOf_eq, hyear, hmonth]
  by_cases hlast : r = 11
  · subst hlast
    have hyear' : (12 * y + 11 + 1) / 12 = y + 1 := by omega
    have hmonth' : (12 * y + 11 + 1) % 12 = 0 := by omega
    rw [hyear', hmonth']
    simp [daysIn]
    omega
  · have hyear' : (12 * y + r + 1) / 12 = y := by omega
    have hmonth' : (12 * y + r + 1) % 12 = r + 1 := by omega
    rw [hyear', hmonth']
    unfold daysIn leapYear
    interval_cases r <;> simp <;> omega

theorem monthStart_mono {a b : Nat} (h : a ≤ b) : monthStart a ≤ monthStart b := by
  refine monotone_nat_of_le_succ (fun k => ?_) h
  rw [monthStart_succ]
  omega

theorem dayOf_eq_monthStart {year month day : Nat} (hmonth : 1 ≤ month ∧ month ≤ 12)
    (hday : 1 ≤ day) : dayOf year month day = monthStart (12 * year + (month - 1)) + (day - 1) := by
  have hyear : (12 * year + (month - 1)) / 12 = year := by omega
  have hrest : (12 * year + (month - 1)) % 12 + 1 = month := by omega
  rw [monthStart, hyear, hrest, dayOf_eq, dayOf_eq]
  simp only
  omega

/-- A date that exists. -/
structure ValidDate (y mo d : Nat) : Prop where
  month : 1 ≤ mo ∧ mo ≤ 12
  day : 1 ≤ d ∧ d ≤ daysIn y mo

/-- **A later date is a later day.** -/
theorem dayOf_lt {y mo d y' mo' d' : Nat} (h : ValidDate y mo d) (h' : ValidDate y' mo' d')
    (hlt : y < y' ∨ y = y' ∧ (mo < mo' ∨ mo = mo' ∧ d < d')) : dayOf y mo d < dayOf y' mo' d' := by
  have hmonth := h.month
  have hday := h.day
  have hmonth' := h'.month
  have hday' := h'.day
  rw [dayOf_eq_monthStart hmonth hday.1, dayOf_eq_monthStart hmonth' hday'.1]
  by_cases hsame : y = y' ∧ mo = mo'
  · obtain ⟨rfl, rfl⟩ := hsame
    omega
  · -- the month ends before the other one starts
    have hends := monthStart_succ (12 * y + (mo - 1))
    have hyear : (12 * y + (mo - 1)) / 12 = y := by omega
    have hrest : (12 * y + (mo - 1)) % 12 + 1 = mo := by omega
    rw [hyear, hrest] at hends
    have hle : monthStart (12 * y + (mo - 1) + 1) ≤ monthStart (12 * y' + (mo' - 1)) :=
      monthStart_mono (by omega)
    omega

/-! ## Digits -/

/-- The number that digits are read as. -/
def value (ds : List Char) : Nat := ds.foldl (fun v d => 10 * v + (d.toNat - 48)) 0

theorem digits_eq_some {width n : Nat} {cs rest : List Char}
    (h : digits width cs = some (n, rest)) :
    ∃ ds, cs = ds ++ rest ∧ ds.length = width ∧ (∀ c ∈ ds, c.isDigit = true) ∧ n = value ds := by
  simp only [digits, Option.ite_none_right_eq_some, Option.some.injEq, Prod.mk.injEq] at h
  obtain ⟨⟨hlength, hall⟩, rfl, rfl⟩ := h
  exact ⟨cs.take width, (List.take_append_drop _ _).symm, hlength, List.all_eq_true.mp hall, rfl⟩

theorem digits_append {ds rest : List Char} (hall : ∀ c ∈ ds, c.isDigit = true) :
    digits ds.length (ds ++ rest) = some (value ds, rest) := by
  rw [digits, List.take_left, List.drop_left]
  exact if_pos ⟨rfl, List.all_eq_true.mpr hall⟩

theorem digit_bounds {c : Char} (h : c.isDigit = true) : 48 ≤ c.toNat ∧ c.toNat ≤ 57 := by
  simpa [Char.isDigit, UInt32.le_iff_toNat_le] using h

theorem foldl_lt {ds ds' : List Char} (hlength : ds.length = ds'.length)
    (hall : ∀ c ∈ ds, c.isDigit = true) {v v' : Nat} (h : v < v') :
    ds.foldl (fun v d => 10 * v + (d.toNat - 48)) v <
      ds'.foldl (fun v d => 10 * v + (d.toNat - 48)) v' := by
  induction ds generalizing ds' v v' with
  | nil =>
    rw [List.eq_nil_of_length_eq_zero hlength.symm]
    exact h
  | cons c ds ih =>
    cases ds' with
    | nil => cases hlength
    | cons c' ds' =>
      have hc := digit_bounds (hall c List.mem_cons_self)
      have hstep : 10 * v + (c.toNat - 48) < 10 * v' + (c'.toNat - 48) := by omega
      exact ih (Nat.succ.inj hlength) (fun d hd => hall d (List.mem_cons_of_mem c hd)) hstep

/-- Digits of one width, followed by other text, compare like their numbers. -/
theorem append_lt_append_iff {ds ds' : List Char} (hlength : ds.length = ds'.length)
    (hall : ∀ c ∈ ds, c.isDigit = true) (hall' : ∀ c ∈ ds', c.isDigit = true)
    {rest rest' : List Char} :
    ds ++ rest < ds' ++ rest' ↔ value ds < value ds' ∨ value ds = value ds' ∧ rest < rest' := by
  -- generalised over the value read so far, which is the same on both sides
  suffices hgen : ∀ v, ds ++ rest < ds' ++ rest' ↔
      ds.foldl (fun v d => 10 * v + (d.toNat - 48)) v <
        ds'.foldl (fun v d => 10 * v + (d.toNat - 48)) v ∨
      ds.foldl (fun v d => 10 * v + (d.toNat - 48)) v =
        ds'.foldl (fun v d => 10 * v + (d.toNat - 48)) v ∧ rest < rest' from hgen 0
  induction ds generalizing ds' with
  | nil =>
    rw [List.eq_nil_of_length_eq_zero hlength.symm]
    simp
  | cons c ds ih =>
    cases ds' with
    | nil => cases hlength
    | cons c' ds' =>
      intro v
      have hlength' := Nat.succ.inj hlength
      have hds := fun d hd => hall d (List.mem_cons_of_mem c hd)
      have hds' := fun d hd => hall' d (List.mem_cons_of_mem c' hd)
      have hc := digit_bounds (hall c List.mem_cons_self)
      have hc' := digit_bounds (hall' c' List.mem_cons_self)
      rw [List.cons_append, List.cons_append, List.cons_lt_cons_iff, List.foldl_cons,
        List.foldl_cons]
      rcases lt_trichotomy c.toNat c'.toNat with hlt | heq | hgt
      · have hless := foldl_lt hlength' hds (show 10 * v + (c.toNat - 48) <
          10 * v + (c'.toNat - 48) by omega)
        have hchar : c < c' := hlt
        simp [hless, hchar]
      · obtain rfl : c = c' := Char.toNat_inj.mp heq
        simp [ih hlength' hds hds' (10 * v + (c.toNat - 48))]
      · have hmore := foldl_lt hlength'.symm hds' (show 10 * v + (c'.toNat - 48) <
          10 * v + (c.toNat - 48) by omega)
        have hchar : ¬ c < c' := Nat.not_lt.mpr hgt.le
        have hne : c ≠ c' := fun h => absurd (h ▸ hgt) (Nat.lt_irrefl _)
        simp [hchar, hne, hmore.not_gt, hmore.ne']

theorem value_lt {ds : List Char} (hall : ∀ c ∈ ds, c.isDigit = true) :
    value ds < 10 ^ ds.length := by
  suffices hgen : ∀ v, ds.foldl (fun v d => 10 * v + (d.toNat - 48)) v <
      (v + 1) * 10 ^ ds.length by simpa [value] using hgen 0
  induction ds with
  | nil => simp
  | cons c ds ih =>
    intro v
    have hc := digit_bounds (hall c List.mem_cons_self)
    have hrest := ih (fun d hd => hall d (List.mem_cons_of_mem c hd)) (10 * v + (c.toNat - 48))
    have hle : 10 * v + (c.toNat - 48) + 1 ≤ (v + 1) * 10 := by omega
    calc ds.foldl (fun v d => 10 * v + (d.toNat - 48)) (10 * v + (c.toNat - 48))
        < (10 * v + (c.toNat - 48) + 1) * 10 ^ ds.length := hrest
      _ ≤ (v + 1) * 10 * 10 ^ ds.length := Nat.mul_le_mul_right _ hle
      _ = (v + 1) * 10 ^ (c :: ds).length := by
        rw [List.length_cons, Nat.pow_succ, Nat.mul_assoc, Nat.mul_comm 10]

/-! ## Texts -/

/-- The digits of a text in the format of `toISOString`, with a year of four. -/
structure DateText where
  year : List Char
  month : List Char
  day : List Char
  hour : List Char
  minute : List Char
  second : List Char
  milli : List Char

namespace DateText

def toList (f : DateText) : List Char :=
  f.year ++ '-' :: (f.month ++ '-' :: (f.day ++ 'T' :: (f.hour ++ ':' :: (f.minute ++ ':' ::
    (f.second ++ '.' :: (f.milli ++ ['Z']))))))

/-- The milliseconds since midnight. -/
def dayTime (f : DateText) : Nat :=
  ((value f.hour * 60 + value f.minute) * 60 + value f.second) * 1000 + value f.milli

/-- The milliseconds since 1970. -/
def time (f : DateText) : Int :=
  dayOf (value f.year) (value f.month) (value f.day) * 86400000 + f.dayTime

/-- The text is that of a time that exists. -/
structure Valid (f : DateText) : Prop where
  year : f.year.length = 4 ∧ ∀ c ∈ f.year, c.isDigit = true
  month : f.month.length = 2 ∧ ∀ c ∈ f.month, c.isDigit = true
  day : f.day.length = 2 ∧ ∀ c ∈ f.day, c.isDigit = true
  hour : f.hour.length = 2 ∧ ∀ c ∈ f.hour, c.isDigit = true
  minute : f.minute.length = 2 ∧ ∀ c ∈ f.minute, c.isDigit = true
  second : f.second.length = 2 ∧ ∀ c ∈ f.second, c.isDigit = true
  milli : f.milli.length = 3 ∧ ∀ c ∈ f.milli, c.isDigit = true
  date : ValidDate (value f.year) (value f.month) (value f.day)
  hours : value f.hour < 24
  minutes : value f.minute < 60
  seconds : value f.second < 60

end DateText

theorem char_eq_some {c : Char} {cs rest : List Char} (h : char c cs = some rest) :
    cs = c :: rest := by
  cases cs with
  | nil => cases h
  | cons d cs =>
    rw [char, Option.ite_none_right_eq_some] at h
    rw [h.1, Option.some.inj h.2]

/-- A text that is taken is that of a time. -/
theorem exists_dateText {s : String} (h : pgTimestamp s = true) :
    ∃ f : DateText, f.Valid ∧ s.toList = f.toList := by
  -- the text is read from the left; each part that is read must be there
  have hread := (Option.getD_eq_iff.mp h).resolve_right fun hnone => nomatch hnone.2
  obtain ⟨⟨y, cs⟩, hy, hread⟩ := Option.bind_eq_some_iff.mp hread
  obtain ⟨cs₁, h₁, hread⟩ := Option.bind_eq_some_iff.mp hread
  obtain ⟨⟨mo, cs₂⟩, hmo, hread⟩ := Option.bind_eq_some_iff.mp hread
  obtain ⟨cs₃, h₂, hread⟩ := Option.bind_eq_some_iff.mp hread
  obtain ⟨⟨d, cs₄⟩, hd, hread⟩ := Option.bind_eq_some_iff.mp hread
  obtain ⟨cs₅, h₃, hread⟩ := Option.bind_eq_some_iff.mp hread
  obtain ⟨⟨hr, cs₆⟩, hhr, hread⟩ := Option.bind_eq_some_iff.mp hread
  obtain ⟨cs₇, h₄, hread⟩ := Option.bind_eq_some_iff.mp hread
  obtain ⟨⟨mi, cs₈⟩, hmi, hread⟩ := Option.bind_eq_some_iff.mp hread
  obtain ⟨cs₉, h₅, hread⟩ := Option.bind_eq_some_iff.mp hread
  obtain ⟨⟨sec, cs₁₀⟩, hsec, hread⟩ := Option.bind_eq_some_iff.mp hread
  obtain ⟨cs₁₁, h₆, hread⟩ := Option.bind_eq_some_iff.mp hread
  obtain ⟨⟨ms, cs₁₂⟩, hms, hread⟩ := Option.bind_eq_some_iff.mp hread
  obtain ⟨-, hmonth, hmonth', hday, hday', hhour, hminute, hsecond, rfl⟩ :=
    of_decide_eq_true (Option.some.inj hread)
  obtain ⟨year, htext, hyear, hyears, rfl⟩ := digits_eq_some hy
  obtain ⟨month, rfl, hmonths⟩ := digits_eq_some hmo
  obtain ⟨day, rfl, hdays⟩ := digits_eq_some hd
  obtain ⟨hour, rfl, hhours⟩ := digits_eq_some hhr
  obtain ⟨minute, rfl, hminutes⟩ := digits_eq_some hmi
  obtain ⟨second, rfl, hseconds⟩ := digits_eq_some hsec
  obtain ⟨milli, rfl, hmillis⟩ := digits_eq_some hms
  obtain rfl := char_eq_some h₁
  obtain rfl := char_eq_some h₂
  obtain rfl := char_eq_some h₃
  obtain rfl := char_eq_some h₄
  obtain rfl := char_eq_some h₅
  obtain rfl := char_eq_some h₆
  obtain ⟨hmonths, hmonths', rfl⟩ := hmonths
  obtain ⟨hdays, hdays', rfl⟩ := hdays
  obtain ⟨hhours, hhours', rfl⟩ := hhours
  obtain ⟨hminutes, hminutes', rfl⟩ := hminutes
  obtain ⟨hseconds, hseconds', rfl⟩ := hseconds
  obtain ⟨hmillis, hmillis', -⟩ := hmillis
  exact ⟨⟨year, month, day, hour, minute, second, milli⟩,
    ⟨⟨hyear, hyears⟩, ⟨hmonths, hmonths'⟩, ⟨hdays, hdays'⟩, ⟨hhours, hhours'⟩,
      ⟨hminutes, hminutes'⟩, ⟨hseconds, hseconds'⟩, ⟨hmillis, hmillis'⟩,
      ⟨⟨hmonth, hmonth'⟩, hday, hday'⟩, hhour, hminute, hsecond⟩, htext⟩

theorem digits_field {width : Nat} {ds : List Char}
    (h : ds.length = width ∧ ∀ c ∈ ds, c.isDigit = true) (rest : List Char) :
    digits width (ds ++ rest) = some (value ds, rest) := h.1 ▸ digits_append h.2

theorem parseYear_digits {ds rest : List Char}
    (h : ds.length = 4 ∧ ∀ c ∈ ds, c.isDigit = true) :
    parseYear (ds ++ rest) = some ((value ds : Int), rest) := by
  have hdigits := digits_field h rest
  cases ds with
  | nil => cases h.1
  | cons c ds =>
    -- a digit is not a sign
    have hc := digit_bounds (h.2 c List.mem_cons_self)
    unfold parseYear
    split
    · next heq =>
      rw [(List.cons.inj heq).1] at hc
      exact absurd hc.1 (by decide)
    · next heq =>
      rw [(List.cons.inj heq).1] at hc
      exact absurd hc.1 (by decide)
    · rw [hdigits, Option.map_some]

theorem part_digits {sep : Char} {dflt : Nat} {ds rest : List Char}
    (h : ds.length = 2 ∧ ∀ c ∈ ds, c.isDigit = true) :
    part sep dflt (sep :: (ds ++ rest)) = some (value ds, rest) := by
  rw [part, char_cons]
  exact digits_field h rest

theorem parseFraction_digits {ds : List Char}
    (h : ds.length = 3 ∧ ∀ c ∈ ds, c.isDigit = true) :
    parseFraction ('.' :: (ds ++ ['Z'])) = some (value ds, ['Z']) := by
  have htake : (ds ++ ['Z']).takeWhile Char.isDigit = ds := by
    rw [List.takeWhile_append_of_pos h.2]
    simp
  have hne : ds.isEmpty = false := by
    cases ds with
    | nil => cases h.1
    | cons c ds => rfl
  have hdigits := digits_field h []
  rw [List.append_nil] at hdigits
  simp only [parseFraction, char_cons, htake, hne, List.take_left' h.1, hdigits, List.drop_left]
  rfl

/-- What a text is parsed to. -/
theorem parse_eq {s : String} {f : DateText} (h : f.Valid) (htext : s.toList = f.toList) :
    parse s = some f.time := by
  have hoffset : parseOffset ['Z'] = some 0 := rfl
  have htime : parseTime (f.hour ++ ':' :: (f.minute ++ ':' :: (f.second ++ '.' ::
      (f.milli ++ ['Z'])))) = some (f.dayTime : Int) := by
    simp only [parseTime, digits_field h.hour, char_cons, digits_field h.minute,
      part_digits h.second, parseFraction_digits h.milli, hoffset, Option.bind_eq_bind,
      Option.bind_some]
    rw [if_pos ⟨Or.inl h.hours, h.minutes, h.seconds⟩]
    simp [DateText.dayTime]
  have hday := h.date.day.2
  have hday31 := daysIn_le (value f.year) (value f.month)
  rw [parse, htext, DateText.toList, parseYear_digits h.year]
  simp only [part_digits h.month, part_digits h.day, Option.bind_eq_bind, Option.bind_some]
  rw [if_pos ⟨h.date.month.1, h.date.month.2, h.date.day.1, hday.trans hday31⟩]
  simp [htime, DateText.time]

namespace DateText

variable {f f' : DateText}

/-- Texts compare like their numbers, from the year to the milliseconds. -/
theorem toList_lt_iff (h : f.Valid) (h' : f'.Valid) : f.toList < f'.toList ↔
    value f.year < value f'.year ∨ value f.year = value f'.year ∧
      (value f.month < value f'.month ∨ value f.month = value f'.month ∧
        (value f.day < value f'.day ∨ value f.day = value f'.day ∧
          (value f.hour < value f'.hour ∨ value f.hour = value f'.hour ∧
            (value f.minute < value f'.minute ∨ value f.minute = value f'.minute ∧
              (value f.second < value f'.second ∨ value f.second = value f'.second ∧
                value f.milli < value f'.milli))))) := by
  have hfield : ∀ {ds ds' rest rest' : List Char} {width : Nat} {sep : Char},
      (ds.length = width ∧ ∀ c ∈ ds, c.isDigit = true) →
      (ds'.length = width ∧ ∀ c ∈ ds', c.isDigit = true) →
      (ds ++ sep :: rest < ds' ++ sep :: rest' ↔
        value ds < value ds' ∨ value ds = value ds' ∧ rest < rest') := by
    intro ds ds' rest rest' width sep hds hds'
    rw [append_lt_append_iff (hds.1.trans hds'.1.symm) hds.2 hds'.2, List.cons_lt_cons_iff]
    simp
  rw [toList, toList, hfield h.year h'.year, hfield h.month h'.month, hfield h.day h'.day,
    hfield h.hour h'.hour, hfield h.minute h'.minute, hfield h.second h'.second,
    hfield h.milli h'.milli]
  simp

theorem milli_lt (h : f.Valid) : value f.milli < 1000 := by
  have hlt := value_lt h.milli.2
  rwa [h.milli.1] at hlt

theorem dayTime_lt (h : f.Valid) : f.dayTime < 86400000 := by
  have hmilli := milli_lt h
  have hhours := h.hours
  have hminutes := h.minutes
  have hseconds := h.seconds
  unfold dayTime
  omega

/-- A text before another one is that of an earlier time. -/
theorem time_lt_of_toList_lt (h : f.Valid) (h' : f'.Valid) (hlt : f.toList < f'.toList) :
    f.time < f'.time := by
  rw [toList_lt_iff h h'] at hlt
  have hday := dayTime_lt h
  have hday' := dayTime_lt h'
  by_cases hsame : value f.year = value f'.year ∧ value f.month = value f'.month ∧
      value f.day = value f'.day
  · obtain ⟨hyear, hmonth, hdays⟩ := hsame
    have hmilli := milli_lt h
    have hminutes := h.minutes
    have hseconds := h.seconds
    have htimes : f.dayTime < f'.dayTime := by
      unfold dayTime
      omega
    rw [time, time, hyear, hmonth, hdays]
    omega
  · have hdate : dayOf (value f.year) (value f.month) (value f.day) <
        dayOf (value f'.year) (value f'.month) (value f'.day) :=
      dayOf_lt h.date h'.date (by omega)
    rw [time, time]
    omega

end DateText

/-- **The order of the texts is the order of the times.** -/
theorem lt_iff_parse_lt {s s' : String} (h : pgTimestamp s = true) (h' : pgTimestamp s' = true) :
    ∃ t t', parse s = some t ∧ parse s' = some t' ∧ (s < s' ↔ t < t') := by
  obtain ⟨f, hvalid, htext⟩ := exists_dateText h
  obtain ⟨f', hvalid', htext'⟩ := exists_dateText h'
  refine ⟨f.time, f'.time, parse_eq hvalid htext, parse_eq hvalid' htext', ?_⟩
  rw [String.lt_iff_toList_lt, htext, htext']
  constructor
  · exact DateText.time_lt_of_toList_lt hvalid hvalid'
  · intro hlt
    rcases lt_trichotomy f.toList f'.toList with hless | heq | hmore
    · exact hless
    · have hs : s = s' := String.toList_inj.mp (htext.trans (heq.trans htext'.symm))
      subst hs
      have htimes := (parse_eq hvalid htext).symm.trans (parse_eq hvalid' htext')
      rw [Option.some.inj htimes] at hlt
      exact absurd hlt (lt_irrefl _)
    · exact absurd (DateText.time_lt_of_toList_lt hvalid' hvalid hmore) hlt.not_gt

/-! ## Different times -/

/-- The day of a date is the day that the date was made from. -/
theorem dayOf_civil (days : Nat) :
    dayOf (civil days).1 (civil days).2.1 (civil days).2.2 = days := by
  obtain ⟨era, yoe, doy, hdays, hyoe, hdoy, -, hcivil⟩ := civil_parts days
  have hstart : yearStart yoe + yoe / 100 = 365 * yoe + yoe / 4 := by
    unfold yearStart
    omega
  obtain ⟨hmp, -⟩ := month_day doy hdoy
  rw [hcivil, dayOf_eq]
  simp only
  generalize hmonths : (5 * doy + 2) / 153 = mp at hmp ⊢
  by_cases hlate : mp < 10
  · have hnot : ¬ mp + 3 ≤ 2 := by omega
    have hback : (mp + 3 + 9) % 12 = mp := by omega
    simp only [if_pos hlate, if_neg hnot, hback]
    omega
  · have hyes : mp - 9 ≤ 2 := by omega
    have hback : (mp - 9 + 9) % 12 = mp := by omega
    simp only [if_neg hlate, if_pos hyes, hback]
    omega

/-- A padded number has no separators. -/
private theorem sep_notMem_padded {width n : Nat} {sep : Char} (h : sep.isDigit = false) :
    sep ∉ (padded width n).toList := by
  intro hmem
  rw [Decimal.isDigit_of_mem_padded hmem] at h
  cases h

private theorem yearText_inj {y y' : Nat} (h : yearText y = yearText y') : y = y' := by
  have hsign : ∀ a b : Nat, padded 4 a ≠ "+" ++ padded 6 b := by
    intro a b heq
    have hmem : '+' ∈ (padded 4 a).toList := by simp [heq]
    exact sep_notMem_padded rfl hmem
  unfold yearText at h
  split at h
  case isTrue =>
    split at h
    case isTrue => exact Decimal.padded_inj h
    case isFalse => exact absurd h (hsign _ _)
  case isFalse =>
    split at h
    case isTrue => exact absurd h.symm (hsign _ _)
    case isFalse => exact Decimal.padded_inj ((String.append_right_inj _).mp h)

private theorem sep_notMem_yearText (y : Nat) : '-' ∉ (yearText y).toList := by
  unfold yearText
  split
  · exact sep_notMem_padded rfl
  · rw [String.toList_append, List.mem_append, not_or]
    exact ⟨by simp, sep_notMem_padded rfl⟩

/-- The text of a time after its year. -/
def afterYear (ms : Nat) : List Char :=
  (padded 2 (civil (ms / 86400000)).2.1).toList ++
    '-' :: ((padded 2 (civil (ms / 86400000)).2.2).toList ++
    'T' :: ((padded 2 (ms % 86400000 / 3600000)).toList ++
    ':' :: ((padded 2 (ms % 86400000 / 60000 % 60)).toList ++
    ':' :: ((padded 2 (ms % 86400000 / 1000 % 60)).toList ++
    '.' :: ((padded 3 (ms % 86400000 % 1000)).toList ++ ['Z'])))))

theorem isoText_toList (ms : Nat) : (isoText ms).toList =
    (yearText (civil (ms / 86400000)).1).toList ++ '-' :: afterYear ms := by
  unfold isoText afterYear
  generalize civil (ms / 86400000) = date
  obtain ⟨year, month, day⟩ := date
  simp only [String.toList_append, String.reduceToList, List.append_assoc, List.cons_append,
    List.nil_append]

/-- **No two times have one text.** -/
theorem isoText_inj {ms ms' : Nat} (h : isoText ms = isoText ms') : ms = ms' := by
  have hfield : ∀ {width n n' : Nat}, (padded width n).toList = (padded width n').toList →
      n = n' := fun heq => Decimal.padded_inj (String.toList_inj.mp heq)
  have hchars := congrArg String.toList h
  rw [isoText_toList, isoText_toList] at hchars
  -- each separator stands in no field, so the text splits at it
  obtain ⟨hyear, hchars⟩ :=
    Decimal.split_at (sep_notMem_yearText _) (sep_notMem_yearText _) hchars
  unfold afterYear at hchars
  obtain ⟨hmonth, hchars⟩ :=
    Decimal.split_at (sep_notMem_padded rfl) (sep_notMem_padded rfl) hchars
  obtain ⟨hday, hchars⟩ :=
    Decimal.split_at (sep_notMem_padded rfl) (sep_notMem_padded rfl) hchars
  obtain ⟨hhour, hchars⟩ :=
    Decimal.split_at (sep_notMem_padded rfl) (sep_notMem_padded rfl) hchars
  obtain ⟨hminute, hchars⟩ :=
    Decimal.split_at (sep_notMem_padded rfl) (sep_notMem_padded rfl) hchars
  obtain ⟨hsecond, hchars⟩ :=
    Decimal.split_at (sep_notMem_padded rfl) (sep_notMem_padded rfl) hchars
  have hmilli := hfield (List.append_cancel_right hchars)
  have hdays : ((ms / 86400000 : Nat) : Int) = (ms' / 86400000 : Nat) := by
    rw [← dayOf_civil (ms / 86400000), yearText_inj (String.toList_inj.mp hyear), hfield hmonth,
      hfield hday, dayOf_civil]
  have hhours := hfield hhour
  have hminutes := hfield hminute
  have hseconds := hfield hsecond
  omega

/-! ## The order of all times -/

/-- The start of the year 10000. From here on years are written with a sign. -/
def year10000 : Nat := 253402300800000

/-- Padded numbers of one width, followed by other text, compare like the numbers. -/
theorem padded_lt_iff {width n n' : Nat} (h : n < 10 ^ width) (h' : n' < 10 ^ width)
    (hwidth : 0 < width) {sep : Char} {rest rest' : List Char} :
    (padded width n).toList ++ sep :: rest < (padded width n').toList ++ sep :: rest' ↔
      n < n' ∨ n = n' ∧ rest < rest' := by
  have hfield : ∀ {n : Nat}, n < 10 ^ width → (padded width n).toList.length = width ∧
      ∀ c ∈ (padded width n).toList, c.isDigit = true := fun h =>
    ⟨Decimal.length_padded h hwidth, fun _ => Decimal.isDigit_of_mem_padded⟩
  have hvalue : ∀ {n : Nat}, n < 10 ^ width → value (padded width n).toList = n := by
    intro n h
    have hread := (digits_field (hfield h) []).symm.trans (digits_padded h hwidth [])
    exact (Prod.mk.inj (Option.some.inj hread)).1
  rw [append_lt_append_iff ((hfield h).1.trans (hfield h').1.symm) (hfield h).2 (hfield h').2,
    hvalue h, hvalue h', List.cons_lt_cons_iff]
  simp

theorem validDate_civil (days : Nat) :
    ValidDate (civil days).1 (civil days).2.1 (civil days).2.2 := by
  obtain ⟨hmonth, hmonth', hday, hday'⟩ := civil_valid days
  exact ⟨⟨hmonth, hmonth'⟩, hday, hday'⟩

/-- A later day has a later date. -/
theorem civil_lt {days days' : Nat} (h : days < days') :
    (civil days).1 < (civil days').1 ∨ (civil days).1 = (civil days').1 ∧
      ((civil days).2.1 < (civil days').2.1 ∨ (civil days).2.1 = (civil days').2.1 ∧
        (civil days).2.2 < (civil days').2.2) := by
  have hday := dayOf_civil days
  have hday' := dayOf_civil days'
  by_contra hnot
  -- the dates are equal, or the other one comes first
  by_cases hsame : (civil days).1 = (civil days').1 ∧ (civil days).2.1 = (civil days').2.1 ∧
      (civil days).2.2 = (civil days').2.2
  · rw [hsame.1, hsame.2.1, hsame.2.2] at hday
    omega
  · have hlt := dayOf_lt (validDate_civil days') (validDate_civil days) (by omega)
    omega

/-- The year of a `Date` has at most six digits. -/
theorem civil_year_lt {ms : Nat} (h : ms ≤ maxTime) : (civil (ms / 86400000)).1 < 10 ^ 6 := by
  obtain ⟨era, yoe, doy, hdays, hyoe, -, -, hcivil⟩ := civil_parts (ms / 86400000)
  rw [hcivil]
  unfold maxTime at h
  simp only
  split <;> split <;> omega

/-- The years before 10000 are those of four digits. -/
theorem civil_year_le_iff (ms : Nat) : (civil (ms / 86400000)).1 ≤ 9999 ↔ ms < year10000 := by
  rw [civil_year_le, year10000]
  omega

/-- Hours, minutes, seconds and milliseconds, compared in this order, give the order of the times of
day. -/
private theorem clock_lt_iff (r r' : Nat) :
    (r / 3600000 < r' / 3600000 ∨ r / 3600000 = r' / 3600000 ∧
      (r / 60000 % 60 < r' / 60000 % 60 ∨ r / 60000 % 60 = r' / 60000 % 60 ∧
        (r / 1000 % 60 < r' / 1000 % 60 ∨ r / 1000 % 60 = r' / 1000 % 60 ∧
          r % 1000 < r' % 1000))) ↔ r < r' := by
  omega

/-- After the year, texts compare like month, day and time of day. -/
theorem afterYear_lt_iff (ms ms' : Nat) : afterYear ms < afterYear ms' ↔
    (civil (ms / 86400000)).2.1 < (civil (ms' / 86400000)).2.1 ∨
      (civil (ms / 86400000)).2.1 = (civil (ms' / 86400000)).2.1 ∧
      ((civil (ms / 86400000)).2.2 < (civil (ms' / 86400000)).2.2 ∨
        (civil (ms / 86400000)).2.2 = (civil (ms' / 86400000)).2.2 ∧
        ms % 86400000 < ms' % 86400000) := by
  have hparts : ∀ ms, (civil (ms / 86400000)).2.1 < 10 ^ 2 ∧ (civil (ms / 86400000)).2.2 < 10 ^ 2 ∧
      ms % 86400000 / 3600000 < 10 ^ 2 ∧ ms % 86400000 / 60000 % 60 < 10 ^ 2 ∧
      ms % 86400000 / 1000 % 60 < 10 ^ 2 ∧ ms % 86400000 % 1000 < 10 ^ 3 := by
    intro ms
    obtain ⟨-, hmonth, -, hday⟩ := civil_valid (ms / 86400000)
    have h31 := daysIn_le (civil (ms / 86400000)).1 (civil (ms / 86400000)).2.1
    omega
  obtain ⟨hmonth, hday, hhour, hminute, hsecond, hmilli⟩ := hparts ms
  obtain ⟨hmonth', hday', hhour', hminute', hsecond', hmilli'⟩ := hparts ms'
  unfold afterYear
  rw [padded_lt_iff hmonth hmonth' Nat.two_pos, padded_lt_iff hday hday' Nat.two_pos,
    padded_lt_iff hhour hhour' Nat.two_pos, padded_lt_iff hminute hminute' Nat.two_pos,
    padded_lt_iff hsecond hsecond' Nat.two_pos, padded_lt_iff hmilli hmilli' (Nat.succ_pos _)]
  -- after the milliseconds the texts are the same
  have hnone : ¬ ([] : List Char) < [] := List.lt_irrefl []
  simp only [hnone, and_false, or_false, clock_lt_iff]

/-- Years of one form compare like their numbers. -/
private theorem yearText_lt_iff {y y' : Nat} (hy : y < 10 ^ 6) (hy' : y' < 10 ^ 6)
    (hform : y ≤ 9999 ↔ y' ≤ 9999) {rest rest' : List Char} :
    (yearText y).toList ++ '-' :: rest < (yearText y').toList ++ '-' :: rest' ↔
      y < y' ∨ y = y' ∧ rest < rest' := by
  unfold yearText
  by_cases hfour : y ≤ 9999
  · have hfour' := hform.mp hfour
    rw [if_pos hfour, if_pos hfour']
    exact padded_lt_iff (by omega) (by omega) (by omega)
  · -- the signs are the same, and six digits follow
    have hfour' := mt hform.mpr hfour
    rw [if_neg hfour, if_neg hfour', String.toList_append, String.toList_append, List.append_assoc,
      List.append_assoc]
    simp only [String.reduceToList, List.cons_append, List.nil_append]
    rw [List.cons_lt_cons_iff, padded_lt_iff hy hy' (by omega)]
    simp

/-- The sign of a year comes before every digit. -/
private theorem signed_lt {y y' : Nat} (hy : 9999 < y) (hy' : y' ≤ 9999) (rest rest' : List Char) :
    (yearText y).toList ++ rest < (yearText y').toList ++ rest' := by
  have hlength := Decimal.length_padded (show y' < 10 ^ 4 by omega) (by omega)
  unfold yearText
  rw [if_neg (Nat.not_le.mpr hy), if_pos hy', String.toList_append, List.append_assoc]
  cases hchars : (padded 4 y').toList with
  | nil =>
    rw [hchars] at hlength
    cases hlength
  | cons c cs =>
    have hdigit : c.isDigit = true :=
      Decimal.isDigit_of_mem_padded (hchars ▸ List.mem_cons_self)
    have hless : '+' < c := Nat.lt_of_lt_of_le (by decide) (digit_bounds hdigit).1
    simp only [String.reduceToList, List.cons_append, List.nil_append]
    exact List.cons_lt_cons_iff.mpr (Or.inl hless)

/-- Of two times with years of one form, the earlier one has the smaller text. -/
theorem isoText_lt_of_lt {ms ms' : Nat} (h : ms ≤ maxTime) (h' : ms' ≤ maxTime) (hlt : ms < ms')
    (hform : ms < year10000 ↔ ms' < year10000) : isoText ms < isoText ms' := by
  rw [← civil_year_le_iff, ← civil_year_le_iff] at hform
  rw [String.lt_iff_toList_lt, isoText_toList, isoText_toList,
    yearText_lt_iff (civil_year_lt h) (civil_year_lt h') hform, afterYear_lt_iff]
  by_cases hday : ms / 86400000 = ms' / 86400000
  · -- one date, and a later time of day
    rw [hday]
    omega
  · have hdate := civil_lt (show ms / 86400000 < ms' / 86400000 by omega)
    omega

/-- A time with a signed year has a smaller text than one with a year of four digits. -/
theorem isoText_lt_of_signed {ms ms' : Nat} (h : year10000 ≤ ms) (h' : ms' < year10000) :
    isoText ms < isoText ms' := by
  rw [String.lt_iff_toList_lt, isoText_toList, isoText_toList]
  exact signed_lt (Nat.not_le.mp fun hle => absurd ((civil_year_le_iff ms).mp hle) h.not_gt)
    ((civil_year_le_iff ms').mpr h') _ _

/-- **The order of all texts**: times on one side of the year 10000 keep their order, and those
after it come first. -/
theorem isoText_lt_iff {ms ms' : Nat} (h : ms ≤ maxTime) (h' : ms' ≤ maxTime) :
    isoText ms < isoText ms' ↔ ms < ms' ∧ (ms < year10000 ↔ ms' < year10000) ∨
      ms' < year10000 ∧ year10000 ≤ ms := by
  constructor
  · intro hlt
    by_contra hnot
    -- in all other cases the texts are equal or the other way round
    rcases lt_trichotomy ms ms' with hless | heq | hmore
    · exact lt_asymm hlt (isoText_lt_of_signed (by omega) (by omega))
    · rw [heq] at hlt
      exact lt_irrefl _ hlt
    · exact lt_asymm hlt (isoText_lt_of_lt h' h hmore (by omega))
  · rintro (⟨hless, hform⟩ | ⟨hfour, hsigned⟩)
    · exact isoText_lt_of_lt h h' hless hform
    · exact isoText_lt_of_signed hsigned hfour

/-- The texts compare as the numbers do. -/
structure ComparesAs (s s' : String) (n n' : Nat) : Prop where
  before : s < s' ↔ n < n'
  same : s = s' ↔ n = n'
  after : s' < s ↔ n' < n

/-- **Text order is time order** on either side of the year 10000. -/
theorem comparesAs_isoText_iff {ms ms' : Nat} (h : ms ≤ maxTime) (h' : ms' ≤ maxTime) :
    ComparesAs (isoText ms) (isoText ms') ms ms' ↔ (ms < year10000 ↔ ms' < year10000) := by
  have hbefore := isoText_lt_iff h h'
  have hafter := isoText_lt_iff h' h
  constructor
  · intro hcompares
    rw [hcompares.before] at hbefore
    rw [hcompares.after] at hafter
    omega
  · intro hform
    refine ⟨?_, ⟨isoText_inj, fun heq => by rw [heq]⟩, ?_⟩
    · rw [hbefore]
      omega
    · rw [hafter]
      omega

end JsDate
