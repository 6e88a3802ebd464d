import Mathlib.Data.Nat.Basic

/-!
# Dates

A JavaScript `Date` is a number of milliseconds since 1970-01-01T00:00:00Z of absolute
value at most 8.64e15, or the invalid date. Only non-negative times occur here.
-/

/-- A `Date`; `none` is the invalid date, whose time is `NaN`. -/
abbrev JsDate := Option Nat

namespace JsDate

/-- The greatest time a `Date` can hold. -/
def maxTime : Nat := 8640000000000000

/-- `new Date(ms)`: times out of range give the invalid date. -/
def ofMillis (ms : Nat) : JsDate := if ms ≤ maxTime then some ms else none

/-- `String(date.getTime())`. -/
def timeText : JsDate → String
  | some ms => toString ms
  | none => "NaN"

/-- Decimal digits of `n`, padded with zeros to `width`. -/
def padded (width n : Nat) : String :=
  let digits := toString n
  String.ofList (List.replicate (width - digits.length) '0') ++ digits

/-- The proleptic Gregorian date of the day `days` after 1970-01-01: year, month, day. -/
def civil (days : Nat) : Nat × Nat × Nat :=
  -- counted from 0000-03-01 in eras of 400 years
  let z := days + 719468
  let era := z / 146097
  let doe := z % 146097
  let yoe := (doe - doe / 1460 + doe / 36524 - doe / 146096) / 365
  let doy := doe - (365 * yoe + yoe / 4 - yoe / 100)
  let mp := (5 * doy + 2) / 153
  let day := doy - (153 * mp + 2) / 5 + 1
  let month := if mp < 10 then mp + 3 else mp - 9
  let year := yoe + era * 400 + (if month ≤ 2 then 1 else 0)
  (year, month, day)

/-- Years after 9999 are written with a sign and six digits. -/
def yearText (year : Nat) : String :=
  if year ≤ 9999 then padded 4 year else "+" ++ padded 6 year

/-- The ISO 8601 text of a time. -/
def isoText (ms : Nat) : String :=
  let (year, month, day) := civil (ms / 86400000)
  let rest := ms % 86400000
  yearText year ++ "-" ++ padded 2 month ++ "-" ++ padded 2 day ++ "T" ++
    padded 2 (rest / 3600000) ++ ":" ++ padded 2 (rest / 60000 % 60) ++ ":" ++
    padded 2 (rest / 1000 % 60) ++ "." ++ padded 3 (rest % 1000) ++ "Z"

example : isoText 1735689600123 = "2025-01-01T00:00:00.123Z" := by decide +kernel

/-- `date.toISOString()`; `none` is the `RangeError` of the invalid date. -/
def toISOString (d : JsDate) : Option String := d.map isoText

/-! ## Parsing -/

/-- A number of exactly `n` digits at the front of a text. -/
def digits : Nat → List Char → Option (Nat × List Char)
  | n, cs =>
    let ds := cs.take n
    if ds.length = n ∧ ds.all Char.isDigit then
      some (ds.foldl (fun v d => 10 * v + (d.toNat - 48)) 0, cs.drop n)
    else none

/-- The character `c` at the front of a text. -/
def char (c : Char) : List Char → Option (List Char)
  | d :: cs => if d = c then some cs else none
  | [] => none

/-- The day of a proleptic Gregorian date, counted from 1970-01-01. -/
def dayOf (year : Int) (month day : Nat) : Int :=
  let y := if month ≤ 2 then year - 1 else year
  let era := y.fdiv 400
  let yoe := y - era * 400
  let doy := (153 * ((month + 9) % 12) + 2) / 5 + day - 1
  era * 146097 + yoe * 365 + yoe / 4 - yoe / 100 + doy - 719468

/-- The year of a date: four digits, or a sign and six digits. -/
def parseYear : List Char → Option (Int × List Char)
  | '+' :: cs => (digits 6 cs).map fun r => (r.1, r.2)
  | '-' :: cs => (digits 6 cs).map fun r => (-r.1, r.2)
  | cs => (digits 4 cs).map fun r => (r.1, r.2)

/-- `-mm` or `:mm`, if there is one; otherwise `dflt`. -/
def part (sep : Char) (dflt : Nat) (cs : List Char) : Option (Nat × List Char) :=
  match char sep cs with
  | some rest => digits 2 rest
  | none => some (dflt, cs)

/-- The milliseconds of a fraction of a second: its first three digits. -/
def parseFraction (cs : List Char) : Option (Nat × List Char) :=
  match char '.' cs with
  | none => some (0, cs)
  | some rest =>
    let ds := rest.takeWhile Char.isDigit
    if ds.isEmpty then none
    else do
      let (ms, _) ← digits 3 ((ds ++ ['0', '0']).take 3)
      pure (ms, rest.drop ds.length)

/-- The offset from UTC in minutes; a time without offset is taken as UTC. -/
def parseOffset : List Char → Option Int
  | [] => some 0
  | ['Z'] => some 0
  | sign :: cs => do
    let (h, cs) ← digits 2 cs
    let (m, cs) ← digits 2 (← char ':' cs)
    if !cs.isEmpty then none
    else if sign = '+' then some (60 * h + m)
    else if sign = '-' then some (-(60 * h + m : Int))
    else none

/-- The time of day after the `T`, in milliseconds, less the offset. -/
def parseTime (cs : List Char) : Option Int := do
  let (h, cs) ← digits 2 cs
  let (m, cs) ← digits 2 (← char ':' cs)
  let (sec, cs) ← part ':' 0 cs
  let (ms, cs) ← parseFraction cs
  let offset ← parseOffset cs
  if (h < 24 ∨ (h = 24 ∧ m = 0 ∧ sec = 0 ∧ ms = 0)) ∧ m < 60 ∧ sec < 60 then
    some (((h * 60 + m) * 60 + sec) * 1000 + ms - offset * 60000)
  else none

/-- `Date.parse` of a text in the ECMAScript date time format; `none` is `NaN`. -/
def parse (s : String) : Option Int := do
  let (year, cs) ← parseYear s.toList
  let (month, cs) ← part '-' 1 cs
  let (day, cs) ← part '-' 1 cs
  if 1 ≤ month ∧ month ≤ 12 ∧ 1 ≤ day ∧ day ≤ 31 then
    let start := dayOf year month day * 86400000
    match cs with
    | [] => some start
    | 'T' :: time => (parseTime time).map fun t => start + t
    | _ => none
  else none

example : parse "2025-01-01T00:00:00.123Z" = some 1735689600123 := by decide +kernel

end JsDate
