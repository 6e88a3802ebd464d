import FleetTracking.Lib.JsDate
import Mathlib.Data.Rat.Floor

/-!
# Numbers

Numbers are exact rationals. `numberText` and `mathRound` are the two conversions that the
model needs.
-/

namespace JsNumber

/-- `String(x)` for a number with at most 20 decimal places, of magnitude 1e-6 to 1e21. -/
def numberText (q : ℚ) : String :=
  let k := ((List.range 21).find? fun k => 10 ^ k % q.den = 0).getD 17
  let n := q.num.natAbs * 10 ^ k / q.den
  let sign := if q < 0 then "-" else ""
  if k = 0 then sign ++ toString n
  else sign ++ toString (n / 10 ^ k) ++ "." ++ JsDate.padded k (n % 10 ^ k)

example : numberText (85 / 2) = "42.5" := by decide +kernel

/-- `Math.round(x)`: halves go up. -/
def mathRound (q : ℚ) : Int := (q + 1 / 2).floor

end JsNumber
