import FleetTracking.Lib.Decimal

/-!
# Integers among the Numbers

A number is a double. Of its values that are integers, the model needs how they are written and
read: `String(x)` writes the fewest digits that are read as `x`, followed by zeros, and from 1e21
on an exponent; `Number(text)` rounds to the double that is nearest. The exponent of a double is
not bounded here.

- `nearest`, `IsDouble`: rounding, and what it leaves alone.
- `shortest`: the digits that are written.
- `ofText_text`: an integer below 1e21 is read as it was written.
-/

namespace JsInteger

open Decimal

/-! ## Rounding -/

/-- The distance of the doubles around `n`. -/
def ulp (n : Nat) : Nat := 2 ^ (n.log2 - 52)

/-- The double nearest to `n`; between two of them the one with an even last bit. -/
def nearest (n : Nat) : Nat :=
  let q := n / ulp n
  let r := n % ulp n
  if 2 * r < ulp n ∨ 2 * r = ulp n ∧ q % 2 = 0 then q * ulp n else (q + 1) * ulp n

/-- 53 bits, shifted to the left. -/
def IsDouble (n : Nat) : Prop := ∃ m e, m ≤ 2 ^ 53 ∧ n = m * 2 ^ e

theorem isDouble_nearest (n : Nat) : IsDouble (nearest n) := by
  have hq : n / ulp n < 2 ^ 53 := by
    rw [ulp, Nat.div_lt_iff_lt_mul (Nat.two_pow_pos _), ← Nat.pow_add]
    calc n < 2 ^ (n.log2 + 1) := Nat.lt_log2_self
      _ ≤ 2 ^ (53 + (n.log2 - 52)) := Nat.pow_le_pow_right (by omega) (by omega)
  simp only [nearest]
  split
  · exact ⟨n / ulp n, n.log2 - 52, hq.le, rfl⟩
  · exact ⟨n / ulp n + 1, n.log2 - 52, hq, rfl⟩

theorem ulp_dvd {n : Nat} (h : IsDouble n) : ulp n ∣ n := by
  obtain ⟨m, e, hm, rfl⟩ := h
  rcases Nat.eq_zero_or_pos m with rfl | hpos
  · simp
  have hne : m * 2 ^ e ≠ 0 := (Nat.mul_pos hpos (Nat.two_pow_pos e)).ne'
  rcases hm.lt_or_eq with hlt | rfl
  · -- The last bit that is set is not beyond the shift.
    have hlog : (m * 2 ^ e).log2 < 53 + e := by
      rw [Nat.log2_lt hne, Nat.pow_add]
      exact Nat.mul_lt_mul_of_pos_right hlt (Nat.two_pow_pos e)
    exact Nat.dvd_mul_left_of_dvd (Nat.pow_dvd_pow 2 (by omega)) m
  · rw [ulp, ← Nat.pow_add, Nat.log2_two_pow]
    exact Nat.pow_dvd_pow 2 (by omega)

/-- A double is left alone. -/
theorem nearest_of_isDouble {n : Nat} (h : IsDouble n) : nearest n = n := by
  have hdvd := ulp_dvd h
  have hzero : n % ulp n = 0 := Nat.mod_eq_zero_of_dvd hdvd
  have hpos : 0 < ulp n := Nat.two_pow_pos _
  rw [nearest, hzero, if_pos (Or.inl (by omega)), Nat.div_mul_cancel hdvd]

/-- The integers up to 2^53 are doubles. -/
theorem isDouble_of_le {n : Nat} (h : n ≤ 2 ^ 53) : IsDouble n := ⟨n, 0, h, by simp⟩

/-! ## Writing and reading -/

/-- A multiple of `10^z` that is read as `n`: the nearer one if there are two. -/
def candidate (n z : Nat) : Option Nat :=
  let below := n / 10 ^ z
  let order := if 2 * (n % 10 ^ z) ≤ 10 ^ z then [below, below + 1] else [below + 1, below]
  order.find? fun s => nearest (s * 10 ^ z) = n

/-- The fewest digits that are read as `n`, and how many zeros follow them. -/
def shortest (n : Nat) : Nat × Nat :=
  ((List.range ((digits n).length + 1)).reverse.findSome? fun z =>
    (candidate n z).map fun s => (s, z)).getD (n, 0)

theorem nearest_shortest {n : Nat} (h : IsDouble n) :
    nearest ((shortest n).1 * 10 ^ (shortest n).2) = n := by
  unfold shortest
  cases hfind : (List.range ((digits n).length + 1)).reverse.findSome? fun z =>
      (candidate n z).map fun s => (s, z) with
  | none => simpa using nearest_of_isDouble h
  | some found =>
    obtain ⟨z, -, hz⟩ := List.exists_of_findSome?_eq_some hfind
    obtain ⟨s, hs, rfl⟩ := Option.map_eq_some_iff.mp hz
    simpa using List.find?_some hs

end JsInteger

/-- A number that is an integer. -/
structure JsInteger where
  val : Int
  isDouble : JsInteger.IsDouble val.natAbs

namespace JsInteger

open Decimal

@[ext] theorem ext {x y : JsInteger} (h : x.val = y.val) : x = y := by
  cases x
  cases y
  cases h
  rfl

instance : DecidableEq JsInteger := fun _ _ => decidable_of_iff _ JsInteger.ext_iff.symm

instance : OfNat JsInteger 0 := ⟨⟨0, isDouble_of_le (by simp)⟩⟩

/-- The number `n`, or the nearest one. -/
def ofNat (n : Nat) : JsInteger := ⟨nearest n, isDouble_nearest n⟩

theorem val_ofNat {n : Nat} (h : n ≤ 2 ^ 53) : (ofNat n).val = n :=
  congrArg Int.ofNat (nearest_of_isDouble (isDouble_of_le h))

/-- How a magnitude is written. -/
def magnitude (n : Nat) : List Char :=
  let (s, z) := shortest n
  if n < 10 ^ 21 then digits (s * 10 ^ z)
  else
    -- The first digit, the others behind a point, and the exponent.
    let fraction := if (digits s).length = 1 then [] else '.' :: (digits s).tail
    (digits s).take 1 ++ fraction ++ "e+".toList ++ digits ((digits s).length + z - 1)

/-- `String(x)`. -/
def text (x : JsInteger) : List Char :=
  if x.val < 0 then '-' :: magnitude x.val.natAbs else magnitude x.val.natAbs

example : magnitude (2 ^ 60) = "1152921504606847000".toList := by decide +kernel

example : magnitude (15 * 10 ^ 20) = "1.5e+21".toList := by decide +kernel

/-- `Number(text)`, for digits with a sign or without. -/
def ofText : List Char → JsInteger
  | '-' :: cs =>
    ⟨-(nearest (Nat.ofDigitChars 10 cs 0) : Int), by
      rw [Int.natAbs_neg, Int.natAbs_natCast]
      exact isDouble_nearest _⟩
  | cs => ofNat (Nat.ofDigitChars 10 cs 0)

variable {x : JsInteger}

/-- The digits that are written below 1e21. -/
theorem magnitude_eq {n : Nat} (h : n < 10 ^ 21) :
    magnitude n = digits ((shortest n).1 * 10 ^ (shortest n).2) := by
  simp only [magnitude, if_pos h]

theorem ofText_digits (n : Nat) : ofText (digits n) = ofNat n := by
  have hne : ∀ cs, digits n ≠ '-' :: cs := by
    intro cs h
    have hdigit := isDigit_of_mem_digits (h ▸ List.mem_cons_self : '-' ∈ digits n)
    exact absurd hdigit (by decide)
  unfold ofText
  split
  case h_1 cs h => exact absurd h (hne cs)
  case h_2 => rw [digits_eq, Nat.ofDigitChars_ten_toDigits]

/-- **Reading what was written.** -/
theorem ofText_text (h : x.val.natAbs < 10 ^ 21) : ofText (text x) = x := by
  have hread := nearest_shortest x.isDouble
  unfold text
  rw [magnitude_eq h]
  split
  case isTrue hneg =>
    rw [ofText]
    apply JsInteger.ext
    simp only [digits_eq, Nat.ofDigitChars_ten_toDigits, hread]
    omega
  case isFalse hpos =>
    rw [ofText_digits]
    apply JsInteger.ext
    simp only [ofNat, hread]
    omega

end JsInteger
