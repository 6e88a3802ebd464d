import FleetTracking.Lib.Decimal
import Mathlib.Data.Int.Log
import Mathlib.Data.Nat.Prime.Basic
import Mathlib.Data.Rat.Floor
import Mathlib.Tactic.Linarith
import Mathlib.Tactic.NormNum
import Mathlib.Tactic.Positivity

/-!
# Doubles and their Texts

The numbers of JavaScript are doubles: rationals with a significand of 53 bits. What is written of
one is the shortest decimal number that rounds to it.

1. `round`: the double nearest to a number.
2. `shortest`: the decimal number that is written.
3. `text`: `String(x)`.

## Main results

- `round_round`: rounding twice is rounding once.
- `exists_shortest`: of every double some decimal number is written.
- `round_printed`: it rounds to the double again.
-/

namespace Double

/-! ## Rounding -/

/-- An integer nearest to `q`, of two the even one. -/
def roundEven (q : ℚ) : Int :=
  let below := ⌊q⌋
  if q - below < 1 / 2 ∨ (q - below = 1 / 2 ∧ below % 2 = 0) then below else below + 1

/-- The exponent of a double of the magnitude of `q`: that of the last bit of its significand. -/
def exponent (q : ℚ) : Int := Int.log 2 |q| - 52

/-- The double nearest to `q`, for magnitudes from `2 ^ -1022` to `2 ^ 1024`. -/
def round (q : ℚ) : ℚ := roundEven (q / 2 ^ exponent q) * 2 ^ exponent q

theorem roundEven_intCast (n : Int) : roundEven n = n := by
  simp [roundEven]

theorem le_roundEven {q : ℚ} {n : Int} (h : (n : ℚ) ≤ q) : n ≤ roundEven q := by
  have hfloor : n ≤ ⌊q⌋ := Int.le_floor.mpr h
  simp only [roundEven]
  split
  · exact hfloor
  · omega

theorem roundEven_le {q : ℚ} {n : Int} (h : q ≤ n) : roundEven q ≤ n := by
  simp only [roundEven]
  rcases h.lt_or_eq with hlt | rfl
  · have hfloor : ⌊q⌋ < n := Int.floor_lt.mpr hlt
    split
    · omega
    · omega
  · simp

theorem two_zpow_pos (e : Int) : (0 : ℚ) < 2 ^ e := zpow_pos (by norm_num) e

/-- A significand below `2 ^ 53`. -/
private theorem round_of_lt {m e : Int} (hm : |m| < 2 ^ 53) :
    round ((m : ℚ) * 2 ^ e) = (m : ℚ) * 2 ^ e := by
  by_cases hzero : m = 0
  · simp [hzero, round, roundEven]
  have hpos : (0 : ℚ) < |(m : ℚ) * 2 ^ e| := by
    have hne : (m : ℚ) ≠ 0 := by exact_mod_cast hzero
    exact abs_pos.mpr (mul_ne_zero hne (two_zpow_pos e).ne')
  -- the last bit of the significand is not above that of `m`
  have hexp : exponent ((m : ℚ) * 2 ^ e) ≤ e := by
    have hlog := Int.zpow_log_le_self (b := 2) (by norm_num) hpos
    have hlt : |(m : ℚ) * 2 ^ e| < 2 ^ (53 + e) := by
      rw [abs_mul, abs_of_pos (two_zpow_pos e), zpow_add₀ (by norm_num)]
      have hm' : |(m : ℚ)| < 2 ^ (53 : Int) := by exact_mod_cast hm
      exact mul_lt_mul_of_pos_right hm' (two_zpow_pos e)
    have hpow := lt_of_le_of_lt hlog hlt
    have hle := (zpow_lt_zpow_iff_right₀ (by norm_num : (1 : ℚ) < (2 : Nat))).mp
      (by exact_mod_cast hpow)
    unfold exponent
    omega
  obtain ⟨k, hk⟩ := Int.le.dest hexp
  have hscaled : (m : ℚ) * 2 ^ e / 2 ^ exponent ((m : ℚ) * 2 ^ e) = ((m * 2 ^ k : Int) : ℚ) := by
    rw [div_eq_iff (two_zpow_pos _).ne']
    push_cast
    rw [mul_assoc, ← zpow_natCast, ← zpow_add₀ (by norm_num), add_comm (k : Int), hk]
  rw [round, hscaled, roundEven_intCast, ← hscaled, div_mul_cancel₀ _ (two_zpow_pos _).ne']

/-- A number with a significand of 53 bits is a double. -/
theorem round_of_le {m e : Int} (hm : |m| ≤ 2 ^ 53) :
    round ((m : ℚ) * 2 ^ e) = (m : ℚ) * 2 ^ e := by
  rcases hm.lt_or_eq with hlt | heq
  · exact round_of_lt hlt
  · -- half of it, with the next exponent
    have hhalf : ∃ m' : Int, m = 2 * m' ∧ |m'| < 2 ^ 53 := by
      rcases (abs_eq (by norm_num)).mp heq with h | h
      · exact ⟨2 ^ 52, by rw [h]; norm_num, by norm_num⟩
      · exact ⟨-2 ^ 52, by rw [h]; norm_num, by norm_num⟩
    obtain ⟨m', rfl, hm'⟩ := hhalf
    have hsame : ((2 * m' : Int) : ℚ) * 2 ^ e = (m' : ℚ) * 2 ^ (e + 1) := by
      rw [zpow_add_one₀ (by norm_num)]
      push_cast
      ring
    rw [hsame]
    exact round_of_lt hm'

/-- What a number is rounded to has such a significand. -/
theorem exists_significand (q : ℚ) : ∃ m e : Int, |m| ≤ 2 ^ 53 ∧ round q = (m : ℚ) * 2 ^ e := by
  refine ⟨roundEven (q / 2 ^ exponent q), exponent q, ?_, rfl⟩
  have hlt : |q| < 2 ^ (53 + exponent q) := by
    have hlog := Int.lt_zpow_succ_log_self (b := 2) (by norm_num) |q|
    have hexp : 53 + exponent q = Int.log 2 |q| + 1 := by
      unfold exponent
      omega
    rw [hexp]
    exact_mod_cast hlog
  have hscaled : |q / 2 ^ exponent q| ≤ ((2 ^ 53 : Int) : ℚ) := by
    rw [abs_div, abs_of_pos (two_zpow_pos _), div_le_iff₀ (two_zpow_pos _)]
    rw [zpow_add₀ (by norm_num)] at hlt
    push_cast
    exact_mod_cast hlt.le
  obtain ⟨hlow, hhigh⟩ := abs_le.mp hscaled
  refine abs_le.mpr ⟨le_roundEven ?_, roundEven_le hhigh⟩
  push_cast at hlow ⊢
  exact hlow

/-- Rounding twice is rounding once. -/
@[simp] theorem round_round (q : ℚ) : round (round q) = round q := by
  obtain ⟨m, e, hm, heq⟩ := exists_significand q
  rw [heq, round_of_le hm]

@[simp] theorem round_zero : round 0 = 0 := by
  simp [round, roundEven]

/-- Ties go to the even side on both sides of zero. -/
theorem roundEven_neg (q : ℚ) : roundEven (-q) = -roundEven q := by
  by_cases hint : q = ⌊q⌋
  · rw [hint, ← Int.cast_neg, roundEven_intCast, roundEven_intCast]
  -- from here on q is no integer, so the floor of -q is one below the negated floor
  have hlt : (⌊q⌋ : ℚ) < q := lt_of_le_of_ne (Int.floor_le q) (Ne.symm hint)
  have hfloor : ⌊-q⌋ = -⌊q⌋ - 1 := by
    rw [Int.floor_eq_iff]
    push_cast
    have hsucc := Int.lt_floor_add_one q
    exact ⟨by linarith, by linarith⟩
  simp only [roundEven, hfloor]
  push_cast
  -- the two remainders add up to one: one rounds down where the other rounds up
  by_cases hbelow : q - ⌊q⌋ < 1 / 2 ∨ (q - ⌊q⌋ = 1 / 2 ∧ ⌊q⌋ % 2 = 0)
  · rw [if_pos hbelow, if_neg]
    · omega
    · rintro (h | ⟨h, heven⟩)
      · rcases hbelow with h' | ⟨h', -⟩
        · linarith
        · linarith
      · rcases hbelow with h' | ⟨-, h'⟩
        · linarith
        · omega
  · rw [if_neg hbelow, if_pos]
    · omega
    · rcases lt_trichotomy (q - ⌊q⌋) (1 / 2) with h | h | h
      · exact absurd (Or.inl h) hbelow
      · refine Or.inr ⟨by linarith, ?_⟩
        have hodd : ⌊q⌋ % 2 ≠ 0 := fun heven => hbelow (Or.inr ⟨h, heven⟩)
        omega
      · exact Or.inl (by linarith)

theorem round_neg (q : ℚ) : round (-q) = -round q := by
  have hexp : exponent (-q) = exponent q := by
    rw [exponent, exponent, abs_neg]
  rw [round, hexp, neg_div, roundEven_neg, round]
  push_cast
  rw [neg_mul]

/-! ## Shortest decimals -/

section Shortest

/-- A number of `k` digits that rounds to `x` at the place where the digits of `x` begin: the one
nearest to `x`, or else the one on the other side of it. -/
def ofDigits (x : ℚ) (k : Nat) : Option (Nat × Int) :=
  let place : Int := Int.log 10 x + 1 - k
  let below := ⌊x / 10 ^ place⌋₊
  let nearest := (roundEven (x / 10 ^ place)).toNat
  ([nearest, 2 * below + 1 - nearest].find? fun s : Nat => round ((s : ℚ) * 10 ^ place) = x).map
    fun s => (s, place)

/-- The first number of digits, from `k` on, with which there is such a number. -/
def search (x : ℚ) : (fuel k : Nat) → Option (Nat × Int)
  | 0, _ => none
  | fuel + 1, k =>
    match ofDigits x k with
    | some d => some d
    | none => search x fuel (k + 1)

/-- The decimal number `s * 10 ^ e` that is written of a positive double, as `(s, e)`. -/
def shortest (x : ℚ) : Option (Nat × Int) := search x (Int.log 10 x + 1 + x.den).toNat 1

variable {x : ℚ}

theorem ten_zpow_pos (e : Int) : (0 : ℚ) < 10 ^ e := zpow_pos (by norm_num) e

theorem round_of_ofDigits {k : Nat} {d : Nat × Int} (h : ofDigits x k = some d) :
    round (d.1 * 10 ^ d.2) = x := by
  obtain ⟨s, hs, rfl⟩ := Option.map_eq_some_iff.mp h
  have hfits := List.find?_some hs
  exact of_decide_eq_true hfits

/-- What the search finds rounds to the double. -/
theorem round_of_search {fuel k : Nat} {d : Nat × Int} (h : search x fuel k = some d) :
    round (d.1 * 10 ^ d.2) = x := by
  induction fuel generalizing k with
  | zero => cases h
  | succ fuel ih =>
    rw [search] at h
    split at h
    case h_1 d' hd =>
      cases h
      exact round_of_ofDigits hd
    case h_2 => exact ih h

theorem search_isSome {fuel k i : Nat} (hlow : k ≤ i) (hhigh : i < k + fuel)
    (h : (ofDigits x i).isSome = true) : (search x fuel k).isSome = true := by
  induction fuel generalizing k with
  | zero => omega
  | succ fuel ih =>
    rw [search]
    split
    case h_1 => rfl
    case h_2 hnone =>
      have hne : k ≠ i := by
        rintro rfl
        rw [hnone] at h
        cases h
      exact ih (by omega) (by omega)

/-- A double with `i` places after the point is found with all its digits. -/
theorem ofDigits_isSome (hpos : 0 < x) (hdouble : round x = x) {k i : Nat} {n : Int}
    (hplace : Int.log 10 x + 1 - k = -(i : Int)) (hint : x * 10 ^ i = n) :
    (ofDigits x k).isSome = true := by
  have hscaled : x / 10 ^ (Int.log 10 x + 1 - k) = n := by
    rw [hplace, zpow_neg, div_inv_eq_mul, zpow_natCast, hint]
  have hnonneg : (0 : Int) ≤ n := by
    have hle : (0 : ℚ) ≤ n := by
      rw [← hint]
      positivity
    exact_mod_cast hle
  have hback : ((n.toNat : Nat) : ℚ) * 10 ^ (Int.log 10 x + 1 - k) = x := by
    have hcast : ((n.toNat : Nat) : ℚ) = n := by
      exact_mod_cast Int.toNat_of_nonneg hnonneg
    rw [hcast, ← hscaled, div_mul_cancel₀ _ (ten_zpow_pos _).ne']
  have hfits : round (((n.toNat : Nat) : ℚ) * 10 ^ (Int.log 10 x + 1 - k)) = x := by
    rw [hback, hdouble]
  simp only [ofDigits, hscaled, roundEven_intCast, Option.isSome_map, List.find?_isSome]
  exact ⟨n.toNat, List.mem_cons_self, decide_eq_true hfits⟩

/-- The denominator of a double is a power of two. -/
theorem exists_den (hdouble : round x = x) : ∃ i : Nat, x.den = 2 ^ i := by
  obtain ⟨m, e, -, heq⟩ := exists_significand x
  rw [hdouble] at heq
  have hdvd : x.den ∣ 2 ^ (-e).toNat := by
    have hint : x * ((2 ^ (-e).toNat : Nat) : ℚ) = ((m * 2 ^ e.toNat : Int) : ℚ) := by
      rw [heq]
      push_cast
      rw [mul_assoc, ← zpow_natCast, ← zpow_natCast, ← zpow_add₀ (by norm_num)]
      congr 2
      omega
    have hdiv : x = ((m * 2 ^ e.toNat : Int) : ℚ) / ((2 ^ (-e).toNat : Int) : ℚ) := by
      rw [eq_div_iff (by positivity)]
      exact_mod_cast hint
    rw [hdiv]
    exact_mod_cast Rat.den_dvd (m * 2 ^ e.toNat) (2 ^ (-e).toNat)
  obtain ⟨i, -, hi⟩ := (Nat.dvd_prime_pow Nat.prime_two).mp hdvd
  exact ⟨i, hi⟩

/-- Of every positive double some decimal number is written. -/
theorem exists_shortest (hpos : 0 < x) (hdouble : round x = x) :
    ∃ d, shortest x = some d ∧ round (d.1 * 10 ^ d.2) = x := by
  obtain ⟨i, hi⟩ := exists_den hdouble
  -- with `i` places after the point it is an integer
  have hint : x * 10 ^ i = ((x.num * 5 ^ i : Int) : ℚ) := by
    have hden : (10 : ℚ) ^ i = (x.den : ℚ) * 5 ^ i := by
      rw [hi]
      push_cast
      rw [← mul_pow]
      norm_num
    push_cast
    rw [hden, ← mul_assoc, Rat.mul_den_eq_num]
  have hlog : -(i : Int) ≤ Int.log 10 x := by
    have hone : (1 : ℚ) ≤ x * 10 ^ i := by
      have hn : (0 : ℚ) < ((x.num * 5 ^ i : Int) : ℚ) := by
        rw [← hint]
        positivity
      rw [hint]
      exact_mod_cast (by exact_mod_cast hn : 0 < x.num * 5 ^ i)
    apply (Int.zpow_le_iff_le_log (b := 10) (by norm_num) hpos).mp
    push_cast
    rw [zpow_neg, zpow_natCast, inv_le_iff_one_le_mul₀ (by positivity)]
    exact hone
  have hsmall : i < x.den := by
    rw [hi]
    exact Nat.lt_two_pow_self
  have hfound : (shortest x).isSome = true := by
    apply search_isSome (i := (Int.log 10 x + 1 + i).toNat) (by omega) (by omega)
    exact ofDigits_isSome hpos hdouble (by omega) hint
  obtain ⟨d, hd⟩ := Option.isSome_iff_exists.mp hfound
  exact ⟨d, hd, round_of_search hd⟩

end Shortest

/-! ## Texts -/

/-- The digits of a number before the zeros at its end. -/
def significand (s : Nat) : List Char := (Decimal.digits s).rdropWhile fun c => decide (c = '0')

/-- The digits of `s * 10 ^ e` with the point or the exponent where JavaScript writes them. -/
def positional (s : Nat) (e : Int) : List Char :=
  let ds := significand s
  -- the place of the point, counted from the first digit
  let n : Int := (Decimal.digits s).length + e
  let k : Int := ds.length
  if k ≤ n ∧ n ≤ 21 then ds ++ List.replicate (n - k).toNat '0'
  else if 0 < n ∧ n ≤ 21 then ds.take n.toNat ++ '.' :: ds.drop n.toNat
  else if -6 < n ∧ n ≤ 0 then '0' :: '.' :: (List.replicate (-n).toNat '0' ++ ds)
  else
    let power := 'e' :: (if n - 1 < 0 then '-' else '+') :: Decimal.digits (n - 1).natAbs
    if k = 1 then ds ++ power else ds.take 1 ++ '.' :: (ds.drop 1 ++ power)

/-- The decimal number that is written of a positive double, with its text. -/
def written (x : ℚ) : Nat × Int := (shortest x).getD (0, 0)

/-- `String(x)`, of the double nearest to `q`. -/
def text (q : ℚ) : List Char :=
  let x := round q
  if x = 0 then ['0']
  else if x < 0 then '-' :: positional (written (-x)).1 (written (-x)).2
  else positional (written x).1 (written x).2

/-- The number that the text denotes. -/
def printed (q : ℚ) : ℚ :=
  let x := round q
  if x = 0 then 0
  else if x < 0 then -((written (-x)).1 * 10 ^ (written (-x)).2)
  else (written x).1 * 10 ^ (written x).2

theorem round_written {x : ℚ} (hpos : 0 < x) (hdouble : round x = x) :
    round ((written x).1 * 10 ^ (written x).2) = x := by
  obtain ⟨d, hd, hround⟩ := exists_shortest hpos hdouble
  rw [written, hd, Option.getD_some]
  exact hround

example : text (1 / 10) = "0.1".toList := by decide +kernel

end Double
