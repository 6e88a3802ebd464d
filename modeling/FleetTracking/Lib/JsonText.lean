import FleetTracking.Lib.Double
import FleetTracking.Lib.Json
import Mathlib.Tactic.FieldSimp

/-!
# Writing JSON Texts

`JSON.stringify`, and what `JSON.parse` makes of its texts: the value again, with every number as
it is printed.

1. `number_text`: the texts of numbers.
2. `stringRest_escaped`: the texts of strings.
3. `parse_stringify`: the texts of values.
-/

namespace Json

open Double (significand)

/-! ## Numbers -/

section Numbers

variable {whole part rest : List Char}

/-- The text does not go on with a digit. -/
def NoDigit (rest : List Char) : Prop := ∀ c ∈ rest.head?, c.isDigit = false

/-- The text does not go on with what a number could go on with. -/
def Stops (rest : List Char) : Prop :=
  ∀ c ∈ rest.head?, c.isDigit = false ∧ c ≠ '.' ∧ c ≠ 'e' ∧ c ≠ 'E'

theorem Stops.noDigit (h : Stops rest) : NoDigit rest := fun c hc => (h c hc).1

/-- A run of digits is read up to its end. -/
theorem digitRun_append (hdigits : ∀ c ∈ whole, c.isDigit = true) (hne : whole ≠ [])
    (hrest : NoDigit rest) :
    digitRun (whole ++ rest) = some (Nat.ofDigitChars 10 whole 0, whole.length, rest) := by
  have hstop : rest.takeWhile Char.isDigit = [] ∧ rest.dropWhile Char.isDigit = rest := by
    cases rest with
    | nil => exact ⟨rfl, rfl⟩
    | cons c cs => simp [hrest c rfl]
  have htake : (whole ++ rest).takeWhile Char.isDigit = whole := by
    rw [List.takeWhile_append_of_pos hdigits, hstop.1, List.append_nil]
  have hdrop : (whole ++ rest).dropWhile Char.isDigit = rest := by
    rw [List.dropWhile_append_of_pos hdigits, hstop.2]
  simp only [digitRun, htake, hdrop]
  rw [if_neg (by simpa using hne)]
  rfl

theorem fraction_stops (h : Stops rest) : fraction rest = some (0, rest) := by
  cases rest with
  | nil => rfl
  | cons c cs =>
    have hpoint := (h c rfl).2.1
    simp only [fraction]
    split
    · rename_i heq
      exact absurd (List.cons.inj heq).1 hpoint
    · rfl

theorem exponent_stops (q : ℚ) (h : Stops rest) : exponent q rest = some (q, rest) := by
  cases rest with
  | nil => rfl
  | cons c cs =>
    obtain ⟨-, -, he, hE⟩ := h c rfl
    unfold exponent
    split <;> simp_all

/-- A fraction. -/
theorem fraction_part (hdigits : ∀ c ∈ part, c.isDigit = true) (hne : part ≠ [])
    (hrest : NoDigit rest) :
    fraction ('.' :: (part ++ rest)) =
      some ((Nat.ofDigitChars 10 part 0 : ℚ) / 10 ^ part.length, rest) := by
  simp [fraction, digitRun_append hdigits hne hrest]

/-- A power of ten. -/
theorem exponent_power (q : ℚ) (e : Int) (hrest : NoDigit rest) :
    exponent q ('e' :: (if e < 0 then '-' else '+') :: (Decimal.digits e.natAbs ++ rest)) =
      some (q * 10 ^ e, rest) := by
  have hrun := digitRun_append (fun c hc => Decimal.isDigit_of_mem_digits hc)
    (Decimal.digits_ne_nil e.natAbs) hrest
  have hvalue : Nat.ofDigitChars 10 (Decimal.digits e.natAbs) 0 = e.natAbs := by
    rw [Decimal.digits_eq, Nat.ofDigitChars_ten_toDigits]
  rw [hvalue] at hrun
  by_cases hneg : e < 0
  · have hpow : (10 : ℚ) ^ e = (10 ^ e.natAbs)⁻¹ := by
      rw [← zpow_natCast, ← zpow_neg]
      congr 1
      omega
    simp [hneg, exponent, scaled, hrun, hpow, div_eq_mul_inv]
  · have hpow : (10 : ℚ) ^ e = 10 ^ e.natAbs := by
      rw [← zpow_natCast]
      congr 1
      omega
    simp [hneg, exponent, scaled, hrun, hpow]

/-- A number without its sign, put together from its parts. -/
theorem magnitude_parts {mid : List Char} {f q : ℚ} (hdigits : ∀ c ∈ whole, c.isDigit = true)
    (hne : whole ≠ []) (hzero : whole.head? = some '0' → whole.length = 1) (hmid : NoDigit mid)
    {mid' : List Char} (hfraction : fraction mid = some (f, mid'))
    (hexponent : exponent (Nat.ofDigitChars 10 whole 0 + f) mid' = some (q, rest)) :
    magnitude (whole ++ mid) = some (q, rest) := by
  have hhead : (whole ++ mid).head? = whole.head? := by
    cases whole with
    | nil => exact absurd rfl hne
    | cons c cs => rfl
  have hok : ¬ (whole.head? = some '0' ∧ whole.length ≠ 1) := fun h => h.2 (hzero h.1)
  simp [magnitude, digitRun_append hdigits hne hmid, hhead, hok, hfraction, hexponent]

theorem zero_digits : ∀ c ∈ ['0'], c.isDigit = true := by simp

theorem isDigit_of_mem_significand {s : Nat} {c : Char} (h : c ∈ significand s) :
    c.isDigit = true :=
  Decimal.isDigit_of_mem_digits ((List.rdropWhile_prefix _ _).subset h)

/-- What the digits before the zeros denote. -/
theorem significand_value (s : Nat) : s = Nat.ofDigitChars 10 (significand s) 0 *
    10 ^ ((Decimal.digits s).length - (significand s).length) := by
  have hvalue : Nat.ofDigitChars 10 (Decimal.digits s) 0 = s := by
    rw [Decimal.digits_eq, Nat.ofDigitChars_ten_toDigits]
  have hsplit := congrArg (Nat.ofDigitChars 10 · 0) (Decimal.eq_append_zeros (Decimal.digits s))
  simp only [hvalue, Nat.ofDigitChars_append, Nat.ofDigitChars_replicate_zero] at hsplit
  rw [Nat.mul_comm]
  exact hsplit

theorem length_significand_le (s : Nat) : (significand s).length ≤ (Decimal.digits s).length :=
  (List.rdropWhile_prefix _ _).length_le

/-- A number other than zero begins with another digit. The induction is on its digits, from the
last one on. -/
theorem head?_digits {n : Nat} (hn : n ≠ 0) : (Decimal.digits n).head? ≠ some '0' := by
  induction n using Nat.strong_induction_on with
  | _ n ih =>
    rw [Decimal.digits_eq, Nat.toDigits_eq_if (by norm_num)]
    by_cases hsmall : n < 10
    · have hdigit : ∀ n < 10, n ≠ 0 → Nat.digitChar n ≠ '0' := by decide
      simpa [hsmall] using hdigit n hsmall hn
    · have hrest := ih (n / 10) (by omega) (by omega)
      rw [Decimal.digits_eq] at hrest
      rw [if_neg hsmall, List.head?_append_of_ne_nil _ Nat.toDigits_ne_nil]
      exact hrest

theorem significand_ne_nil {s : Nat} (hs : s ≠ 0) : significand s ≠ [] := by
  intro hnil
  have hvalue := significand_value s
  rw [hnil] at hvalue
  simp [Nat.ofDigitChars] at hvalue
  exact hs hvalue

theorem head?_significand {s : Nat} (hs : s ≠ 0) : (significand s).head? ≠ some '0' := by
  obtain ⟨more, hdigits⟩ := List.rdropWhile_prefix (fun c => decide (c = '0')) (Decimal.digits s)
  have hhead := head?_digits hs
  rw [← hdigits, List.head?_append_of_ne_nil] at hhead
  · exact hhead
  · exact significand_ne_nil hs

/-- What a run of digits denotes, cut in two. -/
theorem ofDigitChars_take_drop (ds : List Char) (n : Nat) : Nat.ofDigitChars 10 ds 0 =
    Nat.ofDigitChars 10 (ds.take n) 0 * 10 ^ (ds.drop n).length +
      Nat.ofDigitChars 10 (ds.drop n) 0 := by
  have hsplit := Nat.ofDigitChars_append (b := 10) (l := ds.take n) (m := ds.drop n) 0
  rw [List.take_append_drop] at hsplit
  rw [hsplit, Nat.ofDigitChars_eq_ofDigitChars_zero, Nat.mul_comm]

section Places

variable {ds rest : List Char} (hdigits : ∀ c ∈ ds, c.isDigit = true) (hne : ds ≠ [])
  (hhead : ds.head? ≠ some '0') (hrest : Stops rest)

include hdigits hne hhead hrest

/-- An integer, with the zeros at its end. -/
theorem magnitude_whole (m : Nat) : magnitude (ds ++ List.replicate m '0' ++ rest) =
    some ((Nat.ofDigitChars 10 ds 0 : ℚ) * 10 ^ m, rest) := by
  have hall : ∀ c ∈ ds ++ List.replicate m '0', c.isDigit = true := by
    intro c hc
    rcases List.mem_append.mp hc with hc | hc
    · exact hdigits c hc
    · rw [List.eq_of_mem_replicate hc]
      rfl
  have hvalue : Nat.ofDigitChars 10 (ds ++ List.replicate m '0') 0 =
      Nat.ofDigitChars 10 ds 0 * 10 ^ m := by
    rw [Nat.ofDigitChars_append, Nat.ofDigitChars_replicate_zero, Nat.mul_comm]
  apply magnitude_parts hall (by simp [hne]) _ hrest.noDigit (fraction_stops hrest)
  · rw [exponent_stops _ hrest, hvalue]
    push_cast
    rw [add_zero]
  · rw [List.head?_append_of_ne_nil _ hne]
    exact fun h => absurd h hhead

/-- A point between the digits. -/
theorem magnitude_between {n : Nat} (hpos : 0 < n) (hlt : n < ds.length) :
    magnitude (ds.take n ++ '.' :: ds.drop n ++ rest) =
      some ((Nat.ofDigitChars 10 ds 0 : ℚ) / 10 ^ (ds.length - n), rest) := by
  have hpart : ds.drop n ≠ [] := by
    simpa using hlt
  have hwhole : ds.take n ≠ [] := by
    simp [hne]
    omega
  rw [List.append_assoc, List.cons_append]
  apply magnitude_parts (fun c hc => hdigits c (List.mem_of_mem_take hc)) hwhole _
    (by simp [NoDigit]) (fraction_part (fun c hc => hdigits c (List.mem_of_mem_drop hc)) hpart
      hrest.noDigit)
  · rw [exponent_stops _ hrest, ofDigitChars_take_drop ds n]
    push_cast
    rw [List.length_drop, add_div, mul_div_cancel_right₀ _ (by positivity)]
  · intro hzero
    rw [List.head?_take, if_neg hpos.ne'] at hzero
    exact absurd hzero hhead

omit hhead in
/-- A point before the digits. -/
theorem magnitude_before (m : Nat) :
    magnitude ('0' :: '.' :: (List.replicate m '0' ++ ds) ++ rest) =
      some ((Nat.ofDigitChars 10 ds 0 : ℚ) / 10 ^ (m + ds.length), rest) := by
  have hall : ∀ c ∈ List.replicate m '0' ++ ds, c.isDigit = true := by
    intro c hc
    rcases List.mem_append.mp hc with hc | hc
    · rw [List.eq_of_mem_replicate hc]
      rfl
    · exact hdigits c hc
  have hvalue : Nat.ofDigitChars 10 (List.replicate m '0' ++ ds) 0 = Nat.ofDigitChars 10 ds 0 := by
    rw [Nat.ofDigitChars_append, Nat.ofDigitChars_replicate_zero, Nat.mul_zero]
  have hpoint : NoDigit ('.' :: ((List.replicate m '0' ++ ds) ++ rest)) := by simp [NoDigit]
  have hparts := magnitude_parts zero_digits (by simp) (by simp) hpoint
    (fraction_part hall (by simp [hne]) hrest.noDigit) (exponent_stops _ hrest)
  rw [hvalue, List.length_append, List.length_replicate] at hparts
  simpa [Nat.ofDigitChars] using hparts

/-- No point, and an exponent. -/
theorem magnitude_digit (e : Int) :
    magnitude (ds ++ 'e' :: (if e < 0 then '-' else '+') :: Decimal.digits e.natAbs ++ rest) =
      some ((Nat.ofDigitChars 10 ds 0 : ℚ) * 10 ^ e, rest) := by
  rw [List.append_assoc, List.cons_append, List.cons_append]
  have hfraction : ∀ cs, fraction ('e' :: cs) = some (0, 'e' :: cs) := fun _ => rfl
  apply magnitude_parts hdigits hne (fun h => absurd h hhead) (by simp [NoDigit]) (hfraction _)
  rw [add_zero]
  exact exponent_power _ e hrest.noDigit

/-- A point after the first digit, and an exponent. -/
theorem magnitude_power (hmany : 1 < ds.length) (e : Int) :
    magnitude (ds.take 1 ++ '.' :: (ds.drop 1 ++ 'e' :: (if e < 0 then '-' else '+') ::
        Decimal.digits e.natAbs) ++ rest) =
      some ((Nat.ofDigitChars 10 ds 0 : ℚ) / 10 ^ (ds.length - 1) * 10 ^ e, rest) := by
  have hpart : ds.drop 1 ≠ [] := by
    rw [← List.length_pos_iff, List.length_drop]
    omega
  have hwhole : ds.take 1 ≠ [] := by
    simp [hne]
  rw [List.append_assoc, List.cons_append, List.append_assoc, List.cons_append, List.cons_append]
  apply magnitude_parts (fun c hc => hdigits c (List.mem_of_mem_take hc)) hwhole _
    (by simp [NoDigit]) (fraction_part (fun c hc => hdigits c (List.mem_of_mem_drop hc)) hpart
      (by simp [NoDigit]))
  · rw [exponent_power _ e hrest.noDigit, ofDigitChars_take_drop ds 1]
    push_cast
    rw [List.length_drop, add_div, mul_div_cancel_right₀ _ (by positivity)]
  · intro hzero
    rw [List.head?_take, if_neg (by omega)] at hzero
    exact absurd hzero hhead

end Places

/-- **The texts of positive numbers**: the number is read again, wherever the point stands. -/
theorem magnitude_positional {s : Nat} (hs : s ≠ 0) (e : Int) {rest : List Char}
    (hrest : Stops rest) :
    magnitude (Double.positional s e ++ rest) = some ((s : ℚ) * 10 ^ e, rest) := by
  have hdigits : ∀ c ∈ significand s, c.isDigit = true := fun c => isDigit_of_mem_significand
  have hne := significand_ne_nil hs
  have hhead := head?_significand hs
  have hle := length_significand_le s
  have hlength : 0 < (significand s).length := List.length_pos_iff.mpr hne
  -- the number in terms of its significand
  have hvalue : (s : ℚ) * 10 ^ e = (Nat.ofDigitChars 10 (significand s) 0 : ℚ) *
      10 ^ ((Decimal.digits s).length + e - (significand s).length) := by
    conv_lhs => rw [significand_value s]
    push_cast
    rw [mul_assoc, ← zpow_natCast, ← zpow_add₀ (by norm_num)]
    congr 2
    omega
  rw [hvalue]
  simp only [Double.positional]
  generalize significand s = ds at *
  generalize ((Decimal.digits s).length : Int) + e = n at *
  by_cases hwhole : (ds.length : Int) ≤ n ∧ n ≤ 21
  · rw [if_pos hwhole, magnitude_whole hdigits hne hhead hrest, ← zpow_natCast]
    congr 4
    omega
  rw [if_neg hwhole]
  by_cases hpoint : 0 < n ∧ n ≤ 21
  · rw [if_pos hpoint, magnitude_between hdigits hne hhead hrest (by omega) (by omega),
      div_eq_mul_inv, ← zpow_natCast, ← zpow_neg]
    congr 4
    omega
  rw [if_neg hpoint]
  by_cases hsmall : -6 < n ∧ n ≤ 0
  · rw [if_pos hsmall, magnitude_before hdigits hne hrest, div_eq_mul_inv, ← zpow_natCast,
      ← zpow_neg]
    congr 4
    omega
  rw [if_neg hsmall]
  by_cases hone : (ds.length : Int) = 1
  · rw [if_pos hone, magnitude_digit hdigits hne hhead hrest]
    congr 4
    omega
  · rw [if_neg hone, magnitude_power hdigits hne hhead hrest (by omega), div_eq_mul_inv,
      ← zpow_natCast, ← zpow_neg, mul_assoc, ← zpow_add₀ (by norm_num)]
    congr 4
    omega

/-- The text of a positive number begins with a digit. -/
theorem positional_cons {s : Nat} (hs : s ≠ 0) (e : Int) :
    ∃ c cs, Double.positional s e = c :: cs ∧ c.isDigit = true := by
  obtain ⟨c, cs, hds⟩ := List.exists_cons_of_ne_nil (significand_ne_nil hs)
  have hc : c.isDigit = true := isDigit_of_mem_significand (hds ▸ List.mem_cons_self)
  simp only [Double.positional, hds]
  split_ifs with hwhole hpoint hsmall
  · exact ⟨c, _, rfl, hc⟩
  · obtain ⟨m, hm⟩ : ∃ m, ((Decimal.digits s).length + e).toNat = m + 1 :=
      ⟨((Decimal.digits s).length + e).toNat - 1, by omega⟩
    rw [hm]
    exact ⟨c, _, rfl, hc⟩
  · exact ⟨'0', _, rfl, rfl⟩
  all_goals exact ⟨c, _, rfl, hc⟩

theorem number_of_digit {c : Char} {cs : List Char} (h : c.isDigit = true) :
    number (c :: cs) = magnitude (c :: cs) := by
  unfold number
  split
  · rename_i heq
    rw [(List.cons.inj heq).1] at h
    cases h
  · rfl

theorem written_ne_zero {x : ℚ} (hpos : 0 < x) (hdouble : Double.round x = x) :
    (Double.written x).1 ≠ 0 := by
  intro hzero
  have hround := Double.round_written hpos hdouble
  rw [hzero, Nat.cast_zero, zero_mul, Double.round_zero] at hround
  exact hpos.ne hround

/-- The text of a number begins with a digit or a sign. -/
theorem text_cons (q : ℚ) : ∃ c cs, Double.text q = c :: cs ∧ (c.isDigit = true ∨ c = '-') := by
  have hdouble := Double.round_round q
  simp only [Double.text]
  split_ifs with hzero hneg
  · exact ⟨'0', [], rfl, Or.inl rfl⟩
  · exact ⟨'-', _, rfl, Or.inr rfl⟩
  · have hpos : 0 < Double.round q := lt_of_le_of_ne (not_lt.mp hneg) (Ne.symm hzero)
    obtain ⟨c, cs, hcons, hc⟩ := positional_cons (written_ne_zero hpos hdouble)
      (Double.written (Double.round q)).2
    exact ⟨c, cs, hcons, Or.inl hc⟩

/-- **The texts of numbers**: what is read is the number that was printed. -/
theorem number_text (q : ℚ) {rest : List Char} (hrest : Stops rest) :
    number (Double.text q ++ rest) = some (Double.printed q, rest) := by
  have hdouble := Double.round_round q
  simp only [Double.text, Double.printed]
  rcases lt_trichotomy (Double.round q) 0 with hneg | hzero | hpos
  · have hdouble' : Double.round (-Double.round q) = -Double.round q := by
      rw [Double.round_neg, hdouble]
    have hs := written_ne_zero (by linarith) hdouble'
    rw [if_neg hneg.ne, if_pos hneg, if_neg hneg.ne, if_pos hneg]
    simp [number, magnitude_positional hs _ hrest]
  · rw [if_pos hzero, if_pos hzero]
    have hparts := magnitude_parts zero_digits (by simp) (by simp) hrest.noDigit
      (fraction_stops hrest) (exponent_stops _ hrest)
    simpa [number, Nat.ofDigitChars] using hparts
  · have hs := written_ne_zero hpos hdouble
    rw [if_neg hpos.ne', if_neg hpos.not_gt, if_neg hpos.ne', if_neg hpos.not_gt]
    obtain ⟨c, cs, hcons, hc⟩ := positional_cons hs (Double.written (Double.round q)).2
    have hread := magnitude_positional hs (Double.written (Double.round q)).2 hrest
    rw [hcons] at hread ⊢
    rw [List.cons_append, number_of_digit hc]
    exact hread

end Numbers

/-! ## Strings -/

/-- A hexadecimal digit, in lower case. -/
def hexChar (n : Nat) : Char := if n < 10 then Char.ofNat (48 + n) else Char.ofNat (87 + n)

/-- A character as it stands in a string. -/
def escaped (c : Char) : List Char :=
  if c = '"' then ['\\', '"']
  else if c = '\\' then ['\\', '\\']
  else if c = Char.ofNat 8 then ['\\', 'b']
  else if c = Char.ofNat 12 then ['\\', 'f']
  else if c = '\n' then ['\\', 'n']
  else if c = '\r' then ['\\', 'r']
  else if c = '\t' then ['\\', 't']
  else if c.toNat < 0x20 then
    ['\\', 'u', '0', '0', hexChar (c.toNat / 16), hexChar (c.toNat % 16)]
  else [c]

/-- How a character is written: a letter after a backslash, in hexadecimal, or as it is. -/
inductive WrittenAs (c : Char) : List Char → Prop where
  | letter {d : Char} (hletter : d ∈ ['"', '\\', 'b', 'f', 'n', 'r', 't'])
      (hread : ∀ rest, escape (d :: rest) = some (c, rest)) : WrittenAs c ['\\', d]
  | control (hcontrol : c.toNat < 0x20) :
      WrittenAs c ['\\', 'u', '0', '0', hexChar (c.toNat / 16), hexChar (c.toNat % 16)]
  | plain (hquote : c ≠ '"') (hslash : c ≠ '\\') (hline : c ≠ '\n')
      (hcontrol : ¬ c.toNat < 0x20) : WrittenAs c [c]

/-- **Inversion of `escaped`.** -/
theorem writtenAs_escaped (c : Char) : WrittenAs c (escaped c) := by
  have hletter : ∀ d e, c = e → (∀ rest, escape (d :: rest) = some (e, rest)) →
      d ∈ ['"', '\\', 'b', 'f', 'n', 'r', 't'] → WrittenAs c ['\\', d] := by
    rintro d e rfl hread hd
    exact .letter hd hread
  -- the branches of the printer in their order: seven letters, a control character, the character
  -- itself
  unfold escaped
  split
  case isTrue hquote => exact hletter _ _ hquote (fun _ => rfl) (by simp)
  case isFalse hquote =>
  split
  case isTrue hslash => exact hletter _ _ hslash (fun _ => rfl) (by simp)
  case isFalse hslash =>
  split
  case isTrue hback => exact hletter _ _ hback (fun _ => rfl) (by simp)
  case isFalse =>
  split
  case isTrue hfeed => exact hletter _ _ hfeed (fun _ => rfl) (by simp)
  case isFalse =>
  split
  case isTrue hline => exact hletter _ _ hline (fun _ => rfl) (by simp)
  case isFalse hline =>
  split
  case isTrue hreturn => exact hletter _ _ hreturn (fun _ => rfl) (by simp)
  case isFalse =>
  split
  case isTrue htab => exact hletter _ _ htab (fun _ => rfl) (by simp)
  case isFalse =>
  split
  case isTrue hcontrol => exact .control hcontrol
  case isFalse hcontrol => exact .plain hquote hslash hline hcontrol

/-- A string after its opening quote. -/
def quoted (s : List Char) : List Char := s.flatMap escaped ++ ['"']

theorem hexDigit_hexChar {n : Nat} (h : n < 16) : hexDigit (hexChar n) = some n := by
  have hall : ∀ n < 16, hexDigit (hexChar n) = some n := by decide
  exact hall n h

/-- The escape of a control character. -/
theorem unicode_hexChar {n : Nat} (h : n < 0x20) (rest : List Char) :
    unicode ('0' :: '0' :: hexChar (n / 16) :: hexChar (n % 16) :: rest) =
      some (Char.ofNat n, rest) := by
  have hhigh := hexDigit_hexChar (show n / 16 < 16 by omega)
  have hlow := hexDigit_hexChar (show n % 16 < 16 by omega)
  have hzero : hexDigit '0' = some 0 := by decide
  have hvalue : n / 16 * 16 + n % 16 = n := by omega
  have hsmall : ¬ 0xD800 ≤ n := by omega
  have hsmall' : ¬ 0xDC00 ≤ n := by omega
  simp [unicode, codeUnit, hhigh, hlow, hzero, hvalue, hsmall, hsmall']

/-- One character is read. -/
theorem stringRest_escaped (fuel : Nat) (c : Char) (rest : List Char) :
    stringRest (fuel + 1) (escaped c ++ rest) =
      (stringRest fuel rest).map fun r => (c :: r.1, r.2) := by
  -- a backslash consumes whatever escape reads behind it
  have hescape : ∀ d cs, escape (d :: cs) = some (c, rest) →
      stringRest (fuel + 1) ('\\' :: d :: cs) =
        (stringRest fuel rest).map fun r => (c :: r.1, r.2) := by
    intro d cs h
    simp only [stringRest, h, Option.bind_eq_bind, Option.bind_some]
    cases stringRest fuel rest with
    | none => rfl
    | some r => rfl
  have hwritten := writtenAs_escaped c
  generalize escaped c = text at hwritten ⊢
  cases hwritten with
  | letter _ hread => exact hescape _ _ (hread rest)
  | control hcontrol =>
    apply hescape
    have hunicode := unicode_hexChar hcontrol rest
    rw [Char.ofNat_toNat] at hunicode
    exact hunicode
  | plain hquote hslash hline hcontrol =>
    rw [List.singleton_append, stringRest, if_neg hcontrol]
    · cases stringRest fuel rest with
      | none => rfl
      | some r => rfl
    · exact hquote
    · exact hslash

/-- **The texts of strings**: what is read is the string that was written. -/
theorem stringRest_quoted {fuel : Nat} (s : List Char) (rest : List Char)
    (hfuel : s.length < fuel) : stringRest fuel (quoted s ++ rest) = some (s, rest) := by
  induction s generalizing fuel with
  | nil =>
    obtain ⟨n, rfl⟩ : ∃ n, fuel = n + 1 := ⟨fuel - 1, by simp at hfuel; omega⟩
    rfl
  | cons c s ih =>
    obtain ⟨n, rfl⟩ : ∃ n, fuel = n + 1 := ⟨fuel - 1, by omega⟩
    have hrest : stringRest n (quoted s ++ rest) = some (s, rest) := ih (by simpa using hfuel)
    rw [quoted, List.flatMap_cons, List.append_assoc, List.append_assoc, ← List.append_assoc _ ['"'],
      stringRest_escaped, ← quoted, hrest]
    rfl

theorem length_lt_quoted (s : List Char) : s.length < (quoted s).length := by
  induction s with
  | nil => decide
  | cons c s ih =>
    have hone : 1 ≤ (escaped c).length := by
      have hwritten := writtenAs_escaped c
      generalize escaped c = text at hwritten ⊢
      cases hwritten with
      | letter => simp
      | control => simp
      | plain => simp
    simp only [quoted, List.flatMap_cons, List.length_append, List.length_cons] at ih ⊢
    omega

/-! ## Values -/

mutual

/-- The text of a value. -/
def chars : Json → List Char
  | .null => ['n', 'u', 'l', 'l']
  | .bool true => ['t', 'r', 'u', 'e']
  | .bool false => ['f', 'a', 'l', 's', 'e']
  | .num q => Double.text q
  | .str s => '"' :: quoted s.toList
  | .arr vs => '[' :: elementsText vs
  | .obj ms => '{' :: membersText ms

/-- The elements of an array and its closing bracket. -/
def elementsText : List Json → List Char
  | [] => [']']
  | [v] => chars v ++ [']']
  | v :: vs => chars v ++ ',' :: elementsText vs

/-- The members of an object and its closing brace. -/
def membersText : List (String × Json) → List Char
  | [] => ['}']
  | [(name, v)] => '"' :: quoted name.toList ++ ':' :: chars v ++ ['}']
  | (name, v) :: ms => '"' :: quoted name.toList ++ ':' :: chars v ++ ',' :: membersText ms

end

/-- `JSON.stringify`. -/
def stringify (v : Json) : String := String.ofList (chars v)

mutual

/-- A value with every number as it is printed. -/
def printed : Json → Json
  | .null => .null
  | .bool b => .bool b
  | .num q => .num (Double.printed q)
  | .str s => .str s
  | .arr vs => .arr (printedElements vs)
  | .obj ms => .obj (printedMembers ms)

def printedElements : List Json → List Json
  | [] => []
  | v :: vs => printed v :: printedElements vs

def printedMembers : List (String × Json) → List (String × Json)
  | [] => []
  | (name, v) :: ms => (name, printed v) :: printedMembers ms

end

theorem skipSpace_cons {c : Char} {cs : List Char} (h : isSpace c = false) :
    skipSpace (c :: cs) = c :: cs := by
  rw [skipSpace, List.dropWhile_cons_of_neg (by simp [h])]

theorem isSpace_of_number {c : Char} (h : c.isDigit = true ∨ c = '-') : isSpace c = false := by
  rcases h with h | rfl
  · have hne : c ≠ ' ' ∧ c ≠ '\t' ∧ c ≠ '\n' ∧ c ≠ '\r' := by
      refine ⟨?_, ?_, ?_, ?_⟩
      all_goals
        rintro rfl
        cases h
    simp [isSpace, hne]
  · rfl

/-- What begins like a number is read as one. -/
theorem value_of_number {fuel : Nat} {c : Char} {cs : List Char}
    (h : c.isDigit = true ∨ c = '-') :
    value (fuel + 1) (c :: cs) = (number (c :: cs)).map fun r => (.num r.1, r.2) := by
  have hne : ∀ d, d.isDigit = false → d ≠ '-' → c ≠ d := by
    rintro d hd hsign rfl
    rcases h with h | h
    · rw [hd] at h
      cases h
    · exact hsign h
  rw [value, skipSpace_cons (isSpace_of_number h)]
  split
  case h_7 => rfl
  all_goals
    rename_i heq
    exact absurd (List.cons.inj heq).1 (hne _ (by decide) (by decide))

/-- A text begins with what is not white space, and does not close an array. -/
theorem chars_cons (v : Json) : ∃ c cs, chars v = c :: cs ∧ isSpace c = false ∧ c ≠ ']' := by
  cases v with
  | null => exact ⟨'n', _, rfl, rfl, by decide⟩
  | bool b =>
    cases b with
    | true => exact ⟨'t', _, rfl, rfl, by decide⟩
    | false => exact ⟨'f', _, rfl, rfl, by decide⟩
  | num q =>
    obtain ⟨c, cs, hcons, hc⟩ := text_cons q
    refine ⟨c, cs, hcons, isSpace_of_number hc, ?_⟩
    rintro rfl
    simp at hc
  | str s => exact ⟨'"', _, rfl, rfl, by decide⟩
  | arr vs => exact ⟨'[', _, rfl, rfl, by decide⟩
  | obj ms => exact ⟨'{', _, rfl, rfl, by decide⟩

theorem elementsText_cons (v : Json) (vs : List Json) :
    ∃ c cs, elementsText (v :: vs) = c :: cs ∧ isSpace c = false ∧ c ≠ ']' := by
  obtain ⟨c, cs, hcons, hc⟩ := chars_cons v
  cases vs with
  | nil => exact ⟨c, cs ++ [']'], by simp [elementsText, hcons], hc⟩
  | cons w ws => exact ⟨c, cs ++ ',' :: elementsText (w :: ws), by simp [elementsText, hcons], hc⟩

theorem membersText_cons (name : String) (v : Json) (ms : List (String × Json)) :
    ∃ cs, membersText ((name, v) :: ms) = '"' :: cs := by
  cases ms with
  | nil => exact ⟨_, rfl⟩
  | cons m ms => exact ⟨_, rfl⟩

/-- A separator after a value. -/
theorem stops_cons {c : Char} {rest : List Char} (h : c = ',' ∨ c = ']' ∨ c = '}') :
    Stops (c :: rest) := by
  intro d hd
  obtain rfl : c = d := by simpa using hd
  rcases h with rfl | rfl | rfl
  all_goals decide

mutual

/-- What is read of the text of a value. The recursion is on the value; each step of the descent
takes a character, or is followed by one that does. -/
theorem value_chars (v : Json) (fuel : Nat) (rest : List Char)
    (hfuel : 2 * (chars v).length ≤ fuel) (hrest : Stops rest) :
    value fuel (chars v ++ rest) = some (printed v, rest) := by
  -- one unit of fuel is spent on the value itself
  obtain ⟨n, rfl⟩ : ∃ n, fuel = n + 1 := by
    obtain ⟨c, cs, hcons, -⟩ := chars_cons v
    rw [hcons, List.length_cons] at hfuel
    exact ⟨fuel - 1, by omega⟩
  match v with
  | .null => rfl
  | .bool true => rfl
  | .bool false => rfl
  | .num q =>
    obtain ⟨c, cs, hcons, hc⟩ := text_cons q
    -- what follows the digits must not continue the number
    have hnumber := number_text q hrest
    rw [chars, printed]
    rw [hcons] at hnumber ⊢
    rw [List.cons_append] at hnumber ⊢
    rw [value_of_number hc, hnumber]
    rfl
  | .str s =>
    have hlength := length_lt_quoted s.toList
    rw [chars, List.length_cons] at hfuel
    rw [chars, List.cons_append, value, skipSpace_cons (by decide)]
    simp only
    rw [stringRest_quoted s.toList rest (by omega), Option.map_some, String.ofList_toList, printed]
  | .arr [] =>
    rw [chars, List.cons_append, value, skipSpace_cons (by decide)]
    rfl
  | .arr (v :: vs) =>
    rw [chars, List.length_cons] at hfuel
    -- no element begins with the closing bracket, so the list is not taken for an empty one
    have helements := elements_text (v :: vs) (List.cons_ne_nil v vs) n rest (by omega)
    obtain ⟨c, cs, hcons, hspace, hclose⟩ := elementsText_cons v vs
    rw [chars, List.cons_append, value, skipSpace_cons (by decide)]
    rw [hcons, List.cons_append] at helements ⊢
    simp only [skipSpace_cons hspace]
    split
    · rename_i heq
      exact absurd (List.cons.inj heq).1 hclose
    · rw [helements]
      rfl
  | .obj [] =>
    rw [chars, List.cons_append, value, skipSpace_cons (by decide)]
    rfl
  | .obj ((name, v) :: ms) =>
    rw [chars, List.length_cons] at hfuel
    have hmembers := members_text ((name, v) :: ms) (List.cons_ne_nil _ ms) n rest (by omega)
    obtain ⟨cs, hcons⟩ := membersText_cons name v ms
    rw [chars, List.cons_append, value, skipSpace_cons (by decide)]
    rw [hcons, List.cons_append] at hmembers ⊢
    simp only [skipSpace_cons (show isSpace '"' = false by decide)]
    show (members n ('"' :: (cs ++ rest))).map (fun r => (Json.obj r.1, r.2)) = _
    rw [hmembers]
    rfl

theorem elements_text (vs : List Json) (hne : vs ≠ []) (fuel : Nat) (rest : List Char)
    (hfuel : 2 * (elementsText vs).length ≤ fuel) :
    elements fuel (elementsText vs ++ rest) = some (printedElements vs, rest) := by
  obtain ⟨n, rfl⟩ : ∃ n, fuel = n + 1 := by
    obtain ⟨v, vs, rfl⟩ := List.exists_cons_of_ne_nil hne
    obtain ⟨c, cs, hcons, -⟩ := elementsText_cons v vs
    rw [hcons, List.length_cons] at hfuel
    exact ⟨fuel - 1, by omega⟩
  match vs with
  | [] => exact absurd rfl hne
  | [v] =>
    simp only [elementsText, List.length_append, List.length_singleton] at hfuel
    have hvalue := value_chars v n (']' :: rest) (by omega) (stops_cons (by simp))
    simp [elements, elementsText, hvalue, skipSpace_cons, isSpace, printedElements]
  | v :: w :: ws =>
    simp only [elementsText, List.length_append, List.length_cons] at hfuel
    have hvalue := value_chars v n (',' :: (elementsText (w :: ws) ++ rest)) (by omega)
      (stops_cons (by simp))
    have hrest := elements_text (w :: ws) (List.cons_ne_nil w ws) n rest (by omega)
    simp [elements, elementsText, hvalue, skipSpace_cons, isSpace, hrest, printedElements]

theorem members_text (ms : List (String × Json)) (hne : ms ≠ []) (fuel : Nat) (rest : List Char)
    (hfuel : 2 * (membersText ms).length ≤ fuel) :
    members fuel (membersText ms ++ rest) = some (printedMembers ms, rest) := by
  obtain ⟨n, rfl⟩ : ∃ n, fuel = n + 1 := by
    obtain ⟨⟨name, v⟩, ms, rfl⟩ := List.exists_cons_of_ne_nil hne
    obtain ⟨cs, hcons⟩ := membersText_cons name v ms
    rw [hcons, List.length_cons] at hfuel
    exact ⟨fuel - 1, by omega⟩
  match ms with
  | [] => exact absurd rfl hne
  | [(name, v)] =>
    -- the last member is followed by the closing brace, any other by a comma
    have hlength := length_lt_quoted name.toList
    simp only [membersText, List.length_append, List.length_cons, List.length_nil] at hfuel
    have hname := stringRest_quoted name.toList (':' :: (chars v ++ '}' :: rest))
      (show name.toList.length < n by omega)
    have hvalue := value_chars v n ('}' :: rest) (by omega) (stops_cons (by simp))
    simp [members, membersText, hname, hvalue, skipSpace_cons, isSpace, printedMembers]
  | (name, v) :: m :: ms =>
    have hlength := length_lt_quoted name.toList
    simp only [membersText, List.length_append, List.length_cons] at hfuel
    have hname := stringRest_quoted name.toList
      (':' :: (chars v ++ ',' :: (membersText (m :: ms) ++ rest)))
      (show name.toList.length < n by omega)
    have hvalue := value_chars v n (',' :: (membersText (m :: ms) ++ rest)) (by omega)
      (stops_cons (by simp))
    have hrest := members_text (m :: ms) (List.cons_ne_nil m ms) n rest (by omega)
    simp [members, membersText, hname, hvalue, skipSpace_cons, isSpace, hrest, printedMembers]

end

/-- **The round trip**: what is parsed of the text of a value is the value as it is printed. -/
theorem parse_stringify (v : Json) : parse (stringify v) = some (printed v) := by
  have hvalue := value_chars v (2 * (stringify v).length + 2) []
    (by rw [stringify, String.length_ofList]; omega) (by simp [Stops])
  rw [List.append_nil] at hvalue
  have hchars : (stringify v).toList = chars v := String.toList_ofList
  rw [parse, hchars, hvalue]
  rfl

/-! ## Lines -/

theorem newline_not_mem_text (q : ℚ) : '\n' ∉ Double.text q := by
  have hdigits : ∀ n, '\n' ∉ Decimal.digits n := by
    intro n h
    exact absurd (Decimal.isDigit_of_mem_digits h) (by decide)
  have hds : ∀ s, '\n' ∉ significand s := by
    intro s h
    exact absurd (isDigit_of_mem_significand h) (by decide)
  have htake : ∀ s n, '\n' ∉ (significand s).take n := fun s n h => hds s (List.mem_of_mem_take h)
  have hdrop : ∀ s n, '\n' ∉ (significand s).drop n := fun s n h => hds s (List.mem_of_mem_drop h)
  have htail : ∀ s, '\n' ∉ (significand s).tail := fun s h => hds s (List.mem_of_mem_tail h)
  have hpositional : ∀ s e, '\n' ∉ Double.positional s e := by
    intro s e
    simp only [Double.positional]
    split_ifs
    all_goals simp [hdigits, hds, htake, hdrop, htail]
  simp only [Double.text]
  split_ifs
  · simp
  · simp [hpositional]
  · exact hpositional _ _

theorem newline_not_mem_escaped (c : Char) : '\n' ∉ escaped c := by
  have hhex : ∀ n < 0x20, '\n' ≠ hexChar (n / 16) ∧ '\n' ≠ hexChar (n % 16) := by decide
  have hletters : '\n' ∉ ['"', '\\', 'b', 'f', 'n', 'r', 't'] := by simp
  have hwritten := writtenAs_escaped c
  generalize escaped c = text at hwritten ⊢
  cases hwritten with
  | @letter d hletter =>
    have hd : '\n' ≠ d := by
      rintro rfl
      exact hletters hletter
    simp [hd]
  | control hcontrol =>
    obtain ⟨hhigh, hlow⟩ := hhex c.toNat hcontrol
    simp [hhigh, hlow]
  | plain _ _ hline => simpa using hline.symm

theorem newline_not_mem_quoted (s : List Char) : '\n' ∉ quoted s := by
  intro hmem
  rcases List.mem_append.mp hmem with hmem | hmem
  · obtain ⟨c, -, hc⟩ := List.mem_flatMap.mp hmem
    exact newline_not_mem_escaped c hc
  · simp at hmem

mutual

/-- No text contains a line break. -/
theorem newline_not_mem (v : Json) : '\n' ∉ chars v := by
  match v with
  | .null => simp [chars]
  | .bool true => simp [chars]
  | .bool false => simp [chars]
  | .num q => simp [chars, newline_not_mem_text]
  | .str s => simp [chars, newline_not_mem_quoted]
  | .arr vs => simp [chars, newline_not_mem_elements vs]
  | .obj ms => simp [chars, newline_not_mem_members ms]

theorem newline_not_mem_elements (vs : List Json) : '\n' ∉ elementsText vs := by
  match vs with
  | [] => simp [elementsText]
  | [v] => simp [elementsText, newline_not_mem v]
  | v :: w :: ws => simp [elementsText, newline_not_mem v, newline_not_mem_elements (w :: ws)]

theorem newline_not_mem_members (ms : List (String × Json)) : '\n' ∉ membersText ms := by
  match ms with
  | [] => simp [membersText]
  | [(name, v)] => simp [membersText, newline_not_mem v, newline_not_mem_quoted]
  | (name, v) :: m :: ms =>
    simp [membersText, newline_not_mem v, newline_not_mem_quoted, newline_not_mem_members (m :: ms)]

end

end Json
