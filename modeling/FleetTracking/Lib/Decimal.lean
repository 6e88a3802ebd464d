import FleetTracking.Lib.JsDate
import Mathlib.Algebra.Group.Nat.Defs
import Mathlib.Data.List.DropRight

/-!
# Decimals inside a Text

When a text that is written piece after piece can be cut into its pieces again.

## Main results

- `split_unique`: a text has one longest beginning of characters of a kind.
- `digits_inj`, `padded_inj`: a number is determined by its digits.
- `trimmed_inj`: so is a fraction without the zeros at its end.
-/

namespace Decimal

section Split

variable {α : Type*} {p : α → Prop} {l l' r r' : List α}

/-- The beginning of elements with a property, up to the first one without it. -/
theorem split_unique (hl : ∀ a ∈ l, p a) (hl' : ∀ a ∈ l', p a) (hr : ∀ a ∈ r.head?, ¬ p a)
    (hr' : ∀ a ∈ r'.head?, ¬ p a) (h : l ++ r = l' ++ r') : l = l' ∧ r = r' := by
  induction l generalizing l' with
  | nil =>
    cases l' with
    | nil => exact ⟨rfl, h⟩
    | cons a l' =>
      have hhead : a ∈ r.head? := by simpa using congrArg List.head? h
      exact absurd (hl' a List.mem_cons_self) (hr a hhead)
  | cons a l ih =>
    cases l' with
    | nil =>
      have hhead : a ∈ r'.head? := by simpa using (congrArg List.head? h).symm
      exact absurd (hl a List.mem_cons_self) (hr' a hhead)
    | cons a' l' =>
      obtain ⟨rfl, hrest⟩ := List.cons.inj h
      obtain ⟨rfl, rfl⟩ := ih (fun b hb => hl b (List.mem_cons_of_mem _ hb))
        (fun b hb => hl' b (List.mem_cons_of_mem _ hb)) hrest
      exact ⟨rfl, rfl⟩

/-- Up to the first separator. -/
theorem split_at {sep : α} (hl : sep ∉ l) (hl' : sep ∉ l') (h : l ++ sep :: r = l' ++ sep :: r') :
    l = l' ∧ r = r' := by
  have hne : ∀ {l : List α}, sep ∉ l → ∀ a ∈ l, a ≠ sep := fun hnot a ha heq => hnot (heq ▸ ha)
  have hhead : ∀ {r : List α}, ∀ a ∈ (sep :: r).head?, ¬ a ≠ sep := by simp
  obtain ⟨hfront, hback⟩ := split_unique (hne hl) (hne hl') hhead hhead h
  exact ⟨hfront, (List.cons.inj hback).2⟩

end Split

/-! ## Numbers -/

/-- `String(n)`, as characters. -/
def digits (n : Nat) : List Char := (toString n).toList

theorem digits_eq (n : Nat) : digits n = Nat.toDigits 10 n := by
  rw [digits, Nat.toString_eq_ofList_toDigits, String.toList_ofList]

theorem isDigit_of_mem_digits {n : Nat} {c : Char} (h : c ∈ digits n) : c.isDigit = true := by
  rw [digits_eq] at h
  exact Nat.isDigit_of_mem_toDigits (by simp) (by simp) h

theorem digits_inj {n m : Nat} (h : digits n = digits m) : n = m := by
  rw [digits_eq, digits_eq] at h
  rw [← Nat.ofDigitChars_ten_toDigits (n := n), h, Nat.ofDigitChars_ten_toDigits]

theorem digits_ne_nil (n : Nat) : digits n ≠ [] := by
  rw [digits_eq]
  exact Nat.toDigits_ne_nil

/-- A number below ten is one digit. -/
theorem length_digits_of_lt {n : Nat} (h : n < 10) : (digits n).length = 1 := by
  rw [digits_eq, Nat.toDigits_of_lt_base h]
  rfl

private theorem padded_toList (width n : Nat) : (JsDate.padded width n).toList =
    List.replicate (width - (toString n).length) '0' ++ digits n := by
  rw [JsDate.padded, String.toList_append, String.toList_ofList, digits]

/-- Zeros before a number do not change it. -/
theorem padded_inj {width n m : Nat} (h : JsDate.padded width n = JsDate.padded width m) :
    n = m := by
  have hvalue : ∀ n, Nat.ofDigitChars 10 (JsDate.padded width n).toList 0 = n := by
    intro n
    rw [padded_toList, digits_eq, Nat.ofDigitChars_append, Nat.ofDigitChars_replicate_zero,
      Nat.mul_zero, Nat.ofDigitChars_ten_toDigits]
  rw [← hvalue n, h, hvalue m]

/-- All that a padded number consists of. -/
theorem isDigit_of_mem_padded {width n : Nat} {c : Char} (h : c ∈ (JsDate.padded width n).toList) :
    c.isDigit = true := by
  rw [padded_toList, List.mem_append] at h
  rcases h with h | h
  · rw [List.eq_of_mem_replicate h]
    rfl
  · exact isDigit_of_mem_digits h

theorem length_padded {width n : Nat} (h : n < 10 ^ width) (hwidth : 0 < width) :
    (JsDate.padded width n).toList.length = width := by
  have hle : (digits n).length ≤ width := by
    rw [digits_eq]
    exact (Nat.length_toDigits_le_iff (by simp) hwidth).mpr h
  have hlength : (toString n).length = (digits n).length := String.length_toList.symm
  rw [padded_toList, List.length_append, List.length_replicate, hlength]
  omega

/-! ## Fractions -/

/-- The digits of a fraction, without the zeros at its end. -/
def trimmed (width n : Nat) : List Char :=
  (JsDate.padded width n).toList.rdropWhile fun c => decide (c = '0')

theorem isDigit_of_mem_trimmed {width n : Nat} {c : Char} (h : c ∈ trimmed width n) :
    c.isDigit = true :=
  isDigit_of_mem_padded ((List.rdropWhile_prefix _ _).subset h)

/-- What is cut off a text are zeros. -/
theorem eq_append_zeros (l : List Char) :
    l = (l.rdropWhile fun c => decide (c = '0')) ++
      List.replicate (l.length - (l.rdropWhile fun c => decide (c = '0')).length) '0' := by
  have hsplit := @List.rdropWhile_append_rtakeWhile _ (fun c => decide (c = '0')) l
  have hsame : l.rtakeWhile (fun c => decide (c = '0')) =
      List.replicate (l.rtakeWhile fun c => decide (c = '0')).length '0' :=
    List.eq_replicate_of_mem fun c hc => by simpa using List.mem_rtakeWhile_imp hc
  have hcut := congrArg List.length hsplit
  rw [List.length_append] at hcut
  rw [← hcut, Nat.add_sub_cancel_left, ← hsame, hsplit]

/-- Cutting off what is all the same loses nothing as long as the length is known. -/
private theorem rdropWhile_inj {l l' : List Char} (hlength : l.length = l'.length)
    (h : (l.rdropWhile fun c => decide (c = '0')) = l'.rdropWhile fun c => decide (c = '0')) :
    l = l' := by
  rw [eq_append_zeros l, eq_append_zeros l', h, hlength]

theorem trimmed_inj {width n m : Nat} (hn : n < 10 ^ width) (hm : m < 10 ^ width)
    (hwidth : 0 < width) (h : trimmed width n = trimmed width m) : n = m := by
  refine padded_inj (String.toList_inj.mp (rdropWhile_inj ?_ h))
  rw [length_padded hn hwidth, length_padded hm hwidth]

end Decimal
