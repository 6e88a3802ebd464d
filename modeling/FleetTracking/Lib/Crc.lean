import Mathlib.Algebra.BigOperators.Ring.Finset
import Mathlib.Algebra.Field.ZMod
import Mathlib.Data.ZMod.Basic
import Mathlib.Logic.Function.Iterate
import Mathlib.Tactic.Ring

/-!
# Cyclic Redundancy Checks

A reflected CRC of any width over symbols of any size, computed bit by bit, and the corruption
that it must notice.

1. `shift`, `absorb`, `checksum`: the register, one bit, one symbol and a message later.
2. The register is linear; with the top bit of the polynomial set, nothing is lost in it.
3. `checksum_ne_of_odd`: an odd number of changed bits, for a polynomial of odd weight.
4. `checksum_ne_of_burst`: changes within two adjacent symbols that fit the register together.
-/

namespace Crc

variable {w k : Nat} (poly : BitVec w)

/-! ## The register -/

/-- One bit: the register moves down, and takes the polynomial in if a one has left it. -/
def shift (crc : BitVec w) : BitVec w :=
  if crc.getLsbD 0 then (crc >>> 1) ^^^ poly else crc >>> 1

/-- One symbol of `k` bits. -/
def absorb (crc : BitVec w) (symbol : BitVec k) : BitVec w :=
  (shift poly)^[k] (crc ^^^ symbol.setWidth w)

/-- The register after a message. -/
def checksum (crc : BitVec w) (message : List (BitVec k)) : BitVec w :=
  message.foldl (absorb poly) crc

@[simp] theorem checksum_nil (crc : BitVec w) : checksum poly crc ([] : List (BitVec k)) = crc := rfl

@[simp] theorem checksum_cons (crc : BitVec w) (symbol : BitVec k) (message : List (BitVec k)) :
    checksum poly crc (symbol :: message) = checksum poly (absorb poly crc symbol) message := rfl

/-- What is taken in when the bit `b` leaves the register. -/
private theorem shift_eq (crc : BitVec w) :
    shift poly crc = (crc >>> 1) ^^^ (if crc.getLsbD 0 then poly else 0) := by
  unfold shift
  split
  · rfl
  · rw [BitVec.ofNat_eq_ofNat, BitVec.xor_zero]

private theorem getLsbD_shift (crc : BitVec w) (i : Nat) :
    (shift poly crc).getLsbD i = (crc.getLsbD (1 + i) ^^ (crc.getLsbD 0 && poly.getLsbD i)) := by
  rw [shift_eq, BitVec.getLsbD_xor, BitVec.getLsbD_ushiftRight]
  cases crc.getLsbD 0 <;> simp

/-! ## Linearity -/

theorem shift_xor (a b : BitVec w) : shift poly (a ^^^ b) = shift poly a ^^^ shift poly b := by
  apply BitVec.eq_of_getLsbD_eq
  intro i _
  simp only [getLsbD_shift, BitVec.getLsbD_xor]
  cases a.getLsbD 0 <;> cases b.getLsbD 0 <;> simp [Bool.xor_comm, Bool.xor_left_comm]

theorem iterate_shift_xor (n : Nat) (a b : BitVec w) :
    (shift poly)^[n] (a ^^^ b) = (shift poly)^[n] a ^^^ (shift poly)^[n] b := by
  induction n generalizing a b with
  | zero => rfl
  | succ n ih => simp only [Function.iterate_succ_apply, shift_xor, ih]

/-- The bit that leaves the register comes back as the top bit of the polynomial, so the register
can be run backwards. -/
theorem shift_injective (htop : poly.getLsbD (w - 1) = true) :
    Function.Injective (shift poly) := by
  intro a b hab
  have hbit : ∀ i, (shift poly a).getLsbD i = (shift poly b).getLsbD i := fun i => by rw [hab]
  simp only [getLsbD_shift] at hbit
  have hlow : a.getLsbD 0 = b.getLsbD 0 := by
    have hlast := hbit (w - 1)
    rw [BitVec.getLsbD_of_ge a (1 + (w - 1)) (by omega),
      BitVec.getLsbD_of_ge b (1 + (w - 1)) (by omega), htop] at hlast
    simpa using hlast
  apply BitVec.eq_of_getLsbD_eq
  intro i _
  cases i with
  | zero => exact hlow
  | succ i =>
    have hi := hbit i
    rw [hlow, Nat.add_comm 1 i] at hi
    simpa using hi

theorem iterate_shift_injective (htop : poly.getLsbD (w - 1) = true) (n : Nat) :
    Function.Injective (shift poly)^[n] :=
  (shift_injective poly htop).iterate n

/-! ## Odd numbers of bits -/

/-- The number of ones. -/
def weight (x : BitVec w) : Nat := ∑ i ∈ Finset.range w, (x.getLsbD i).toNat

/-- The number of bits in which two messages differ. -/
def distance (a b : List (BitVec k)) : Nat := (List.zipWith (fun x y => weight (x ^^^ y)) a b).sum

theorem weight_xor (a b : BitVec w) : (weight (a ^^^ b) : ZMod 2) = weight a + weight b := by
  simp only [weight, Nat.cast_sum, ← Finset.sum_add_distrib]
  refine Finset.sum_congr rfl fun i _ => ?_
  rw [BitVec.getLsbD_xor]
  cases a.getLsbD i <;> cases b.getLsbD i <;> decide

/-- A wider register holds the same ones. -/
theorem weight_setWidth (h : k ≤ w) (x : BitVec k) : weight (x.setWidth w) = weight x := by
  have hsub : Finset.range k ⊆ Finset.range w := Finset.range_subset_range.mpr h
  unfold weight
  rw [← Finset.sum_subset hsub]
  · refine Finset.sum_congr rfl fun i hi => ?_
    have hi' : i < w := lt_of_lt_of_le (Finset.mem_range.mp hi) h
    simp [hi']
  · intro i _ hi
    have hge : k ≤ i := by simpa using hi
    simp [BitVec.getLsbD_setWidth, BitVec.getLsbD_of_ge x i hge]

/-- The one that leaves the register is made up for by the polynomial, of odd weight. -/
theorem weight_shift (hodd : (weight poly : ZMod 2) = 1) (crc : BitVec w) :
    (weight (shift poly crc) : ZMod 2) = weight crc := by
  have hdown : weight crc = weight (crc >>> 1) + (crc.getLsbD 0).toNat := by
    unfold weight
    have hlast : crc.getLsbD w = false := BitVec.getLsbD_of_ge crc w (le_refl w)
    have hboth := Finset.sum_range_succ (fun i => (crc.getLsbD i).toNat) w
    rw [Finset.sum_range_succ', hlast] at hboth
    simpa [BitVec.getLsbD_ushiftRight, Nat.add_comm 1] using hboth.symm
  rw [shift_eq, weight_xor, hdown, Nat.cast_add]
  congr 1
  cases crc.getLsbD 0 with
  | false => simp [weight]
  | true => simpa using hodd

theorem weight_iterate_shift (hodd : (weight poly : ZMod 2) = 1) (n : Nat) (crc : BitVec w) :
    (weight ((shift poly)^[n] crc) : ZMod 2) = weight crc := by
  induction n generalizing crc with
  | zero => rfl
  | succ n ih => rw [Function.iterate_succ_apply, ih, weight_shift poly hodd]

/-- The parity of the register is the parity of all bits that went in. -/
theorem weight_checksum (hodd : (weight poly : ZMod 2) = 1) (h : k ≤ w) (crc : BitVec w)
    (message : List (BitVec k)) :
    (weight (checksum poly crc message) : ZMod 2) = weight crc + (message.map weight).sum := by
  induction message generalizing crc with
  | nil => simp
  | cons symbol message ih =>
    rw [checksum_cons, ih, absorb, weight_iterate_shift poly hodd, weight_xor, weight_setWidth h]
    simp [add_assoc]

theorem distance_eq {a b : List (BitVec k)} (h : a.length = b.length) :
    (distance a b : ZMod 2) = (a.map weight).sum + (b.map weight).sum := by
  induction a generalizing b with
  | nil => simp [distance, List.length_eq_zero_iff.mp h.symm]
  | cons x a ih =>
    cases b with
    | nil => cases h
    | cons y b =>
      have hrest := ih (Nat.succ.inj h)
      simp only [distance, List.zipWith_cons_cons, List.sum_cons, Nat.cast_add] at hrest ⊢
      rw [hrest, weight_xor]
      simp only [List.map_cons, List.sum_cons, Nat.cast_add]
      ring

/-- **An odd number of changed bits** changes the checksum. -/
theorem checksum_ne_of_odd (hodd : (weight poly : ZMod 2) = 1) (h : k ≤ w) (crc : BitVec w)
    {a b : List (BitVec k)} (hlength : a.length = b.length) (hdistance : distance a b % 2 = 1) :
    checksum poly crc b ≠ checksum poly crc a := by
  intro hsame
  have hparity : ((b.map weight).sum : ZMod 2) = (a.map weight).sum := by
    have hweight := weight_checksum poly hodd h crc b
    rw [hsame, weight_checksum poly hodd h crc a] at hweight
    exact (add_left_cancel hweight).symm
  have heven : (distance a b : ZMod 2) = 0 := by
    rw [distance_eq hlength, hparity, ← two_mul]
    exact mul_eq_zero_of_left (by decide) _
  have hdvd : 2 ∣ distance a b := (ZMod.natCast_eq_zero_iff _ 2).mp heven
  omega

/-! ## Bursts -/

/-- While only zeros leave the register, its contents just move down. -/
private theorem iterate_shift_up (hfit : 2 * k ≤ w) (y : BitVec k) (n : Nat) (hn : n ≤ k) :
    (shift poly)^[n] (y.setWidth w <<< n) = y.setWidth w := by
  induction n with
  | zero => simp
  | succ n ih =>
    have hzero : (y.setWidth w <<< (n + 1)).getLsbD 0 = false := by
      simp [BitVec.getLsbD_shiftLeft]
    have hdown : shift poly (y.setWidth w <<< (n + 1)) = y.setWidth w <<< n := by
      apply BitVec.eq_of_getLsbD_eq
      intro i hi
      rw [getLsbD_shift, hzero]
      simp only [BitVec.getLsbD_shiftLeft, BitVec.getLsbD_setWidth, Bool.false_and, Bool.xor_false]
      have hindex : 1 + i - (n + 1) = i - n := by omega
      rw [hindex]
      by_cases hlow : i < n
      · simp [hlow, show 1 + i < n + 1 by omega]
      · by_cases hhigh : 1 + i < w
        · simp [hi, hhigh, hlow, show ¬ 1 + i < n + 1 by omega]
        · -- the top of the register: nothing of the symbol is there
          have hout : y.getLsbD (i - n) = false := BitVec.getLsbD_of_ge y _ (by omega)
          simp [hout]
    rw [Function.iterate_succ_apply, hdown]
    exact ih (by omega)

/-- Two symbols are taken in as one of twice the size, if it fits the register. -/
theorem absorb_absorb (hfit : 2 * k ≤ w) (crc : BitVec w) (x y : BitVec k) :
    absorb poly (absorb poly crc x) y =
      (shift poly)^[2 * k] (crc ^^^ (x.setWidth w ^^^ y.setWidth w <<< k)) := by
  have hup := iterate_shift_up poly hfit y k (le_refl k)
  unfold absorb
  rw [two_mul, Function.iterate_add_apply, ← BitVec.xor_assoc, iterate_shift_xor poly k (crc ^^^ _),
    hup]

theorem absorb_injective (htop : poly.getLsbD (w - 1) = true) (symbol : BitVec k) :
    Function.Injective fun crc => absorb poly crc symbol := by
  intro a b hab
  exact (BitVec.xor_left_inj _).mp (iterate_shift_injective poly htop k hab)

/-- The states after different registers and the same message. -/
theorem checksum_injective (htop : poly.getLsbD (w - 1) = true) (message : List (BitVec k)) :
    Function.Injective fun crc => checksum poly crc message := by
  induction message with
  | nil => exact fun _ _ h => h
  | cons symbol message ih => exact fun a b h => absorb_injective poly htop symbol (ih h)

theorem absorb_symbol_injective (htop : poly.getLsbD (w - 1) = true) (h : k ≤ w)
    (crc : BitVec w) : Function.Injective (absorb poly crc : BitVec k → BitVec w) := by
  intro x y hxy
  have hwide := (BitVec.xor_right_inj _).mp (iterate_shift_injective poly htop k hxy)
  apply BitVec.eq_of_getLsbD_eq
  intro i hi
  have hbit := congrArg (fun v => v.getLsbD i) hwide
  simpa [BitVec.getLsbD_setWidth, show i < w by omega] using hbit

/-- Neither of two adjacent symbols can make up for the other. -/
theorem absorb_absorb_injective (htop : poly.getLsbD (w - 1) = true) (hfit : 2 * k ≤ w)
    (crc : BitVec w) {x y x' y' : BitVec k}
    (h : absorb poly (absorb poly crc x) y = absorb poly (absorb poly crc x') y') :
    x = x' ∧ y = y' := by
  rw [absorb_absorb poly hfit, absorb_absorb poly hfit] at h
  have hboth := (BitVec.xor_right_inj _).mp (iterate_shift_injective poly htop (2 * k) h)
  have hbit : ∀ i < w, (x.setWidth w ^^^ y.setWidth w <<< k).getLsbD i =
      (x'.setWidth w ^^^ y'.setWidth w <<< k).getLsbD i := fun i _ => by rw [hboth]
  simp only [BitVec.getLsbD_xor, BitVec.getLsbD_setWidth, BitVec.getLsbD_shiftLeft] at hbit
  constructor
  · apply BitVec.eq_of_getLsbD_eq
    intro i hi
    have hlow := hbit i (by omega)
    simpa [hi, show i < w by omega] using hlow
  · apply BitVec.eq_of_getLsbD_eq
    intro i hi
    have hhigh := hbit (i + k) (by omega)
    rw [BitVec.getLsbD_of_ge x _ (by omega), BitVec.getLsbD_of_ge x' _ (by omega)] at hhigh
    simpa [show i + k < w by omega, show i < w by omega] using hhigh

/-- The messages agree but for two adjacent symbols. -/
def WithinTwo (a b : List (BitVec k)) : Prop :=
  ∃ i, ∀ j, j ≠ i → j ≠ i + 1 → a[j]? = b[j]?

/-- **A burst** within two adjacent symbols changes the checksum. -/
theorem checksum_ne_of_burst (htop : poly.getLsbD (w - 1) = true) (hfit : 2 * k ≤ w)
    (crc : BitVec w) {a b : List (BitVec k)} (hlength : a.length = b.length) (hne : a ≠ b)
    (hburst : WithinTwo a b) : checksum poly crc b ≠ checksum poly crc a := by
  obtain ⟨i, hsame⟩ := hburst
  induction a generalizing b i crc with
  | nil => exact absurd (List.length_eq_zero_iff.mp hlength.symm).symm hne
  | cons x a ih =>
    cases b with
    | nil => cases hlength
    | cons y b =>
      have htail : a.length = b.length := Nat.succ.inj hlength
      intro hsum
      rw [checksum_cons, checksum_cons] at hsum
      cases i with
      | succ i =>
        -- the burst begins further on
        have hhead : x = y := by simpa using hsame 0 (by omega) (by omega)
        subst hhead
        exact ih (absorb poly crc x) htail (fun hab => hne (by rw [hab])) i
          (fun j hj hj' => by simpa using hsame (j + 1) (by omega) (by omega)) hsum
      | zero =>
        cases a with
        | nil =>
          obtain rfl := List.length_eq_zero_iff.mp htail.symm
          rw [absorb_symbol_injective poly htop (by omega) crc hsum] at hne
          exact hne rfl
        | cons x' a =>
          cases b with
          | nil => cases htail
          | cons y' b =>
            have hrest : a = b := by
              apply List.ext_getElem?
              intro j
              simpa using hsame (j + 2) (by omega) (by omega)
            subst hrest
            rw [checksum_cons, checksum_cons] at hsum
            obtain ⟨rfl, rfl⟩ := absorb_absorb_injective poly htop hfit crc
              (checksum_injective poly htop a hsum)
            exact hne rfl

end Crc
