import Mathlib.Data.List.Basic

/-!
# Bit Strings

The low bits of a word as a list, the highest first: what a bit buffer holds. The bits above them
do not matter, so a buffer need not be masked, and may wrap.

1. `low`: the low bits of a word; `low_add` splits them, `low_shiftLeft_or` shifts a chunk in.
2. `low_inj`: a word is given by its bits.
3. `chunks`: the bits of a list of words; two lists of words with the same bits are equal.
-/

namespace BitString

variable {w k : Nat}

/-- The `n` low bits of a word, the highest first. -/
def low : Nat → BitVec w → List Bool
  | 0, _ => []
  | n + 1, v => v.getLsbD n :: low n v

@[simp] theorem low_zero (v : BitVec w) : low 0 v = [] := rfl

theorem low_succ (n : Nat) (v : BitVec w) : low (n + 1) v = v.getLsbD n :: low n v := rfl

@[simp] theorem length_low (n : Nat) (v : BitVec w) : (low n v).length = n := by
  induction n with
  | zero => rfl
  | succ n ih => rw [low_succ, List.length_cons, ih]

/-- Only the low bits are read. -/
theorem low_congr {n : Nat} {u : BitVec w} {v : BitVec k}
    (h : ∀ i < n, u.getLsbD i = v.getLsbD i) : low n u = low n v := by
  induction n with
  | zero => rfl
  | succ n ih =>
    rw [low_succ, low_succ, h n (Nat.lt_succ_self n), ih fun i hi => h i (Nat.lt_succ_of_lt hi)]

/-- The high part of the low bits, and the low part. -/
theorem low_add (m n : Nat) (v : BitVec w) : low (m + n) v = low m (v >>> n) ++ low n v := by
  induction m with
  | zero => simp
  | succ m ih =>
    rw [Nat.add_right_comm, low_succ, low_succ, ih, BitVec.getLsbD_ushiftRight, Nat.add_comm n m,
      List.cons_append]

/-- A chunk of `n` bits is shifted in, where it fits. -/
theorem low_shiftLeft_or {m n : Nat} (hfit : m + n ≤ w) (v b : BitVec w)
    (hb : ∀ i, n ≤ i → b.getLsbD i = false) :
    low (m + n) (v <<< n ||| b) = low m v ++ low n b := by
  rw [low_add]
  congr 1
  · apply low_congr
    intro i hi
    have hlt : n + i < w := by omega
    rw [BitVec.getLsbD_ushiftRight, BitVec.getLsbD_or, hb _ (Nat.le_add_right n i),
      BitVec.getLsbD_shiftLeft]
    simp [hlt]
  · apply low_congr
    intro i hi
    simp [hi]

/-- Zeros are shifted in. -/
theorem low_shiftLeft {m n : Nat} (hfit : m + n ≤ w) (v : BitVec w) :
    low (m + n) (v <<< n) = low m v ++ List.replicate n false := by
  have hzero : low n (0#w) = List.replicate n false := by
    induction n with
    | zero => rfl
    | succ n ih => rw [low_succ, ih (by omega), BitVec.getLsbD_zero, List.replicate_succ]
  rw [← hzero, ← low_shiftLeft_or hfit v 0#w fun i _ => BitVec.getLsbD_zero, BitVec.or_zero]

/-- The low bits of a word of another width. -/
theorem low_setWidth {n : Nat} (hn : n ≤ w) (v : BitVec k) : low n (v.setWidth w) = low n v := by
  apply low_congr
  intro i hi
  simp [Nat.lt_of_lt_of_le hi hn]

/-- A mask that keeps the low bits. -/
theorem low_and {n : Nat} {mask : BitVec w} (hmask : ∀ i < n, mask.getLsbD i = true)
    (v : BitVec w) : low n (v &&& mask) = low n v := by
  apply low_congr
  intro i hi
  rw [BitVec.getLsbD_and, hmask i hi, Bool.and_true]

/-- **A word is given by its bits.** -/
theorem low_inj {u v : BitVec w} (h : low w u = low w v) : u = v := by
  have hbits : ∀ n, low n u = low n v → ∀ i < n, u.getLsbD i = v.getLsbD i := by
    intro n
    induction n with
    | zero => intro _ i hi; omega
    | succ n ih =>
      intro h i hi
      rw [low_succ, low_succ, List.cons.injEq] at h
      rcases Nat.lt_succ_iff_lt_or_eq.mp hi with hi | rfl
      · exact ih h.2 i hi
      · exact h.1
  exact BitVec.eq_of_getLsbD_eq (hbits w h)

/-! ## Lists of words -/

/-- The bits of a list of words. -/
def chunks (ws : List (BitVec w)) : List Bool := ws.flatMap (low w)

@[simp] theorem chunks_nil : chunks ([] : List (BitVec w)) = [] := rfl

@[simp] theorem chunks_cons (v : BitVec w) (ws : List (BitVec w)) :
    chunks (v :: ws) = low w v ++ chunks ws := rfl

@[simp] theorem chunks_append (us vs : List (BitVec w)) :
    chunks (us ++ vs) = chunks us ++ chunks vs :=
  List.flatMap_append

@[simp] theorem length_chunks (ws : List (BitVec w)) : (chunks ws).length = w * ws.length := by
  induction ws with
  | nil => rfl
  | cons v ws ih => rw [chunks_cons, List.length_append, length_low, ih, List.length_cons,
      Nat.mul_succ, Nat.add_comm]

/-- **Words are given by their bits.** Fewer bits than a word has may follow on both sides. -/
theorem chunks_inj {us vs : List (BitVec w)} {rest rest' : List Bool}
    (hrest : rest.length < w) (hrest' : rest'.length < w)
    (h : chunks us ++ rest = chunks vs ++ rest') : us = vs := by
  induction us generalizing vs with
  | nil =>
    cases vs with
    | nil => rfl
    | cons v vs =>
      have hlength := congrArg List.length h
      simp at hlength
      omega
  | cons u us ih =>
    cases vs with
    | nil =>
      have hlength := congrArg List.length h
      simp at hlength
      omega
    | cons v vs =>
      rw [chunks_cons, chunks_cons, List.append_assoc, List.append_assoc] at h
      obtain ⟨hword, htail⟩ := List.append_inj h (by simp)
      rw [low_inj hword, ih htail]

end BitString
