import FleetTracking.Lib.JsMap

/-!
# The Last Write of Each Key

A map in which every value is set under its own key holds, under each key, the last value written
with it.

1. `lastOf`, `get_foldl_set_key`: what is held under a key.
2. `NewestLast`: the last value of a key has the greatest time.
3. `newestLast_append_iff`: when this stays so.
-/

namespace LastWrite

variable {κ ν τ : Type} [DecidableEq κ] (key : ν → κ)

/-- The last value with a key. -/
def lastOf (l : List ν) (k : κ) : Option ν := (l.filter (key · = k)).getLast?

@[simp] theorem lastOf_nil (k : κ) : lastOf key [] k = none := rfl

theorem lastOf_append (l l' : List ν) (k : κ) :
    lastOf key (l ++ l') k = (lastOf key l' k).or (lastOf key l k) := by
  rw [lastOf, List.filter_append, List.getLast?_append]
  rfl

@[simp] theorem lastOf_singleton_self (v : ν) : lastOf key [v] (key v) = some v := by
  simp [lastOf]

theorem lastOf_singleton_of_ne {v : ν} {k : κ} (h : key v ≠ k) : lastOf key [v] k = none := by
  simp [lastOf, h]

variable {key}

theorem mem_of_lastOf {l : List ν} {k : κ} {v : ν} (h : lastOf key l k = some v) :
    v ∈ l ∧ key v = k := by
  have hmem := List.mem_of_getLast? h
  simpa using hmem

theorem lastOf_eq_none_iff {l : List ν} {k : κ} : lastOf key l k = none ↔ ∀ v ∈ l, key v ≠ k := by
  simp [lastOf]

variable (key)

/-- Values set one after the other, each under its key. -/
theorem get_foldl_set_key (l : List ν) (m : JsMap κ ν) (k : κ) :
    (l.foldl (fun m v => m.set (key v) v) m).get k = (lastOf key l k).or (m.get k) := by
  induction l generalizing m with
  | nil => rfl
  | cons v l ih =>
    rw [List.foldl_cons, ih, ← List.singleton_append, lastOf_append, Option.or_assoc]
    congr 1
    by_cases hk : key v = k
    · subst hk
      simp
    · rw [lastOf_singleton_of_ne key hk, JsMap.get_set_of_ne _ _ (Ne.symm hk), Option.none_or]

/-! ## Times -/

variable [LE τ] (time : ν → τ)

/-- The last value with the key has the greatest time of all values with it. -/
def NewestLast (l : List ν) (k : κ) : Prop :=
  ∀ v, lastOf key l k = some v → ∀ u ∈ l, key u = k → time u ≤ time v

/-- **When the newest stays last.** The last value of what is written is at least as new as all
others with its key, those of before included. -/
theorem newestLast_append_iff {l : List ν} {k : κ} (h : NewestLast key time l k) (l' : List ν) :
    NewestLast key time (l ++ l') k ↔
      ∀ v, lastOf key l' k = some v → ∀ u ∈ l ++ l', key u = k → time u ≤ time v := by
  unfold NewestLast
  rw [lastOf_append]
  cases hlast : lastOf key l' k with
  | some v => rw [Option.some_or]
  | none =>
    rw [Option.none_or]
    refine iff_of_true ?_ fun v hv => nomatch hv
    intro v hv u hu hk
    rcases List.mem_append.mp hu with hu | hu
    · exact h v hv u hu hk
    · exact absurd hk (lastOf_eq_none_iff.mp hlast u hu)

end LastWrite
