import Mathlib.Data.List.Basic

/-!
# Objects with Integer Keys

A JavaScript object whose keys are array indices enumerates them in ascending order,
whatever the order in which they were assigned. `JsRecord` keeps its entries sorted, so
`Object.entries` is the list of entries.
-/

/-- An object with integer keys, its entries in ascending order of the keys. -/
structure JsRecord (ν : Type) where
  -- The entries, as `Object.entries` lists them.
  entries : List (Nat × ν)
  -- Ascending keys, none twice.
  sorted : entries.Pairwise fun a b => a.1 < b.1

namespace JsRecord

variable {ν : Type}

/-- `{}`. -/
def empty : JsRecord ν := ⟨[], List.Pairwise.nil⟩

/-- Put an entry at its place, replacing the one with the same key. -/
def insertEntry (k : Nat) (v : ν) : List (Nat × ν) → List (Nat × ν)
  | [] => [(k, v)]
  | e :: l =>
    if k < e.1 then (k, v) :: e :: l
    else if k = e.1 then (k, v) :: l
    else e :: insertEntry k v l

theorem mem_insertEntry {k : Nat} {v : ν} {l : List (Nat × ν)} {e : Nat × ν}
    (h : e ∈ insertEntry k v l) : e = (k, v) ∨ e ∈ l := by
  induction l with
  | nil => exact Or.inl (List.mem_singleton.mp h)
  | cons d l ih =>
    unfold insertEntry at h
    split at h
    · rcases List.mem_cons.mp h with h | h
      · exact Or.inl h
      · exact Or.inr h
    · split at h
      · rcases List.mem_cons.mp h with h | h
        · exact Or.inl h
        · exact Or.inr (List.mem_cons_of_mem _ h)
      · rcases List.mem_cons.mp h with h | h
        · exact Or.inr (h ▸ List.mem_cons_self)
        · exact (ih h).imp_right (List.mem_cons_of_mem _)

theorem insertEntry_sorted (k : Nat) (v : ν) {l : List (Nat × ν)}
    (h : l.Pairwise fun a b => a.1 < b.1) :
    (insertEntry k v l).Pairwise fun a b => a.1 < b.1 := by
  induction l with
  | nil => exact List.pairwise_singleton _ _
  | cons d l ih =>
    rw [List.pairwise_cons] at h
    obtain ⟨hd, hl⟩ := h
    unfold insertEntry
    split
    case isTrue hlt =>
      refine List.pairwise_cons.mpr ⟨fun e he => ?_, List.pairwise_cons.mpr ⟨hd, hl⟩⟩
      rcases List.mem_cons.mp he with rfl | he
      · exact hlt
      · exact Nat.lt_trans hlt (hd e he)
    case isFalse hnlt =>
      split
      case isTrue heq =>
        refine List.pairwise_cons.mpr ⟨fun e he => ?_, hl⟩
        exact heq ▸ hd e he
      case isFalse hne =>
        refine List.pairwise_cons.mpr ⟨fun e he => ?_, ih hl⟩
        -- `e` is the new entry or one of the old ones
        rcases mem_insertEntry he with rfl | he
        · show d.1 < k
          omega
        · exact hd e he

/-- `obj[k] = v`. -/
def set (r : JsRecord ν) (k : Nat) (v : ν) : JsRecord ν :=
  ⟨insertEntry k v r.entries, insertEntry_sorted k v r.sorted⟩

/-- The entries after an assignment. -/
theorem mem_set {r : JsRecord ν} {k : Nat} {v : ν} {e : Nat × ν} :
    e ∈ (r.set k v).entries ↔ e = (k, v) ∨ (e.1 ≠ k ∧ e ∈ r.entries) := by
  have hsorted := r.sorted
  show e ∈ insertEntry k v r.entries ↔ _
  generalize r.entries = l at hsorted
  induction l with
  | nil => simp [insertEntry]
  | cons d l ih =>
    rw [List.pairwise_cons] at hsorted
    obtain ⟨hd, hl⟩ := hsorted
    unfold insertEntry
    split
    case isTrue hlt =>
      -- all keys that are there are greater
      have hne : e ∈ d :: l → e.1 ≠ k := by
        intro he
        rcases List.mem_cons.mp he with rfl | he
        · omega
        · have := hd e he
          omega
      rw [List.mem_cons, and_iff_right_of_imp hne]
    case isFalse hnlt =>
      split
      case isTrue heq =>
        subst heq
        have hne : e ∈ l → e.1 ≠ d.1 := by
          intro he
          have := hd e he
          omega
        rw [List.mem_cons, List.mem_cons, and_or_left]
        simp only [show ¬ (e.1 ≠ d.1 ∧ e = d) from fun h => h.1 (congrArg _ h.2), false_or,
          and_iff_right_of_imp hne]
      case isFalse hne =>
        rw [List.mem_cons, ih hl, List.mem_cons]
        constructor
        · rintro (rfl | h | h)
          · exact Or.inr ⟨fun heq => hne heq.symm, Or.inl rfl⟩
          · exact Or.inl h
          · exact Or.inr ⟨h.1, Or.inr h.2⟩
        · rintro (h | ⟨hk, h | h⟩)
          · exact Or.inr (Or.inl h)
          · exact Or.inl h
          · exact Or.inr (Or.inr ⟨hk, h⟩)

/-! ### Lookups -/

/-- `obj[k]`. -/
def get (r : JsRecord ν) (k : Nat) : Option ν := r.entries.lookup k

/-- A key that is greater than all keys up to it is not among those behind it. -/
theorem lookup_eq_none {k : Nat} {v : ν} {l : List (Nat × ν)}
    (h : ((k, v) :: l).Pairwise fun a b => a.1 < b.1) {j : Nat} (hj : j ≤ k) :
    l.lookup j = none := by
  rw [List.lookup_eq_none_iff]
  intro e he
  have hlt := (List.pairwise_cons.mp h).1 e he
  simpa using show j ≠ e.1 by omega

/-- Lookups are entries. -/
theorem lookup_eq_some_iff {l : List (Nat × ν)} (h : l.Pairwise fun a b => a.1 < b.1) {k : Nat}
    {v : ν} : l.lookup k = some v ↔ (k, v) ∈ l := by
  induction l with
  | nil => simp
  | cons e l ih =>
    obtain ⟨j, w⟩ := e
    by_cases hk : k = j
    · subst hk
      have hnone := lookup_eq_none h (Nat.le_refl k)
      rw [List.lookup_cons_self, Option.some.injEq, List.mem_cons, ← ih (List.pairwise_cons.mp h).2,
        hnone]
      simp [eq_comm]
    · have hne : (k == j) = false := by simpa using hk
      rw [List.lookup_cons, hne]
      simp only
      rw [ih (List.pairwise_cons.mp h).2, List.mem_cons]
      simp [hk]

theorem get_eq_some_iff {r : JsRecord ν} {k : Nat} {v : ν} :
    r.get k = some v ↔ (k, v) ∈ r.entries :=
  lookup_eq_some_iff r.sorted

theorem get_set (r : JsRecord ν) (k : Nat) (v : ν) (j : Nat) :
    (r.set k v).get j = if j = k then some v else r.get j := by
  apply Option.ext
  intro w
  rw [get_eq_some_iff, mem_set]
  by_cases hj : j = k
  · simp [hj, eq_comm]
  · simp [hj, get_eq_some_iff]

/-- A record is what its lookups say. -/
theorem ext_get {r r' : JsRecord ν} (h : ∀ k, r.get k = r'.get k) : r = r' := by
  have hmem : ∀ e, e ∈ r.entries ↔ e ∈ r'.entries := by
    rintro ⟨k, v⟩
    rw [← get_eq_some_iff, ← get_eq_some_iff, h]
  have hnodup : ∀ r : JsRecord ν, r.entries.Nodup := fun r =>
    r.sorted.imp fun hlt heq => by simp [heq] at hlt
  have hperm := (List.perm_ext_iff_of_nodup (hnodup r) (hnodup r')).mpr hmem
  have hentries : r.entries = r'.entries :=
    hperm.eq_of_pairwise (fun a b _ _ hlt hgt => by omega) r.sorted r'.sorted
  cases r
  cases r'
  simpa using hentries

end JsRecord
