import Mathlib.Data.List.Nodup

/-!
# Insertion-Ordered Maps

A JavaScript `Map` iterates over its keys in the order of their first insertion;
overwriting the value of a key does not move it, deleting it and setting it again does.
`JsMap` keeps the entries in that order, with no key twice.
-/

/-- A finite map with its entries in the order in which the keys were first set. -/
structure JsMap (κ ν : Type) where
  -- The entries, oldest key first.
  entries : List (κ × ν)
  -- No key occurs twice.
  nodup : (entries.map Prod.fst).Nodup

namespace JsMap

variable {κ ν : Type} [DecidableEq κ]

/-- `new Map()`. -/
def empty : JsMap κ ν := ⟨[], List.nodup_nil⟩

/-- `map.keys()`. -/
def keys (m : JsMap κ ν) : List κ := m.entries.map Prod.fst

/-- `map.size`. -/
def size (m : JsMap κ ν) : Nat := m.entries.length

/-- `map.get(k)`. -/
def get (m : JsMap κ ν) (k : κ) : Option ν :=
  (m.entries.find? fun e => e.1 = k).map Prod.snd

/-- `map.has(k)`. -/
def has (m : JsMap κ ν) (k : κ) : Bool := (m.get k).isSome

/-- Replacing the value of a key in place does not change the keys. -/
private theorem keys_replace (l : List (κ × ν)) (k : κ) (v : ν) :
    (l.map fun e => if e.1 = k then (k, v) else e).map Prod.fst = l.map Prod.fst := by
  rw [List.map_map]
  refine List.map_congr_left fun e _ => ?_
  by_cases he : e.1 = k
  · simp [he]
  · simp [he]

/-- `map.set(k, v)`: a key that is there keeps its place, a new key comes last. -/
def set (m : JsMap κ ν) (k : κ) (v : ν) : JsMap κ ν :=
  if h : k ∈ m.entries.map Prod.fst then
    ⟨m.entries.map fun e => if e.1 = k then (k, v) else e, by
      rw [keys_replace]
      exact m.nodup⟩
  else
    ⟨m.entries ++ [(k, v)], by
      rw [List.map_append, List.nodup_append]
      refine ⟨m.nodup, List.nodup_singleton _, fun a ha b hb hab => ?_⟩
      rw [List.map_singleton, List.mem_singleton] at hb
      subst hab hb
      exact h ha⟩

/-- `map.delete(k)`. -/
def delete (m : JsMap κ ν) (k : κ) : JsMap κ ν :=
  ⟨m.entries.filter fun e => e.1 ≠ k,
    m.nodup.sublist (List.Sublist.map _ List.filter_sublist)⟩

/-! ## Looking keys up -/

@[simp] theorem get_empty (k : κ) : (empty : JsMap κ ν).get k = none := rfl

/-- A key has a value exactly when it is among the keys. -/
theorem get_eq_none {m : JsMap κ ν} {k : κ} : m.get k = none ↔ k ∉ m.keys := by
  simp only [get, keys, Option.map_eq_none_iff, List.find?_eq_none, List.mem_map, not_exists,
    not_and, decide_eq_true_eq]

private theorem find?_replace_self (l : List (κ × ν)) (k : κ) (v : ν)
    (h : k ∈ l.map Prod.fst) :
    (l.map fun e => if e.1 = k then (k, v) else e).find? (fun e => e.1 = k) = some (k, v) := by
  induction l with
  | nil => cases h
  | cons e l ih =>
    by_cases he : e.1 = k
    · simp [he]
    · have hl : k ∈ l.map Prod.fst := by
        rw [List.map_cons, List.mem_cons] at h
        exact h.resolve_left fun hk => he hk.symm
      rw [List.map_cons, if_neg he, List.find?_cons_of_neg (by simpa using he)]
      exact ih hl

private theorem find?_replace_of_ne (l : List (κ × ν)) {k j : κ} (v : ν) (h : j ≠ k) :
    (l.map fun e => if e.1 = k then (k, v) else e).find? (fun e => e.1 = j) =
      l.find? fun e => e.1 = j := by
  induction l with
  | nil => rfl
  | cons e l ih =>
    by_cases he : e.1 = k
    · have hj : e.1 ≠ j := fun hej => h (hej.symm.trans he)
      rw [List.map_cons, if_pos he, List.find?_cons_of_neg (by simpa using h.symm),
        List.find?_cons_of_neg (by simpa using hj), ih]
    · rw [List.map_cons, if_neg he]
      by_cases hj : e.1 = j
      · rw [List.find?_cons_of_pos (by simpa using hj), List.find?_cons_of_pos (by simpa using hj)]
      · rw [List.find?_cons_of_neg (by simpa using hj), List.find?_cons_of_neg (by simpa using hj),
          ih]

@[simp] theorem get_set_self (m : JsMap κ ν) (k : κ) (v : ν) : (m.set k v).get k = some v := by
  unfold set get
  split
  case isTrue h => rw [find?_replace_self _ _ _ h, Option.map_some]
  case isFalse h =>
    have hnone : m.entries.find? (fun e => e.1 = k) = none := by
      rw [List.find?_eq_none]
      intro e he hek
      exact h (List.mem_map.mpr ⟨e, he, by simpa using hek⟩)
    rw [List.find?_append, hnone]
    simp

theorem get_set_of_ne (m : JsMap κ ν) {k j : κ} (v : ν) (h : j ≠ k) :
    (m.set k v).get j = m.get j := by
  unfold set get
  split
  case isTrue => rw [find?_replace_of_ne _ _ h]
  case isFalse =>
    rw [List.find?_append, List.find?_cons_of_neg (by simpa using h.symm), List.find?_nil,
      Option.or_none]

@[simp] theorem get_delete_self (m : JsMap κ ν) (k : κ) : (m.delete k).get k = none := by
  rw [get_eq_none]
  simp [keys, delete]

theorem get_delete_of_ne (m : JsMap κ ν) {k j : κ} (h : j ≠ k) :
    (m.delete k).get j = m.get j := by
  unfold delete get
  rw [List.find?_filter]
  congr 2
  funext e
  by_cases hj : e.1 = j
  · simp [hj, h]
  · simp [hj]

/-- A key that is there keeps its place, a new one comes last. -/
theorem keys_set (m : JsMap κ ν) (k : κ) (v : ν) :
    (m.set k v).keys = if k ∈ m.keys then m.keys else m.keys ++ [k] := by
  unfold set keys
  split
  case isTrue h => exact keys_replace m.entries k v
  case isFalse h => simp

/-- Setting several keys: the ones set have their new values, the others keep theirs. -/
theorem get_foldl_set {l : List (κ × ν)} (hl : (l.map Prod.fst).Nodup) (m : JsMap κ ν) (k : κ) :
    (l.foldl (fun m e => m.set e.1 e.2) m).get k =
      ((l.find? fun e => e.1 = k).map Prod.snd).or (m.get k) := by
  induction l generalizing m with
  | nil => rfl
  | cons e l ih =>
    rw [List.map_cons, List.nodup_cons] at hl
    rw [List.foldl_cons, ih hl.2]
    by_cases hk : e.1 = k
    · subst hk
      have hnone : l.find? (fun e' => e'.1 = e.1) = none := by
        simp only [List.find?_eq_none, decide_eq_true_eq]
        exact fun e' he' heq => hl.1 (heq ▸ List.mem_map_of_mem he')
      simp [hnone]
    · rw [List.find?_cons_of_neg (by simpa using hk), get_set_of_ne _ _ fun h => hk h.symm]

/-- Setting keys that are there moves none. -/
theorem keys_foldl_set {l : List (κ × ν)} (m : JsMap κ ν) (hl : ∀ e ∈ l, e.1 ∈ m.keys) :
    (l.foldl (fun m e => m.set e.1 e.2) m).keys = m.keys := by
  induction l generalizing m with
  | nil => rfl
  | cons e l ih =>
    have hkeys : (m.set e.1 e.2).keys = m.keys := by
      rw [keys_set, if_pos (hl e List.mem_cons_self)]
    rw [List.foldl_cons, ih _ fun e' he' => hkeys ▸ hl e' (List.mem_cons_of_mem _ he'), hkeys]

/-- Looking for a key among some of the entries. -/
private theorem find?_filter_key {l : List (κ × ν)} (hl : (l.map Prod.fst).Nodup)
    (p : ν → Bool) (k : κ) :
    (l.filter fun e => p e.2).find? (fun e => e.1 = k) =
      (l.find? fun e => e.1 = k).filter fun e => p e.2 := by
  induction l with
  | nil => rfl
  | cons e l ih =>
    rw [List.map_cons, List.nodup_cons] at hl
    by_cases hk : e.1 = k
    · have hnone : (l.filter fun e => p e.2).find? (fun e' => e'.1 = k) = none := by
        simp only [List.find?_eq_none, decide_eq_true_eq]
        intro e' he' heq
        exact hl.1 (hk ▸ heq ▸ List.mem_map_of_mem (List.mem_of_mem_filter he'))
      by_cases hp : p e.2 = true
      · simp [hp, hk, Option.filter]
      · simp [hp, hk, hnone, Option.filter]
    · by_cases hp : p e.2 = true
      · simp [hp, hk, ih hl.2]
      · simp [hp, hk, ih hl.2]

/-- Some of the values are updated in place. -/
theorem update_where (m : JsMap κ ν) (p : ν → Bool) (f : ν → ν) :
    ((m.entries.filter fun e => p e.2).foldl (fun m e => m.set e.1 (f e.2)) m).keys = m.keys ∧
      ∀ k, ((m.entries.filter fun e => p e.2).foldl (fun m e => m.set e.1 (f e.2)) m).get k =
        (m.get k).map fun v => if p v then f v else v := by
  have hfold : (m.entries.filter fun e => p e.2).foldl (fun m e => m.set e.1 (f e.2)) m =
      ((m.entries.filter fun e => p e.2).map fun e => (e.1, f e.2)).foldl
        (fun m e => m.set e.1 e.2) m := by
    rw [List.foldl_map]
  rw [hfold]
  refine ⟨keys_foldl_set m fun e he => ?_, fun k => ?_⟩
  · obtain ⟨e', he', rfl⟩ := List.mem_map.mp he
    exact List.mem_map.mpr ⟨e', List.mem_of_mem_filter he', rfl⟩
  · have hnodup : (((m.entries.filter fun e => p e.2).map fun e => (e.1, f e.2)).map
        Prod.fst).Nodup := by
      rw [List.map_map]
      exact m.nodup.sublist (List.filter_sublist.map _)
    -- the keys are distinct, so at most one of the updates is for k
    have hfind : ((m.entries.filter fun e => p e.2).map fun e => (e.1, f e.2)).find?
        (fun e => e.1 = k) = ((m.entries.find? fun e => e.1 = k).filter fun e => p e.2).map
          fun e => (e.1, f e.2) := by
      rw [List.find?_map, ← find?_filter_key m.nodup]
      rfl
    rw [get_foldl_set hnodup, hfind, get]
    cases m.entries.find? fun e => e.1 = k with
    | none => rfl
    | some e =>
      by_cases hp : p e.2 = true
      · simp [hp, Option.filter]
      · simp [hp, Option.filter]

/-- The entries are the keys with their values. -/
theorem entries_eq_filterMap (m : JsMap κ ν) :
    m.entries = m.keys.filterMap fun k => (m.get k).map fun v => (k, v) := by
  obtain ⟨l, hl⟩ := m
  simp only [keys, get, List.filterMap_map]
  have hall : ∀ e ∈ l, ((fun k => ((l.find? fun e => e.1 = k).map Prod.snd).map fun v => (k, v)) ∘
      Prod.fst) e = some e := by
    intro e he
    have hfind : l.find? (fun e' => e'.1 = e.1) = some e := by
      apply List.find?_eq_some_iff_append.mpr
      obtain ⟨before, after, rfl⟩ := List.append_of_mem he
      refine ⟨by simp, before, after, rfl, fun e' he' => ?_⟩
      rw [List.map_append, List.nodup_append] at hl
      simpa using hl.2.2 e'.1 (List.mem_map_of_mem he') e.1 (by simp)
    simp [hfind]
  rw [List.filterMap_congr hall]
  simp

theorem size_set_empty (k : κ) (v : ν) : (empty.set k v : JsMap κ ν).size = 1 := rfl

theorem mem_keys_of_delete {m : JsMap κ ν} {k j : κ} (h : j ∈ (m.delete k).keys) :
    j ∈ m.keys :=
  (List.Sublist.map Prod.fst List.filter_sublist).subset h

theorem mem_keys_of_set {m : JsMap κ ν} {k j : κ} {v : ν} (h : j ∈ (m.set k v).keys) :
    j = k ∨ j ∈ m.keys := by
  by_cases hj : j = k
  · exact Or.inl hj
  · right
    by_contra hmem
    rw [← get_eq_none, ← get_set_of_ne m v hj] at hmem
    exact get_eq_none.mp hmem h

theorem mem_entries_of_delete {m : JsMap κ ν} {k : κ} {e : κ × ν}
    (h : e ∈ (m.delete k).entries) : e ∈ m.entries :=
  List.mem_of_mem_filter h

theorem mem_entries_of_set {m : JsMap κ ν} {k : κ} {v : ν} {e : κ × ν}
    (h : e ∈ (m.set k v).entries) : e = (k, v) ∨ e ∈ m.entries := by
  unfold set at h
  split at h
  · obtain ⟨e', he', rfl⟩ := List.mem_map.mp h
    split
    · exact Or.inl rfl
    · exact Or.inr he'
  · rcases List.mem_append.mp h with h | h
    · exact Or.inr h
    · exact Or.inl (List.mem_singleton.mp h)

/-! ### An entry and those around it -/

section Entries

variable {m : JsMap κ ν} {before after : List (κ × ν)} {e : κ × ν}

omit [DecidableEq κ] in
/-- No other entry has the key. -/
theorem ne_of_entries (h : m.entries = before ++ e :: after) :
    ∀ e' ∈ before ++ after, e'.1 ≠ e.1 := by
  have hnodup := m.nodup
  rw [h, List.map_append, List.map_cons, List.nodup_append, List.nodup_cons] at hnodup
  obtain ⟨-, ⟨hafter, -⟩, hbefore⟩ := hnodup
  intro e' he' heq
  rcases List.mem_append.mp he' with he' | he'
  · exact hbefore _ (List.mem_map_of_mem he') _ List.mem_cons_self heq
  · exact hafter (heq ▸ List.mem_map_of_mem he')

/-- Deleting a key takes its entry out of the order. -/
theorem entries_delete (h : m.entries = before ++ e :: after) :
    (m.delete e.1).entries = before ++ after := by
  have hne := ne_of_entries h
  have hkeep : (before ++ after).filter (fun e' => decide (e'.1 ≠ e.1)) = before ++ after :=
    List.filter_eq_self.mpr fun e' he' => decide_eq_true (hne e' he')
  show (m.entries.filter fun e' => decide (e'.1 ≠ e.1)) = before ++ after
  rw [h, List.filter_append, List.filter_cons_of_neg (by simp), ← List.filter_append, hkeep]

/-- A key that is there gets its new value where it stands. -/
theorem entries_set_held (v : ν) (h : m.entries = before ++ e :: after) :
    (m.set e.1 v).entries = before ++ (e.1, v) :: after := by
  have hne := ne_of_entries h
  have hkeep : ∀ l ⊆ before ++ after,
      (l.map fun e' => if e'.1 = e.1 then (e.1, v) else e') = l := by
    intro l hl
    refine (List.map_congr_left fun e' he' => ?_).trans (List.map_id' l)
    exact if_neg (hne e' (hl he'))
  have hmem : e.1 ∈ m.entries.map Prod.fst := List.mem_map_of_mem (by simp [h])
  rw [set, dif_pos hmem]
  show (m.entries.map fun e' => if e'.1 = e.1 then (e.1, v) else e') = _
  rw [h, List.map_append, List.map_cons, if_pos rfl,
    hkeep before (List.subset_append_left before after),
    hkeep after (List.subset_append_right before after)]

/-- A new key comes last. -/
theorem entries_set_new (v : ν) {k : κ} (h : k ∉ m.keys) :
    (m.set k v).entries = m.entries ++ [(k, v)] := by
  have hmem : k ∉ m.entries.map Prod.fst := h
  rw [set, dif_neg hmem]

theorem get_of_entries (h : m.entries = before ++ e :: after) : m.get e.1 = some e.2 := by
  have hne := ne_of_entries h
  have hbefore : before.find? (fun e' => decide (e'.1 = e.1)) = none :=
    List.find?_eq_none.mpr fun e' he' => by simpa using hne e' (List.mem_append_left _ he')
  rw [get, h, List.find?_append, hbefore]
  simp

theorem get_of_mem (h : e ∈ m.entries) : m.get e.1 = some e.2 := by
  obtain ⟨before, after, hentries⟩ := List.append_of_mem h
  exact get_of_entries hentries

theorem mem_of_get {k : κ} {v : ν} (h : m.get k = some v) : (k, v) ∈ m.entries := by
  obtain ⟨e, hfind, rfl⟩ := Option.map_eq_some_iff.mp h
  have hkey : e.1 = k := by simpa using List.find?_some hfind
  exact hkey ▸ List.mem_of_find?_eq_some hfind

end Entries

end JsMap
