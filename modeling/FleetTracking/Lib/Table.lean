import Mathlib.Data.List.Pairwise

/-!
# Tables with a Primary Key

Rows in the order of their insertion, of which no two have the same key: what a `Map` from
ids to records that carry their id amounts to, and a database table with a primary key.
Writing a row with a key that is there replaces it in place.

- `putRow`: writing a row into a list.
- `Table`: the list with its primary key, `get`, `put`, `mapRows`, `keep`.
- `mem_put`, `get_put_self`, `get_put_of_ne`, `filter_putRow`: what writing a row changes, and
  what it does not.
- `countP_putRow_new`, `countP_putRow_old`: how many rows a query sees afterwards.
-/

variable {α κ : Type*} [DecidableEq κ]

/-- Write a row: in place if its key is there, at the end otherwise. -/
def putRow (key : α → κ) (l : List α) (a : α) : List α :=
  if l.any fun b => key b = key a then l.map fun b => if key b = key a then a else b
  else l ++ [a]

section PutRow

variable {key : α → κ} {l : List α} {a b : α}

theorem mem_putRow : b ∈ putRow key l a ↔ b = a ∨ b ∈ l ∧ key b ≠ key a := by
  unfold putRow
  split
  case isTrue h =>
    obtain ⟨c, hc, hkey⟩ := List.any_eq_true.mp h
    simp only [decide_eq_true_eq] at hkey
    rw [List.mem_map]
    constructor
    · rintro ⟨x, hx, rfl⟩
      by_cases hxa : key x = key a
      · simp [hxa]
      · simp [hxa, hx]
    · rintro (rfl | ⟨hb, hne⟩)
      · exact ⟨c, hc, by simp [hkey]⟩
      · exact ⟨b, hb, by simp [hne]⟩
  case isFalse h =>
    have hnot : ∀ c ∈ l, key c ≠ key a := by
      simpa using h
    rw [List.mem_append, List.mem_singleton]
    constructor
    · rintro (hb | rfl)
      · exact Or.inr ⟨hb, hnot b hb⟩
      · exact Or.inl rfl
    · rintro (rfl | ⟨hb, -⟩)
      · exact Or.inr rfl
      · exact Or.inl hb

/-- Replacing rows that a query does not see. -/
theorem filter_replace {p : α → Bool} (hnew : p a = false)
    (hold : ∀ b ∈ l, key b = key a → p b = false) :
    (l.map fun b => if key b = key a then a else b).filter p = l.filter p := by
  induction l with
  | nil => rfl
  | cons b l ih =>
    have hrest := ih fun c hc => hold c (List.mem_cons_of_mem b hc)
    by_cases hb : key b = key a
    · rw [List.map_cons, if_pos hb, List.filter_cons_of_neg (by simp [hnew]),
        List.filter_cons_of_neg (by simp [hold b List.mem_cons_self hb]), hrest]
    · rw [List.map_cons, if_neg hb]
      by_cases hp : p b = true
      · rw [List.filter_cons_of_pos hp, List.filter_cons_of_pos hp, hrest]
      · rw [List.filter_cons_of_neg hp, List.filter_cons_of_neg hp, hrest]

/-- Rows that a query does not see may be written: what it sees stays, in order. -/
theorem filter_putRow {p : α → Bool} (hnew : p a = false)
    (hold : ∀ b ∈ l, key b = key a → p b = false) : (putRow key l a).filter p = l.filter p := by
  unfold putRow
  split
  · exact filter_replace hnew hold
  · simp [hnew]

/-- No key is there twice afterwards. -/
theorem pairwise_putRow (h : l.Pairwise fun b c => key b ≠ key c) (a : α) :
    (putRow key l a).Pairwise fun b c => key b ≠ key c := by
  unfold putRow
  split
  case isTrue =>
    rw [List.pairwise_map]
    refine h.imp fun {b c} hne => ?_
    by_cases hb : key b = key a
    · have hc : key c ≠ key a := fun hc => hne (hb.trans hc.symm)
      simp [hb, hc, hc.symm]
    · by_cases hc : key c = key a
      · simp [hb, hc]
      · simp [hb, hc, hne]
  case isFalse hnot =>
    rw [List.pairwise_append]
    refine ⟨h, List.pairwise_singleton _ _, fun b hb c hc => ?_⟩
    rw [List.mem_singleton] at hc
    subst hc
    simp only [List.any_eq_true, decide_eq_true_eq, not_exists, not_and] at hnot
    exact hnot b hb

/-- The rows after a row was written, in some order: it, and those with another key. -/
theorem putRow_perm (h : l.Pairwise fun b c => key b ≠ key c) (a : α) :
    (putRow key l a).Perm (a :: l.filter fun b => key b ≠ key a) := by
  unfold putRow
  split
  case isTrue hany =>
    induction l with
    | nil => simp at hany
    | cons b l ih =>
      obtain ⟨hb, hl⟩ := List.pairwise_cons.mp h
      by_cases hba : key b = key a
      · -- The row is replaced here, and nothing changes behind it.
        have hne : ∀ c ∈ l, key c ≠ key a := fun c hc heq => hb c hc (hba.trans heq.symm)
        have hmap : (l.map fun c => if key c = key a then a else c) = l :=
          (List.map_congr_left fun c hc => if_neg (hne c hc)).trans (List.map_id' l)
        have hfilter : (l.filter fun c => key c ≠ key a) = l := by
          simpa [List.filter_eq_self] using hne
        rw [List.map_cons, if_pos hba, hmap, List.filter_cons_of_neg (by simp [hba]), hfilter]
      · have hany' : (l.any fun c => decide (key c = key a)) = true := by
          simpa [hba] using hany
        rw [List.map_cons, if_neg hba, List.filter_cons_of_pos (by simp [hba])]
        exact ((ih hl hany').cons b).trans (List.Perm.swap _ _ _)
  case isFalse hany =>
    have hfilter : (l.filter fun c => key c ≠ key a) = l := by
      simpa [List.filter_eq_self] using hany
    rw [hfilter]
    exact List.perm_append_comm

/-- How many rows a query sees when one with another key is added. -/
theorem countP_putRow_new (p : α → Bool) (hnew : ∀ b ∈ l, key b ≠ key a) :
    (putRow key l a).countP p = l.countP p + if p a then 1 else 0 := by
  have hany : ¬ (l.any fun b => decide (key b = key a)) = true := by
    simpa using hnew
  rw [putRow, if_neg hany, List.countP_append, List.countP_singleton]

/-- How many rows a query sees when one is replaced. -/
theorem countP_putRow_old (p : α → Bool) (h : l.Pairwise fun b c => key b ≠ key c) (hb : b ∈ l)
    (hkey : key b = key a) :
    (putRow key l a).countP p + (if p b then 1 else 0) = l.countP p + if p a then 1 else 0 := by
  have hself : (putRow key l b).Perm l := by
    have hmap : (l.map fun c => if key c = key b then b else c) = l := by
      refine Eq.trans (List.map_congr_left fun c hc => ?_) (List.map_id' l)
      by_cases hcb : key c = key b
      · rw [if_pos hcb]
        by_contra hne
        have hsymm : Std.Symm fun a b : α => key a ≠ key b := ⟨fun _ _ hab => hab.symm⟩
        exact h.forall hc hb (fun heq => hne heq.symm) hcb
      · exact if_neg hcb
    have hany : (l.any fun c => decide (key c = key b)) = true := by
      simpa using ⟨b, hb, rfl⟩
    rw [putRow, if_pos hany, hmap]
  have hold := ((putRow_perm h b).symm.trans hself).countP_eq p
  have hnew := (putRow_perm h a).countP_eq p
  rw [List.countP_cons, hkey] at hold
  rw [List.countP_cons] at hnew
  omega

end PutRow

/-- Rows of which no two have the same key. -/
structure Table (α : Type*) {κ : Type*} (key : α → κ) where
  rows : List α
  primaryKey : rows.Pairwise fun a b => key a ≠ key b

namespace Table

variable {key : α → κ}

/-- The table without rows. -/
def empty : Table α key := ⟨[], List.Pairwise.nil⟩

/-- The row with a key. -/
def get (t : Table α key) (k : κ) : Option α := t.rows.find? fun a => key a = k

/-- Write a row. -/
def put (t : Table α key) (a : α) : Table α key :=
  ⟨putRow key t.rows a, pairwise_putRow t.primaryKey a⟩

variable {t : Table α key} {a b : α} {k : κ}

omit [DecidableEq κ] in
/-- Two rows with the same key are one. -/
theorem eq_of_key (ha : a ∈ t.rows) (hb : b ∈ t.rows) (h : key a = key b) : a = b := by
  by_contra hne
  have hsymm : Std.Symm fun a b : α => key a ≠ key b := ⟨fun _ _ hab => hab.symm⟩
  exact t.primaryKey.forall ha hb hne h

theorem get_eq_some_iff : t.get k = some a ↔ a ∈ t.rows ∧ key a = k := by
  constructor
  · intro h
    exact ⟨List.mem_of_find?_eq_some h, by simpa using List.find?_some h⟩
  · rintro ⟨ha, rfl⟩
    cases hget : t.get (key a) with
    | none =>
      have hne := List.find?_eq_none.mp hget a ha
      simp at hne
    | some b =>
      have hb : key b = key a := by simpa using List.find?_some hget
      rw [eq_of_key (List.mem_of_find?_eq_some hget) ha hb]

theorem get_eq_none_iff : t.get k = none ↔ ∀ a ∈ t.rows, key a ≠ k := by
  unfold get
  simp

theorem mem_put : b ∈ (t.put a).rows ↔ b = a ∨ b ∈ t.rows ∧ key b ≠ key a := mem_putRow

@[simp] theorem get_put_self : (t.put a).get (key a) = some a :=
  get_eq_some_iff.mpr ⟨mem_put.mpr (Or.inl rfl), rfl⟩

theorem get_put_of_ne (h : k ≠ key a) : (t.put a).get k = t.get k := by
  ext b
  rw [get_eq_some_iff, get_eq_some_iff, mem_put]
  constructor
  · rintro ⟨rfl | ⟨hb, -⟩, hk⟩
    · exact absurd hk.symm h
    · exact ⟨hb, hk⟩
  · rintro ⟨hb, hk⟩
    exact ⟨Or.inr ⟨hb, fun heq => h (hk.symm.trans heq)⟩, hk⟩

/-- A query by the key and more. -/
theorem find?_key (t : Table α key) (k : κ) (q : α → Bool) :
    (t.rows.find? fun a => key a = k ∧ q a) = (t.get k).filter q := by
  ext a
  rw [Option.filter_eq_some_iff, get_eq_some_iff]
  constructor
  · intro h
    have hmem := List.mem_of_find?_eq_some h
    have hfound : key a = k ∧ q a = true := by simpa using List.find?_some h
    exact ⟨⟨hmem, hfound.1⟩, hfound.2⟩
  · intro ⟨⟨ha, hkey⟩, hq⟩
    cases hfind : t.rows.find? fun a => key a = k ∧ q a with
    | none =>
      have hnot := List.find?_eq_none.mp hfind a ha
      simp [hkey, hq] at hnot
    | some b =>
      have hb : key b = k ∧ q b = true := by simpa using List.find?_some hfind
      rw [eq_of_key (List.mem_of_find?_eq_some hfind) ha (hb.1.trans hkey.symm)]

/-- A query by the key and more, after a row was written. -/
theorem find?_put (q : α → Bool) : ((t.put a).rows.find? fun b => key b = k ∧ q b) =
    if k = key a then (some a).filter q else t.rows.find? fun b => key b = k ∧ q b := by
  rw [find?_key, find?_key]
  split
  case isTrue h => rw [h, get_put_self]
  case isFalse h => rw [get_put_of_ne h]

/-- Change every row, and no key. -/
def mapRows (t : Table α key) (f : α → α) (hf : ∀ a, key (f a) = key a) : Table α key where
  rows := t.rows.map f
  primaryKey := List.pairwise_map.mpr (t.primaryKey.imp fun {a b} hne => by rwa [hf a, hf b])

omit [DecidableEq κ] in
@[ext] theorem ext_rows {t t' : Table α key} (h : t.rows = t'.rows) : t = t' := by
  cases t
  cases t'
  cases h
  rfl

/-- Delete the rows that a test does not keep. -/
def keep (t : Table α key) (p : α → Bool) : Table α key := ⟨t.rows.filter p, t.primaryKey.filter _⟩

end Table
