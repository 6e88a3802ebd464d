import FleetTracking.ControlPlane.Entities
import Mathlib.Data.List.MinMax
import Mathlib.Data.List.Pairwise
import Mathlib.Data.String.Basic

/-!
# The Position Table

The durable store of positions. Its primary key is the device and the timestamp; an insert
that collides with a row does nothing, so resent positions are stored once. The primary key
is part of the type.

- `PositionTable.insertMany`, `PositionTable.latest`: the repository operations.
- `mem_insertMany`, `insertMany_again`, `latest_spec`: what they do.
-/

namespace FleetTracking.ControlPlane

/-- A position as it is read back: the table has no column for the satellites. -/
def Position.row (p : Position) : Position := { p with satellites := 0 }

/-- Two positions with the same primary key. -/
def Position.Collides (p q : Position) : Prop := p.deviceId = q.deviceId ∧ p.ts = q.ts

instance (p q : Position) : Decidable (p.Collides q) := inferInstanceAs (Decidable (_ ∧ _))

/-- A position of the given device. -/
def Position.Of (p : Position) (tenantId deviceId : String) : Prop :=
  p.tenantId = tenantId ∧ p.deviceId = deviceId

instance (p : Position) (tenantId deviceId : String) : Decidable (p.Of tenantId deviceId) :=
  inferInstanceAs (Decidable (_ ∧ _))

@[simp] theorem row_tenantId (p : Position) : p.row.tenantId = p.tenantId := rfl
@[simp] theorem row_deviceId (p : Position) : p.row.deviceId = p.deviceId := rfl
@[simp] theorem row_ts (p : Position) : p.row.ts = p.ts := rfl
@[simp] theorem row_speedKph (p : Position) : p.row.speedKph = p.speedKph := rfl
@[simp] theorem row_row (p : Position) : p.row.row = p.row := rfl

/-- The rows, oldest first. -/
structure PositionTable where
  rows : List Position
  -- No primary key occurs twice.
  primaryKey : rows.Pairwise fun p q => ¬ p.Collides q
  -- Rows have nothing the table has no column for.
  columns : ∀ q ∈ rows, q.row = q

namespace PositionTable

/-- The table without rows. -/
def empty : PositionTable := ⟨[], List.Pairwise.nil, fun _ h => nomatch h⟩

/-- `INSERT … ON CONFLICT (device_id, ts) DO NOTHING` of one position. -/
def insert (t : PositionTable) (p : Position) : PositionTable :=
  if h : ∃ q ∈ t.rows, q.Collides p then t
  else
    { rows := t.rows ++ [p.row]
      primaryKey := by
        rw [List.pairwise_append]
        refine ⟨t.primaryKey, List.pairwise_singleton _ _, fun q hq r hr hqr => ?_⟩
        rw [List.mem_singleton] at hr
        subst hr
        exact h ⟨q, hq, hqr⟩
      columns := by
        intro q hq
        rcases List.mem_append.mp hq with hq | hq
        · exact t.columns q hq
        · rw [List.mem_singleton] at hq
          subst hq
          rfl }

/-- `insertMany`: one statement, the rows in order. -/
def insertMany (t : PositionTable) (ps : List Position) : PositionTable := ps.foldl insert t

/-- `latest`: the row of the device with the greatest timestamp. -/
def latest (t : PositionTable) (tenantId deviceId : String) : Option Position :=
  (t.rows.filter fun p => p.Of tenantId deviceId).argmax Position.ts

/-! ## Inserting -/

theorem mem_insert {t : PositionTable} {p q : Position} (h : q ∈ (t.insert p).rows) :
    q ∈ t.rows ∨ q = p.row := by
  unfold insert at h
  split at h
  · exact Or.inl h
  · simpa using h

theorem subset_insert (t : PositionTable) (p : Position) {q : Position} (h : q ∈ t.rows) :
    q ∈ (t.insert p).rows := by
  unfold insert
  split
  · exact h
  · simp [h]

/-- After an insert there is a row with the primary key of the position. -/
theorem exists_insert (t : PositionTable) (p : Position) :
    ∃ q ∈ (t.insert p).rows, q.Collides p := by
  unfold insert
  split
  case isTrue h => exact h
  case isFalse => exact ⟨p.row, by simp, rfl, rfl⟩

theorem subset_insertMany (t : PositionTable) (ps : List Position) {q : Position}
    (h : q ∈ t.rows) : q ∈ (t.insertMany ps).rows := by
  induction ps generalizing t with
  | nil => exact h
  | cons p ps ih => exact ih _ (subset_insert t p h)

/-- A row of the table was there before, or is one of the positions inserted. -/
theorem mem_insertMany {t : PositionTable} {ps : List Position} {q : Position}
    (h : q ∈ (t.insertMany ps).rows) : q ∈ t.rows ∨ ∃ p ∈ ps, q = p.row := by
  induction ps generalizing t with
  | nil => exact Or.inl h
  | cons p ps ih =>
    rcases ih h with hq | ⟨p', hp', rfl⟩
    · rcases mem_insert hq with hq | rfl
      · exact Or.inl hq
      · exact Or.inr ⟨p, List.mem_cons_self, rfl⟩
    · exact Or.inr ⟨p', List.mem_cons_of_mem _ hp', rfl⟩

/-- Every position inserted has a row with its primary key. -/
theorem exists_insertMany (t : PositionTable) {ps : List Position} {p : Position} (h : p ∈ ps) :
    ∃ q ∈ (t.insertMany ps).rows, q.Collides p := by
  induction ps generalizing t with
  | nil => cases h
  | cons p' ps ih =>
    rcases List.mem_cons.mp h with rfl | h
    · obtain ⟨q, hq, hqp⟩ := exists_insert t p
      exact ⟨q, subset_insertMany _ ps hq, hqp⟩
    · exact ih _ h

/-- A position that collides with a row is not inserted. -/
theorem insert_of_collides {t : PositionTable} {p : Position}
    (h : ∃ q ∈ t.rows, q.Collides p) : t.insert p = t := dif_pos h

/-- Positions that all collide with rows are not inserted. -/
theorem insertMany_of_collides {t : PositionTable} {ps : List Position}
    (h : ∀ p ∈ ps, ∃ q ∈ t.rows, q.Collides p) : t.insertMany ps = t := by
  induction ps with
  | nil => rfl
  | cons p ps ih =>
    rw [insertMany, List.foldl_cons, insert_of_collides (h p List.mem_cons_self)]
    exact ih fun p' hp' => h p' (List.mem_cons_of_mem _ hp')

/-- **Inserting is idempotent**: the same positions again change nothing. -/
theorem insertMany_again (t : PositionTable) (ps : List Position) :
    (t.insertMany ps).insertMany ps = t.insertMany ps :=
  insertMany_of_collides fun _ hp => exists_insertMany t hp

/-- The primary key determines the row. -/
theorem eq_of_collides {t : PositionTable} {p q : Position} (hp : p ∈ t.rows) (hq : q ∈ t.rows)
    (h : p.Collides q) : p = q := by
  by_contra hne
  have hsymm : Std.Symm fun p q : Position => ¬ p.Collides q :=
    ⟨fun a b hab hba => hab ⟨hba.1.symm, hba.2.symm⟩⟩
  exact t.primaryKey.forall hp hq hne h

/-! ## The newest row -/

/-- `p` is the newest position of its device: its row is stored, and no stored row of the
device has a greater timestamp. -/
structure Newest (t : PositionTable) (p : Position) : Prop where
  stored : p.row ∈ t.rows
  greatest : ∀ q ∈ t.rows, q.Of p.tenantId p.deviceId → q.ts ≤ p.ts

theorem latest_mem {t : PositionTable} {tenantId deviceId : String} {p : Position}
    (h : t.latest tenantId deviceId = some p) : p ∈ t.rows ∧ p.Of tenantId deviceId := by
  have hmem := List.argmax_mem h
  simpa using hmem

theorem latest_greatest {t : PositionTable} {tenantId deviceId : String} {p q : Position}
    (h : t.latest tenantId deviceId = some p) (hq : q ∈ t.rows) (hof : q.Of tenantId deviceId) :
    q.ts ≤ p.ts := by
  apply List.le_of_mem_argmax (l := t.rows.filter fun p => p.Of tenantId deviceId) _ h
  simp [hq, hof]

/-- The newest position of a device is the latest row. -/
theorem Newest.latest {t : PositionTable} {p : Position} (h : t.Newest p) :
    t.latest p.tenantId p.deviceId = some p.row := by
  have hmem : p.row ∈ t.rows.filter fun q => q.Of p.tenantId p.deviceId := by
    simp [h.stored, Position.Of]
  cases hl : t.latest p.tenantId p.deviceId with
  | none =>
    rw [PositionTable.latest, List.argmax_eq_none] at hl
    rw [hl] at hmem
    cases hmem
  | some q =>
    obtain ⟨hq, hof⟩ := latest_mem hl
    have hle : q.ts ≤ p.ts := h.greatest q hq hof
    have hge : p.ts ≤ q.ts := latest_greatest (q := p.row) hl h.stored ⟨rfl, rfl⟩
    have heq : q = p.row := eq_of_collides hq h.stored ⟨hof.2, le_antisymm hle hge⟩
    rw [heq]

end PositionTable

end FleetTracking.ControlPlane
