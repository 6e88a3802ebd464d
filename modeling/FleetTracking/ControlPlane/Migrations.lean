import FleetTracking.Lib.Fallible
import FleetTracking.Lib.Regex
import Mathlib.Data.Finset.Union
import Mathlib.Data.List.Sort
import Mathlib.Data.String.Basic

/-!
# The Migration Runner

Each `.sql` file of a directory is run in a transaction and recorded in `schema_migrations`. A
file that fails with "already exists" is rolled back and recorded all the same.

1. `Database`, `transaction`, `migrate`, `main`: the runner.
2. `Fits`, `created`: what a list of files creates, without the runner.
3. `main_eq`: what a run that finishes leaves behind.
4. `recorded_is_applied_iff`: when every recorded file has its objects.
-/

namespace FleetTracking.ControlPlane.Migrate

open Fallible

/-! ## The runner -/

/-- A file of the directory. Each statement creates an object. -/
structure MigrationFile (α : Type) where
  filename : String
  statements : List α
deriving DecidableEq

/-- The files of a directory, which have different names. -/
structure Directory (α : Type) where
  entries : List (MigrationFile α)
  distinct : (entries.map MigrationFile.filename).Nodup

/-- The objects there are, and the rows of `schema_migrations`. -/
structure Database (α : Type) where
  objects : Finset α
  recorded : Finset String

/-- What the runner runs against. -/
structure Environment (α : Type) where
  databaseUrl : Option String
  -- How a message of the database names an object.
  describe : α → String
  -- What else the transaction of a file fails with, before a statement does.
  fault : String → Option String

section Runner

variable {α : Type} [DecidableEq α]

/-- A statement of a file. -/
def create (env : Environment α) (objects : Finset α) (o : α) : Except String (Finset α) :=
  if o ∈ objects then .error (env.describe o ++ " already exists") else .ok (insert o objects)

/-- `INSERT INTO schema_migrations (filename) VALUES ($1)`. -/
def insertRow (recorded : Finset String) (file : String) : Except String (Finset String) :=
  if file ∈ recorded then
    .error "duplicate key value violates unique constraint \"schema_migrations_pkey\""
  else .ok (insert file recorded)

/-- From `BEGIN` to `COMMIT`. -/
def transaction (env : Environment α) (db : Database α) (file : MigrationFile α) :
    Except String (Database α) :=
  match env.fault file.filename with
  | some message => .error message
  | none => do
    let objects ← file.statements.foldlM (create env) db.objects
    let recorded ← insertRow db.recorded file.filename
    return { objects, recorded }

/-- `/already exists/i`. -/
def alreadyExists (message : String) : Bool :=
  Regex.occurs "already exists".toList message.toList

/-- One turn of the loop; `applied` was read before it. -/
def migrate (env : Environment α) (applied : Finset String) (db : Database α)
    (file : MigrationFile α) : Except String (Database α) :=
  if file.filename ∈ applied then .ok db
  else
    match transaction env db file with
    | .ok db' => .ok db'
    | .error message =>
      -- The transaction is rolled back; the row is inserted outside of it.
      if alreadyExists message then
        .ok { db with recorded := insert file.filename db.recorded }
      else .error message

/-- `readdirSync(dir).filter((f) => f.endsWith('.sql')).sort()`. -/
def Directory.files (dir : Directory α) : List (MigrationFile α) :=
  (dir.entries.filter fun f => ".sql".toList <:+ f.filename.toList).insertionSort
    fun f g => f.filename ≤ g.filename

/-- `main`: the database it leaves, or why it aborts. -/
def main (env : Environment α) (dir : Directory α) (db : Database α) :
    Except String (Database α) :=
  if env.databaseUrl.any (· ≠ "") then dir.files.foldlM (migrate env db.recorded) db
  else .error "migrate: DATABASE_URL is not set"

/-- All objects of the files that are recorded are there. -/
def Database.Consistent (db : Database α) (dir : Directory α) : Prop :=
  ∀ f ∈ dir.files, f.filename ∈ db.recorded → ∀ o ∈ f.statements, o ∈ db.objects

end Runner

/-! ## What is created -/

section Created

variable {α : Type} [DecidableEq α]

/-- Nothing is in the way of the file: the database stays up, and each object is new. -/
def Fits (env : Environment α) (objects : Finset α) (f : MigrationFile α) : Prop :=
  env.fault f.filename = none ∧ f.statements.Nodup ∧ ∀ o ∈ f.statements, o ∉ objects

instance (env : Environment α) (objects : Finset α) (f : MigrationFile α) :
    Decidable (Fits env objects f) :=
  inferInstanceAs (Decidable (_ ∧ _ ∧ _))

/-- The objects after a file that was not applied before. -/
def after (env : Environment α) (applied : Finset String) (objects : Finset α)
    (f : MigrationFile α) : Finset α :=
  if f.filename ∉ applied ∧ Fits env objects f then objects ∪ f.statements.toFinset else objects

/-- The objects that a list of files creates. -/
def created (env : Environment α) (applied : Finset String) (objects : Finset α) :
    List (MigrationFile α) → Finset α
  | [] => ∅
  | f :: fs => (after env applied objects f \ objects) ∪
      created env applied (after env applied objects f) fs

/-- Each object of a file that does not fit is there all the same, or a later file creates it. -/
def Covered (env : Environment α) (applied : Finset String) (objects : Finset α) :
    List (MigrationFile α) → Prop
  | [] => True
  | f :: fs =>
    (f.filename ∉ applied → ¬ Fits env objects f →
      ∀ o ∈ f.statements, o ∈ objects ∨ o ∈ created env applied objects fs) ∧
    Covered env applied (after env applied objects f) fs

instance decidableCovered (env : Environment α) (applied : Finset String) :
    ∀ (objects : Finset α) (fs : List (MigrationFile α)), Decidable (Covered env applied objects fs)
  | _, [] => .isTrue trivial
  | objects, f :: fs =>
    have := decidableCovered env applied (after env applied objects f) fs
    inferInstanceAs (Decidable (_ ∧ _))

variable {env : Environment α} {applied : Finset String} {objects : Finset α}
  {f : MigrationFile α} {fs : List (MigrationFile α)}

theorem subset_after : objects ⊆ after env applied objects f := by
  unfold after
  split
  · exact Finset.subset_union_left
  · exact Finset.Subset.refl _

/-- The first file has done its part. -/
theorem union_created : objects ∪ created env applied objects (f :: fs) =
    after env applied objects f ∪ created env applied (after env applied objects f) fs := by
  rw [created, ← Finset.union_assoc, Finset.union_sdiff_of_subset subset_after]

theorem subset_union_created : objects ⊆ objects ∪ created env applied objects fs :=
  Finset.subset_union_left

/-- All files have their objects in the end exactly if those that do not fit are covered. -/
theorem forall_mem_iff_covered
    (hcons : ∀ f ∈ fs, f.filename ∈ applied → ∀ o ∈ f.statements, o ∈ objects) :
    (∀ f ∈ fs, ∀ o ∈ f.statements, o ∈ objects ∪ created env applied objects fs) ↔
      Covered env applied objects fs := by
  induction fs generalizing objects with
  | nil => simp [Covered]
  | cons f fs ih =>
    have hrest : ∀ g ∈ fs, g.filename ∈ applied →
        ∀ o ∈ g.statements, o ∈ after env applied objects f :=
      fun g hg happlied o ho => subset_after (hcons g (List.mem_cons_of_mem _ hg) happlied o ho)
    rw [Covered, ← ih hrest, union_created, List.forall_mem_cons]
    refine and_congr_left fun _ => ?_
    -- a file is skipped, applied, or rolled back and recorded all the same
    by_cases hskip : f.filename ∈ applied
    · have hthere := hcons f List.mem_cons_self hskip
      exact ⟨fun _ h => absurd hskip h, fun _ o ho =>
        subset_union_created (subset_after (hthere o ho))⟩
    · by_cases hfits : Fits env objects f
      · have hafter : after env applied objects f = objects ∪ f.statements.toFinset :=
          if_pos ⟨hskip, hfits⟩
        refine ⟨fun _ _ h => absurd hfits h, fun _ o ho => subset_union_created ?_⟩
        rw [hafter]
        exact Finset.mem_union_right _ (List.mem_toFinset.mpr ho)
      · have hafter : after env applied objects f = objects := if_neg fun h => hfits h.2
        rw [hafter]
        simp only [Finset.mem_union]
        exact ⟨fun h _ _ => h, fun h => h hskip hfits⟩

end Created

/-! ## What the runner does -/

section Runs

variable {α : Type} [DecidableEq α] {env : Environment α} {applied : Finset String}
  {db db' : Database α} {f : MigrationFile α} {fs : List (MigrationFile α)}

/-- The statements of a file succeed if each object is new. -/
theorem foldlM_create {objects objects' : Finset α} {statements : List α} :
    statements.foldlM (create env) objects = .ok objects' ↔
      (statements.Nodup ∧ ∀ o ∈ statements, o ∉ objects) ∧
        objects' = objects ∪ statements.toFinset := by
  induction statements generalizing objects with
  | nil => simp [eq_comm, pure, Except.pure]
  | cons o statements ih =>
    rw [List.foldlM_cons, bind_eq_ok_iff]
    by_cases hold : o ∈ objects
    · simp [create, hold]
    · simp only [create, if_neg hold, Except.ok.injEq, exists_eq_left', ih, List.nodup_cons,
        List.forall_mem_cons, List.toFinset_cons, Finset.mem_insert, not_or, Finset.insert_union,
        Finset.union_insert]
      refine and_congr_left fun _ => ?_
      constructor
      · rintro ⟨hnodup, hnew⟩
        exact ⟨⟨fun ho => (hnew o ho).1 rfl, hnodup⟩, hold, fun a ha => (hnew a ha).2⟩
      · rintro ⟨⟨ho, hnodup⟩, -, hnew⟩
        refine ⟨hnodup, fun a ha => ⟨?_, hnew a ha⟩⟩
        rintro rfl
        exact ho ha

/-- What a transaction that commits has done. -/
theorem transaction_eq_ok_iff : transaction env db f = .ok db' ↔
    (Fits env db.objects f ∧ f.filename ∉ db.recorded) ∧
      db' = ⟨db.objects ∪ f.statements.toFinset, insert f.filename db.recorded⟩ := by
  unfold transaction Fits
  cases env.fault f.filename with
  | some message => simp
  | none =>
    simp only [bind_eq_ok_iff, foldlM_create, insertRow, pure, Except.pure, Except.ok.injEq,
      true_and]
    constructor
    · rintro ⟨_, ⟨hfits, rfl⟩, recorded, hrow, rfl⟩
      split at hrow
      · cases hrow
      · cases hrow
        exact ⟨⟨hfits, ‹_›⟩, rfl⟩
    · rintro ⟨⟨hfits, hrow⟩, rfl⟩
      exact ⟨_, ⟨hfits, rfl⟩, _, if_neg hrow, rfl⟩

/-- **One file.** -/
theorem migrate_ok (hnew : f.filename ∈ db.recorded → f.filename ∈ applied)
    (h : migrate env applied db f = .ok db') :
    db'.objects = after env applied db.objects f ∧
      db'.recorded = if f.filename ∈ applied then db.recorded
        else insert f.filename db.recorded := by
  unfold migrate at h
  by_cases hskip : f.filename ∈ applied
  · rw [if_pos hskip] at h
    cases h
    exact ⟨(if_neg fun h => h.1 hskip).symm, (if_pos hskip).symm⟩
  · rw [if_neg hskip] at h ⊢
    cases htransaction : transaction env db f with
    | ok db₁ =>
      rw [htransaction] at h
      cases h
      obtain ⟨⟨hfits, -⟩, rfl⟩ := transaction_eq_ok_iff.mp htransaction
      exact ⟨(if_pos ⟨hskip, hfits⟩).symm, rfl⟩
    | error message =>
      rw [htransaction] at h
      -- A file that fits is not rolled back.
      have hfits : ¬ Fits env db.objects f := by
        intro hfits
        have hok := transaction_eq_ok_iff.mpr ⟨⟨hfits, fun h => hskip (hnew h)⟩, rfl⟩
        rw [htransaction] at hok
        cases hok
      by_cases hthere : alreadyExists message = true
      · simp only [hthere, if_true] at h
        cases h
        exact ⟨(if_neg fun h => hfits h.2).symm, rfl⟩
      · simp only [hthere] at h
        cases h

/-- **All files.** -/
theorem foldlM_migrate (hnodup : (fs.map MigrationFile.filename).Nodup)
    (hnew : ∀ f ∈ fs, f.filename ∈ db.recorded → f.filename ∈ applied)
    (h : fs.foldlM (migrate env applied) db = .ok db') :
    db'.objects = db.objects ∪ created env applied db.objects fs ∧
      db.recorded ⊆ db'.recorded ∧
      ∀ f ∈ fs, f.filename ∉ applied → f.filename ∈ db'.recorded := by
  induction fs generalizing db with
  | nil =>
    cases h
    simp [created]
  | cons f fs ih =>
    rw [List.foldlM_cons, bind_eq_ok_iff] at h
    obtain ⟨db₁, hfirst, hrest⟩ := h
    obtain ⟨hobjects, hrecorded⟩ := migrate_ok (hnew f List.mem_cons_self) hfirst
    rw [List.map_cons, List.nodup_cons] at hnodup
    -- the row written for f blocks no later file, as the names differ
    have hnew₁ : ∀ g ∈ fs, g.filename ∈ db₁.recorded → g.filename ∈ applied := by
      intro g hg hrow
      rw [hrecorded] at hrow
      split at hrow
      · exact hnew g (List.mem_cons_of_mem _ hg) hrow
      · cases Finset.mem_insert.mp hrow with
        | inl heq => exact absurd (List.mem_map.mpr ⟨g, hg, heq⟩) hnodup.1
        | inr hrow => exact hnew g (List.mem_cons_of_mem _ hg) hrow
    obtain ⟨hobjects', hsub, hnames⟩ := ih hnodup.2 hnew₁ hrest
    refine ⟨?_, ?_, ?_⟩
    · rw [hobjects', hobjects, union_created]
    · refine Finset.Subset.trans ?_ hsub
      rw [hrecorded]
      split
      · exact Finset.Subset.refl _
      · exact Finset.subset_insert _ _
    · rw [List.forall_mem_cons]
      refine ⟨fun hskip => hsub ?_, hnames⟩
      rw [hrecorded, if_neg hskip]
      exact Finset.mem_insert_self _ _

omit [DecidableEq α] in
/-- The files are those of the directory, each once. -/
theorem nodup_files (dir : Directory α) : (dir.files.map MigrationFile.filename).Nodup := by
  have hperm : (dir.files.map MigrationFile.filename).Perm
      ((dir.entries.filter fun f => ".sql".toList <:+ f.filename.toList).map
        MigrationFile.filename) := (List.perm_insertionSort _ _).map _
  exact hperm.nodup_iff.mpr (dir.distinct.sublist (List.filter_sublist.map _))

/-- **What a run that finishes leaves behind**: all files are recorded, and what they created is
there. -/
theorem main_ok {dir : Directory α} (h : main env dir db = .ok db') :
    db'.objects = db.objects ∪ created env db.recorded db.objects dir.files ∧
      ∀ f ∈ dir.files, f.filename ∈ db'.recorded := by
  unfold main at h
  split at h
  · obtain ⟨hobjects, hsub, hnames⟩ := foldlM_migrate (nodup_files dir) (fun _ _ h => h) h
    refine ⟨hobjects, fun f hf => ?_⟩
    by_cases hskip : f.filename ∈ db.recorded
    · exact hsub hskip
    · exact hnames f hf hskip
  · cases h

end Runs

/-! ## What is recorded -/

/-- **A migration recorded is a migration applied, if nothing is lost in a rollback.** From any
database that is consistent with its `schema_migrations`, a run of the runner that finishes leaves
a consistent one exactly if each object of each file that was rolled back was there, or is created
by a later file. -/
theorem recorded_is_applied_iff {α : Type} [DecidableEq α] (env : Environment α)
    (dir : Directory α) (db db' : Database α) (hcons : db.Consistent dir)
    (hmain : main env dir db = .ok db') :
    db'.Consistent dir ↔ Covered env db.recorded db.objects dir.files := by
  obtain ⟨hobjects, hrecorded⟩ := main_ok hmain
  rw [← forall_mem_iff_covered hcons, ← hobjects]
  constructor
  · exact fun h f hf => h f hf (hrecorded f hf)
  · exact fun h f hf _ => h f hf

/-- A database of before the runner, with the first of two tables. -/
def sampleDatabase : Database String := ⟨{"tenants"}, ∅⟩

def sampleEnvironment : Environment String :=
  ⟨some "postgres://fleet", fun o => "relation \"" ++ o ++ "\"", fun _ => none⟩

/-- The first migration as it was, and a second one. -/
def sampleMigrations : Directory String :=
  ⟨[⟨"001_init.sql", ["tenants"]⟩, ⟨"002_device_name.sql", ["devices_name"]⟩], by decide⟩

theorem sample_recorded_is_applied : ∃ db',
    main sampleEnvironment sampleMigrations sampleDatabase = .ok db' ∧
      db'.Consistent sampleMigrations := by
  refine ⟨_, rfl, (recorded_is_applied_iff sampleEnvironment sampleMigrations sampleDatabase _ ?_
    rfl).mpr ?_⟩
  · exact fun _ _ h => absurd h (Finset.notMem_empty _)
  · decide

/-- The first migration has got a second table since: it is recorded, and the table is missing. -/
theorem rolled_back_is_recorded : ∃ (dir : Directory String) (db' : Database String),
    sampleDatabase.Consistent dir ∧ main sampleEnvironment dir sampleDatabase = .ok db' ∧
      ¬ db'.Consistent dir := by
  refine ⟨⟨[⟨"001_init.sql", ["tenants", "devices"]⟩], by decide⟩, _, ?_, rfl, ?_⟩
  · exact fun _ _ h => absurd h (Finset.notMem_empty _)
  · intro h
    have hmissing := h ⟨"001_init.sql", ["tenants", "devices"]⟩ (by decide) (by decide) "devices"
      (by decide)
    exact absurd hmissing (by decide)

end FleetTracking.ControlPlane.Migrate
