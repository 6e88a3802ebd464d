import FleetTracking.ControlPlane.RepositoryRefinement

/-!
# Sequences of Calls to the Repositories

1. `SameReplies`: a sequence of calls is answered in the same way in memory and on Postgres.
2. `replies_same`: so it is if every call meets the condition where it is made.
3. `resent_differs`: a position that is sent twice, as after a crash of the consumer.
-/

namespace FleetTracking.ControlPlane

/-! ## Sequences of calls -/

/-- The answers in memory, up to a call that does not return. -/
def Memory.replies : Memory → List RepoCall → List (Option Reply)
  | _, [] => []
  | m, c :: cs =>
    match m.call c with
    | none => [none]
    | some (r, m') => some r :: m'.replies cs

/-- The answers on Postgres. -/
def Postgres.replies (D : Sql) : Postgres → List RepoCall → List Reply
  | _, [] => []
  | p, c :: cs => (p.call D c).1 :: (p.call D c).2.replies D cs

/-- Every call meets the condition where it is made. -/
def Postgres.MeetsAll (D : Sql) : Postgres → List RepoCall → Prop
  | _, [] => True
  | p, c :: cs => p.Meets D c ∧ (p.call D c).2.MeetsAll D cs

/-- The calls are answered in the same way by both, from empty repositories on. -/
def SameReplies (D : Sql) (tenants : List String) (calls : List RepoCall) : Prop :=
  List.Forall₂ (fun o r => ∃ r', o = some r' ∧ r'.Same r) (Memory.new.replies calls)
    ((Postgres.new tenants).replies D calls)

/-- **In memory and on Postgres**: a sequence of calls of which each meets the condition is answered
in the same way by both. -/
theorem replies_same (D : Sql) (tenants : List String) (calls : List RepoCall)
    (h : (Postgres.new tenants).MeetsAll D calls) : SameReplies D tenants calls := by
  suffices hgen : ∀ p : Postgres, p.WellFormed → p.MeetsAll D calls →
      List.Forall₂ (fun o r => ∃ r', o = some r' ∧ r'.Same r) (p.memory.replies calls)
        (p.replies D calls) from hgen _ (Postgres.wellFormed_new tenants) h
  clear h
  induction calls with
  | nil => exact fun _ _ _ => .nil
  | cons c cs ih =>
    intro p hwf hmeets
    obtain ⟨r, hcall, hsame, hwf'⟩ := call_same hwf c hmeets.1
    rw [Memory.replies, hcall, Postgres.replies]
    exact .cons ⟨r, rfl, hsame⟩ (ih _ hwf' hmeets.2)

/-! ## Samples -/

instance (column : List String) (arg : String) : Decidable (Reads column arg) :=
  inferInstanceAs (Decidable (∃ c ∈ uuid arg, _))

instance (D : Sql) (rows : List PositionRow) (start stop : String) :
    Decidable (Bounds D rows start stop) :=
  inferInstanceAs (Decidable (∃ t ∈ D.stamp start, _))

instance (D : Sql) (q : Position) : Decidable (q.ReadsBack D) :=
  decidable_of_iff (uuid q.tenantId = some q.tenantId ∧ uuid q.deviceId = some q.deviceId ∧
      varchar15 q.imei = some q.imei ∧ JsDate.pgTimestamp q.ts = true ∧
      D.point q.longitude q.latitude = (q.longitude, q.latitude) ∧
      D.real q.speedKph = some q.speedKph ∧ smallint q.heading = some q.heading ∧
      smallint q.altitude = some q.altitude ∧ q.satellites = 0)
    ⟨fun ⟨h₁, h₂, h₃, h₄, h₅, h₆, h₇, h₈, h₉⟩ => ⟨h₁, h₂, h₃, h₄, h₅, h₆, h₇, h₈, h₉⟩,
      fun h => ⟨h.tenantId, h.deviceId, h.imei, h.ts, h.point, h.speedKph, h.heading, h.altitude,
        h.satellites⟩⟩

namespace Postgres

variable (D : Sql) (p : Postgres)

instance (tenantId id : String) : Decidable (p.ReadsDevice tenantId id) :=
  inferInstanceAs (Decidable (_ ∧ _))

instance (tenantId id : String) : Decidable (p.ReadsUnit tenantId id) :=
  inferInstanceAs (Decidable (_ ∧ _))

instance (tenantId deviceId : String) : Decidable (p.ReadsPositions tenantId deviceId) :=
  inferInstanceAs (Decidable (_ ∧ _))

instance (tenantId : String) (parentId : Option String) :
    Decidable (p.HasParent tenantId parentId) :=
  inferInstanceAs (Decidable (_ ∧ ∀ a ∈ parentId, _))

instance (change : DeviceChange) : Decidable (p.Takes change) :=
  match change with
  | .name _ | .assetType _ | .status _ => isTrue trivial
  | .departmentId _ => inferInstanceAs (Decidable (_ ∧ _ ∧ _))

instance decidableMeets (call : RepoCall) : Decidable (p.Meets D call) :=
  match call with
  | .devicesCreate .. => inferInstanceAs (Decidable (_ ∧ (∀ d ∈ p.devices.rows, _) ∧ _))
  | .devicesFindById .. | .devicesRestore .. => inferInstanceAs (Decidable (p.ReadsDevice _ _))
  | .devicesFindByImei _ => inferInstanceAs (Decidable (_ = _))
  | .devicesList _ departmentIds =>
    inferInstanceAs (Decidable (_ ∧ ∀ ids ∈ departmentIds, ∀ id ∈ ids, Reads _ id))
  | .devicesListDeleted _ | .devicesCount _ | .unitsList _ =>
    inferInstanceAs (Decidable (Reads _ _))
  | .devicesUpdate .. => inferInstanceAs (Decidable (_ ∧ _ ∧ ∀ d ∈ p.devices.rows, _))
  | .devicesSoftDelete .. => inferInstanceAs (Decidable (_ ∧ _))
  | .unitsCreate _ => inferInstanceAs (Decidable (_ ∧ (∀ v ∈ p.units.rows, _) ∧ _))
  | .unitsFindById .. => inferInstanceAs (Decidable (p.ReadsUnit _ _))
  | .unitsUpdate .. => inferInstanceAs (Decidable (_ ∧ _ ∧ _ ∧ ∀ u ∈ p.units.rows, _))
  | .unitsRemove .. => inferInstanceAs (Decidable (_ ∧ ∀ u ∈ p.units.rows, _))
  | .positionsInsertMany ps =>
    inferInstanceAs (Decidable ((∀ q ∈ ps, q.ReadsBack D) ∧ _ ∧ ∀ q ∈ ps, _))
  | .positionsHistory .. => inferInstanceAs (Decidable (_ ∧ _ ∧ _))
  | .positionsLatest .. => inferInstanceAs (Decidable (p.ReadsPositions _ _))

instance decidableMeetsAll :
    (p : Postgres) → (calls : List RepoCall) → Decidable (p.MeetsAll D calls)
  | _, [] => isTrue trivial
  | p, c :: cs =>
    have := decidableMeetsAll (p.call D c).2 cs
    inferInstanceAs (Decidable (p.Meets D c ∧ _))

end Postgres

/-- A database that takes no other timestamps, and numbers as they are. -/
def sampleSql : Sql where
  timestamptz _ := none
  real q := some q
  coerced longitude latitude := (longitude, latitude)

def tenantUuid : String := "0e37df36-f698-41e6-80e2-c33db4ad0a9f"
def vanUuid : String := "5b6f2f0c-1f0e-4d8e-9a57-3c9d5f1e2a10"
def northUuid : String := "7c1d9a4e-8b2f-4f61-b3a5-d0e6c7f8091a"
def cityUuid : String := "9e8d7c6b-5a49-4832-a716-0f5e4d3c2b1a"

/-- A position without satellites. -/
def fixAt (ts : String) : Position where
  tenantId := tenantUuid
  deviceId := vanUuid
  imei := "350000000000001"
  ts := ts
  latitude := 193 / 10
  longitude := -813 / 10
  altitude := 12
  heading := 270
  speedKph := 50
  satellites := 0
  ignition := some true
  attrs := [("66", 12540)]

/-- Two departments, a device that is moved, reports, is deleted and restored. -/
def fleetCalls : List RepoCall :=
  [.unitsCreate ⟨northUuid, tenantUuid, "North", none⟩,
    .unitsCreate ⟨cityUuid, tenantUuid, "City", some northUuid⟩,
    .unitsFindById tenantUuid northUuid, .devicesFindByImei "350000000000001",
    .devicesCount tenantUuid,
    .devicesCreate vanUuid tenantUuid "350000000000001" none "FTC927" .car (some northUuid),
    .positionsInsertMany [fixAt "2025-06-01T08:00:00.000Z", fixAt "2025-06-01T08:00:10.000Z"],
    .positionsHistory tenantUuid vanUuid "2025-06-01T00:00:00.000Z" "2025-06-02T00:00:00.000Z"
      (some 1000),
    .positionsLatest tenantUuid vanUuid, .devicesList tenantUuid (some [northUuid]),
    .devicesUpdate tenantUuid vanUuid (.departmentId (some none)),
    .unitsRemove tenantUuid northUuid, .unitsList tenantUuid,
    .devicesSoftDelete tenantUuid vanUuid "2025-06-03T00:00:00.000Z",
    .devicesListDeleted tenantUuid, .devicesRestore tenantUuid vanUuid,
    .devicesFindById tenantUuid vanUuid false]

theorem fleetCalls_replies_same : (Postgres.new [tenantUuid]).MeetsAll sampleSql fleetCalls ∧
    SameReplies sampleSql [tenantUuid] fleetCalls := by
  have hmeets : (Postgres.new [tenantUuid]).MeetsAll sampleSql fleetCalls := by decide +kernel
  exact ⟨hmeets, replies_same sampleSql [tenantUuid] fleetCalls hmeets⟩

/-- A position that is sent twice, and the history of its device. -/
def resentCalls : List RepoCall :=
  [.positionsInsertMany [fixAt "2025-06-01T08:00:00.000Z"],
    .positionsInsertMany [fixAt "2025-06-01T08:00:00.000Z"],
    .positionsHistory tenantUuid vanUuid "2025-06-01T00:00:00.000Z" "2025-06-02T00:00:00.000Z"
      (some 1000)]

/-- A position that is sent again is stored twice in memory. -/
theorem resent_differs : ¬ SameReplies sampleSql [tenantUuid] resentCalls := by
  intro h
  let p := fixAt "2025-06-01T08:00:00.000Z"
  have hfound : ([p, p].filter fun q => q.Of tenantUuid vanUuid ∧
      "2025-06-01T00:00:00.000Z" ≤ q.ts ∧ q.ts ≤ "2025-06-02T00:00:00.000Z") = [p, p] := by
    decide +kernel
  have hsorted : [p, p].mergeSort (fun p q => p.ts ≤ q.ts) = [p, p] :=
    List.mergeSort_of_pairwise (by simp)
  have hhistory : Memory.history ⟨Table.empty, Table.empty, [p, p]⟩ tenantUuid vanUuid
      "2025-06-01T00:00:00.000Z" "2025-06-02T00:00:00.000Z" (some 1000) = [p, p] := by
    rw [Memory.history, hfound, hsorted, sliceTo_eq _ rfl (by decide)]
    rfl
  have hmemory : Memory.new.replies resentCalls =
      [some .void, some .void, some (.positions [p, p])] := by
    rw [← hhistory]
    rfl
  have hpostgres : (Postgres.new [tenantUuid]).replies sampleSql resentCalls =
      [.void, .void, .positions [p]] := by
    decide +kernel
  rw [SameReplies, hmemory, hpostgres] at h
  obtain ⟨-, h⟩ := List.forall₂_cons.mp h
  obtain ⟨-, h⟩ := List.forall₂_cons.mp h
  obtain ⟨⟨r, hr, hsame⟩, -⟩ := List.forall₂_cons.mp h
  cases hr
  simp [Reply.Same] at hsame

end FleetTracking.ControlPlane
