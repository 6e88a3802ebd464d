import FleetTracking.ControlPlane.Repositories
import FleetTracking.Lib.TimestampOrder
import Mathlib.Data.List.Find

/-!
# The Repositories in Memory and on Postgres

The tests run on the repositories in memory, production on those on Postgres. What is in memory is
what the tables hold, as long as the tables take every parameter as it is and no constraint of the
schema acts: then a call is answered in the same way by both.

1. `Postgres.memory`, `Postgres.WellFormed`: what the tables look like in memory.
2. `Postgres.Meets`: the calls whose parameters are taken as they are, and that touch no constraint.
3. `call_same`: such a call has the same answer, and the same effect.
-/

namespace FleetTracking.ControlPlane

open Relation

/-! ## The tables in memory -/

/-- The maps and the array with what the tables hold. -/
def Postgres.memory (p : Postgres) : Memory :=
  ⟨p.devices, p.units, p.positions.map PositionRow.toPosition⟩

/-- The value of a timestamp in the format of `toISOString`. -/
def IsInstant (s : String) (instant : Int) : Prop :=
  JsDate.pgTimestamp s = true ∧ (JsDate.parse s).map (1000 * ·) = some instant

/-- What the rows keep. -/
structure Postgres.WellFormed (p : Postgres) : Prop where
  parents : ∀ u ∈ p.units.rows, ∀ a, u.parentId = some a →
    ∃ v ∈ p.units.rows, v.id = a ∧ v.tenantId = u.tenantId
  deletedAt : ∀ d ∈ p.devices.rows, ∀ at', d.deletedAt = some at' → JsDate.pgTimestamp at' = true
  instant : ∀ r ∈ p.positions, IsInstant r.ts r.instant
  primaryKey : p.positions.Pairwise fun r q => ¬ (r.deviceId = q.deviceId ∧ r.instant = q.instant)

theorem Postgres.wellFormed_new (tenants : List String) : (Postgres.new tenants).WellFormed where
  parents _ hu := absurd hu List.not_mem_nil
  deletedAt _ hd := absurd hd List.not_mem_nil
  instant _ hr := absurd hr List.not_mem_nil
  primaryKey := .nil

section Instants

variable {D : Sql} {s s' : String} {t t' : Int}

theorem IsInstant.stamp (h : IsInstant s t) : D.stamp s = some (t, s) := by
  obtain ⟨ms, hms, rfl⟩ := Option.map_eq_some_iff.mp h.2
  rw [Sql.stamp, if_pos h.1, hms, Option.map_some]

theorem exists_instant (h : JsDate.pgTimestamp s = true) : ∃ t, IsInstant s t := by
  obtain ⟨ms, -, hms, -⟩ := JsDate.lt_iff_parse_lt h h
  exact ⟨1000 * ms, h, by rw [hms, Option.map_some]⟩

/-- The order of the values is the order of the texts. -/
theorem IsInstant.lt_iff (h : IsInstant s t) (h' : IsInstant s' t') : s < s' ↔ t < t' := by
  obtain ⟨ms, ms', hms, hms', hlt⟩ := JsDate.lt_iff_parse_lt h.1 h'.1
  have ht := h.2
  have ht' := h'.2
  rw [hms, Option.map_some, Option.some_inj] at ht
  rw [hms', Option.map_some, Option.some_inj] at ht'
  rw [hlt]
  omega

theorem IsInstant.le_iff (h : IsInstant s t) (h' : IsInstant s' t') : s ≤ s' ↔ t ≤ t' := by
  rw [← not_lt, ← not_lt, h'.lt_iff h]

theorem IsInstant.inj (h : IsInstant s t) (h' : IsInstant s' t) : s = s' :=
  le_antisymm ((h.le_iff h').mpr le_rfl) ((h'.le_iff h).mpr le_rfl)

end Instants

/-! ## The calls -/

/-- A parameter is compared with the values of a column as its text is. -/
def Reads (column : List String) (arg : String) : Prop :=
  ∃ c ∈ uuid arg, ∀ v ∈ column, v = c ↔ v = arg

/-- The columns return a position as it is. -/
structure Position.ReadsBack (D : Sql) (p : Position) : Prop where
  tenantId : uuid p.tenantId = some p.tenantId
  deviceId : uuid p.deviceId = some p.deviceId
  imei : varchar15 p.imei = some p.imei
  ts : JsDate.pgTimestamp p.ts = true
  point : D.point p.longitude p.latitude = (p.longitude, p.latitude)
  speedKph : D.real p.speedKph = some p.speedKph
  heading : smallint p.heading = some p.heading
  altitude : smallint p.altitude = some p.altitude
  satellites : p.satellites = 0

/-- The bounds of a range are compared with the timestamps as their texts are. -/
def Bounds (D : Sql) (rows : List PositionRow) (start stop : String) : Prop :=
  ∃ t ∈ D.stamp start, ∃ t' ∈ D.stamp stop,
    ∀ r ∈ rows, (start ≤ r.ts ↔ t.1 ≤ r.instant) ∧ (r.ts ≤ stop ↔ r.instant ≤ t'.1)

namespace Postgres

variable (D : Sql) (p : Postgres)

def ReadsDevice (tenantId id : String) : Prop :=
  Reads (p.devices.rows.map Device.tenantId) tenantId ∧ Reads (p.devices.rows.map Device.id) id

def ReadsUnit (tenantId id : String) : Prop :=
  Reads (p.units.rows.map OrgUnit.tenantId) tenantId ∧ Reads (p.units.rows.map OrgUnit.id) id

def ReadsPositions (tenantId deviceId : String) : Prop :=
  Reads (p.positions.map fun r => r.tenantId) tenantId ∧
    Reads (p.positions.map fun r => r.deviceId) deviceId

/-- A parent that is a department of the tenant. -/
def HasParent (tenantId : String) (parentId : Option String) : Prop :=
  nullable uuid parentId = some parentId ∧
    ∀ a ∈ parentId, ∃ v ∈ p.units.rows, v.id = a ∧ v.tenantId = tenantId

/-- The column takes the value of an update as it is. -/
def Takes : DeviceChange → Prop
  | .departmentId departmentId => departmentId ≠ none ∧
    nullable uuid departmentId.join = some departmentId.join ∧ p.refers departmentId.join = true
  | _ => True

/-- A call whose parameters are taken as they are, and that touches no constraint. -/
def Meets : RepoCall → Prop
  | .devicesCreate id tenantId imei name model _ departmentId =>
    uuid id = some id ∧ (∀ d ∈ p.devices.rows, d.id ≠ id) ∧ uuid tenantId = some tenantId ∧
      tenantId ∈ p.tenants ∧ varchar15 imei = some imei ∧ p.imeiTaken imei = false ∧
      nullable text name = some name ∧ text model = some model ∧
      nullable uuid departmentId = some departmentId ∧ p.refers departmentId = true
  | .devicesFindById tenantId id _ => p.ReadsDevice tenantId id
  | .devicesFindByImei imei => text imei = some imei
  | .devicesList tenantId departmentIds =>
    Reads (p.devices.rows.map Device.tenantId) tenantId ∧
      ∀ ids ∈ departmentIds, ∀ id ∈ ids, Reads (p.devices.rows.filterMap Device.departmentId) id
  | .devicesListDeleted tenantId => Reads (p.devices.rows.map Device.tenantId) tenantId
  | .devicesCount tenantId => Reads (p.devices.rows.map Device.tenantId) tenantId
  | .devicesUpdate tenantId id change =>
    p.ReadsDevice tenantId id ∧ (input change).isSome = true ∧
      ∀ d ∈ p.devices.rows, d.id = id → d.tenantId = tenantId → d.deletedAt = none → p.Takes change
  | .devicesSoftDelete tenantId id at' =>
    p.ReadsDevice tenantId id ∧ JsDate.pgTimestamp at' = true
  | .devicesRestore tenantId id => p.ReadsDevice tenantId id
  | .unitsCreate u =>
    uuid u.id = some u.id ∧ (∀ v ∈ p.units.rows, v.id ≠ u.id) ∧ uuid u.tenantId = some u.tenantId ∧
      u.tenantId ∈ p.tenants ∧ text u.name = some u.name ∧ p.HasParent u.tenantId u.parentId
  | .unitsList tenantId => Reads (p.units.rows.map OrgUnit.tenantId) tenantId
  | .unitsFindById tenantId id => p.ReadsUnit tenantId id
  | .unitsUpdate tenantId id patch =>
    p.ReadsUnit tenantId id ∧ (nullable text patch.name).isSome = true ∧
      (nullable (nullable uuid) patch.parentId).isSome = true ∧
      ∀ u ∈ p.units.rows, u.id = id → u.tenantId = tenantId →
        ∀ parentId ∈ patch.parentId, p.HasParent tenantId parentId
  | .unitsRemove tenantId id =>
    -- No device is in the subtree of the department, and it is not below itself.
    p.ReadsUnit tenantId id ∧ ∀ u ∈ p.units.rows, u.id = id → u.tenantId = tenantId →
      ∀ a ∈ doomed p.units.rows tenantId id,
        (∀ d ∈ p.devices.rows, d.departmentId ≠ some a) ∧ id ∉ pushed p.units.rows tenantId a
  | .positionsInsertMany ps =>
    (∀ q ∈ ps, q.ReadsBack D) ∧ (ps.Pairwise fun q r => ¬ q.Collides r) ∧
      ∀ q ∈ ps, ∀ r ∈ p.positions, ¬ r.toPosition.Collides q
  | .positionsHistory tenantId deviceId start stop limit =>
    p.ReadsPositions tenantId deviceId ∧ Bounds D (p.ofDevice tenantId deviceId) start stop ∧
      ∃ q ∈ limit, q.den = 1 ∧ 0 ≤ q.num
  | .positionsLatest tenantId deviceId => p.ReadsPositions tenantId deviceId

end Postgres

/-! ## One call -/

section Calls

variable {D : Sql} {p : Postgres} {tenantId id deviceId c k : String}

/-- The query of a device, by the values of tenant and id. -/
theorem device_eq (hc : ∀ v ∈ p.devices.rows.map Device.tenantId, v = c ↔ v = tenantId)
    (hk : ∀ v ∈ p.devices.rows.map Device.id, v = k ↔ v = id) (includeDeleted : Bool) :
    p.device c k includeDeleted = p.memory.findDevice tenantId id includeDeleted := by
  rw [Memory.findDevice, Postgres.memory, ← Table.find?_key, Postgres.device]
  apply List.find?_congr
  intro d hd
  have htenant := hc d.tenantId (List.mem_map_of_mem hd)
  have hid := hk d.id (List.mem_map_of_mem hd)
  simp only [htenant, hid, decide_eq_true_eq, decide_eq_decide]
  tauto

theorem unit_eq (hc : ∀ v ∈ p.units.rows.map OrgUnit.tenantId, v = c ↔ v = tenantId)
    (hk : ∀ v ∈ p.units.rows.map OrgUnit.id, v = k ↔ v = id) :
    p.unit c k = p.memory.findUnit tenantId id := by
  rw [Memory.findUnit, Postgres.memory, ← Table.find?_key, Postgres.unit]
  apply List.find?_congr
  intro u hu
  have htenant := hc u.tenantId (List.mem_map_of_mem hu)
  have hid := hk u.id (List.mem_map_of_mem hu)
  simp only [htenant, hid, decide_eq_true_eq, decide_eq_decide]
  tauto

theorem memory_findDevice_eq_some {includeDeleted : Bool} {d : Device}
    (h : p.memory.findDevice tenantId id includeDeleted = some d) :
    d ∈ p.devices.rows ∧ d.id = id ∧ d.tenantId = tenantId ∧
      (includeDeleted = true ∨ d.deletedAt = none) := by
  obtain ⟨hget, hrest⟩ := Option.filter_eq_some_iff.mp h
  obtain ⟨hd, hid⟩ := Table.get_eq_some_iff.mp hget
  obtain ⟨htenant, hlive⟩ := of_decide_eq_true hrest
  exact ⟨hd, hid, htenant, hlive⟩

theorem memory_findUnit_eq_some {u : OrgUnit} (h : p.memory.findUnit tenantId id = some u) :
    u ∈ p.units.rows ∧ u.id = id ∧ u.tenantId = tenantId := by
  obtain ⟨hget, hrest⟩ := Option.filter_eq_some_iff.mp h
  obtain ⟨hu, hid⟩ := Table.get_eq_some_iff.mp hget
  exact ⟨hu, hid, of_decide_eq_true hrest⟩

/-- The call is answered in the same way by both, and has the same effect. -/
def SameOn (D : Sql) (p : Postgres) (c : RepoCall) : Prop :=
  ∃ r, p.memory.call c = some (r, (p.call D c).2.memory) ∧ r.Same (p.call D c).1 ∧
    (p.call D c).2.WellFormed

theorem sameOn_of_same {p' : Postgres} {call : RepoCall} {r r' : Reply}
    (hpostgres : p.execute D call = some (r', p'))
    (hmemory : p.memory.call call = some (r, p'.memory)) (hsame : r.Same r')
    (hwf : p'.WellFormed) : SameOn D p call := by
  unfold SameOn Postgres.call
  rw [hpostgres]
  exact ⟨r, hmemory, hsame, hwf⟩

/-- Both give the answer `r`. -/
theorem sameOn_of (p' : Postgres) (r : Reply) {call : RepoCall}
    (hpostgres : p.execute D call = some (r, p'))
    (hmemory : p.memory.call call = some (r, p'.memory)) (hwf : p'.WellFormed) :
    SameOn D p call := sameOn_of_same hpostgres hmemory (.refl r) hwf

/-! ### Devices -/

theorem wellFormed_putDevice (h : p.WellFormed) {d : Device}
    (hdeleted : ∀ at', d.deletedAt = some at' → JsDate.pgTimestamp at' = true) :
    ({ p with devices := p.devices.put d } : Postgres).WellFormed where
  parents := h.parents
  deletedAt e he := by
    rcases Table.mem_put.mp he with rfl | ⟨he, -⟩
    · exact hdeleted
    · exact h.deletedAt e he
  instant := h.instant
  primaryKey := h.primaryKey

theorem sameOn_devicesFindById (h : p.WellFormed) {includeDeleted : Bool}
    (hreads : p.ReadsDevice tenantId id) :
    SameOn D p (.devicesFindById tenantId id includeDeleted) := by
  obtain ⟨⟨c, hc, htenant⟩, k, hk, hid⟩ := hreads
  refine sameOn_of p _ ?_ rfl h
  simp [Postgres.execute, Option.mem_def.mp hc, Option.mem_def.mp hk, device_eq htenant hid]

theorem sameOn_devicesCreate (h : p.WellFormed) {imei model : String} {name : Option String}
    {assetType : AssetType} {departmentId : Option String}
    (hmeets : p.Meets D (.devicesCreate id tenantId imei name model assetType departmentId)) :
    SameOn D p (.devicesCreate id tenantId imei name model assetType departmentId) := by
  obtain ⟨hid, hnew, htenant, hknown, himei, hfree, hname, hmodel, hdep, hrefers⟩ := hmeets
  have hget : p.devices.get id = none := Table.get_eq_none_iff.mpr hnew
  let d := provisioned id tenantId imei name model assetType departmentId
  refine sameOn_of { p with devices := p.devices.put d } _ ?_ rfl
    (wellFormed_putDevice h fun at' hat => nomatch hat)
  simp [Postgres.execute, hid, htenant, himei, hname, hmodel, hdep, d, provisioned, hget, hknown,
    hrefers, hfree]

theorem sameOn_devicesFindByImei (h : p.WellFormed) {imei : String}
    (hmeets : text imei = some imei) : SameOn D p (.devicesFindByImei imei) := by
  refine sameOn_of p _ ?_ rfl h
  simp [Postgres.execute, hmeets, Memory.findByImei, Postgres.memory]

/-- The texts of departments that a list of parameters is read as. -/
theorem exists_mapM {column ids : List String} (hreads : ∀ id ∈ ids, Reads column id) :
    ∃ cs, ids.mapM uuid = some cs ∧ ∀ v ∈ column, v ∈ cs ↔ v ∈ ids := by
  induction ids with
  | nil => exact ⟨[], rfl, fun v _ => Iff.rfl⟩
  | cons id ids ih =>
    obtain ⟨c, hc, hcolumn⟩ := hreads id List.mem_cons_self
    obtain ⟨cs, hcs, hrest⟩ := ih fun i hi => hreads i (List.mem_cons_of_mem id hi)
    refine ⟨c :: cs, by simp [List.mapM_cons, Option.mem_def.mp hc, hcs], fun v hv => ?_⟩
    rw [List.mem_cons, List.mem_cons, hcolumn v hv, hrest v hv]

/-- The query of a list. -/
theorem listDevices_eq {departmentIds cs : Option (List String)}
    (hc : ∀ v ∈ p.devices.rows.map Device.tenantId, v = c ↔ v = tenantId)
    (hcs : ∀ d ∈ p.devices.rows,
      (cs.all fun l => d.departmentId.any fun dep => dep ∈ l) =
        departmentIds.all fun l => d.departmentId.any fun dep => dep ∈ l) :
    p.listDevices c cs = (p.memory.listDevices tenantId departmentIds).reverse := by
  unfold Postgres.listDevices Memory.listDevices Postgres.memory
  congr 1
  apply List.filter_congr
  intro d hd
  simp only [hc d.tenantId (List.mem_map_of_mem hd), hcs d hd]

theorem sameOn_devicesList (h : p.WellFormed) {departmentIds : Option (List String)}
    (hmeets : p.Meets D (.devicesList tenantId departmentIds)) :
    SameOn D p (.devicesList tenantId departmentIds) := by
  obtain ⟨⟨c, hc, htenant⟩, hdeps⟩ := hmeets
  have hcs : ∃ cs, nullable (fun ids => ids.mapM uuid) departmentIds = some cs ∧
      ∀ d ∈ p.devices.rows, (cs.all fun l => d.departmentId.any fun dep => dep ∈ l) =
        departmentIds.all fun l => d.departmentId.any fun dep => dep ∈ l := by
    cases departmentIds with
    | none => exact ⟨none, rfl, fun d _ => rfl⟩
    | some ids =>
      obtain ⟨cs, hcs, hcolumn⟩ := exists_mapM (hdeps ids rfl)
      refine ⟨some cs, by simp [nullable, hcs], fun d hd => ?_⟩
      cases hdep : d.departmentId with
      | none => rfl
      | some dep =>
        have hmem : dep ∈ p.devices.rows.filterMap Device.departmentId :=
          List.mem_filterMap.mpr ⟨d, hd, hdep⟩
        simp [hcolumn dep hmem]
  obtain ⟨cs, hread, hcs⟩ := hcs
  have hpostgres : p.execute D (.devicesList tenantId departmentIds) =
      some (.devices (p.memory.listDevices tenantId departmentIds).reverse, p) := by
    simp [Postgres.execute, Option.mem_def.mp hc, hread, listDevices_eq htenant hcs]
  exact sameOn_of_same hpostgres rfl (List.reverse_perm _).symm h

theorem sameOn_devicesCount (h : p.WellFormed)
    (hmeets : Reads (p.devices.rows.map Device.tenantId) tenantId) :
    SameOn D p (.devicesCount tenantId) := by
  obtain ⟨c, hc, htenant⟩ := hmeets
  refine sameOn_of p _ ?_ rfl h
  have hlist := listDevices_eq htenant (fun _ _ => Eq.refl ((none : Option (List String)).all _))
  simp [Postgres.execute, Option.mem_def.mp hc, hlist]

theorem deletedAt_le {d e : Device} (h : p.WellFormed) (hd : d ∈ p.devices.rows)
    (he : e ∈ p.devices.rows) (hdeleted : d.deletedAt ≠ none) (hdeleted' : e.deletedAt ≠ none) :
    e.deletedAt.getD "" ≤ d.deletedAt.getD "" ↔
      Postgres.deletedAt D e ≤ Postgres.deletedAt D d := by
  obtain ⟨s, hs⟩ := Option.ne_none_iff_exists'.mp hdeleted
  obtain ⟨s', hs'⟩ := Option.ne_none_iff_exists'.mp hdeleted'
  obtain ⟨t, ht⟩ := exists_instant (h.deletedAt d hd s hs)
  obtain ⟨t', ht'⟩ := exists_instant (h.deletedAt e he s' hs')
  simpa [Postgres.deletedAt, hs, hs', ht.stamp, ht'.stamp] using ht'.le_iff ht

theorem sameOn_devicesListDeleted (h : p.WellFormed)
    (hmeets : Reads (p.devices.rows.map Device.tenantId) tenantId) :
    SameOn D p (.devicesListDeleted tenantId) := by
  obtain ⟨c, hc, htenant⟩ := hmeets
  have hfilter : (p.devices.rows.filter fun d => d.tenantId = c ∧ d.deletedAt ≠ none) =
      p.devices.rows.filter fun d => d.tenantId = tenantId ∧ d.deletedAt ≠ none := by
    apply List.filter_congr
    intro d hd
    simp only [htenant d.tenantId (List.mem_map_of_mem hd)]
  have hsort := List.map_mergeSort (f := id)
    (l := p.devices.rows.filter fun d => d.tenantId = tenantId ∧ d.deletedAt ≠ none)
    (r := fun d e => decide (Postgres.deletedAt D e ≤ Postgres.deletedAt D d))
    (s := fun d e => decide (e.deletedAt.getD "" ≤ d.deletedAt.getD "")) fun d hd e he => by
      obtain ⟨hd, hdeleted⟩ := List.mem_filter.mp hd
      obtain ⟨he, hdeleted'⟩ := List.mem_filter.mp he
      exact decide_eq_decide.mpr (deletedAt_le h hd he (of_decide_eq_true hdeleted).2
        (of_decide_eq_true hdeleted').2).symm
  rw [List.map_id, List.map_id] at hsort
  refine sameOn_of p _ ?_ rfl h
  simp only [Postgres.execute, Option.mem_def.mp hc, Option.bind_eq_bind, Option.bind_some, hfilter,
    hsort]
  rfl

theorem nullable_eq {α : Type} {input : α → Option α} (hinput : ∀ a b, input a = some b → b = a)
    {o o' : Option α} (h : nullable input o = some o') : o' = o := by
  cases o with
  | none => exact (Option.some.inj h).symm
  | some a =>
    obtain ⟨b, hb, rfl⟩ := Option.map_eq_some_iff.mp h
    rw [hinput a b hb]

theorem text_eq {a b : String} (h : text a = some b) : b = a := by
  unfold text at h
  split at h
  · cases h
  · exact (Option.some.inj h).symm

theorem sameOn_devicesUpdate (h : p.WellFormed) {change : DeviceChange}
    (hmeets : p.Meets D (.devicesUpdate tenantId id change)) :
    SameOn D p (.devicesUpdate tenantId id change) := by
  obtain ⟨⟨⟨c, hc, htenant⟩, k, hk, hid⟩, hinput, htakes⟩ := hmeets
  obtain ⟨change', hchange⟩ := Option.isSome_iff_exists.mp hinput
  have hdevice := device_eq htenant hid false
  -- both repositories look for the row under the tenant and among the live ones
  cases hfound : p.memory.findDevice tenantId id false with
  | none =>
    refine sameOn_of p (.device none) ?_ ?_ h
    · simp [Postgres.execute, Option.mem_def.mp hc, Option.mem_def.mp hk, hdevice, hfound, hchange]
    · simp [Memory.call, hfound]
  | some d =>
    obtain ⟨hd, hdid, hdtenant, hlive⟩ := memory_findDevice_eq_some hfound
    have hlive : d.deletedAt = none := by simpa using hlive
    have htake := htakes d hd hdid hdtenant hlive
    refine sameOn_of { p with devices := p.devices.put (change.apply d) }
      (.device (some (change.apply d))) ?_ ?_
      (wellFormed_putDevice h fun at' hat => ?_)
    · cases change with
      | name name =>
        obtain ⟨name', hname, rfl⟩ := Option.map_eq_some_iff.mp hchange
        obtain rfl := nullable_eq (fun _ _ => text_eq) hname
        simp [Postgres.execute, Option.mem_def.mp hc, Option.mem_def.mp hk, hdevice, hfound,
          hchange, DeviceChange.apply]
      | assetType assetType =>
        cases hchange
        simp [Postgres.execute, Option.mem_def.mp hc, Option.mem_def.mp hk, hdevice, hfound,
          Postgres.input]
      | status status =>
        cases hchange
        simp [Postgres.execute, Option.mem_def.mp hc, Option.mem_def.mp hk, hdevice, hfound,
          Postgres.input]
      | departmentId departmentId =>
        obtain ⟨hdefined, hdep, hrefers⟩ := htake
        obtain ⟨dep, rfl⟩ := Option.ne_none_iff_exists'.mp hdefined
        simp only [Option.join_some] at hdep hrefers
        simp [Postgres.execute, Option.mem_def.mp hc, Option.mem_def.mp hk, hdevice, hfound,
          Postgres.input, hdep, hrefers, DeviceChange.apply]
    · simp only [Memory.call, hfound]
      rfl
    · have hkept : (change.apply d).deletedAt = d.deletedAt := by cases change <;> rfl
      rw [hkept, hlive] at hat
      cases hat

theorem sameOn_devicesSoftDelete (h : p.WellFormed) {at' : String}
    (hmeets : p.Meets D (.devicesSoftDelete tenantId id at')) :
    SameOn D p (.devicesSoftDelete tenantId id at') := by
  obtain ⟨⟨⟨c, hc, htenant⟩, k, hk, hid⟩, hat⟩ := hmeets
  obtain ⟨t, ht⟩ := exists_instant hat
  have hdevice := device_eq htenant hid false
  cases hfound : p.memory.findDevice tenantId id false with
  | none =>
    refine sameOn_of p (.flag false) ?_ ?_ h
    · simp [Postgres.execute, Option.mem_def.mp hc, Option.mem_def.mp hk, hdevice, hfound, ht.stamp]
    · simp [Memory.call, hfound]
  | some d =>
    refine sameOn_of { p with devices := p.devices.put { d with deletedAt := some at' } }
      (.flag true) ?_ ?_
      (wellFormed_putDevice h fun s hs => Option.some.inj hs ▸ hat)
    · simp [Postgres.execute, Option.mem_def.mp hc, Option.mem_def.mp hk, hdevice, hfound, ht.stamp]
    · simp only [Memory.call, hfound]
      rfl

/-- The check in memory that mirrors the unique index. -/
theorem imeiTaken_eq (imei : String) : (p.memory.findByImei imei).isSome = p.imeiTaken imei := by
  rw [Bool.eq_iff_iff, Memory.findByImei, Postgres.imeiTaken, List.find?_isSome, List.any_eq_true]
  rfl

theorem sameOn_devicesRestore (h : p.WellFormed) (hreads : p.ReadsDevice tenantId id) :
    SameOn D p (.devicesRestore tenantId id) := by
  obtain ⟨⟨c, hc, htenant⟩, k, hk, hid⟩ := hreads
  have hdevice := device_eq htenant hid true
  -- a row is restored when it is deleted and no live row has its imei; the statement checks the
  -- same in its WHERE
  by_cases hrestores : ∃ d, p.memory.findDevice tenantId id true = some d ∧ d.deletedAt ≠ none ∧
      p.imeiTaken d.imei = false
  · obtain ⟨d, hfound, hdeleted, hfree⟩ := hrestores
    refine sameOn_of { p with devices := p.devices.put { d with deletedAt := none } }
      (.flag true) ?_ ?_
      (wellFormed_putDevice h fun s hs => nomatch hs)
    · simp [Postgres.execute, Option.mem_def.mp hc, Option.mem_def.mp hk, hdevice, hfound,
        Option.filter, hdeleted, hfree]
    · simp only [Memory.call, hfound, hdeleted, imeiTaken_eq, hfree, Bool.false_eq_true, or_self,
        if_false]
      rfl
  · refine sameOn_of p (.flag false) ?_ ?_ h
    · cases hfound : p.memory.findDevice tenantId id true with
      | none =>
        simp [Postgres.execute, Option.mem_def.mp hc, Option.mem_def.mp hk, hdevice, hfound]
      | some d =>
        by_cases hdeleted : d.deletedAt = none
        · simp [Postgres.execute, Option.mem_def.mp hc, Option.mem_def.mp hk, hdevice, hfound,
            Option.filter, hdeleted]
        · have htaken : p.imeiTaken d.imei = true := by
            by_contra hfree
            exact hrestores ⟨d, hfound, hdeleted, by simpa using hfree⟩
          simp [Postgres.execute, Option.mem_def.mp hc, Option.mem_def.mp hk, hdevice, hfound,
            Option.filter, hdeleted, htaken]
    · cases hfound : p.memory.findDevice tenantId id true with
      | none => simp [Memory.call, hfound]
      | some d =>
        have hcase : d.deletedAt = none ∨ p.imeiTaken d.imei = true := by
          by_contra hnot
          rw [not_or] at hnot
          exact hrestores ⟨d, hfound, hnot.1, by simpa using hnot.2⟩
        simp [Memory.call, hfound, imeiTaken_eq, hcase]

/-! ### Departments -/

theorem wellFormed_putUnit (h : p.WellFormed) {u : OrgUnit}
    (hparent : ∀ a, u.parentId = some a →
      ∃ v ∈ p.units.rows, v.id = a ∧ v.tenantId = u.tenantId)
    (hkept : ∀ v ∈ p.units.rows, v.id = u.id → v.tenantId = u.tenantId) :
    ({ p with units := p.units.put u } : Postgres).WellFormed where
  parents w hw a ha := by
    have hold : ∃ v ∈ p.units.rows, v.id = a ∧ v.tenantId = w.tenantId := by
      rcases Table.mem_put.mp hw with rfl | ⟨hw, -⟩
      · exact hparent a ha
      · exact h.parents w hw a ha
    obtain ⟨v, hv, hid, htenant⟩ := hold
    by_cases hu : v.id = u.id
    · exact ⟨u, Table.mem_put.mpr (Or.inl rfl), hu.symm.trans hid,
        (hkept v hv hu).symm.trans htenant⟩
    · exact ⟨v, Table.mem_put.mpr (Or.inr ⟨hv, hu⟩), hid, htenant⟩
  deletedAt := h.deletedAt
  instant := h.instant
  primaryKey := h.primaryKey

theorem refers_of_hasParent {parentId : Option String} (h : p.HasParent tenantId parentId) :
    p.refers parentId = true := by
  cases parentId with
  | none => rfl
  | some a =>
    obtain ⟨v, hv, hid, -⟩ := h.2 a rfl
    exact List.any_eq_true.mpr ⟨v, hv, by simpa using hid⟩

theorem sameOn_unitsCreate (h : p.WellFormed) {u : OrgUnit} (hmeets : p.Meets D (.unitsCreate u)) :
    SameOn D p (.unitsCreate u) := by
  obtain ⟨hid, hnew, htenant, hknown, hname, hparent⟩ := hmeets
  have hget : p.units.get u.id = none := Table.get_eq_none_iff.mpr hnew
  refine sameOn_of { p with units := p.units.put u } _ ?_ rfl
    (wellFormed_putUnit h hparent.2 fun v hv hvid => absurd hvid (hnew v hv))
  simp [Postgres.execute, hid, htenant, hname, hparent.1, hget, hknown, refers_of_hasParent hparent]

theorem sameOn_unitsList (h : p.WellFormed)
    (hmeets : Reads (p.units.rows.map OrgUnit.tenantId) tenantId) :
    SameOn D p (.unitsList tenantId) := by
  obtain ⟨c, hc, htenant⟩ := hmeets
  have hfilter : (p.units.rows.filter fun u => u.tenantId = c) =
      p.units.rows.filter fun u => u.tenantId = tenantId := by
    apply List.filter_congr
    intro u hu
    simp only [htenant u.tenantId (List.mem_map_of_mem hu)]
  refine sameOn_of p _ ?_ rfl h
  simp [Postgres.execute, Option.mem_def.mp hc, hfilter, Postgres.memory]

theorem sameOn_unitsFindById (h : p.WellFormed) (hreads : p.ReadsUnit tenantId id) :
    SameOn D p (.unitsFindById tenantId id) := by
  obtain ⟨⟨c, hc, htenant⟩, k, hk, hid⟩ := hreads
  refine sameOn_of p _ ?_ rfl h
  simp [Postgres.execute, Option.mem_def.mp hc, Option.mem_def.mp hk, unit_eq htenant hid]

theorem sameOn_unitsUpdate (h : p.WellFormed) {patch : OrgUnitPatch}
    (hmeets : p.Meets D (.unitsUpdate tenantId id patch)) :
    SameOn D p (.unitsUpdate tenantId id patch) := by
  obtain ⟨⟨⟨c, hc, htenant⟩, k, hk, hid⟩, hname, hparent, hset⟩ := hmeets
  obtain ⟨name, hname⟩ := Option.isSome_iff_exists.mp hname
  obtain ⟨parentId, hparent⟩ := Option.isSome_iff_exists.mp hparent
  have hunit := unit_eq htenant hid
  cases hfound : p.memory.findUnit tenantId id with
  | none =>
    refine sameOn_of p (.unit none) ?_ ?_ h
    · simp [Postgres.execute, Option.mem_def.mp hc, Option.mem_def.mp hk, hunit, hfound, hname,
        hparent]
    · simp [Memory.call, hfound]
  | some u =>
    obtain ⟨hu, huid, hutenant⟩ := memory_findUnit_eq_some hfound
    have hhas := hset u hu huid hutenant
    obtain rfl := nullable_eq (fun _ _ => text_eq) hname
    -- The parent, if one is set, is taken as it is, and is there.
    have hparts : parentId = patch.parentId ∧ p.refers patch.parentId.join = true := by
      cases hp : patch.parentId with
      | none =>
        rw [hp] at hparent
        exact ⟨(Option.some.inj hparent).symm, rfl⟩
      | some a =>
        have ha := hhas a hp
        rw [hp, nullable, ha.1, Option.map_some, Option.some_inj] at hparent
        exact ⟨hparent.symm, refers_of_hasParent ha⟩
    obtain ⟨rfl, hrefers⟩ := hparts
    refine sameOn_of { p with units := p.units.put (patch.apply u) }
      (.unit (some (patch.apply u))) ?_ ?_
      (wellFormed_putUnit h (fun a ha => ?_) fun v hv hvid => ?_)
    · simp [Postgres.execute, Option.mem_def.mp hc, Option.mem_def.mp hk, hunit, hfound, hname,
        hparent, hrefers]
    · simp only [Memory.call, hfound]
      rfl
    · cases hp : patch.parentId with
      | none => exact h.parents u hu a (by simpa [OrgUnitPatch.apply, hp] using ha)
      | some b =>
        have hb : b = some a := by simpa [OrgUnitPatch.apply, hp] using ha
        obtain ⟨v, hv, hvid, hvtenant⟩ := (hhas b hp).2 a hb
        exact ⟨v, hv, hvid, hvtenant.trans hutenant.symm⟩
    · rw [Table.eq_of_key hv hu hvid]
      rfl

/-- The cascade deletes what the loop in memory collects. -/
theorem mem_cascade (h : p.WellFormed) {u : OrgUnit} (hu : u ∈ p.units.rows) {b : String} :
    b ∈ p.cascade u.id ↔ b ∈ doomed p.units.rows u.tenantId u.id := by
  unfold Postgres.cascade
  rw [Worklist.mem_closure, mem_doomed_iff]
  have hedge : ∀ a b, (a, b) ∈ (p.units.rows.filterMap fun u =>
      u.parentId.map fun parentId => (parentId, u.id)) ↔
      ∃ v ∈ p.units.rows, v.parentId = some a ∧ v.id = b := by
    intro a b
    simp only [List.mem_filterMap, Option.map_eq_some_iff, Prod.mk.injEq]
    constructor
    · rintro ⟨v, hv, x, hx, rfl, rfl⟩
      exact ⟨v, hv, hx, rfl⟩
    · rintro ⟨v, hv, hx, rfl⟩
      exact ⟨v, hv, a, hx, rfl, rfl⟩
  simp only [hedge]
  constructor
  · intro hreach
    -- Whatever is reached is a department of the tenant.
    suffices hboth : ReflTransGen (fun x y => y ∈ pushed p.units.rows u.tenantId x) u.id b ∧
        ∃ w ∈ p.units.rows, w.id = b ∧ w.tenantId = u.tenantId from hboth.1
    induction hreach with
    | refl => exact ⟨.refl, u, hu, rfl, rfl⟩
    | tail _ hstep ih =>
      obtain ⟨hreach, w, hw, hwid, hwtenant⟩ := ih
      obtain ⟨v, hv, hparent, rfl⟩ := hstep
      obtain ⟨x, hx, hxid, hxtenant⟩ := h.parents v hv _ hparent
      have hsame : x = w := Table.eq_of_key hx hw (hxid.trans hwid.symm)
      have htenant : v.tenantId = u.tenantId := by rw [← hxtenant, hsame, hwtenant]
      exact ⟨hreach.tail (mem_pushed.mpr ⟨v, hv, htenant, hparent, rfl⟩), v, hv, rfl, htenant⟩
  · intro hreach
    refine ReflTransGen.mono (fun x y hbelow => ?_) _ _ hreach
    obtain ⟨v, hv, -, hparent, hid⟩ := mem_pushed.mp hbelow
    exact ⟨v, hv, hparent, hid⟩

/-- No device is changed where none refers to what is deleted. -/
theorem removeUnit_eq (hclear : ∀ d ∈ p.devices.rows, ∀ a ∈ p.cascade id, d.departmentId ≠ some a) :
    p.removeUnit id = { p with units := p.units.keep fun u => u.id ∉ p.cascade id } := by
  unfold Postgres.removeUnit
  congr 1
  apply Table.ext_rows
  refine (List.map_congr_left fun d hd => ?_).trans (List.map_id p.devices.rows)
  cases hdep : d.departmentId with
  | none =>
    rw [Option.filter_none, ← hdep]
    rfl
  | some a =>
    have hout : a ∉ p.cascade id := fun ha => hclear d hd a ha hdep
    rw [Option.filter_some_pos (by simpa using hout), ← hdep]
    rfl

theorem wellFormed_removeUnit (h : p.WellFormed) :
    ({ p with units := p.units.keep fun u => u.id ∉ p.cascade id } : Postgres).WellFormed where
  parents u hu a ha := by
    obtain ⟨hu, hkept⟩ := List.mem_filter.mp hu
    obtain ⟨v, hv, rfl, htenant⟩ := h.parents u hu a ha
    refine ⟨v, List.mem_filter.mpr ⟨hv, decide_eq_true fun hgone => ?_⟩, rfl, htenant⟩
    -- What is below a deleted department is deleted.
    have hbelow : u.id ∈ p.cascade id := by
      unfold Postgres.cascade at hgone ⊢
      rw [Worklist.mem_closure] at hgone ⊢
      exact hgone.tail (List.mem_filterMap.mpr ⟨u, hu, by rw [ha, Option.map_some]⟩)
    exact of_decide_eq_true hkept hbelow
  deletedAt := h.deletedAt
  instant := h.instant
  primaryKey := h.primaryKey

theorem sameOn_unitsRemove (h : p.WellFormed) (hmeets : p.Meets D (.unitsRemove tenantId id)) :
    SameOn D p (.unitsRemove tenantId id) := by
  obtain ⟨⟨⟨c, hc, htenant⟩, k, hk, hid⟩, hclear⟩ := hmeets
  have hunit := unit_eq htenant hid
  cases hfound : p.memory.findUnit tenantId id with
  | none =>
    refine sameOn_of p (.flag false) ?_ ?_ h
    · simp [Postgres.execute, Option.mem_def.mp hc, Option.mem_def.mp hk, hunit, hfound]
    · simp [Memory.call, hfound]
  | some u =>
    obtain ⟨hu, rfl, rfl⟩ := memory_findUnit_eq_some hfound
    have hclear := hclear u hu rfl rfl
    obtain rfl : u.id = k := (hid u.id (List.mem_map_of_mem hu)).mpr rfl
    -- a cycle through the unit would have to pass a department that the condition rules out
    have hroot : ¬ TransGen (Forest.Below (pushed p.units.rows u.tenantId)) u.id u.id := by
      intro hcycle
      obtain ⟨a, hreach, hbelow⟩ := TransGen.tail'_iff.mp hcycle
      exact (hclear a (mem_doomed_iff.mpr hreach)).2 hbelow
    obtain ⟨l, hl, hmem⟩ := exists_doomedLoop_of_root p.units.primaryKey hroot
    -- the loop in memory dooms what ON DELETE CASCADE deletes
    have hsame : ∀ b, b ∈ l ↔ b ∈ p.cascade u.id := fun b =>
      (hmem b).trans (mem_doomed_iff.symm.trans (mem_cascade h hu).symm)
    have hmemory : p.memory.removeUnit u.tenantId u.id =
        some (p.units.keep fun v => v.id ∉ p.cascade u.id) := by
      simp only [Memory.removeUnit, Postgres.memory, hl, Option.map_some, hsame]
    have hremove : p.removeUnit u.id =
        { p with units := p.units.keep fun v => v.id ∉ p.cascade u.id } :=
      removeUnit_eq fun d hd a ha => (hclear a ((mem_cascade h hu).mp ha)).1 d hd
    refine sameOn_of { p with units := p.units.keep fun v => v.id ∉ p.cascade u.id }
      (.flag true) ?_ ?_ (wellFormed_removeUnit h)
    · simp [Postgres.execute, Option.mem_def.mp hc, Option.mem_def.mp hk, hunit, hfound, hremove]
    · simp only [Memory.call, hfound, hmemory, Option.map_some]
      rfl

/-! ### Positions -/

theorem row_eq {q : Position} (h : q.ReadsBack D) :
    ∃ t, IsInstant q.ts t ∧ D.row q = some ⟨q, t⟩ := by
  obtain ⟨t, ht⟩ := exists_instant h.ts
  refine ⟨t, ht, ?_⟩
  simp only [Sql.row, h.tenantId, h.deviceId, h.imei, ht.stamp, h.speedKph, h.heading, h.altitude,
    h.point, Option.bind_eq_bind, Option.bind_some, ← h.satellites]

/-- An insert keeps the primary key. -/
theorem primaryKey_insertRow {rows : List PositionRow} (r : PositionRow)
    (h : rows.Pairwise fun r q => ¬ (r.deviceId = q.deviceId ∧ r.instant = q.instant)) :
    (Postgres.insertRow rows r).Pairwise fun r q =>
      ¬ (r.deviceId = q.deviceId ∧ r.instant = q.instant) := by
  unfold Postgres.insertRow
  split
  case isTrue => exact h
  case isFalse hnot =>
    refine List.pairwise_append.mpr ⟨h, List.pairwise_singleton _ _, fun q hq r' hr hsame => ?_⟩
    apply hnot
    rw [List.mem_singleton.mp hr] at hsame
    exact List.any_eq_true.mpr ⟨q, hq, by simpa using hsame⟩

/-- Positions that collide with nothing are all inserted. -/
theorem insert_fresh {ps : List Position} {stored : List PositionRow}
    (hreads : ∀ q ∈ ps, q.ReadsBack D) (hpairs : ps.Pairwise fun q r => ¬ q.Collides r)
    (hfresh : ∀ q ∈ ps, ∀ r ∈ stored, ¬ r.toPosition.Collides q)
    (hinstants : ∀ r ∈ stored, IsInstant r.ts r.instant)
    (hkey : stored.Pairwise fun r q => ¬ (r.deviceId = q.deviceId ∧ r.instant = q.instant)) :
    ∃ rows, ps.mapM D.row = some rows ∧
      (rows.foldl Postgres.insertRow stored).map PositionRow.toPosition =
        stored.map PositionRow.toPosition ++ ps ∧
      (∀ r ∈ rows.foldl Postgres.insertRow stored, IsInstant r.ts r.instant) ∧
      (rows.foldl Postgres.insertRow stored).Pairwise fun r q =>
        ¬ (r.deviceId = q.deviceId ∧ r.instant = q.instant) := by
  induction ps generalizing stored with
  | nil => exact ⟨[], rfl, by simp, hinstants, hkey⟩
  | cons q ps ih =>
    obtain ⟨t, ht, hrow⟩ := row_eq (hreads q List.mem_cons_self)
    -- no stored row has the key of q, so ON CONFLICT DO NOTHING appends
    have hinsert : Postgres.insertRow stored ⟨q, t⟩ = stored ++ [⟨q, t⟩] := by
      refine if_neg fun hany => ?_
      obtain ⟨r, hr, hsame⟩ := List.any_eq_true.mp hany
      obtain ⟨hdevice, hinstant⟩ := of_decide_eq_true hsame
      have hr' := hinstants r hr
      rw [hinstant] at hr'
      exact hfresh q List.mem_cons_self r hr ⟨hdevice, hr'.inj ht⟩
    have hkey' := primaryKey_insertRow ⟨q, t⟩ hkey
    rw [hinsert] at hkey'
    obtain ⟨rows, hrows, hmap, hinstants', hkeys⟩ :=
      ih (fun r hr => hreads r (List.mem_cons_of_mem q hr)) (List.pairwise_cons.mp hpairs).2
        (fun r hr r' hr' => by
          rcases List.mem_append.mp hr' with hr' | hr'
          · exact hfresh r (List.mem_cons_of_mem q hr) r' hr'
          · rw [List.mem_singleton.mp hr']
            exact (List.pairwise_cons.mp hpairs).1 r hr)
        (fun r hr => by
          rcases List.mem_append.mp hr with hr | hr
          · exact hinstants r hr
          · rw [List.mem_singleton.mp hr]
            exact ht)
        hkey'
    refine ⟨⟨q, t⟩ :: rows, by simp [List.mapM_cons, hrow, hrows], ?_, ?_, ?_⟩
    · rw [List.foldl_cons, hinsert, hmap]
      simp
    · rw [List.foldl_cons, hinsert]
      exact hinstants'
    · rw [List.foldl_cons, hinsert]
      exact hkeys

theorem sameOn_positionsInsertMany (h : p.WellFormed) {ps : List Position}
    (hmeets : p.Meets D (.positionsInsertMany ps)) : SameOn D p (.positionsInsertMany ps) := by
  obtain ⟨hreads, hpairs, hfresh⟩ := hmeets
  obtain ⟨rows, hrows, hmap, hinstants, hkey⟩ :=
    insert_fresh hreads hpairs hfresh h.instant h.primaryKey
  refine sameOn_of { p with positions := rows.foldl Postgres.insertRow p.positions }
    .void ?_ ?_ ⟨h.parents, h.deletedAt, hinstants, hkey⟩
  · simp [Postgres.execute, hrows]
  · simp only [Memory.call, Postgres.memory, hmap]

/-- The rows of a device, by the values of tenant and device. -/
theorem ofDevice_eq (hc : ∀ v ∈ p.positions.map fun r => r.tenantId, v = c ↔ v = tenantId)
    (hk : ∀ v ∈ p.positions.map fun r => r.deviceId, v = k ↔ v = deviceId) :
    p.ofDevice c k = p.ofDevice tenantId deviceId := by
  apply List.filter_congr
  intro r hr
  have htenant := hc r.tenantId (List.mem_map.mpr ⟨r, hr, rfl⟩)
  have hdevice := hk r.deviceId (List.mem_map.mpr ⟨r, hr, rfl⟩)
  simp only [htenant, hdevice]

/-- The positions of a device in memory are those of its rows. -/
theorem filter_positions (p : Postgres) (tenantId deviceId : String) (f : Position → Bool)
    (g : PositionRow → Bool) (hfg : ∀ r ∈ p.ofDevice tenantId deviceId, f r.toPosition = g r) :
    (p.memory.positions.filter fun q => q.Of tenantId deviceId ∧ f q) =
      ((p.ofDevice tenantId deviceId).filter g).map PositionRow.toPosition := by
  rw [Postgres.memory, List.filter_map, Postgres.ofDevice, List.filter_filter]
  congr 1
  apply List.filter_congr
  intro r hr
  by_cases hof : r.tenantId = tenantId ∧ r.deviceId = deviceId
  · have hmem : r ∈ p.ofDevice tenantId deviceId :=
      List.mem_filter.mpr ⟨hr, decide_eq_true hof⟩
    simp [Position.Of, hof, hfg r hmem]
  · simp [Position.Of, hof]

theorem sliceTo_eq {α : Type} (l : List α) {q : ℚ} (hden : q.den = 1) (hpos : 0 ≤ q.num) :
    Memory.sliceTo l (some q) = l.take q.num.toNat := by
  rw [Memory.sliceTo, Option.map_some, Option.getD_some, hden, Nat.cast_one, Int.tdiv_one, slice,
    if_pos hpos]

theorem sameOn_positionsHistory (h : p.WellFormed) {start stop : String} {limit : Option ℚ}
    (hmeets : p.Meets D (.positionsHistory tenantId deviceId start stop limit)) :
    SameOn D p (.positionsHistory tenantId deviceId start stop limit) := by
  obtain ⟨⟨⟨c, hc, htenant⟩, k, hk, hdevice⟩, hrange, q, hq, hden, hpos⟩ := hmeets
  obtain ⟨t, ht, t', ht', hbounds⟩ := hrange
  obtain rfl := Option.mem_def.mp hq
  have hrows := ofDevice_eq htenant hdevice
  -- the range compares texts in memory and instants in the database, which agree on stored rows
  have hfilter := filter_positions p tenantId deviceId
    (fun q => decide (start ≤ q.ts ∧ q.ts ≤ stop))
    (fun r => decide (t.1 ≤ r.instant ∧ r.instant ≤ t'.1)) fun r hr => by
      simp only [hbounds r hr]
  simp only [decide_eq_true_eq] at hfilter
  -- and so do the two orders
  have hsort := List.map_mergeSort (f := PositionRow.toPosition)
    (l := (p.ofDevice tenantId deviceId).filter fun r => t.1 ≤ r.instant ∧ r.instant ≤ t'.1)
    (r := fun r q => decide (r.instant ≤ q.instant)) (s := fun p q => decide (p.ts ≤ q.ts))
    fun r hr q hq => by
      have hr := List.mem_of_mem_filter (List.mem_of_mem_filter hr)
      have hq := List.mem_of_mem_filter (List.mem_of_mem_filter hq)
      exact decide_eq_decide.mpr ((h.instant r hr).le_iff (h.instant q hq)).symm
  have hhistory : p.memory.history tenantId deviceId start stop (some q) =
      ((((p.ofDevice tenantId deviceId).filter fun r =>
        t.1 ≤ r.instant ∧ r.instant ≤ t'.1).mergeSort fun r q =>
          r.instant ≤ q.instant).take q.num.toNat).map PositionRow.toPosition := by
    rw [Memory.history, hfilter, ← hsort, sliceTo_eq _ hden hpos, List.map_take]
  have hlimit : Postgres.limit (some q) = some q.num.toNat := if_pos ⟨hden, hpos⟩
  refine sameOn_of p _ ?_ rfl h
  simp only [Postgres.execute, Option.mem_def.mp hc, Option.mem_def.mp hk, Option.mem_def.mp ht,
    Option.mem_def.mp ht', hlimit, hrows, Option.bind_eq_bind, Option.bind_some, hhistory]

/-- The loop of `latest` finds the first position of the device with the greatest timestamp. -/
theorem latest_eq (m : Memory) (tenantId deviceId : String) :
    m.latest tenantId deviceId =
      (m.positions.filter fun q => q.Of tenantId deviceId ∧ true).argmax Position.ts := by
  rw [Memory.latest, List.argmax, List.foldl_filter]
  congr 1
  funext best q
  cases best with
  | none => simp [List.argAux]
  | some b => by_cases hof : q.Of tenantId deviceId <;> simp [List.argAux, hof]

/-- The first row of `ORDER BY ts DESC` has the greatest value. -/
theorem head_sorted {l : List PositionRow} {r : PositionRow}
    (h : (l.mergeSort fun r q => q.instant ≤ r.instant).head? = some r) :
    r ∈ l ∧ ∀ q ∈ l, q.instant ≤ r.instant := by
  have hmem := List.mem_mergeSort.mp (List.mem_of_head? h)
  refine ⟨hmem, fun q hq => ?_⟩
  have hsorted := @List.pairwise_mergeSort _ (fun r q : PositionRow => q.instant ≤ r.instant)
    (fun a b c hab hbc => by
      simp only [decide_eq_true_eq] at hab hbc ⊢
      exact hbc.trans hab)
    (fun a b => by simpa using le_total b.instant a.instant) l
  obtain ⟨rest, hrest⟩ := List.head?_eq_some_iff.mp h
  rw [hrest, List.pairwise_cons] at hsorted
  have hq' : q ∈ l.mergeSort fun r q => q.instant ≤ r.instant := List.mem_mergeSort.mpr hq
  rw [hrest] at hq'
  rcases List.mem_cons.mp hq' with rfl | hq'
  · exact le_rfl
  · simpa using hsorted.1 q hq'

theorem sameOn_positionsLatest (h : p.WellFormed)
    (hmeets : p.Meets D (.positionsLatest tenantId deviceId)) :
    SameOn D p (.positionsLatest tenantId deviceId) := by
  obtain ⟨⟨c, hc, htenant⟩, k, hk, hdevice⟩ := hmeets
  have hrows := ofDevice_eq htenant hdevice
  have hfilter := filter_positions p tenantId deviceId (fun _ => true) (fun _ => true)
    fun _ _ => rfl
  rw [List.filter_true] at hfilter
  have hlatest : p.memory.latest tenantId deviceId =
      (((p.ofDevice tenantId deviceId).mergeSort fun r q =>
        q.instant ≤ r.instant).head?).map PositionRow.toPosition := by
    rw [latest_eq, hfilter]
    generalize hsorted : (p.ofDevice tenantId deviceId).mergeSort
      (fun r q => q.instant ≤ r.instant) = sorted
    cases hhead : sorted.head? with
    | none =>
      have hnil : p.ofDevice tenantId deviceId = [] := by
        have hperm := List.mergeSort_perm (p.ofDevice tenantId deviceId)
          fun r q => q.instant ≤ r.instant
        rw [hsorted, List.head?_eq_none_iff.mp hhead] at hperm
        exact hperm.symm.eq_nil
      rw [hnil]
      rfl
    | some r =>
      obtain ⟨hr, hgreatest⟩ := head_sorted (hsorted ▸ hhead)
      cases hmax : (((p.ofDevice tenantId deviceId).map PositionRow.toPosition).argmax
          Position.ts) with
      | none =>
        rw [List.argmax_eq_none, List.map_eq_nil_iff] at hmax
        rw [hmax] at hr
        cases hr
      | some b =>
        obtain ⟨q, hq, rfl⟩ := List.mem_map.mp (List.argmax_mem hmax)
        have hle := List.le_of_mem_argmax (List.mem_map_of_mem hr) hmax
        have hr' := List.mem_filter.mp hr
        have hq' := List.mem_filter.mp hq
        have hback := ((h.instant r hr'.1).le_iff (h.instant q hq'.1)).mp hle
        have heq : q.instant = r.instant := le_antisymm (hgreatest q hq) hback
        have hdevices : q.deviceId = r.deviceId := by
          rw [(of_decide_eq_true hr'.2).2, (of_decide_eq_true hq'.2).2]
        -- The primary key: there is one row with the greatest timestamp.
        by_contra hne
        have hsymm : Std.Symm fun r q : PositionRow =>
            ¬ (r.deviceId = q.deviceId ∧ r.instant = q.instant) :=
          ⟨fun a b hab hba => hab ⟨hba.1.symm, hba.2.symm⟩⟩
        have hrows : q ≠ r := fun hqr => hne (by rw [hqr, Option.map_some])
        exact h.primaryKey.forall hq'.1 hr'.1 hrows ⟨hdevices, heq⟩
  refine sameOn_of p _ ?_ rfl h
  simp only [Postgres.execute, Option.mem_def.mp hc, Option.mem_def.mp hk, hrows,
    Option.bind_eq_bind, Option.bind_some, hlatest]

/-- **One call**: whatever is stored, a call that meets the condition is answered in the same way by
both, and has the same effect. -/
theorem call_same (h : p.WellFormed) (call : RepoCall) (hmeets : p.Meets D call) :
    SameOn D p call := by
  cases call with
  | devicesCreate => exact sameOn_devicesCreate h hmeets
  | devicesFindById => exact sameOn_devicesFindById h hmeets
  | devicesFindByImei => exact sameOn_devicesFindByImei h hmeets
  | devicesList => exact sameOn_devicesList h hmeets
  | devicesListDeleted => exact sameOn_devicesListDeleted h hmeets
  | devicesCount => exact sameOn_devicesCount h hmeets
  | devicesUpdate => exact sameOn_devicesUpdate h hmeets
  | devicesSoftDelete => exact sameOn_devicesSoftDelete h hmeets
  | devicesRestore => exact sameOn_devicesRestore h hmeets
  | unitsCreate => exact sameOn_unitsCreate h hmeets
  | unitsList => exact sameOn_unitsList h hmeets
  | unitsFindById => exact sameOn_unitsFindById h hmeets
  | unitsUpdate => exact sameOn_unitsUpdate h hmeets
  | unitsRemove => exact sameOn_unitsRemove h hmeets
  | positionsInsertMany => exact sameOn_positionsInsertMany h hmeets
  | positionsHistory => exact sameOn_positionsHistory h hmeets
  | positionsLatest => exact sameOn_positionsLatest h hmeets

end Calls

end FleetTracking.ControlPlane
