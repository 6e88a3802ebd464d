import FleetTracking.ControlPlane.DepartmentForest
import FleetTracking.ControlPlane.PositionColumns

/-!
# The Two Implementations of the Repositories

The repositories of devices, departments and positions are implemented twice: in memory, for the
tests, and on Postgres.

1. `RepoCall`, `Reply`: the calls that the services make, and what they are answered.
2. `Memory`: the implementations in memory.
3. `Sql`, `Postgres`: how parameters are read, and the implementations on Postgres with the schema
   of the migrations.
-/

namespace FleetTracking.ControlPlane

/-! ## The calls -/

/-- What `DevicesService` passes to `update`: one key each. -/
inductive DeviceChange where
  | name (name : Option String)
  | assetType (assetType : AssetType)
  | status (status : DeviceStatus)
  -- `none` is the value `undefined`, `some none` is `null`.
  | departmentId (departmentId : Option (Option String))

/-- The calls of the services. -/
inductive RepoCall where
  | devicesCreate (id tenantId imei : String) (name : Option String) (model : String)
      (assetType : AssetType) (departmentId : Option String)
  | devicesFindById (tenantId id : String) (includeDeleted : Bool)
  | devicesFindByImei (imei : String)
  | devicesList (tenantId : String) (departmentIds : Option (List String))
  | devicesListDeleted (tenantId : String)
  | devicesCount (tenantId : String)
  | devicesUpdate (tenantId id : String) (change : DeviceChange)
  | devicesSoftDelete (tenantId id at' : String)
  | devicesRestore (tenantId id : String)
  | unitsCreate (u : OrgUnit)
  | unitsList (tenantId : String)
  | unitsFindById (tenantId id : String)
  | unitsUpdate (tenantId id : String) (patch : OrgUnitPatch)
  | unitsRemove (tenantId id : String)
  | positionsInsertMany (ps : List Position)
  -- `limit = none` is `NaN`.
  | positionsHistory (tenantId deviceId start stop : String) (limit : Option ℚ)
  | positionsLatest (tenantId deviceId : String)

/-- What a call resolves with, or that it rejects. -/
inductive Reply where
  | void
  | flag (ok : Bool)
  | number (n : Nat)
  | device (d : Option Device)
  | devices (ds : List Device)
  -- The deleted devices, last deleted first.
  | deleted (ds : List Device)
  | unit (u : Option OrgUnit)
  | units (us : List OrgUnit)
  | position (p : Option Position)
  | positions (ps : List Position)
  | rejected
  deriving DecidableEq

/-- The same answer. The order of a list of devices or departments is not promised; of deleted
devices it is, by the time of the deletion. -/
def Reply.Same : Reply → Reply → Prop
  | .devices ds, .devices ds' => ds.Perm ds'
  | .deleted ds, .deleted ds' => ds.Perm ds' ∧ ds.map Device.deletedAt = ds'.map Device.deletedAt
  | .units us, .units us' => us.Perm us'
  | r, r' => r = r'

@[refl] theorem Reply.Same.refl (r : Reply) : r.Same r := by
  cases r <;> simp [Reply.Same]

/-- The device of a provisioning. -/
def provisioned (id tenantId imei : String) (name : Option String) (model : String)
    (assetType : AssetType) (departmentId : Option String) : Device :=
  { id, tenantId, imei, name, model, assetType, status := .provisioned, vehicleId := none
    departmentId, deletedAt := none }

/-- `{ ...d, ...patch }`; a department that is `undefined` is none. -/
def DeviceChange.apply (d : Device) : DeviceChange → Device
  | .name name' => { d with name := name' }
  | .assetType assetType' => { d with assetType := assetType' }
  | .status status' => { d with status := status' }
  | .departmentId departmentId' => { d with departmentId := departmentId'.join }

abbrev UnitTable := Table OrgUnit OrgUnit.id

/-! ## In memory -/

/-- The maps of the repositories, and the array of positions. -/
structure Memory where
  devices : DeviceTable
  units : UnitTable
  positions : List Position

namespace Memory

def new : Memory := ⟨Table.empty, Table.empty, []⟩

def findDevice (m : Memory) (tenantId id : String) (includeDeleted : Bool) : Option Device :=
  (m.devices.get id).filter fun d => d.tenantId = tenantId ∧ (includeDeleted ∨ d.deletedAt = none)

def findByImei (m : Memory) (imei : String) : Option Device :=
  m.devices.rows.find? fun d => d.imei = imei ∧ d.deletedAt = none

def listDevices (m : Memory) (tenantId : String) (departmentIds : Option (List String)) :
    List Device :=
  m.devices.rows.filter fun d => d.tenantId = tenantId ∧ d.deletedAt = none ∧
    departmentIds.all fun ids => d.departmentId.any fun departmentId => departmentId ∈ ids

def listDeleted (m : Memory) (tenantId : String) : List Device :=
  (m.devices.rows.filter fun d => d.tenantId = tenantId ∧ d.deletedAt ≠ none).mergeSort
    fun d e => e.deletedAt.getD "" ≤ d.deletedAt.getD ""

def findUnit (m : Memory) (tenantId id : String) : Option OrgUnit :=
  (m.units.get id).filter fun u => u.tenantId = tenantId

/-- `remove` of the departments; `none` if the loop does not end. It adds no unit twice unless it
goes round in a cycle. -/
def removeUnit (m : Memory) (tenantId id : String) : Option UnitTable :=
  (doomedLoop m.units.rows tenantId (m.units.rows.length + 2) 0 [id]).map fun doomed =>
    m.units.keep fun u => u.id ∉ doomed

/-- `slice(0, limit)` of a number: it is truncated, and `NaN` is 0. -/
def sliceTo {α : Type} (l : List α) (limit : Option ℚ) : List α :=
  slice l ((limit.map fun q => q.num.tdiv q.den).getD 0)

def history (m : Memory) (tenantId deviceId start stop : String) (limit : Option ℚ) :
    List Position :=
  let found := m.positions.filter fun p => p.Of tenantId deviceId ∧ start ≤ p.ts ∧ p.ts ≤ stop
  sliceTo (found.mergeSort fun p q => p.ts ≤ q.ts) limit

/-- The loop of `latest`. -/
def latest (m : Memory) (tenantId deviceId : String) : Option Position :=
  m.positions.foldl (fun best p =>
    if p.Of tenantId deviceId ∧ best.all fun b => b.ts < p.ts then some p else best) none

/-- A call, its answer and what is stored afterwards; `none` if it does not return. -/
def call (m : Memory) : RepoCall → Option (Reply × Memory)
  | .devicesCreate id tenantId imei name model assetType departmentId =>
    let d := provisioned id tenantId imei name model assetType departmentId
    some (.device (some d), { m with devices := m.devices.put d })
  | .devicesFindById tenantId id includeDeleted =>
    some (.device (m.findDevice tenantId id includeDeleted), m)
  | .devicesFindByImei imei => some (.device (m.findByImei imei), m)
  | .devicesList tenantId departmentIds => some (.devices (m.listDevices tenantId departmentIds), m)
  | .devicesListDeleted tenantId => some (.deleted (m.listDeleted tenantId), m)
  | .devicesCount tenantId => some (.number (m.listDevices tenantId none).length, m)
  | .devicesUpdate tenantId id change =>
    match m.findDevice tenantId id false with
    | none => some (.device none, m)
    | some d =>
      some (.device (some (change.apply d)), { m with devices := m.devices.put (change.apply d) })
  | .devicesSoftDelete tenantId id at' =>
    match m.findDevice tenantId id false with
    | none => some (.flag false, m)
    | some d =>
      some (.flag true, { m with devices := m.devices.put { d with deletedAt := some at' } })
  | .devicesRestore tenantId id =>
    match m.findDevice tenantId id true with
    | none => some (.flag false, m)
    | some d =>
      if d.deletedAt = none ∨ (m.findByImei d.imei).isSome then some (.flag false, m)
      else some (.flag true, { m with devices := m.devices.put { d with deletedAt := none } })
  | .unitsCreate u => some (.unit (some u), { m with units := m.units.put u })
  | .unitsList tenantId =>
    some (.units (m.units.rows.filter fun u => u.tenantId = tenantId), m)
  | .unitsFindById tenantId id => some (.unit (m.findUnit tenantId id), m)
  | .unitsUpdate tenantId id patch =>
    match m.findUnit tenantId id with
    | none => some (.unit none, m)
    | some u => some (.unit (some (patch.apply u)), { m with units := m.units.put (patch.apply u) })
  | .unitsRemove tenantId id =>
    match m.findUnit tenantId id with
    | none => some (.flag false, m)
    | some _ => (m.removeUnit tenantId id).map fun units => (.flag true, { m with units })
  | .positionsInsertMany ps => some (.void, { m with positions := m.positions ++ ps })
  | .positionsHistory tenantId deviceId start stop limit =>
    some (.positions (m.history tenantId deviceId start stop limit), m)
  | .positionsLatest tenantId deviceId => some (.position (m.latest tenantId deviceId), m)

end Memory

/-! ## On Postgres -/

/-- How Postgres reads what is not of the usual form. -/
structure Sql where
  -- The value of a `timestamptz` in microseconds, and the text that it is returned as.
  timestamptz : String → Option (Int × String)
  -- The value of a `real` as it is returned.
  real : ℚ → Option ℚ
  -- A longitude and a latitude out of range are brought into it.
  coerced : ℚ → ℚ → ℚ × ℚ

/-- A hexadecimal digit, in lower case. -/
def hexDigit (c : Char) : Option Char :=
  if c.isDigit ∨ 'a' ≤ c ∧ c ≤ 'f' then some c
  else if 'A' ≤ c ∧ c ≤ 'F' then some c.toLower
  else none

/-- The digits of `n` bytes; after every second byte but the last there may be a hyphen. -/
def uuidDigits : Nat → List Char → Option (List Char × List Char)
  | 0, cs => some ([], cs)
  | n + 1, c :: c' :: cs => do
    let high ← hexDigit c
    let low ← hexDigit c'
    let rest := if n ≠ 0 ∧ n % 2 = 0 ∧ cs.head? = some '-' then cs.tail else cs
    let (digits, rest) ← uuidDigits n rest
    some (high :: low :: digits, rest)
  | _ + 1, _ => none

/-- The input of a `uuid`, perhaps in braces, and the text that it is returned as. -/
def uuid (s : String) : Option String := do
  let braces := s.toList.head? = some '\x7b'
  let (digits, rest) ← uuidDigits 16 (if braces then s.toList.tail else s.toList)
  if rest = (if braces then ['\x7d'] else []) then
    some (String.ofList (digits.take 8 ++ '-' :: (digits.drop 8).take 4 ++
      '-' :: (digits.drop 12).take 4 ++ '-' :: (digits.drop 16).take 4 ++ '-' :: digits.drop 20))
  else none

example : uuid "\x7b0E37DF36F69811E680E2C33DB4AD0A9F\x7d" =
    some "0e37df36-f698-11e6-80e2-c33db4ad0a9f" := by decide +kernel

/-- A `text` has no character zero. -/
def text (s : String) : Option String := if Char.ofNat 0 ∈ s.toList then none else some s

/-- A `varchar(15)`. -/
def varchar15 (s : String) : Option String := (text s).filter fun s => s.length ≤ 15

/-- A column that may be null. -/
def nullable {α : Type} (input : α → Option α) : Option α → Option (Option α)
  | none => some none
  | some a => (input a).map some

/-- A `smallint`. -/
def smallint (q : ℚ) : Option ℚ :=
  if q.den = 1 ∧ -2 ^ 15 ≤ q.num ∧ q.num < 2 ^ 15 then some q else none

namespace Sql

variable (D : Sql)

/-- A `timestamptz`, in microseconds, and the text that the type parser makes of it. -/
def stamp (s : String) : Option (Int × String) :=
  if JsDate.pgTimestamp s then (JsDate.parse s).map fun ms => (1000 * ms, s) else D.timestamptz s

/-- A `geography(Point,4326)`. -/
def point (longitude latitude : ℚ) : ℚ × ℚ :=
  if -180 ≤ longitude ∧ longitude ≤ 180 ∧ -90 ≤ latitude ∧ latitude ≤ 90 then (longitude, latitude)
  else D.coerced longitude latitude

end Sql

/-- A row of `position`, with the value of its timestamp. -/
structure PositionRow extends Position where
  instant : Int

/-- The row of a position. There is no column for the satellites. -/
def Sql.row (D : Sql) (p : Position) : Option PositionRow := do
  let tenantId ← uuid p.tenantId
  let deviceId ← uuid p.deviceId
  let imei ← varchar15 p.imei
  let (instant, ts) ← D.stamp p.ts
  let speedKph ← D.real p.speedKph
  let heading ← smallint p.heading
  let altitude ← smallint p.altitude
  let (longitude, latitude) := D.point p.longitude p.latitude
  some { tenantId, deviceId, imei, ts, latitude, longitude, altitude, heading, speedKph
         satellites := 0, ignition := p.ignition, attrs := p.attrs, instant }

/-- The tables, in the order of `created_at`. -/
structure Postgres where
  tenants : List String
  devices : DeviceTable
  units : UnitTable
  positions : List PositionRow

namespace Postgres

/-- A database with some tenants. -/
def new (tenants : List String) : Postgres := ⟨tenants, Table.empty, Table.empty, []⟩

variable (D : Sql) (p : Postgres)

/-- The rows that a query by tenant and id finds. -/
def device (tenantId id : String) (includeDeleted : Bool) : Option Device :=
  p.devices.rows.find? fun d => d.tenantId = tenantId ∧ d.id = id ∧
    (includeDeleted ∨ d.deletedAt = none)

def unit (tenantId id : String) : Option OrgUnit :=
  p.units.rows.find? fun u => u.tenantId = tenantId ∧ u.id = id

/-- The partial unique index: a live device has the IMEI. -/
def imeiTaken (imei : String) : Bool :=
  p.devices.rows.any fun d => d.imei = imei ∧ d.deletedAt = none

/-- A foreign key to the departments. -/
def refers (unitId : Option String) : Bool :=
  unitId.all fun id => p.units.rows.any fun u => u.id = id

/-- The live devices of a tenant, or of some of its departments, last created first. -/
def listDevices (tenantId : String) (departmentIds : Option (List String)) : List Device :=
  (p.devices.rows.filter fun d => d.tenantId = tenantId ∧ d.deletedAt = none ∧
    departmentIds.all fun ids => d.departmentId.any fun departmentId => departmentId ∈ ids).reverse

/-- The value of the column `deleted_at`. -/
def deletedAt (d : Device) : Int := ((d.deletedAt.bind D.stamp).map Prod.fst).getD 0

/-- `ON DELETE CASCADE`: the department and all that are below it. -/
def cascade (id : String) : List String :=
  Worklist.closure
    (p.units.rows.filterMap fun u => u.parentId.map fun parentId => (parentId, u.id)) id

/-- `DELETE` of a department, with what goes with it; `ON DELETE SET NULL` for the devices. -/
def removeUnit (id : String) : Postgres :=
  { p with
    units := p.units.keep fun u => u.id ∉ p.cascade id
    devices := p.devices.mapRows
      (fun d => { d with departmentId := d.departmentId.filter fun dep => dep ∉ p.cascade id })
      fun _ => rfl }

/-- `INSERT … ON CONFLICT (device_id, ts) DO NOTHING` of one row. -/
def insertRow (rows : List PositionRow) (r : PositionRow) : List PositionRow :=
  if rows.any fun q => q.deviceId = r.deviceId ∧ q.instant = r.instant then rows else rows ++ [r]

/-- The rows of a device. -/
def ofDevice (tenantId deviceId : String) : List PositionRow :=
  p.positions.filter fun r => r.tenantId = tenantId ∧ r.deviceId = deviceId

/-- `LIMIT`: an integer that is not negative. -/
def limit (limit : Option ℚ) : Option Nat :=
  limit.bind fun q => if q.den = 1 ∧ 0 ≤ q.num then some q.num.toNat else none

/-- The parameter of an update. -/
def input : DeviceChange → Option DeviceChange
  | .name name => (nullable text name).map .name
  | .departmentId (some departmentId) =>
    (nullable uuid departmentId).map fun departmentId => .departmentId (some departmentId)
  | change => some change

/-- A statement that is executed, or an error. -/
def execute : RepoCall → Option (Reply × Postgres)
  | .devicesCreate id tenantId imei name model assetType departmentId => do
    let d := provisioned (← uuid id) (← uuid tenantId) (← varchar15 imei) (← nullable text name)
      (← text model) assetType (← nullable uuid departmentId)
    -- The primary key, the foreign keys and the unique index.
    if (p.devices.get d.id).isNone ∧ d.tenantId ∈ p.tenants ∧ p.refers d.departmentId ∧
        !p.imeiTaken d.imei then
      some (.device (some d), { p with devices := p.devices.put d })
    else none
  | .devicesFindById tenantId id includeDeleted => do
    some (.device (p.device (← uuid tenantId) (← uuid id) includeDeleted), p)
  | .devicesFindByImei imei => do
    let imei ← text imei
    some (.device (p.devices.rows.find? fun d => d.imei = imei ∧ d.deletedAt = none), p)
  | .devicesList tenantId departmentIds => do
    let tenantId ← uuid tenantId
    let departmentIds ← nullable (fun ids => ids.mapM uuid) departmentIds
    some (.devices (p.listDevices tenantId departmentIds), p)
  | .devicesListDeleted tenantId => do
    let tenantId ← uuid tenantId
    some (.deleted ((p.devices.rows.filter fun d => d.tenantId = tenantId ∧
      d.deletedAt ≠ none).mergeSort fun d e => deletedAt D e ≤ deletedAt D d), p)
  | .devicesCount tenantId => do
    some (.number (p.listDevices (← uuid tenantId) none).length, p)
  | .devicesUpdate tenantId id change => do
    let found := p.device (← uuid tenantId) (← uuid id) false
    let change ← input change
    match found, change with
    | none, _ => some (.device none, p)
    -- Without a column to set, the device is read.
    | some d, .departmentId none => some (.device (some d), p)
    | some d, .departmentId (some departmentId) =>
      if p.refers departmentId then
        some (.device (some { d with departmentId }),
          { p with devices := p.devices.put { d with departmentId } })
      else none
    | some d, change =>
      some (.device (some (change.apply d)), { p with devices := p.devices.put (change.apply d) })
  | .devicesSoftDelete tenantId id at' => do
    let found := p.device (← uuid tenantId) (← uuid id) false
    let (_, at') ← D.stamp at'
    match found with
    | none => some (.flag false, p)
    | some d =>
      some (.flag true, { p with devices := p.devices.put { d with deletedAt := some at' } })
  | .devicesRestore tenantId id => do
    match (p.device (← uuid tenantId) (← uuid id) true).filter fun d => d.deletedAt ≠ none with
    | none => some (.flag false, p)
    | some d =>
      -- The unique index fails with 23505, which is caught.
      if p.imeiTaken d.imei then some (.flag false, p)
      else some (.flag true, { p with devices := p.devices.put { d with deletedAt := none } })
  | .unitsCreate u => do
    let u' : OrgUnit := ⟨← uuid u.id, ← uuid u.tenantId, ← text u.name, ← nullable uuid u.parentId⟩
    if (p.units.get u'.id).isNone ∧ u'.tenantId ∈ p.tenants ∧ p.refers u'.parentId then
      some (.unit (some u'), { p with units := p.units.put u' })
    else none
  | .unitsList tenantId => do
    let tenantId ← uuid tenantId
    some (.units (p.units.rows.filter fun u => u.tenantId = tenantId), p)
  | .unitsFindById tenantId id => do some (.unit (p.unit (← uuid tenantId) (← uuid id)), p)
  | .unitsUpdate tenantId id patch => do
    let found := p.unit (← uuid tenantId) (← uuid id)
    let patch : OrgUnitPatch :=
      ⟨← nullable text patch.name, ← nullable (nullable uuid) patch.parentId⟩
    match found with
    | none => some (.unit none, p)
    | some u =>
      if p.refers patch.parentId.join then
        some (.unit (some (patch.apply u)), { p with units := p.units.put (patch.apply u) })
      else none
  | .unitsRemove tenantId id => do
    let id ← uuid id
    match p.unit (← uuid tenantId) id with
    | none => some (.flag false, p)
    | some _ => some (.flag true, p.removeUnit id)
  | .positionsInsertMany ps => do
    let rows ← ps.mapM D.row
    some (.void, { p with positions := rows.foldl insertRow p.positions })
  | .positionsHistory tenantId deviceId start stop limit => do
    let rows := p.ofDevice (← uuid tenantId) (← uuid deviceId)
    let (start, _) ← D.stamp start
    let (stop, _) ← D.stamp stop
    let n ← Postgres.limit limit
    let sorted := (rows.filter fun r => start ≤ r.instant ∧ r.instant ≤ stop).mergeSort
      fun r q => r.instant ≤ q.instant
    some (.positions ((sorted.take n).map PositionRow.toPosition), p)
  | .positionsLatest tenantId deviceId => do
    let rows := p.ofDevice (← uuid tenantId) (← uuid deviceId)
    let sorted := rows.mergeSort fun r q => q.instant ≤ r.instant
    some (.position (sorted.head?.map PositionRow.toPosition), p)

/-- A call, its answer and what is stored afterwards; an error changes nothing. -/
def call (c : RepoCall) : Reply × Postgres := (p.execute D c).getD (.rejected, p)

end Postgres

end FleetTracking.ControlPlane
