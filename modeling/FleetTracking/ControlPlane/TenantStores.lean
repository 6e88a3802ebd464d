import FleetTracking.ControlPlane.StoreRules

/-!
# What Belongs to a Tenant

All tenants share the same stores, keyed by ids that are drawn for all of them. A request that
writes for one tenant changes nothing that another one reads.

1. `SameFor`: two stores look the same to a tenant; `same_answer`: all its reads agree.
2. `WellFormed`: what the stores satisfy in every reachable state.
3. `ApiOp.By`: a request that writes for one tenant only. `same_effect`, `wellFormed_effect`:
   it leaves the stores well-formed, and the same for every other tenant.
-/

namespace FleetTracking.ControlPlane

open Async

/-! ## What a tenant sees -/

/-- The stores look the same to a tenant. -/
structure Store.SameFor (tenantId : String) (s s' : Store) : Prop where
  devices : (s'.backend.devices.rows.filter fun d => d.tenantId = tenantId) =
    s.backend.devices.rows.filter fun d => d.tenantId = tenantId
  orgUnits : (s'.backend.orgUnits.filter fun u => u.tenantId = tenantId) =
    s.backend.orgUnits.filter fun u => u.tenantId = tenantId
  geofences : (s'.backend.geofences.filter fun g => g.tenantId = tenantId) =
    s.backend.geofences.filter fun g => g.tenantId = tenantId
  users : (s'.users.rows.filter fun u => u.tenantId = tenantId) =
    s.users.rows.filter fun u => u.tenantId = tenantId
  vehicles : (s'.vehicles.rows.filter fun v => v.tenantId = tenantId) =
    s.vehicles.rows.filter fun v => v.tenantId = tenantId
  immobilizers : ∀ deviceId, s'.backend.immobilizer tenantId deviceId =
    s.backend.immobilizer tenantId deviceId
  events : (s'.backend.events.filter fun e => e.tenantId = tenantId) =
    s.backend.events.filter fun e => e.tenantId = tenantId
  alerts : (s'.backend.alerts.filter fun a => a.tenantId = tenantId) =
    s.backend.alerts.filter fun a => a.tenantId = tenantId
  alertConfig : s'.backend.alertConfigs.get tenantId = s.backend.alertConfigs.get tenantId
  subscription : s'.subscriptions.get tenantId = s.subscriptions.get tenantId
  positions : s'.backend.positions = s.backend.positions
  hot : s'.backend.hot = s.backend.hot
  trips : s'.backend.trips = s.backend.trips
  notificationConfigs : s'.notificationConfigs = s.notificationConfigs

theorem Store.SameFor.refl (tenantId : String) (s : Store) : s.SameFor tenantId s :=
  ⟨rfl, rfl, rfl, rfl, rfl, fun _ => rfl, rfl, rfl, rfl, rfl, rfl, rfl, rfl, rfl⟩

theorem Store.SameFor.trans {tenantId : String} {s s' s'' : Store} (h : s.SameFor tenantId s')
    (h' : s'.SameFor tenantId s'') : s.SameFor tenantId s'' :=
  ⟨h'.devices.trans h.devices, h'.orgUnits.trans h.orgUnits, h'.geofences.trans h.geofences,
    h'.users.trans h.users, h'.vehicles.trans h.vehicles,
    fun id => (h'.immobilizers id).trans (h.immobilizers id), h'.events.trans h.events,
    h'.alerts.trans h.alerts, h'.alertConfig.trans h.alertConfig,
    h'.subscription.trans h.subscription, h'.positions.trans h.positions, h'.hot.trans h.hot,
    h'.trips.trans h.trips, h'.notificationConfigs.trans h.notificationConfigs⟩

/-- What is read for a tenant. -/
inductive TenantRead where
  | devicesList (departmentIds : Option (List String))
  | devicesFindById (id : String) (includeDeleted : Bool)
  | devicesListDeleted
  | devicesCount
  | orgUnitsList
  | orgUnitsFindById (id : String)
  | vehiclesList
  | vehiclesFindById (id : String)
  | geofencesList
  | positionsHistory (deviceId start stop : String) (limit : Int)
  | positionsLatest (deviceId : String)
  | hotGetLast (deviceId : String)
  | alertsList (deviceId : Option String) (limit : Int)
  | tripsList (deviceId start stop : String) (limit : Int)
  | alertConfigGet
  | notificationConfigGet
  | usersList
  | usersCount
  | subscriptionGet
  | immobilizerGet (deviceId : String)
  | immobilizerEvents (deviceId : String) (limit : Int)

/-- The request of the read. -/
def TenantRead.op (tenantId : String) : TenantRead → ApiOp
  | .devicesList departmentIds => .devicesList tenantId departmentIds
  | .devicesFindById id includeDeleted => .backend (.devicesFindById tenantId id includeDeleted)
  | .devicesListDeleted => .devicesListDeleted tenantId
  | .devicesCount => .devicesCount tenantId
  | .orgUnitsList => .backend (.orgUnitsList tenantId)
  | .orgUnitsFindById id => .orgUnitsFindById tenantId id
  | .vehiclesList => .vehiclesList tenantId
  | .vehiclesFindById id => .vehiclesFindById tenantId id
  | .geofencesList => .backend (.geofencesList tenantId)
  | .positionsHistory deviceId start stop limit =>
    .positionsHistory tenantId deviceId start stop limit
  | .positionsLatest deviceId => .backend (.positionsLatest tenantId deviceId)
  | .hotGetLast deviceId => .backend (.hotGetLast tenantId deviceId)
  | .alertsList deviceId limit => .alertsList tenantId deviceId limit
  | .tripsList deviceId start stop limit => .tripsList tenantId deviceId start stop limit
  | .alertConfigGet => .backend (.alertConfigGet tenantId)
  | .notificationConfigGet => .notificationConfigGet tenantId
  | .usersList => .usersList tenantId
  | .usersCount => .usersCount tenantId
  | .subscriptionGet => .subscriptionGet tenantId
  | .immobilizerGet deviceId => .backend (.immobilizerGet tenantId deviceId)
  | .immobilizerEvents deviceId limit => .immobilizerEvents tenantId deviceId limit

section Queries

variable {α : Type} {l l' : List α} {p q : α → Bool}

/-- A query that looks at some rows only. -/
theorem filter_congr_of_filter (h : l'.filter q = l.filter q) (hpq : ∀ a, p a = true → q a = true) :
    l'.filter p = l.filter p := by
  have hboth : ∀ l : List α, l.filter p = (l.filter q).filter p := by
    intro l
    rw [List.filter_filter]
    exact List.filter_congr fun a _ => by
      cases hp : p a with
      | false => simp
      | true => simp [hpq a hp]
  rw [hboth l', hboth l, h]

theorem find?_congr_of_filter (h : l'.filter q = l.filter q) (hpq : ∀ a, p a = true → q a = true) :
    l'.find? p = l.find? p := by
  rw [← List.head?_filter, ← List.head?_filter, filter_congr_of_filter h hpq]

end Queries

/-- **All reads of the tenant agree.** -/
theorem same_answer {tenantId : String} {s s' : Store} (h : s.SameFor tenantId s')
    (read : TenantRead) (reply : String) :
    s'.answer reply (read.op tenantId) = s.answer reply (read.op tenantId) := by
  -- each read filters by the tenant first, and the rows of the tenant are the same
  cases read with
  | devicesList departmentIds =>
    exact filter_congr_of_filter h.devices fun d hd => by simp at hd ⊢; exact hd.1
  | devicesFindById id includeDeleted =>
    exact find?_congr_of_filter h.devices fun d hd => by simp at hd ⊢; exact hd.2.1
  | devicesListDeleted =>
    refine congrArg (fun l => List.mergeSort l _) (filter_congr_of_filter h.devices fun d hd => ?_)
    simp at hd ⊢
    exact hd.1
  | devicesCount =>
    refine congrArg List.length (filter_congr_of_filter h.devices fun d hd => ?_)
    simp at hd ⊢
    exact hd.1
  | orgUnitsList => exact h.orgUnits
  | orgUnitsFindById id =>
    exact find?_congr_of_filter h.orgUnits fun u hu => by simp at hu ⊢; exact hu.2
  | vehiclesList => exact h.vehicles
  | vehiclesFindById id =>
    exact find?_congr_of_filter h.vehicles fun v hv => by simp at hv ⊢; exact hv.2
  | geofencesList => exact h.geofences
  | positionsHistory deviceId start stop limit =>
    exact congrArg (fun t => PositionTable.history t tenantId deviceId start stop limit) h.positions
  | positionsLatest deviceId =>
    exact congrArg (fun t => PositionTable.latest t tenantId deviceId) h.positions
  | hotGetLast deviceId => exact congrArg (fun m => JsMap.get m (tenantId, deviceId)) h.hot
  | alertsList deviceId limit =>
    refine congrArg (fun l => slice (List.mergeSort l _) limit)
      (filter_congr_of_filter h.alerts fun a ha => ?_)
    simp [AlertEvent.of] at ha ⊢
    exact ha.1
  | tripsList deviceId start stop limit =>
    exact congrArg (fun l => listTrips l tenantId deviceId start stop limit) h.trips
  | alertConfigGet => exact congrArg (fun c => Option.getD c DEFAULT_ALERT_CONFIG) h.alertConfig
  | notificationConfigGet =>
    exact congrArg (fun m => (JsMap.get m tenantId).getD (emptyNotificationConfig tenantId))
      h.notificationConfigs
  | usersList => exact h.users
  | usersCount => exact congrArg List.length h.users
  | subscriptionGet => exact h.subscription
  | immobilizerGet deviceId => exact h.immobilizers deviceId
  | immobilizerEvents deviceId limit =>
    refine congrArg (fun l => slice (List.mergeSort l _) limit) ?_
    rw [List.filter_reverse, List.filter_reverse]
    refine congrArg List.reverse (filter_congr_of_filter h.events fun e he => ?_)
    simp at he ⊢
    exact he.1

/-! ## Well-formed stores -/

/-- No id that will be drawn is one of these. -/
def Store.Unused (D : ApiDeployment) (s : Store) (ids : List String) : Prop :=
  ∀ id ∈ ids, ∀ n, s.drawn ≤ n → id ≠ D.uuid n

/-- An id that was drawn and is none of these yet. -/
def Store.NewId (D : ApiDeployment) (s : Store) (ids : List String) (id : String) : Prop :=
  id ∉ ids ∧ ∀ n, s.drawn ≤ n → id ≠ D.uuid n

/-- What holds of the stores in every reachable state. -/
structure Store.WellFormed (D : ApiDeployment) (s : Store) : Prop where
  -- A `Map` has no key twice.
  orgUnits : s.backend.orgUnits.Pairwise fun u v => u.id ≠ v.id
  geofences : s.backend.geofences.Pairwise fun g g' => g.id ≠ g'.id
  -- The immobilizer of a device belongs to the tenant of the device.
  immobilizers : ∀ deviceId cfg, s.backend.immobilizers.get deviceId = some cfg →
    ∃ d ∈ s.backend.devices.rows, d.id = deviceId ∧ d.tenantId = cfg.tenantId
  deviceIds : s.Unused D (s.backend.devices.rows.map Device.id)
  orgUnitIds : s.Unused D (s.backend.orgUnits.map OrgUnit.id)
  geofenceIds : s.Unused D (s.backend.geofences.map Geofence.id)
  userIds : s.Unused D (s.users.rows.map User.id)
  vehicleIds : s.Unused D (s.vehicles.rows.map Vehicle.id)

/-! ## Requests of a tenant -/

/-- The request writes for the tenant only. -/
def ApiOp.By (D : ApiDeployment) (tenantId : String) (s : Store) : ApiOp → Prop
  | .devicesCreate d =>
    d.tenantId = tenantId ∧ s.NewId D (s.backend.devices.rows.map Device.id) d.id
  | .devicesUpdate tenant _ _ => tenant = tenantId
  | .devicesSoftDelete tenant _ _ => tenant = tenantId
  | .devicesRestore tenant _ => tenant = tenantId
  | .orgUnitsCreate u =>
    u.tenantId = tenantId ∧ s.NewId D (s.backend.orgUnits.map OrgUnit.id) u.id
  | .orgUnitsSet u => u.tenantId = tenantId ∧
    ∃ v ∈ s.backend.orgUnits, v.id = u.id ∧ v.tenantId = tenantId
  | .orgUnitsRemove tenant _ => tenant = tenantId
  | .usersCreate u => u.tenantId = tenantId ∧ s.NewId D (s.users.rows.map User.id) u.id
  | .usersUpdate id _ => ∀ u, s.users.get id = some u → u.tenantId = tenantId
  | .vehiclesCreate v =>
    v.tenantId = tenantId ∧ s.NewId D (s.vehicles.rows.map Vehicle.id) v.id
  | .vehiclesUpdate tenant _ _ => tenant = tenantId
  | .geofencesCreate g =>
    g.tenantId = tenantId ∧ s.NewId D (s.backend.geofences.map Geofence.id) g.id
  | .geofencesRemove tenant _ => tenant = tenantId
  | .alertsClear tenant _ _ => tenant = tenantId
  | .alertConfigSet tenant _ => tenant = tenantId
  | .subscriptionSet tenant _ => tenant = tenantId
  | .backend (.immobilizerUpsert cfg) => cfg.tenantId = tenantId ∧
    ∃ d ∈ s.backend.devices.rows, d.id = cfg.deviceId ∧ d.tenantId = tenantId
  | .backend (.immobilizerPatch key row _) => row.tenantId = tenantId ∧
    ∃ d ∈ s.backend.devices.rows, d.id = key ∧ d.tenantId = tenantId
  | .backend (.addEvent e) => e.tenantId = tenantId
  -- The services leave these to the telemetry consumer.
  | .backend (.hotSetLast _) => False
  | .backend (.positionsInsertMany _) => False
  | .backend (.alertsInsertMany _) => False
  | .backend (.tripsInsert _) => False
  | _ => True

section Effects

variable {D : ApiDeployment} {s : Store} {mine other : String}

/-- Writing a row of one tenant whose key is not one of another tenant's rows. -/
theorem filter_put_mine {α : Type} {key tenant : α → String} {l : List α} {a : α}
    (hne : other ≠ mine) (ha : tenant a = mine)
    (hold : ∀ b ∈ l, key b = key a → tenant b = mine) :
    ((putRow key l a).filter fun b => tenant b = other) = l.filter fun b => tenant b = other := by
  apply filter_putRow
  · simpa [ha] using hne.symm
  · intro b hb hkey
    simpa [hold b hb hkey] using hne.symm

/-- In a list without repeated keys, a row found under the key of `a` is the only one. -/
theorem eq_of_pairwise {α : Type} {key : α → String} {l : List α}
    (h : l.Pairwise fun a b => key a ≠ key b) {a b : α} (ha : a ∈ l) (hb : b ∈ l)
    (hkey : key a = key b) : a = b :=
  Table.eq_of_key (t := ⟨l, h⟩) ha hb hkey

/-- Writing the device that an operation has found. -/
theorem filter_write {t : DeviceTable} {o : Option Device} (hne : other ≠ mine)
    (ho : ∀ d', o = some d' → ∃ d ∈ t.rows, d.id = d'.id ∧ d.tenantId = mine ∧
      d'.tenantId = mine) :
    ((t.write o).rows.filter fun d => d.tenantId = other) =
      t.rows.filter fun d => d.tenantId = other := by
  cases o with
  | none => rfl
  | some d' =>
    obtain ⟨d, hd, hid, htenant, htenant'⟩ := ho d' rfl
    refine filter_put_mine hne htenant' fun e he heid => ?_
    rw [Table.eq_of_key he hd (heid.trans hid.symm)]
    exact htenant

/-- What the updates of a device find is a row of the tenant with the same id. -/
theorem found_of_update {t : DeviceTable} {id : String} {patch : DevicePatch} {d' : Device}
    (h : t.update mine id patch = some d') :
    ∃ d ∈ t.rows, d.id = d'.id ∧ d.tenantId = mine ∧ d'.tenantId = mine := by
  obtain ⟨d, hfound, rfl⟩ := Option.map_eq_some_iff.mp h
  obtain ⟨hd, -, htenant, -⟩ := DeviceTable.findById_eq_some_iff.mp hfound
  exact ⟨d, hd, rfl, htenant, htenant⟩

theorem found_of_softDelete {t : DeviceTable} {id at' : String} {d' : Device}
    (h : t.softDelete mine id at' = some d') :
    ∃ d ∈ t.rows, d.id = d'.id ∧ d.tenantId = mine ∧ d'.tenantId = mine := by
  obtain ⟨d, hfound, rfl⟩ := Option.map_eq_some_iff.mp h
  obtain ⟨hd, -, htenant, -⟩ := DeviceTable.findById_eq_some_iff.mp hfound
  exact ⟨d, hd, rfl, htenant, htenant⟩

theorem found_of_restore {t : DeviceTable} {id : String} {d' : Device}
    (h : t.restore mine id = some d') :
    ∃ d ∈ t.rows, d.id = d'.id ∧ d.tenantId = mine ∧ d'.tenantId = mine := by
  obtain ⟨d, hfound, rfl⟩ := Option.map_eq_some_iff.mp h
  obtain ⟨hd, -, htenant, -⟩ :=
    DeviceTable.findById_eq_some_iff.mp (Option.filter_eq_some_iff.mp hfound).1
  exact ⟨d, hd, rfl, htenant, htenant⟩

theorem findUnit_eq_some {units : List OrgUnit} {id : String} {u : OrgUnit}
    (h : findUnit units mine id = some u) : u ∈ units ∧ u.id = id ∧ u.tenantId = mine :=
  ⟨List.mem_of_find?_eq_some h, by simpa [findUnit] using List.find?_some h⟩

/-- What is removed with a department are units of its tenant. -/
theorem mem_doomed {units : List OrgUnit} {id x : String} (h : x ∈ doomed units mine id) :
    x = id ∨ ∃ u ∈ units, u.tenantId = mine ∧ u.id = x := by
  unfold doomed at h
  rw [Worklist.mem_closure] at h
  cases Relation.ReflTransGen.cases_tail h with
  | inl h => exact Or.inl h
  | inr h =>
    obtain ⟨y, -, hedge⟩ := h
    simp only [List.mem_filterMap, List.mem_filter, decide_eq_true_eq, Option.map_eq_some_iff,
      Prod.mk.injEq] at hedge
    obtain ⟨u, ⟨hu, htenant⟩, parentId, -, -, hid⟩ := hedge
    exact Or.inr ⟨u, hu, htenant, hid⟩

/-- Writing the immobilizer of a device of one tenant. -/
theorem same_immobilizer {m : JsMap String ImmobilizerConfig} {cfg : ImmobilizerConfig}
    {key : String} (hne : other ≠ mine) (hcfg : cfg.tenantId = mine)
    (hold : ∀ c, m.get key = some c → c.tenantId = mine) (deviceId : String) :
    (((m.set key cfg).get deviceId).filter fun c => c.tenantId = other) =
      (m.get deviceId).filter fun c => c.tenantId = other := by
  by_cases heq : deviceId = key
  · subst heq
    rw [JsMap.get_set_self]
    cases hget : m.get deviceId with
    | none => simp [Option.filter, hcfg, hne.symm]
    | some c => simp [Option.filter, hcfg, hold c hget, hne.symm]
  · rw [JsMap.get_set_of_ne _ _ heq]

/-- **A request of one tenant changes nothing for another one.** -/
theorem same_effect (hne : other ≠ mine) (h : s.WellFormed D) (op : ApiOp) (hby : op.By D mine s) :
    s.SameFor other (s.effect op) := by
  have hsame := Store.SameFor.refl other s
  -- a write of one tenant leaves the rows of the other as they are: for a table, the row that is
  -- written is found within the tenant, or has an id that is not taken
  cases op with
  | devicesCreate d =>
    exact { hsame with
      devices := filter_put_mine hne hby.1 fun e he heid =>
        absurd (List.mem_map.mpr ⟨e, he, heid⟩) hby.2.1 }
  | devicesUpdate tenant id patch =>
    subst hby
    exact { hsame with devices := filter_write hne fun _ hfound => found_of_update hfound }
  | devicesSoftDelete tenant id at' =>
    subst hby
    exact { hsame with devices := filter_write hne fun _ hfound => found_of_softDelete hfound }
  | devicesRestore tenant id =>
    subst hby
    exact { hsame with devices := filter_write hne fun _ hfound => found_of_restore hfound }
  -- the units of the memory are an array, not a table
  | orgUnitsCreate u =>
    exact { hsame with
      orgUnits := filter_put_mine hne hby.1 fun v hv hid =>
        absurd (List.mem_map.mpr ⟨v, hv, hid⟩) hby.2.1 }
  | orgUnitsSet u =>
    obtain ⟨htenant, v, hv, hid, hvtenant⟩ := hby
    refine { hsame with orgUnits := filter_put_mine hne htenant fun w hw hwid => ?_ }
    rw [eq_of_pairwise h.orgUnits hw hv (hwid.trans hid.symm)]
    exact hvtenant
  | orgUnitsRemove tenant id =>
    subst hby
    simp only [Store.effect, removeUnit]
    cases hfound : findUnit s.backend.orgUnits tenant id with
    | none => exact hsame
    | some u =>
      obtain ⟨hu, hid, htenant⟩ := findUnit_eq_some hfound
      refine { hsame with orgUnits := ?_ }
      simp only [Option.map_some, Option.getD_some, List.filter_filter]
      refine List.filter_congr fun v hv => ?_
      by_cases hother : v.tenantId = other
      -- what falls with the unit are units of its own tenant, and ids are unique
      · have hkept : v.id ∉ doomed s.backend.orgUnits tenant id := by
          intro hdoomed
          obtain ⟨w, hw, hwtenant, hwid⟩ : ∃ w ∈ s.backend.orgUnits,
              w.tenantId = tenant ∧ w.id = v.id := by
            cases mem_doomed hdoomed with
            | inl heq => exact ⟨u, hu, htenant, hid.trans heq.symm⟩
            | inr hex => exact hex
          rw [eq_of_pairwise h.orgUnits hw hv hwid] at hwtenant
          exact hne (hother.symm.trans hwtenant)
        simp [hother, hkept]
      · simp [hother]
  | usersCreate u =>
    exact { hsame with
      users := filter_put_mine hne hby.1 fun v hv hid =>
        absurd (List.mem_map.mpr ⟨v, hv, hid⟩) hby.2.1 }
  -- `update` of the users takes an id only, so the caller must have found the user first
  | usersUpdate id patch =>
    simp only [Store.effect]
    cases hfound : s.users.get id with
    | none => exact hsame
    | some u =>
      have htenant := hby u hfound
      refine { hsame with users := filter_put_mine hne (a := patch.apply u) htenant ?_ }
      intro v hv hvid
      rw [Table.eq_of_key hv (Table.get_eq_some_iff.mp hfound).1 hvid]
      exact htenant
  | vehiclesCreate v =>
    exact { hsame with
      vehicles := filter_put_mine hne hby.1 fun w hw hid =>
        absurd (List.mem_map.mpr ⟨w, hw, hid⟩) hby.2.1 }
  | vehiclesUpdate tenant id deviceId =>
    subst hby
    simp only [Store.effect]
    cases hfound : s.vehicles.findById tenant id with
    | none => exact hsame
    | some v =>
      have hv := List.mem_of_find?_eq_some hfound
      have htenant : v.id = id ∧ v.tenantId = tenant := by
        simpa [VehicleTable.findById] using List.find?_some hfound
      refine { hsame with
        vehicles := filter_put_mine hne (a := { v with deviceId }) htenant.2 fun w hw hid => ?_ }
      rw [Table.eq_of_key hw hv hid]
      exact htenant.2
  | geofencesCreate g =>
    exact { hsame with
      geofences := filter_put_mine hne hby.1 fun f hf hid =>
        absurd (List.mem_map.mpr ⟨f, hf, hid⟩) hby.2.1 }
  -- a geofence of the other tenant has another id
  | geofencesRemove tenant id =>
    subst hby
    simp only [Store.effect]
    cases hfound : findGeofence s.backend.geofences tenant id with
    | none => exact hsame
    | some g =>
      have hg := List.mem_of_find?_eq_some hfound
      have htenant : g.id = id ∧ g.tenantId = tenant := by
        simpa [findGeofence] using List.find?_some hfound
      refine { hsame with geofences := ?_ }
      rw [List.filter_filter]
      refine List.filter_congr fun f hf => ?_
      by_cases hother : f.tenantId = other
      · have hid : f.id ≠ id := by
          intro hid
          rw [eq_of_pairwise h.geofences hf hg (hid.trans htenant.1.symm)] at hother
          exact hne (hother.symm.trans htenant.2)
        simp [hother, hid]
      · simp [hother]
  | alertsClear tenant types deviceId =>
    subst hby
    refine { hsame with alerts := ?_ }
    simp only [Store.effect, List.filter_filter]
    refine List.filter_congr fun a _ => ?_
    by_cases hother : a.tenantId = other
    · have hkept : a.cleared tenant types deviceId = false := by
        simp [AlertEvent.cleared, AlertEvent.of, hother, hne]
      simp [hother, hkept]
    · simp [hother]
  | alertConfigSet tenant config =>
    subst hby
    exact { hsame with alertConfig := JsMap.get_set_of_ne _ _ hne }
  | subscriptionSet tenant sub =>
    subst hby
    exact { hsame with subscription := JsMap.get_set_of_ne _ _ hne }
  | backend op =>
    cases op with
    -- settings are kept by device, and the device is of the tenant
    | immobilizerUpsert cfg =>
      obtain ⟨htenant, d, hd, hid, hdtenant⟩ := hby
      refine { hsame with immobilizers := same_immobilizer hne htenant fun c hc => ?_ }
      obtain ⟨e, he, heid, hetenant⟩ := h.immobilizers _ c hc
      rw [← hetenant, Table.eq_of_key he hd (heid.trans hid.symm), hdtenant]
    | immobilizerPatch key row patch =>
      obtain ⟨htenant, d, hd, hid, hdtenant⟩ := hby
      have hpatch : (patch.apply row).tenantId = mine := htenant
      refine { hsame with immobilizers := same_immobilizer hne hpatch fun c hc => ?_ }
      obtain ⟨e, he, heid, hetenant⟩ := h.immobilizers _ c hc
      rw [← hetenant, Table.eq_of_key he hd (heid.trans hid.symm), hdtenant]
    | addEvent e =>
      refine { hsame with events := ?_ }
      have hnot : e.tenantId ≠ other := fun heq => hne (heq.symm.trans hby)
      simp [Store.effect, Backend.effect, hnot]
    -- no call of the API writes telemetry
    | hotSetLast p => exact hby.elim
    | positionsInsertMany ps => exact hby.elim
    | alertsInsertMany events => exact hby.elim
    | tripsInsert trip => exact hby.elim
    | _ => exact { hsame with devices := rfl }
  | _ => exact { hsame with devices := rfl }

/-- A row is written under an id that may be there. -/
theorem unused_putRow {α : Type} {key : α → String} {l : List α} {a : α}
    (h : s.Unused D (l.map key)) (ha : ∀ n, s.drawn ≤ n → key a ≠ D.uuid n) :
    s.Unused D ((putRow key l a).map key) := by
  intro id hid n hn
  obtain ⟨b, hb, rfl⟩ := List.mem_map.mp hid
  cases mem_putRow.mp hb with
  | inl hb => exact hb ▸ ha n hn
  | inr hb => exact h _ (List.mem_map.mpr ⟨b, hb.1, rfl⟩) n hn

/-- A row that is there is replaced. -/
theorem unused_replace {α : Type} {key : α → String} {l : List α} {a b : α}
    (h : s.Unused D (l.map key)) (hb : b ∈ l) (hkey : key a = key b) :
    s.Unused D ((putRow key l a).map key) :=
  unused_putRow h fun n hn => hkey ▸ h _ (List.mem_map.mpr ⟨b, hb, rfl⟩) n hn

theorem unused_filter {α : Type} {key : α → String} {l : List α} {p : α → Bool}
    (h : s.Unused D (l.map key)) : s.Unused D ((l.filter p).map key) := by
  intro id hid
  obtain ⟨b, hb, rfl⟩ := List.mem_map.mp hid
  exact h _ (List.mem_map.mpr ⟨b, (List.mem_filter.mp hb).1, rfl⟩)

/-- Writing a device: every device that was there still is, with its tenant. -/
theorem device_put {t : DeviceTable} {d' d : Device}
    (hkeep : ∀ e ∈ t.rows, e.id = d'.id → e.tenantId = d'.tenantId) (hd : d ∈ t.rows) :
    ∃ e ∈ (t.put d').rows, e.id = d.id ∧ e.tenantId = d.tenantId := by
  by_cases hid : d.id = d'.id
  · exact ⟨d', Table.mem_put.mpr (Or.inl rfl), hid.symm, (hkeep d hd hid).symm⟩
  · exact ⟨d, Table.mem_put.mpr (Or.inr ⟨hd, hid⟩), rfl, rfl⟩

/-- A device that an operation has found is written. -/
theorem wellFormed_write (h : s.WellFormed D) {o : Option Device}
    (ho : ∀ d', o = some d' → ∃ d ∈ s.backend.devices.rows, d.id = d'.id ∧ d.tenantId = mine ∧
      d'.tenantId = mine) :
    ({ s with backend.devices := s.backend.devices.write o } : Store).WellFormed D := by
  cases o with
  | none => exact h
  | some d' =>
    obtain ⟨d, hd, hid, htenant, htenant'⟩ := ho d' rfl
    refine { h with
      immobilizers := fun deviceId cfg hcfg => ?_
      deviceIds := unused_replace h.deviceIds hd hid.symm }
    obtain ⟨e, he, heid, hetenant⟩ := h.immobilizers deviceId cfg hcfg
    have hkeep : ∀ e ∈ s.backend.devices.rows, e.id = d'.id → e.tenantId = d'.tenantId := by
      intro e he heid
      rw [Table.eq_of_key he hd (heid.trans hid.symm), htenant, htenant']
    obtain ⟨f, hf, hfid, hftenant⟩ := device_put hkeep he
    exact ⟨f, hf, hfid.trans heid, hftenant.trans hetenant⟩

/-- **The requests of the services keep the stores well-formed.** -/
theorem wellFormed_effect (h : s.WellFormed D) (op : ApiOp) (hby : op.By D mine s) :
    (s.effect op).WellFormed D := by
  -- what is written anew has an id that is not taken; the other writes keep the ids
  cases op with
  | devicesCreate d =>
    refine { h with
      immobilizers := fun deviceId cfg hcfg => ?_
      deviceIds := unused_putRow h.deviceIds hby.2.2 }
    obtain ⟨e, he, heid, hetenant⟩ := h.immobilizers deviceId cfg hcfg
    -- settings of an immobilizer keep their device, since no device loses its id
    have hkeep : ∀ e ∈ s.backend.devices.rows, e.id = Device.id { d with deletedAt := none } →
        e.tenantId = Device.tenantId { d with deletedAt := none } :=
      fun e he heid => absurd (List.mem_map.mpr ⟨e, he, heid⟩) hby.2.1
    obtain ⟨f, hf, hfid, hftenant⟩ := device_put hkeep he
    exact ⟨f, hf, hfid.trans heid, hftenant.trans hetenant⟩
  | devicesUpdate tenant id patch =>
    exact wellFormed_write h fun _ hfound => found_of_update hfound
  | devicesSoftDelete tenant id at' =>
    exact wellFormed_write h fun _ hfound => found_of_softDelete hfound
  | devicesRestore tenant id =>
    exact wellFormed_write h fun _ hfound => found_of_restore hfound
  | orgUnitsCreate u =>
    exact { h with
      orgUnits := pairwise_putRow h.orgUnits u
      orgUnitIds := unused_putRow h.orgUnitIds hby.2.2 }
  | orgUnitsSet u =>
    obtain ⟨-, v, hv, hid, -⟩ := hby
    exact { h with
      orgUnits := pairwise_putRow h.orgUnits u
      orgUnitIds := unused_replace h.orgUnitIds hv hid.symm }
  | orgUnitsRemove tenant id =>
    simp only [Store.effect, removeUnit]
    cases findUnit s.backend.orgUnits tenant id with
    | none => exact h
    | some u =>
      exact { h with
        orgUnits := h.orgUnits.filter _
        orgUnitIds := unused_filter h.orgUnitIds }
  | usersCreate u => exact { h with userIds := unused_putRow h.userIds hby.2.2 }
  | usersUpdate id patch =>
    simp only [Store.effect]
    cases hfound : s.users.get id with
    | none => exact h
    | some u =>
      exact { h with
        userIds := unused_replace h.userIds (Table.get_eq_some_iff.mp hfound).1 rfl }
  | vehiclesCreate v => exact { h with vehicleIds := unused_putRow h.vehicleIds hby.2.2 }
  | vehiclesUpdate tenant id deviceId =>
    simp only [Store.effect]
    cases hfound : s.vehicles.findById tenant id with
    | none => exact h
    | some v =>
      exact { h with
        vehicleIds := unused_replace h.vehicleIds (List.mem_of_find?_eq_some hfound) rfl }
  | geofencesCreate g =>
    exact { h with
      geofences := pairwise_putRow h.geofences g
      geofenceIds := unused_putRow h.geofenceIds hby.2.2 }
  | geofencesRemove tenant id =>
    simp only [Store.effect]
    cases findGeofence s.backend.geofences tenant id with
    | none => exact h
    | some g =>
      exact { h with
        geofences := h.geofences.filter _
        geofenceIds := unused_filter h.geofenceIds }
  | backend op =>
    cases op with
    | immobilizerUpsert cfg =>
      obtain ⟨htenant, d, hd, hid, hdtenant⟩ := hby
      refine { h with immobilizers := fun deviceId c hc => ?_ }
      by_cases heq : deviceId = cfg.deviceId
      · subst heq
        obtain rfl := Option.some_inj.mp ((JsMap.get_set_self _ _ _).symm.trans hc)
        exact ⟨d, hd, hid, hdtenant.trans htenant.symm⟩
      · exact h.immobilizers deviceId c ((JsMap.get_set_of_ne _ _ heq).symm.trans hc)
    | immobilizerPatch key row patch =>
      obtain ⟨htenant, d, hd, hid, hdtenant⟩ := hby
      refine { h with immobilizers := fun deviceId c hc => ?_ }
      by_cases heq : deviceId = key
      · subst heq
        obtain rfl := Option.some_inj.mp ((JsMap.get_set_self _ _ _).symm.trans hc)
        exact ⟨d, hd, hid, hdtenant.trans htenant.symm⟩
      · exact h.immobilizers deviceId c ((JsMap.get_set_of_ne _ _ heq).symm.trans hc)
    | _ => exact { h with orgUnits := h.orgUnits }
  | _ => exact { h with orgUnits := h.orgUnits }

/-- Drawing an id keeps the stores well-formed. -/
theorem wellFormed_drawn (h : s.WellFormed D) :
    ({ s with drawn := s.drawn + 1 } : Store).WellFormed D := by
  have hmono : ∀ ids, s.Unused D ids → ({ s with drawn := s.drawn + 1 } : Store).Unused D ids :=
    fun ids hids id hid n hn => hids id hid n (Nat.le_of_succ_le hn)
  exact { h with
    deviceIds := hmono _ h.deviceIds
    orgUnitIds := hmono _ h.orgUnitIds
    geofenceIds := hmono _ h.geofenceIds
    userIds := hmono _ h.userIds
    vehicleIds := hmono _ h.vehicleIds }

/-- The id that is drawn is new. -/
theorem newId_of_unused {ids : List String} (h : s.Unused D ids) :
    ({ s with drawn := s.drawn + 1 } : Store).NewId D ids (D.uuid s.drawn) := by
  refine ⟨fun hid => h _ hid s.drawn le_rfl rfl, fun n hn heq => ?_⟩
  have hdrawn : s.drawn = n := D.fresh heq
  simp only at hn
  omega

end Effects

end FleetTracking.ControlPlane
