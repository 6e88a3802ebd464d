import FleetTracking.ControlPlane.Devices

/-!
# What a User of a Department May Write

The operations on devices look the device up, check its department, sometimes check a second
department it is to be moved to, and write. Whatever the departments look like, and whatever
the repositories do, an operation writes at most devices the user may access, and leaves them
where the user may access them: for a user of a department, in its subtree.

- `Framed`: what may differ between two states of the devices.
- `frame_call`: every operation, whatever the outcomes of its requests.
- `write_frame`: the same for operations run to completion.
-/

namespace FleetTracking.ControlPlane

open Async

/-- The device is one of the tenant, in one of the departments, if the scope is some. -/
def Device.within (d : Device) (tenantId : String) (scope : Option (List String)) : Prop :=
  d.tenantId = tenantId ∧
    ∀ ids, scope = some ids → ∃ departmentId ∈ ids, d.departmentId = some departmentId

/-- From `t` to `t'`, only devices of the tenant and the departments are written. -/
def DeviceTable.Framed (tenantId : String) (scope : Option (List String)) (t t' : DeviceTable) :
    Prop :=
  ∀ id, t'.get id = t.get id ∨
    ∃ d', t'.get id = some d' ∧ d'.within tenantId scope ∧
      ∀ d, t.get id = some d → d.within tenantId scope

namespace DeviceTable

variable {t : DeviceTable} {d : Device} {tenantId : String} {scope : Option (List String)}

theorem Framed.refl (tenantId : String) (scope : Option (List String)) (t : DeviceTable) :
    t.Framed tenantId scope t := fun _ => Or.inl rfl

/-- Writing one device of the departments. -/
theorem framed_put (hnew : d.within tenantId scope)
    (hold : ∀ e ∈ t.rows, e.id = d.id → e.within tenantId scope) :
    t.Framed tenantId scope (t.put d) := by
  intro id
  by_cases hid : id = d.id
  · subst hid
    refine Or.inr ⟨d, Table.get_put_self, hnew, fun e he => ?_⟩
    obtain ⟨hmem, hkey⟩ := Table.get_eq_some_iff.mp he
    exact hold e hmem hkey
  · exact Or.inl (Table.get_put_of_ne hid)

/-- Replacing one device of the departments. -/
theorem framed_replace (hd : d ∈ t.rows) (hold : d.within tenantId scope) (d' : Device)
    (hid : d'.id = d.id) (hnew : d'.within tenantId scope) : t.Framed tenantId scope (t.put d') := by
  refine framed_put hnew fun e he heid => ?_
  rw [Table.eq_of_key he hd (heid.trans hid)]
  exact hold

end DeviceTable

section Frame

variable {D : ApiDeployment} {may : Outcome → Prop} {s : Store} {user : AuthUser}
  {scope : Option (List String)}

/-- What an operation started in `s` may leave behind, whatever its result. -/
structure Store.Within (s : Store) (user : AuthUser) (scope : Option (List String))
    (s' : Store) : Prop where
  framed : s.backend.devices.Framed user.tenantId scope s'.backend.devices
  orgUnits : s'.backend.orgUnits = s.backend.orgUnits
  users : s'.users = s.users

theorem within_refl : s.Within user scope s := ⟨DeviceTable.Framed.refl _ _ _, rfl, rfl⟩

/-- A device that passes the access check is one the user may access. -/
theorem within_of_scoped {id : String} {includeDeleted : Bool} {d : Device}
    (hscope : user.scope s.backend.orgUnits = scope)
    (h : s.scoped user id includeDeleted = some d) : d.within user.tenantId scope := by
  obtain ⟨hfound, hin⟩ := Option.filter_eq_some_iff.mp h
  refine ⟨(DeviceTable.findById_eq_some_iff.mp hfound).2.2.1, fun ids hids => ?_⟩
  rw [hscope, hids] at hin
  cases hdep : d.departmentId with
  | none => simp [outOfScope, hdep] at hin
  | some departmentId =>
    refine ⟨departmentId, ?_, rfl⟩
    simpa [outOfScope, hdep] using hin

/-- A target department that passes the check is one the user may access. -/
theorem mem_of_mayAssign {target : Option String} (hscope : user.scope s.backend.orgUnits = scope)
    (h : s.mayAssign user target) (ids : List String) (hids : scope = some ids) :
    ∃ departmentId ∈ ids, target = some departmentId := by
  cases target with
  | none =>
    have hnone : user.scope s.backend.orgUnits = none := by
      unfold AuthUser.scope
      rw [h, Option.map_none]
    rw [← hscope, hnone] at hids
    cases hids
  | some target => exact ⟨target, h.2 ids (hscope.trans hids), rfl⟩

/-! ## Operations -/

/-- Replacing a device that has passed the access check. -/
theorem framed_scoped {id : String} {includeDeleted : Bool} {d : Device}
    (hscope : user.scope s.backend.orgUnits = scope)
    (hscoped : s.scoped user id includeDeleted = some d) (d' : Device) (hid : d'.id = d.id)
    (hnew : d'.within user.tenantId scope) :
    s.backend.devices.Framed user.tenantId scope (s.backend.devices.put d') := by
  have hd := (DeviceTable.findById_eq_some_iff.mp (Option.filter_eq_some_iff.mp hscoped).1).1
  exact DeviceTable.framed_replace hd (within_of_scoped hscope hscoped) d' hid hnew

/-- A field of a device that has passed the access check is set. -/
theorem frame_updateFound {id : String} {d : Device} {f : Device → Api Unit}
    (hscope : user.scope s.backend.orgUnits = scope) (hscoped : s.scoped user id false = some d)
    (patch : DevicePatch) (hnew : (patch.apply d).within user.tenantId scope)
    (hok : s.backend.devices.Framed user.tenantId scope (s.backend.devices.put (patch.apply d)) →
      Store.Ends D may (fun _ => s.Within user scope) (f (patch.apply d))
        { s with backend.devices := s.backend.devices.put (patch.apply d) }) :
    Store.Ends D may (fun _ => s.Within user scope)
      (DevicesService.updateFound user id patch >>= f) s := by
  obtain ⟨hfound, -⟩ := Option.filter_eq_some_iff.mp hscoped
  have hframed := framed_scoped hscope hscoped (patch.apply d) rfl hnew
  refine ends_updateFound (fun d' hfound' => ?_) (fun _ => within_refl) fun d' e hfound' _ => ?_
  · obtain rfl : d = d' := Option.some_inj.mp (hfound.symm.trans hfound')
    exact hok hframed
  · obtain rfl : d = d' := Option.some_inj.mp (hfound.symm.trans hfound')
    exact ⟨hframed, rfl, rfl⟩

theorem frame_provision {imei model : String} {target : Option (Option String)}
    {name : Option String} {assetType : AssetType}
    (hscope : user.scope s.backend.orgUnits = scope)
    (hfresh : ∀ d ∈ s.backend.devices.rows, d.id ≠ D.uuid s.drawn) :
    Store.Ends D may (fun _ => s.Within user scope)
      ((DeviceCall.provision imei model target name assetType).code user) s := by
  simp only [DeviceCall.code, DevicesService.provision, BillingService.assertCanAddDevice,
    bind_assoc]
  refine ends_read rfl rfl (fun _ => ?_) fun _ _ _ => within_refl
  simp only [Store.answer, Backend.answer]
  cases s.backend.devices.findByImei imei with
  | some d => exact within_refl
  | none =>
    simp only [bind_assoc, pure_bind]
    refine ends_assertCanAdd ?_ fun _ => within_refl
    refine ends_assertDepartmentInScope (fun hmay => ?_) fun _ => within_refl
    refine ends_step ?_
    -- a fresh row in a department that the caller may assign
    let created : Device := ⟨D.uuid s.drawn, user.tenantId, imei, name, model, assetType,
      .provisioned, none, target.getD user.departmentId, none⟩
    have hframed : s.backend.devices.Framed user.tenantId scope (s.backend.devices.put created) :=
      DeviceTable.framed_put ⟨rfl, mem_of_mayAssign hscope hmay⟩
        fun e he hid => absurd hid (hfresh e he)
    refine ends_write rfl (fun _ => ?_) (fun _ _ => ⟨.refl _ _ _, rfl, rfl⟩)
      fun _ _ => ⟨hframed, rfl, rfl⟩
    exact ends_write rfl (fun _ => ⟨hframed, rfl, rfl⟩) (fun _ _ => ⟨hframed, rfl, rfl⟩)
      fun _ _ => ⟨hframed, rfl, rfl⟩

theorem frame_setStatus {id : String} {status : DeviceStatus}
    (hscope : user.scope s.backend.orgUnits = scope) :
    Store.Ends D may (fun _ => s.Within user scope)
      ((DeviceCall.setStatus id status).code user) s := by
  simp only [DeviceCall.code, DevicesService.setStatus, DevicesService.get, bind_assoc]
  refine ends_getScoped (fun d hscoped => ?_) fun _ => within_refl
  have hwithin := within_of_scoped hscope hscoped
  refine frame_updateFound hscope hscoped { status := some status } hwithin fun hframed => ?_
  split
  · simp only [bind_assoc, pure_bind]
    exact ends_write rfl (fun _ => ⟨hframed, rfl, rfl⟩) (fun _ _ => ⟨hframed, rfl, rfl⟩)
      fun _ _ => ⟨hframed, rfl, rfl⟩
  · simp only [bind_assoc, pure_bind]
    exact ends_write rfl (fun _ => ⟨hframed, rfl, rfl⟩) (fun _ _ => ⟨hframed, rfl, rfl⟩)
      fun _ _ => ⟨hframed, rfl, rfl⟩

theorem frame_remove {id : String} (hscope : user.scope s.backend.orgUnits = scope) :
    Store.Ends D may (fun _ => s.Within user scope) ((DeviceCall.remove id).code user) s := by
  simp only [DeviceCall.code, DevicesService.remove, DevicesService.get, nowText,
    Api.lift_bind, Api.lift_pure, bind_assoc, pure_bind]
  refine ends_getScoped (fun d hscoped => ?_) fun _ => within_refl
  refine ends_step ?_
  obtain ⟨hfound, -⟩ := Option.filter_eq_some_iff.mp hscoped
  let deleted : Device := { d with deletedAt := some (JsDate.isoText s.backend.now) }
  have hdeleted : s.backend.devices.softDelete user.tenantId id (JsDate.isoText s.backend.now) =
      some deleted := by
    rw [DeviceTable.softDelete, hfound, Option.map_some]
  have hframed : s.backend.devices.Framed user.tenantId scope (s.backend.devices.write
      (s.backend.devices.softDelete user.tenantId id (JsDate.isoText s.backend.now))) := by
    have hwithin := within_of_scoped hscope hscoped
    rw [hdeleted]
    exact framed_scoped hscope hscoped deleted rfl hwithin
  refine ends_write rfl (fun _ => ?_) (fun _ _ => ⟨.refl _ _ _, rfl, rfl⟩)
    fun _ _ => ⟨hframed, rfl, rfl⟩
  exact ends_write rfl (fun _ => ⟨hframed, rfl, rfl⟩) (fun _ _ => ⟨hframed, rfl, rfl⟩)
      fun _ _ => ⟨hframed, rfl, rfl⟩

/-- What follows the write of `restore` writes no devices. -/
theorem frame_welcome {id : String} {s₁ : Store} (h : s.Within user scope s₁) :
    Store.Ends D may (fun _ => s.Within user scope)
      (DevicesService.welcome user id >>= fun _ => pure ()) s₁ := by
  simp only [DevicesService.welcome, bind_assoc]
  refine ends_read rfl rfl (fun _ => ?_) fun _ _ _ => h
  split
  · exact h
  · split
    · simp only [bind_assoc, pure_bind]
      exact ends_write rfl (fun _ => ⟨h.framed, h.orgUnits, h.users⟩) (fun _ _ => h)
        fun _ _ => ⟨h.framed, h.orgUnits, h.users⟩
    · exact ⟨h.framed, h.orgUnits, h.users⟩

theorem frame_restore {id : String} (hscope : user.scope s.backend.orgUnits = scope) :
    Store.Ends D may (fun _ => s.Within user scope) ((DeviceCall.restore id).code user) s := by
  simp only [DeviceCall.code, DevicesService.restore, BillingService.assertCanAddDevice,
    bind_assoc]
  refine ends_read rfl rfl (fun _ => ?_) fun _ _ _ => within_refl
  simp only [Store.answer, Backend.answer]
  cases hfound : (s.backend.devices.findById user.tenantId id true).filter
      fun d => d.deletedAt ≠ none with
  | none => exact within_refl
  | some d =>
    obtain ⟨hfound, hdeleted⟩ := Option.filter_eq_some_iff.mp hfound
    simp only [bind_assoc]
    refine ends_scopeFor ?_ fun _ _ _ => within_refl
    split
    case isTrue => exact within_refl
    case isFalse hin =>
      -- the row lies in the scope: the service has just looked
      have hscoped : s.scoped user id true = some d :=
        Option.filter_eq_some_iff.mpr ⟨hfound, by simpa using hin⟩
      have hwithin := within_of_scoped hscope hscoped
      have hframed : s.backend.devices.Framed user.tenantId scope
          (s.backend.devices.write (s.backend.devices.restore user.tenantId id)) := by
        rw [DeviceTable.restore_eq hfound (by simpa using hdeleted)]
        split
        · exact framed_scoped hscope hscoped { d with deletedAt := none } rfl hwithin
        · exact DeviceTable.Framed.refl _ _ _
      simp only [bind_assoc]
      refine ends_assertCanAdd ?_ fun _ => within_refl
      refine ends_write rfl (fun _ => ?_) (fun _ _ => within_refl) fun _ _ => ⟨hframed, rfl, rfl⟩
      split
      · exact frame_welcome ⟨hframed, rfl, rfl⟩
      · exact ⟨hframed, rfl, rfl⟩

/-- **An operation writes only devices of the user's departments**, whatever the outcomes of its
requests. -/
theorem frame_call (hscope : user.scope s.backend.orgUnits = scope)
    (hfresh : ∀ d ∈ s.backend.devices.rows, d.id ≠ D.uuid s.drawn) (call : DeviceCall) :
    Store.Ends D may (fun _ => s.Within user scope) (call.code user) s := by
  -- each service reads its device in the scope and writes that row alone
  cases call with
  | provision imei model target name assetType => exact frame_provision hscope hfresh
  | rename id name =>
    simp only [DeviceCall.code, DevicesService.rename, DevicesService.get, bind_assoc]
    refine ends_getScoped (fun d hscoped => ?_) fun _ => within_refl
    have hwithin := within_of_scoped hscope hscoped
    exact frame_updateFound hscope hscoped { name := some name } hwithin
      fun hframed => ⟨hframed, rfl, rfl⟩
  | setAssetType id assetType =>
    simp only [DeviceCall.code, DevicesService.setAssetType, DevicesService.get, bind_assoc]
    refine ends_getScoped (fun d hscoped => ?_) fun _ => within_refl
    have hwithin := within_of_scoped hscope hscoped
    exact frame_updateFound hscope hscoped { assetType := some assetType } hwithin
      fun hframed => ⟨hframed, rfl, rfl⟩
  | setStatus id status => exact frame_setStatus hscope
  | assignDepartment id target =>
    simp only [DeviceCall.code, DevicesService.assignDepartment, DevicesService.get, bind_assoc]
    refine ends_getScoped (fun d hscoped => ?_) fun _ => within_refl
    refine ends_assertDepartmentInScope (fun hmay => ?_) fun _ => within_refl
    exact frame_updateFound hscope hscoped { departmentId := some target }
      ⟨(within_of_scoped hscope hscoped).1, mem_of_mayAssign hscope hmay⟩
      fun hframed => ⟨hframed, rfl, rfl⟩
  | remove id => exact frame_remove hscope
  | restore id => exact frame_restore hscope

end Frame

/-! ## Operations run to completion -/

/-- The departments a user of a department may access. -/
theorem scope_of_departmentId {user : AuthUser} {departmentId : String} {units : List OrgUnit}
    (hdep : user.departmentId = some departmentId) (hne : departmentId ≠ "") :
    user.scope units =
      some (descendantIds (units.filter fun u => u.tenantId = user.tenantId) departmentId) := by
  simp [AuthUser.scope, hdep, truthy, hne, Option.filter]

/-- **A user of a department writes only inside its subtree.** Every device an operation creates
or changes is afterwards one of the user's tenant and subtree, and was so before if it was there
before; every other device is as it was. -/
theorem write_frame (D : ApiDeployment) (s s' : Store) (user : AuthUser) (departmentId : String)
    (hdep : user.departmentId = some departmentId) (hne : departmentId ≠ "")
    (hfresh : ∀ d ∈ s.backend.devices.rows, d.id ≠ D.uuid s.drawn) (call : DeviceCall)
    (ω : Nat → Outcome) (r : Except ApiError Unit)
    (hcall : s.complete D ω (call.code user) = some (r, s')) :
    s.backend.devices.Framed user.tenantId
      (some (descendantIds (s.backend.orgUnits.filter fun u => u.tenantId = user.tenantId)
        departmentId)) s'.backend.devices := by
  have hframe : Store.Ends D (fun _ => True) (fun _ => s.Within user _) (call.code user) s :=
    frame_call (scope_of_departmentId hdep hne) hfresh call
  exact (hframe.of_complete (fun _ => trivial) hcall).framed

/-- A tenant with a department in another one, and a device in the inner one. -/
def sampleTenant : Store :=
  Store.new { Backend.new (Table.empty.put ⟨"van", "acme", "356307042441013", none, "FTC927", .car,
      .active, none, some "depot", none⟩) with
    orgUnits := [⟨"north", "acme", "North", none⟩, ⟨"depot", "acme", "Depot", some "north"⟩] }

def sampleOperator : AuthUser := ⟨"u", "acme", .operator, "ops@acme.test", some "north"⟩

/-- The operator of the outer department renames the device. -/
theorem sample_rename_framed : ∃ s', sampleTenant.complete sampleApi (fun _ => .resolves "")
      ((DeviceCall.rename "van" (some "Van 3")).code sampleOperator) = some (.ok (), s') ∧
    sampleTenant.backend.devices.Framed "acme"
      (some (descendantIds sampleTenant.backend.orgUnits "north")) s'.backend.devices := by
  refine ⟨_, rfl, ?_⟩
  exact write_frame sampleApi sampleTenant _ sampleOperator "north" rfl (by decide) (by decide)
    (.rename "van" (some "Van 3")) (fun _ => .resolves "") (.ok ()) rfl

/-- A user whose department is the empty string is a user of the whole tenant: it renames a
device that has no department. -/
theorem empty_department_not_framed : ∃ s', (Store.new (Backend.new (Table.empty.put ⟨"van", "acme",
      "356307042441013", none, "FTC927", .car, .active, none, none, none⟩))).complete sampleApi
        (fun _ => .resolves "") ((DeviceCall.rename "van" (some "Van 3")).code
          ⟨"u", "acme", .operator, "ops@acme.test", some ""⟩) = some (.ok (), s') ∧
    ¬ DeviceTable.Framed "acme" (some (descendantIds [] "")) (Table.empty.put ⟨"van", "acme",
      "356307042441013", none, "FTC927", .car, .active, none, none, none⟩) s'.backend.devices := by
  refine ⟨_, rfl, fun h => ?_⟩
  cases h "van" with
  | inl hsame => exact absurd hsame (by decide)
  | inr hin =>
    obtain ⟨d', hget, ⟨-, hin⟩, -⟩ := hin
    obtain ⟨departmentId, -, hdep⟩ := hin _ rfl
    obtain rfl := Option.some_inj.mp hget
    cases hdep

end FleetTracking.ControlPlane
