import FleetTracking.ControlPlane.Account

/-!
# Deleting a Department

On Postgres the departments below go with a department, and the users and devices of all of
them are left without one. A user without a department sees the whole tenant.

1. `Store.pgRemoveUnit`, `Store.pgWorld`: the repositories on Postgres, as far as they differ.
2. `delete_narrows_iff`: exactly when no user sees more afterwards.
3. `memory_delete_narrows`: with the in-memory repositories no user ever does.
-/

namespace FleetTracking.ControlPlane

open Async

/-! ## Postgres -/

/-- `parent_id REFERENCES org_unit(id) ON DELETE CASCADE`: the departments that go with `id`. -/
def cascade (units : List OrgUnit) (id : String) : List String :=
  Worklist.closure (units.filterMap fun u => u.parentId.map fun parentId => (parentId, u.id)) id

/-- `department_id REFERENCES org_unit(id) ON DELETE SET NULL`. -/
def setNull (doomed : List String) (departmentId : Option String) : Option String :=
  departmentId.filter fun x => x ∉ doomed

/-- A device, when departments are deleted. -/
def Device.without (d : Device) (doomed : List String) : Device :=
  { d with departmentId := setNull doomed d.departmentId }

/-- A user, when departments are deleted. -/
def User.without (u : User) (doomed : List String) : User :=
  { u with departmentId := setNull doomed u.departmentId }

/-- `DELETE FROM org_unit WHERE tenant_id=$1 AND id=$2`. -/
def Store.pgRemoveUnit (s : Store) (tenantId id : String) : Store :=
  match findUnit s.backend.orgUnits tenantId id with
  | none => s
  | some _ =>
    let doomed := cascade s.backend.orgUnits id
    { s with
      backend.orgUnits := s.backend.orgUnits.filter fun u => u.id ∉ doomed
      backend.devices := s.backend.devices.mapRows (fun d => d.without doomed) fun _ => rfl
      users := s.users.mapRows (fun u => u.without doomed) fun _ => rfl }

/-- The effect of a request, on Postgres. -/
def Store.pgEffect (s : Store) : ApiOp → Store
  | .orgUnitsRemove tenantId id => s.pgRemoveUnit tenantId id
  | op => s.effect op

/-- The services of the API against Postgres. -/
def Store.pgWorld (D : ApiDeployment) : World apiSig Nat Unit Store Outcome where
  settle i _ op x s :=
    some (if x.takesEffect then (s.noteRead i op).pgEffect op else s.noteRead i op,
      (s.settle i op x).2)
  act _ _ a s := s.act D a

/-- `Store.complete` on Postgres. -/
def Store.pgComplete {α : Type} (D : ApiDeployment) (ω : Nat → Outcome) (x : Api α) (s : Store) :
    Option (Except ApiError α × Store) :=
  ((Store.pgWorld D).exec 0 () ω x 0 s).map fun out => (out.1, out.2.2)

/-! ## What users see -/

/-- The devices that the user is shown, with a token issued now. -/
def Store.shown (D : ApiDeployment) (s : Store) (u : User) :
    Option (Except ApiError (List Device)) :=
  (s.pgComplete D (fun _ => .resolves "") (DevicesService.list (AuthService.accessToken u))).map
    Prod.fst

/-- The user may access every live device of its tenant. -/
def Store.SeesAll (s : Store) (u : User) : Prop :=
  ∀ d ∈ s.backend.devices.rows, d.tenantId = u.tenantId → d.deletedAt = none →
    d.within u.tenantId ((AuthService.accessToken u).scope s.backend.orgUnits)

section Delete

variable {D : ApiDeployment} {s s' : Store} {u : User}

theorem shown_eq : s.shown D u = some (.ok (s.backend.devices.list u.tenantId
    ((AuthService.accessToken u).scope s.backend.orgUnits))) := by
  unfold Store.shown Store.pgComplete DevicesService.list scopeFor AuthUser.scope
  cases (AuthService.accessToken u).departmentId.filter truthy with
  | none => rfl
  | some departmentId => rfl

theorem mem_shown {ds : List Device} (h : s.shown D u = some (.ok ds)) {d : Device} :
    d ∈ ds ↔ d ∈ s.backend.devices.rows ∧
      d.within u.tenantId ((AuthService.accessToken u).scope s.backend.orgUnits) ∧
      d.deletedAt = none := by
  obtain rfl := Except.ok.inj (Option.some_inj.mp (shown_eq.symm.trans h))
  exact DeviceTable.mem_list

/-- A delete that returns has found the department. -/
theorem found_of_delete {tenantId id : String} {ω : Nat → Outcome}
    (hdelete : s.pgComplete D ω (DepartmentsService.remove tenantId id) = some (.ok (), s')) :
    (findUnit s.backend.orgUnits tenantId id).isSome ∧ s' = s.pgRemoveUnit tenantId id := by
  have hends : (Store.pgWorld D).Ends 0 () (fun _ => True) (fun r s' => r = .ok () →
      (findUnit s.backend.orgUnits tenantId id).isSome ∧ s' = s.pgRemoveUnit tenantId id)
      (DepartmentsService.remove tenantId id) s := by
    refine ends_bind.mpr (ends_perform.mpr fun x _ out hout => ?_)
    obtain rfl := Option.some_inj.mp hout
    cases x with
    | rejects e applied => exact fun h => by cases h
    | resolves reply =>
      show (Store.pgWorld D).Ends 0 () _ _ (if (removeUnit s.backend.orgUnits tenantId id).isSome
        then pure () else throw _) (s.pgRemoveUnit tenantId id)
      split
      case isTrue hremoved =>
        exact fun _ => ⟨by simpa [removeUnit] using hremoved, rfl⟩
      case isFalse => exact fun h => by cases h
  obtain ⟨⟨r, n, s''⟩, hexec, hout⟩ := Option.map_eq_some_iff.mp hdelete
  cases hout
  exact Ends.of_exec hends (fun _ => trivial) hexec rfl

/-- With fewer departments a token gives access to no more. -/
theorem within_of_subset {token : AuthUser} {units units' : List OrgUnit} (h : units' ⊆ units)
    {d : Device} {tenantId : String} (hin : d.within tenantId (token.scope units')) :
    d.within tenantId (token.scope units) := by
  refine ⟨hin.1, fun ids hids => ?_⟩
  obtain ⟨root, hroot, rfl⟩ := Option.map_eq_some_iff.mp hids
  obtain ⟨x, hx, hdep⟩ := hin.2 (descendantIds (units'.filter fun v => v.tenantId = token.tenantId)
    root) (by rw [AuthUser.scope, hroot, Option.map_some])
  refine ⟨x, descendantIds_mono (fun v hv => ?_) root hx, hdep⟩
  obtain ⟨hv, htenant⟩ := List.mem_filter.mp hv
  exact List.mem_filter.mpr ⟨h hv, htenant⟩

/-- A user whose department stays keeps it. -/
theorem without_of_kept {doomed : List String} {x : String} (hx : x ∉ doomed)
    (hdep : u.departmentId = some x) : u.without doomed = u := by
  have hkept : setNull doomed u.departmentId = u.departmentId := by
    simp [setNull, hdep, Option.filter, hx]
  rw [User.without, hkept]

/-- A device that is left with a department had it before. -/
theorem within_of_without {doomed : List String} {d : Device} {tenantId : String}
    {scope : Option (List String)} (hin : (d.without doomed).within tenantId scope) :
    d.within tenantId scope := by
  refine ⟨hin.1, fun ids hids => ?_⟩
  obtain ⟨x, hx, hdep⟩ := hin.2 ids hids
  exact ⟨x, hx, (Option.filter_eq_some_iff.mp hdep).1⟩

end Delete

/-- **When deleting a department widens no view.** After a delete that returns, every user of the
tenant is shown at most the devices it was shown before, if and only if every user of the tenant
whose department goes away could already access every live device of the tenant. -/
theorem delete_narrows_iff (D : ApiDeployment) (s s' : Store) (tenantId id : String)
    (ω : Nat → Outcome)
    (hdelete : s.pgComplete D ω (DepartmentsService.remove tenantId id) = some (.ok (), s')) :
    (∀ u ∈ s.users.rows, u.tenantId = tenantId → ∀ u' ∈ s'.users.rows, u'.id = u.id →
      ∀ before after, s.shown D u = some (.ok before) → s'.shown D u' = some (.ok after) →
        ∀ d' ∈ after, ∃ d ∈ before, d.id = d'.id) ↔
    ∀ u ∈ s.users.rows, u.tenantId = tenantId →
      (∃ x ∈ cascade s.backend.orgUnits id, u.departmentId = some x) → s.SeesAll u := by
  obtain ⟨hfound, rfl⟩ := found_of_delete hdelete
  obtain ⟨unit, hunit⟩ := Option.isSome_iff_exists.mp hfound
  set doomed := cascade s.backend.orgUnits id with hdoomed
  have hremove : s.pgRemoveUnit tenantId id = { s with
      backend.orgUnits := s.backend.orgUnits.filter fun u => u.id ∉ doomed
      backend.devices := s.backend.devices.mapRows (fun d => d.without doomed) fun _ => rfl
      users := s.users.mapRows (fun u => u.without doomed) fun _ => rfl } := by
    simp only [Store.pgRemoveUnit, hunit]
    rfl
  rw [hremove]
  constructor
  · intro hnarrow u hu htenant ⟨x, hx, hdep⟩ d hd hdtenant hlive
    -- The user is left without a department, and is shown the device.
    have hnone : (u.without doomed).departmentId = none := by
      simp [User.without, setNull, hdep, Option.filter, hx]
    have hin : ∀ units, (d.without doomed).within (u.without doomed).tenantId
        ((AuthService.accessToken (u.without doomed)).scope units) := by
      refine fun units => ⟨hdtenant, fun ids hids => ?_⟩
      simp [AuthUser.scope, AuthService.accessToken, hnone] at hids
    have hrow : d.without doomed ∈
        (s.backend.devices.mapRows (fun d => d.without doomed) fun _ => rfl).rows :=
      List.mem_map.mpr ⟨d, hd, rfl⟩
    have hafter := DeviceTable.mem_list.mpr
      ⟨hrow, hin (s.backend.orgUnits.filter fun u => u.id ∉ doomed), hlive⟩
    obtain ⟨e, he, heid⟩ := hnarrow u hu htenant (u.without doomed)
      (List.mem_map.mpr ⟨u, hu, rfl⟩) rfl _ _ shown_eq shown_eq (d.without doomed) hafter
    obtain ⟨hemem, hein, -⟩ := (mem_shown (D := D) shown_eq).mp he
    rwa [Table.eq_of_key hemem hd heid] at hein
  · intro hall u hu htenant u' hu' hid before after hbefore hafter d' hd'
    obtain ⟨w, hw, rfl⟩ := List.mem_map.mp hu'
    obtain rfl := Table.eq_of_key hw hu hid
    obtain ⟨hd', hin, hlive⟩ := (mem_shown hafter).mp hd'
    obtain ⟨d, hd, rfl⟩ := List.mem_map.mp hd'
    refine ⟨d, (mem_shown hbefore).mpr ⟨hd, ?_, hlive⟩, rfl⟩
    by_cases hgone : ∃ x ∈ doomed, w.departmentId = some x
    · exact hall w hu htenant hgone d hd hin.1 hlive
    · cases hdep : w.departmentId with
      | none =>
        refine ⟨hin.1, fun ids hids => ?_⟩
        simp [AuthUser.scope, AuthService.accessToken, hdep] at hids
      | some x =>
        have hx : x ∉ doomed := fun hx => hgone ⟨x, hx, hdep⟩
        rw [without_of_kept hx hdep] at hin
        have hsub : (s.backend.orgUnits.filter fun u => u.id ∉ doomed) ⊆ s.backend.orgUnits :=
          List.filter_subset_self _
        exact within_of_subset hsub (within_of_without hin)

/-- A user of a department, and a device without one. -/
def sampleUngrouped : Store :=
  { Store.new { Backend.new (Table.empty.put ⟨"truck", "acme", "356307042441021", none, "FTC927", .car,
        .active, none, none, none⟩) with orgUnits := [⟨"north", "acme", "North", none⟩] } with
    users := Table.empty.put
      ⟨"u", "acme", "ops@acme.test", "secret", .operator, true, false, none, some "north"⟩ }

/-- A user of the outer department and one of the inner department, where the only device is. -/
def sampleStaff : Store :=
  { sampleTenant with
    users := (Table.empty.put ⟨"lead", "acme", "lead@acme.test", "secret", .operator, true, false,
      none, some "north"⟩).put ⟨"driver", "acme", "driver@acme.test", "secret", .operator, true,
        false, none, some "depot"⟩ }

/-- The inner department is deleted: its user could access every device already, and the user of
the outer one, who was shown the device, loses sight of it. -/
theorem sample_delete_narrows : ∃ s' lead driver driver' van, sampleStaff.pgComplete sampleApi
      (fun _ => .resolves "") (DepartmentsService.remove "acme" "depot") = some (.ok (), s') ∧
    sampleStaff.users.rows = [lead, driver] ∧ s'.users.rows = [lead, driver'] ∧
    sampleStaff.shown sampleApi lead = some (.ok [van]) ∧ s'.shown sampleApi lead = some (.ok []) ∧
    sampleStaff.shown sampleApi driver = some (.ok [van]) ∧
    s'.shown sampleApi driver' = some (.ok [{ van with departmentId := none }]) ∧
    ∀ u ∈ sampleStaff.users.rows, u.tenantId = "acme" → ∀ u' ∈ s'.users.rows, u'.id = u.id →
      ∀ before after, sampleStaff.shown sampleApi u = some (.ok before) →
        s'.shown sampleApi u' = some (.ok after) → ∀ d' ∈ after, ∃ d ∈ before, d.id = d'.id := by
  refine ⟨_, _, _, _, _, rfl, rfl, rfl, rfl, rfl, rfl, rfl, ?_⟩
  apply (delete_narrows_iff sampleApi sampleStaff _ "acme" "depot" (fun _ => .resolves "") rfl).mpr
  have hreach : ∀ u ∈ sampleStaff.users.rows,
      ∀ ids ∈ (AuthService.accessToken u).scope sampleStaff.backend.orgUnits,
        ∀ d ∈ sampleStaff.backend.devices.rows, ∃ x ∈ ids, d.departmentId = some x := by
    decide
  intro u hu _ _ d hd htenant _
  exact ⟨htenant, fun ids hids => hreach u hu ids hids d hd⟩

/-- The user's department is deleted: it is shown a device that it was not shown before. -/
theorem delete_widens : ∃ s', sampleUngrouped.pgComplete sampleApi (fun _ => .resolves "")
      (DepartmentsService.remove "acme" "north") = some (.ok (), s') ∧
    ∃ u ∈ sampleUngrouped.users.rows, u.tenantId = "acme" ∧
      sampleUngrouped.shown sampleApi u = some (.ok []) ∧
      ∃ u' ∈ s'.users.rows, u'.id = u.id ∧
        ∃ d, s'.shown sampleApi u' = some (.ok [d]) := by
  refine ⟨_, rfl, _, List.mem_cons_self, rfl, rfl, _, List.mem_cons_self, rfl, _, rfl⟩

/-! ## The in-memory repositories -/

/-- Deleting a department from the in-memory repositories widens no view: users and devices keep
their department. -/
theorem memory_delete_narrows (s : Store) (tenantId id : String) (u : User) (d : Device)
    (hin : d.within u.tenantId ((AuthService.accessToken u).scope
      (s.effect (.orgUnitsRemove tenantId id)).backend.orgUnits)) :
    d.within u.tenantId ((AuthService.accessToken u).scope s.backend.orgUnits) := by
  refine within_of_subset (fun v hv => ?_) hin
  simp only [Store.effect, removeUnit] at hv
  cases hfound : findUnit s.backend.orgUnits tenantId id with
  | none =>
    rw [hfound] at hv
    exact hv
  | some unit =>
    rw [hfound] at hv
    exact (List.mem_filter.mp hv).1

end FleetTracking.ControlPlane
