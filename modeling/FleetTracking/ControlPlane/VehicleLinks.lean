import FleetTracking.ControlPlane.Lifecycle
import FleetTracking.ControlPlane.Services
import FleetTracking.Lib.Pairing

/-!
# The Link of a Vehicle and a Device

A vehicle has a field for its device and a device one for its vehicle. `linkDevice` writes both;
it does not look at what they were before.

1. `Store.deviceOf`, `Store.vehicleOf`: the two sides, read through the repositories.
2. `linked_call`: what a complete call does to them.
3. `links_two_sided_iff`: the sides agree all along a run exactly if every link is made between a
   vehicle without a device and a device without a vehicle, or is there already.
-/

namespace FleetTracking.ControlPlane

open Async Transition Pairing

/-! ## The two sides -/

namespace Store

/-- The device of a vehicle. -/
def deviceOf (s : Store) (tenantId vehicleId : String) : Option String :=
  (s.vehicles.findById tenantId vehicleId).bind Vehicle.deviceId

/-- The vehicle of a live device. -/
def vehicleOf (s : Store) (tenantId deviceId : String) : Option String :=
  (s.backend.devices.findById tenantId deviceId false).bind Device.vehicleId

/-- A vehicle of the tenant has a device exactly if the live device has the vehicle. -/
def TwoSided (s : Store) (tenantId : String) : Prop :=
  Mutual (s.deviceOf tenantId) (s.vehicleOf tenantId)

/-- No vehicle or device has an id that is still to be drawn. -/
structure Undrawn (D : ApiDeployment) (s : Store) : Prop where
  vehicles : ∀ v ∈ s.vehicles.rows, ∀ n, s.drawn ≤ n → v.id ≠ D.uuid n
  devices : ∀ d ∈ s.backend.devices.rows, ∀ n, s.drawn ≤ n → d.id ≠ D.uuid n

end Store

/-! ## Calls -/

/-- The operations that make vehicles, devices and links. -/
inductive LinkCall where
  | create (name : String)
  | provision (imei model : String) (departmentId : Option (Option String)) (name : Option String)
      (assetType : AssetType)
  | linkDevice (vehicleId deviceId : String)

/-- The code of the call, made for a user. -/
def LinkCall.code (user : AuthUser) : LinkCall → Api Unit
  | .create name => VehiclesService.create user.tenantId name >>= fun _ => pure ()
  | .provision imei model departmentId name assetType =>
    (DeviceCall.provision imei model departmentId name assetType).code user
  | .linkDevice vehicleId deviceId =>
    VehiclesService.linkDevice user.tenantId vehicleId deviceId >>= fun _ => pure ()

/-- Run calls one after the other, each to completion and whether it returns or throws. -/
def Store.link (D : ApiDeployment) (s : Store) (call : AuthUser × LinkCall) : Option Store :=
  (s.complete D (fun _ => .resolves "") (call.2.code call.1)).map Prod.snd

/-- The link that a call writes: the vehicle and the device have to be there. -/
def Store.linkOf (s : Store) (user : AuthUser) : LinkCall → Option (String × String)
  | .linkDevice vehicleId deviceId =>
    match s.vehicles.findById user.tenantId vehicleId,
      s.backend.devices.findById user.tenantId deviceId false with
    | some _, some _ => some (vehicleId, deviceId)
    | _, _ => none
  | _ => none

/-- Neither the vehicle nor the device of a link that is written has another partner. -/
def Store.LinksFree (s : Store) (call : AuthUser × LinkCall) : Prop :=
  ∀ link ∈ s.linkOf call.1 call.2,
    Unengaged (s.deviceOf call.1.tenantId) (s.vehicleOf call.1.tenantId) link.1 link.2

section Calls

variable {D : ApiDeployment} {s s' : Store} {user : AuthUser} {tenantId : String}

/-- Nothing happened to the two sides, for any tenant. -/
def Store.SameLinks (s s' : Store) : Prop :=
  ∀ tenantId, s'.deviceOf tenantId = s.deviceOf tenantId ∧
    s'.vehicleOf tenantId = s.vehicleOf tenantId

/-- A link of the tenant was written on both sides, and no other one. -/
def Store.Relinked (s : Store) (tenantId : String) (link : String × String) (s' : Store) : Prop :=
  ∀ other, if other = tenantId then
      s'.deviceOf other = Function.update (s.deviceOf other) link.1 (some link.2) ∧
      s'.vehicleOf other = Function.update (s.vehicleOf other) link.2 (some link.1)
    else s'.deviceOf other = s.deviceOf other ∧ s'.vehicleOf other = s.vehicleOf other

/-- The call leaves the sides as they are, or writes its link on both. -/
def Store.Relinks (s : Store) (user : AuthUser) (call : LinkCall) (s' : Store) : Prop :=
  match s.linkOf user call with
  | none => s.SameLinks s'
  | some link => s.Relinked user.tenantId link s'

theorem sameLinks_refl : s.SameLinks s := fun _ => ⟨rfl, rfl⟩

/-- The devices of the vehicles after a vehicle was written. -/
theorem deviceOf_put {v : Vehicle} (hs : s'.vehicles = s.vehicles.put v) (vehicleId : String) :
    s'.deviceOf tenantId vehicleId = if vehicleId = v.id then
      (if v.tenantId = tenantId then v.deviceId else none) else s.deviceOf tenantId vehicleId := by
  unfold Store.deviceOf VehicleTable.findById
  have hput := @Table.find?_put _ _ _ Vehicle.id s.vehicles v vehicleId
    fun w => decide (w.tenantId = tenantId)
  simp only [decide_eq_true_eq] at hput
  rw [hs, hput]
  split
  case isTrue => by_cases h : v.tenantId = tenantId <;> simp [Option.filter, h]
  case isFalse => rfl

/-- The vehicles of the devices after a live device was written. -/
theorem vehicleOf_put {d : Device} (hlive : d.deletedAt = none)
    (hs : s'.backend.devices = s.backend.devices.put d) (deviceId : String) :
    s'.vehicleOf tenantId deviceId = if deviceId = d.id then
      (if d.tenantId = tenantId then d.vehicleId else none)
        else s.vehicleOf tenantId deviceId := by
  unfold Store.vehicleOf DeviceTable.findById
  have hput := @Table.find?_put _ _ _ Device.id s.backend.devices d deviceId
    fun e => decide (e.tenantId = tenantId ∧ (false = true ∨ e.deletedAt = none))
  simp only [decide_eq_true_eq] at hput
  rw [hs, hput]
  split
  case isTrue => by_cases h : d.tenantId = tenantId <;> simp [Option.filter, h, hlive]
  case isFalse => rfl

theorem VehicleTable.findById_eq_some_iff {t : VehicleTable} {v : Vehicle} {id : String} :
    t.findById tenantId id = some v ↔ v ∈ t.rows ∧ v.id = id ∧ v.tenantId = tenantId := by
  have hfind := Table.find?_key t id fun v => decide (v.tenantId = tenantId)
  simp only [decide_eq_true_eq] at hfind
  rw [VehicleTable.findById, hfind, Option.filter_eq_some_iff, Table.get_eq_some_iff, and_assoc,
    decide_eq_true_eq]

/-- A vehicle that is not there has no device. -/
theorem deviceOf_eq_none {vehicleId : String} (h : ∀ v ∈ s.vehicles.rows, v.id ≠ vehicleId) :
    s.deviceOf tenantId vehicleId = none := by
  rw [Store.deviceOf, Option.bind_eq_none_iff]
  intro v hv
  obtain ⟨hrow, hid, -⟩ := VehicleTable.findById_eq_some_iff.mp hv
  exact absurd hid (h v hrow)

/-- A device that is not there has no vehicle. -/
theorem vehicleOf_eq_none {deviceId : String}
    (h : ∀ d ∈ s.backend.devices.rows, d.id ≠ deviceId) : s.vehicleOf tenantId deviceId = none := by
  rw [Store.vehicleOf, Option.bind_eq_none_iff]
  intro d hd
  obtain ⟨hrow, hid, -⟩ := DeviceTable.findById_eq_some_iff.mp hd
  exact absurd hid (h d hrow)

/-- A vehicle of a tenant gets a device. -/
theorem deviceOf_relink {v : Vehicle} {deviceId : String} (hv : v ∈ s.vehicles.rows)
    (hs : s'.vehicles = s.vehicles.put { v with deviceId := some deviceId }) (tenantId : String) :
    s'.deviceOf tenantId = if tenantId = v.tenantId then
      Function.update (s.deviceOf tenantId) v.id (some deviceId) else s.deviceOf tenantId := by
  funext vehicleId
  rw [@deviceOf_put s s' tenantId _ hs vehicleId]
  by_cases htenant : tenantId = v.tenantId
  · subst htenant
    simp [Function.update_apply]
  · simp only [if_neg htenant, if_neg (Ne.symm htenant)]
    split
    case isFalse => rfl
    case isTrue hid =>
      -- No other tenant has a vehicle with this id.
      subst hid
      refine (Option.bind_eq_none_iff.mpr fun w hw => ?_).symm
      obtain ⟨hrow, hid, hw⟩ := VehicleTable.findById_eq_some_iff.mp hw
      rw [Table.eq_of_key hrow hv hid] at hw
      exact absurd hw.symm htenant

/-- A live device of a tenant gets a vehicle. -/
theorem vehicleOf_relink {d : Device} {vehicleId : String} (hd : d ∈ s.backend.devices.rows)
    (hlive : d.deletedAt = none)
    (hs : s'.backend.devices = s.backend.devices.put { d with vehicleId := some vehicleId })
    (tenantId : String) : s'.vehicleOf tenantId = if tenantId = d.tenantId then
      Function.update (s.vehicleOf tenantId) d.id (some vehicleId) else s.vehicleOf tenantId := by
  funext deviceId
  rw [@vehicleOf_put s s' tenantId { d with vehicleId := some vehicleId } hlive hs deviceId]
  by_cases htenant : tenantId = d.tenantId
  · subst htenant
    simp [Function.update_apply]
  · simp only [if_neg htenant, if_neg (Ne.symm htenant)]
    split
    case isFalse => rfl
    case isTrue hid =>
      -- No other tenant has a device with this id.
      subst hid
      refine (Option.bind_eq_none_iff.mpr fun e he => ?_).symm
      obtain ⟨hrow, hid, he, -⟩ := DeviceTable.findById_eq_some_iff.mp he
      rw [Table.eq_of_key hrow hd hid] at he
      exact absurd he.symm htenant

/-- A new vehicle has no device, and no device has it. -/
theorem linked_create {name : String} (h : s.Undrawn D) :
    Store.Ends D resolves (fun _ s' => s.Relinks user (.create name) s' ∧ s'.Undrawn D)
      ((LinkCall.create name).code user) s := by
  simp only [LinkCall.code, VehiclesService.create, bind_assoc]
  refine ends_step ?_
  refine resolves_write rfl fun _ => ?_
  have hnew : ∀ v ∈ s.vehicles.rows, v.id ≠ D.uuid s.drawn :=
    fun v hv => h.vehicles v hv s.drawn le_rfl
  refine ⟨fun tenantId => ⟨?_, rfl⟩, ?_, fun d hd n hn => ?_⟩
  · funext vehicleId
    rw [@deviceOf_put s _ tenantId ⟨D.uuid s.drawn, user.tenantId, name, none⟩ rfl vehicleId]
    split
    case isTrue heq => rw [ite_self, heq, deviceOf_eq_none hnew]
    case isFalse => rfl
  · intro v hv n hn
    cases Table.mem_put.mp hv with
    | inl hv =>
      subst hv
      intro hid
      have hdrawn : s.drawn = n := D.fresh hid
      exact absurd hn (by simp only [Store.effect, Store.act]; omega)
    | inr hv => exact h.vehicles v hv.1 n (Nat.le_of_succ_le hn)
  · exact h.devices d hd n (Nat.le_of_succ_le hn)

/-- A new device has no vehicle, and no vehicle has it. -/
theorem linked_provision {imei model : String} {departmentId : Option (Option String)}
    {name : Option String} {assetType : AssetType} (h : s.Undrawn D) :
    Store.Ends D resolves (fun _ s' =>
        s.Relinks user (.provision imei model departmentId name assetType) s' ∧ s'.Undrawn D)
      ((LinkCall.provision imei model departmentId name assetType).code user) s := by
  simp only [LinkCall.code, DeviceCall.code, DevicesService.provision,
    BillingService.assertCanAddDevice, bind_assoc]
  have hsame : s.Relinks user (.provision imei model departmentId name assetType) s :=
    sameLinks_refl
  refine resolves_read rfl rfl fun _ => ?_
  simp only [Store.answer, Backend.answer]
  cases s.backend.devices.findByImei imei with
  -- The IMEI is taken.
  | some d => exact ⟨hsame, h⟩
  | none =>
    simp only [bind_assoc, pure_bind]
    refine ends_assertCanAdd ?_ fun _ => ⟨hsame, h⟩
    refine ends_assertDepartmentInScope (fun _ => ?_) fun _ => ⟨hsame, h⟩
    refine ends_step ?_
    refine resolves_write rfl fun _ => ?_
    refine resolves_write rfl fun _ => ?_
    have hnew : ∀ d ∈ s.backend.devices.rows, d.id ≠ D.uuid s.drawn :=
      fun d hd => h.devices d hd s.drawn le_rfl
    let created : Device := ⟨D.uuid s.drawn, user.tenantId, imei, name, model, assetType,
      .provisioned, none, departmentId.getD user.departmentId, none⟩
    refine ⟨fun tenantId => ⟨rfl, ?_⟩, fun v hv n hn => ?_, ?_⟩
    · funext deviceId
      rw [@vehicleOf_put s _ tenantId created rfl rfl deviceId]
      split
      case isTrue heq => rw [ite_self, heq, vehicleOf_eq_none hnew]
      case isFalse => rfl
    · exact h.vehicles v hv n (Nat.le_of_succ_le hn)
    · intro d hd n hn
      cases Table.mem_put.mp hd with
      | inl hd =>
        subst hd
        intro hid
        have hdrawn : s.drawn = n := D.fresh hid
        exact absurd hn (by simp only [Store.effect, Store.act]; omega)
      | inr hd => exact h.devices d hd.1 n (Nat.le_of_succ_le hn)

/-- `linkDevice` writes the link on both sides, if it finds them. -/
theorem linked_linkDevice {vehicleId deviceId : String} (h : s.Undrawn D) :
    Store.Ends D resolves
      (fun _ s' => s.Relinks user (.linkDevice vehicleId deviceId) s' ∧ s'.Undrawn D)
      ((LinkCall.linkDevice vehicleId deviceId).code user) s := by
  simp only [LinkCall.code, VehiclesService.linkDevice, VehiclesService.get, bind_assoc]
  have hsame : s.linkOf user (.linkDevice vehicleId deviceId) = none →
      s.Relinks user (.linkDevice vehicleId deviceId) s := by
    intro hnone
    rw [Store.Relinks, hnone]
    exact sameLinks_refl
  refine resolves_read rfl rfl fun _ => ?_
  simp only [Store.answer]
  cases hvehicle : s.vehicles.findById user.tenantId vehicleId with
  | none => exact ⟨hsame (by simp [Store.linkOf, hvehicle]), h⟩
  | some v =>
    simp only [pure_bind]
    refine resolves_read rfl rfl fun _ => ?_
    simp only [Store.answer, Backend.answer]
    cases hdevice : s.backend.devices.findById user.tenantId deviceId false with
    | none => exact ⟨hsame (by simp [Store.linkOf, hdevice]), h⟩
    | some d =>
      have hlink : s.linkOf user (.linkDevice vehicleId deviceId) = some (vehicleId, deviceId) := by
        simp [Store.linkOf, hvehicle, hdevice]
      simp only [bind_assoc]
      -- The device gets the vehicle, then the vehicle gets the device.
      refine resolves_write rfl fun _ => ?_
      refine resolves_write rfl fun _ => ?_
      obtain ⟨hv, rfl, hvtenant⟩ := VehicleTable.findById_eq_some_iff.mp hvehicle
      obtain ⟨hd, rfl, hdtenant, hlive⟩ := DeviceTable.findById_eq_some_iff.mp hdevice
      have hlive : d.deletedAt = none := by simpa using hlive
      let s₂ : Store := { s with
        backend.devices := s.backend.devices.put { d with vehicleId := some v.id }
        vehicles := s.vehicles.put { v with deviceId := some d.id } }
      have hs₂ : (s.effect (.devicesUpdate user.tenantId d.id
          { vehicleId := some (some v.id) })).effect
            (.vehiclesUpdate user.tenantId v.id (some d.id)) = s₂ := by
        simp only [Store.effect, DeviceTable.update, hdevice, hvehicle]
        rfl
      rw [hs₂]
      unfold Store.Relinks
      rw [hlink]
      refine ⟨fun tenantId => ?_, ?_⟩
      · have hdeviceOf := @deviceOf_relink s s₂ v d.id hv rfl tenantId
        have hvehicleOf := @vehicleOf_relink s s₂ d v.id hd hlive rfl tenantId
        rw [hvtenant] at hdeviceOf
        rw [hdtenant] at hvehicleOf
        rw [hdeviceOf, hvehicleOf]
        by_cases htenant : tenantId = user.tenantId
        · simp only [if_pos htenant, and_self]
        · simp only [if_neg htenant, and_self]
      · refine ⟨fun w hw n hn => ?_, fun e he n hn => ?_⟩
        · cases Table.mem_put.mp hw with
          | inl hw => exact hw ▸ h.vehicles v hv n hn
          | inr hw => exact h.vehicles w hw.1 n hn
        · cases Table.mem_put.mp he with
          | inl he => exact he ▸ h.devices d hd n hn
          | inr he => exact h.devices e he.1 n hn

/-- **What a complete call does to the two sides.** -/
theorem linked_call (h : s.Undrawn D) (call : LinkCall) :
    Store.Ends D resolves (fun _ s' => s.Relinks user call s' ∧ s'.Undrawn D)
      (call.code user) s := by
  cases call with
  | create name => exact linked_create h
  | provision imei model departmentId name assetType => exact linked_provision h
  | linkDevice vehicleId deviceId => exact linked_linkDevice h

theorem relinks_of_link {call : AuthUser × LinkCall} (h : s.Undrawn D)
    (hstep : s.link D call = some s') : s.Relinks call.1 call.2 s' ∧ s'.Undrawn D := by
  obtain ⟨⟨r, s''⟩, hcall, rfl⟩ := Option.map_eq_some_iff.mp hstep
  exact (linked_call h call.2).of_complete (resolves_always "") hcall

/-- A call keeps the sides in agreement exactly if its link is free. -/
theorem twoSided_iff_of_relinks {call : AuthUser × LinkCall}
    (h : ∀ tenantId, s.TwoSided tenantId) (hrelinks : s.Relinks call.1 call.2 s') :
    (∀ tenantId, s'.TwoSided tenantId) ↔ s.LinksFree call := by
  unfold Store.LinksFree
  unfold Store.Relinks at hrelinks
  cases hlink : s.linkOf call.1 call.2 with
  | none =>
    rw [hlink] at hrelinks
    have hkept : ∀ tenantId, s'.TwoSided tenantId := by
      intro tenantId
      rw [Store.TwoSided, (hrelinks tenantId).1, (hrelinks tenantId).2]
      exact h tenantId
    exact ⟨fun _ link hmem => absurd hmem (Option.not_mem_none link), fun _ => hkept⟩
  | some link =>
    rw [hlink] at hrelinks
    have hown := hrelinks call.1.tenantId
    rw [if_pos rfl] at hown
    have hiff := (h call.1.tenantId).update_iff (a := link.1) (b := link.2)
    rw [← hown.1, ← hown.2] at hiff
    constructor
    · intro hall link' hmem
      cases Option.mem_some.mp hmem
      exact hiff.mp (hall _)
    · intro hfree tenantId
      -- the call touches the links of its own tenant only
      by_cases htenant : tenantId = call.1.tenantId
      · subst htenant
        exact hiff.mpr (hfree link rfl)
      · have hother := hrelinks tenantId
        rw [if_neg htenant] at hother
        rw [Store.TwoSided, hother.1, hother.2]
        exact h tenantId

end Calls

/-! ## Runs -/

/-- **The link is two-sided as long as nothing is linked again.** In a run of complete calls, by
users of any tenants, the vehicles and the devices agree in every state reached exactly if each
link that is written joins a vehicle and a device of which neither has another partner. -/
theorem links_two_sided_iff (D : ApiDeployment) (s₀ s : Store) (calls : List (AuthUser × LinkCall))
    (hnew : s₀.Undrawn D) (hinit : ∀ tenantId, s₀.TwoSided tenantId)
    (hrun : Run (Store.link D) (fun _ _ => True) s₀ calls s) :
    Always (Store.link D) (fun _ _ => True) s₀ calls (fun s => ∀ tenantId, s.TwoSided tenantId) ↔
      Run (Store.link D) Store.LinksFree s₀ calls s := by
  have hstep : ∀ (s : Store) call (s' : Store), s.Undrawn D ∧ (∀ tenantId, s.TwoSided tenantId) →
      s.link D call = some s' → s'.Undrawn D ∧
        ((∀ tenantId, s'.TwoSided tenantId) ↔ s.LinksFree call) := by
    intro s call s' ⟨hs, htwo⟩ hcall
    obtain ⟨hrelinks, hs'⟩ := relinks_of_link hs hcall
    exact ⟨hs', twoSided_iff_of_relinks htwo hrelinks⟩
  refine hrun.always_iff (I := fun s => s.Undrawn D ∧ ∀ tenantId, s.TwoSided tenantId)
    ⟨hnew, hinit⟩ (fun s hs => hs.2) ?_ ?_
  · intro s call s' hs hfree hcall
    obtain ⟨hs', hiff⟩ := hstep s call s' hs hcall
    exact ⟨hs', hiff.mpr hfree⟩
  · intro s call s' hs _ hcall htwo
    exact (hstep s call s' hs hcall).2.mp htwo

/-- A van gets a tracker. -/
def sampleLinking : List (AuthUser × LinkCall) :=
  [(sampleTenantAdmin, .create "Van"), (sampleTenantAdmin, .create "Truck"),
    (sampleTenantAdmin, .provision "356307042441013" "FTC927" none none .car),
    (sampleTenantAdmin, .linkDevice "x" "xxx")]

instance (s : Store) (call : AuthUser × LinkCall) : Decidable (s.LinksFree call) :=
  inferInstanceAs (Decidable (∀ link ∈ s.linkOf call.1 call.2, Unengaged _ _ link.1 link.2))

theorem sample_links_two_sided : ∃ s, Run (Store.link sampleApi) (fun _ _ => True)
    (Store.new (Backend.new Table.empty)) sampleLinking s ∧
      Always (Store.link sampleApi) (fun _ _ => True) (Store.new (Backend.new Table.empty))
        sampleLinking fun s => ∀ tenantId, s.TwoSided tenantId := by
  have hexists : ∃ s, Run (Store.link sampleApi) Store.LinksFree
      (Store.new (Backend.new Table.empty)) sampleLinking s ∧ True :=
    Run.exists_of_any (by decide +kernel)
  obtain ⟨s, hfree, -⟩ := hexists
  have hrun : Run (Store.link sampleApi) (fun _ _ => True) _ sampleLinking s :=
    hfree.mono fun _ _ _ => trivial
  refine ⟨s, hrun, (links_two_sided_iff sampleApi _ s sampleLinking ?_ ?_ hrun).mpr hfree⟩
  · exact ⟨fun _ h => absurd h List.not_mem_nil, fun _ h => absurd h List.not_mem_nil⟩
  · intro tenantId vehicleId deviceId
    exact ⟨(fun h => nomatch h), (fun h => nomatch h)⟩

/-- The tracker is moved to the truck, and the van keeps it. -/
theorem moved_tracker_one_sided : ∃ s, Run (Store.link sampleApi) (fun _ _ => True)
    (Store.new (Backend.new Table.empty))
      (sampleLinking ++ [(sampleTenantAdmin, .linkDevice "xx" "xxx")]) s ∧ ¬ s.TwoSided "acme" := by
  have hexists : ∃ s, Run (Store.link sampleApi) (fun _ _ => True)
      (Store.new (Backend.new Table.empty))
        (sampleLinking ++ [(sampleTenantAdmin, .linkDevice "xx" "xxx")]) s ∧
          (s.deviceOf "acme" "x" = some "xxx" ∧ s.vehicleOf "acme" "xxx" = some "xx") :=
    Run.exists_of_any (by decide +kernel)
  obtain ⟨s, hrun, hdevice, hvehicle⟩ := hexists
  refine ⟨s, hrun, fun htwo => ?_⟩
  have hback := (htwo "x" "xxx").mp hdevice
  rw [hvehicle] at hback
  exact absurd (Option.some.inj hback) (by decide)

end FleetTracking.ControlPlane
