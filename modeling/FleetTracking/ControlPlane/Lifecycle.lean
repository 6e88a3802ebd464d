import FleetTracking.ControlPlane.Devices
import FleetTracking.Lib.Transition
import Mathlib.Data.Finset.Insert

/-!
# The Lifecycle of Devices

The allow-list of the ingestion is set when the server starts, and from then on kept up to
date by the operations on devices. Both stores stay in step: at most one live device has an
IMEI, and the list is the set of the IMEIs of the live devices that may send.

- `Lifecycle`: the invariant.
- `put_activeImeis`: writing a device whose IMEI no other live device has adds it to the set or
  takes it out, whichever it is.
- `lifecycle_call`: an operation keeps the invariant, and changes nothing if it throws.
- `allow_list_is_active`: what every sequence of operations leaves.
-/

namespace FleetTracking.ControlPlane

open Async Transition

/-! ## The invariant -/

namespace DeviceTable

/-- At most one live device has any given IMEI. -/
def OneLive (t : DeviceTable) : Prop :=
  ∀ d ∈ t.rows, ∀ e ∈ t.rows, d.deletedAt = none → e.deletedAt = none → d.imei = e.imei → d = e

/-- No other live device has the IMEI of `d`. -/
def Alone (t : DeviceTable) (d : Device) : Prop :=
  ∀ e ∈ t.rows, e.id ≠ d.id → e.deletedAt = none → e.imei ≠ d.imei

variable {t : DeviceTable} {d e : Device}

theorem OneLive.alone (h : t.OneLive) (hd : d ∈ t.rows) (hlive : d.deletedAt = none) :
    t.Alone d := by
  intro e he hne hlive' himei
  exact hne (congrArg Device.id (h e he d hd hlive' hlive himei))

theorem OneLive.put (h : t.OneLive) (halone : t.Alone d) : OneLive (t.put d) := by
  intro a ha b hb hlive hlive' himei
  cases Table.mem_put.mp ha with
  | inl ha =>
    cases Table.mem_put.mp hb with
    | inl hb => rw [ha, hb]
    | inr hb => exact absurd (himei.symm.trans (by rw [ha])) (halone b hb.1 hb.2 hlive')
  | inr ha =>
    cases Table.mem_put.mp hb with
    | inl hb => exact absurd (himei.trans (by rw [hb])) (halone a ha.1 ha.2 hlive)
    | inr hb => exact h a ha.1 b hb.1 hlive hlive' himei

/-- What sends is live. -/
theorem live_of_sends (h : d.sends = true) : d.deletedAt = none := by
  simp only [Device.sends, decide_eq_true_eq] at h
  exact h.1

/-- A set of IMEIs after a device was written: it has the device's, or has not. -/
def letIn (allowed : Finset String) (d : Device) : Finset String :=
  if d.sends then insert d.imei allowed else allowed.erase d.imei

/-- Who is active after a device was written. -/
theorem mem_activeImeis_put {imei : String} : imei ∈ activeImeis (t.put d) ↔
    (d.sends = true ∧ d.imei = imei) ∨
      ∃ e ∈ t.rows, e.id ≠ d.id ∧ e.sends = true ∧ e.imei = imei := by
  rw [mem_activeImeis]
  constructor
  · intro ⟨e, he, hsends, himei⟩
    cases Table.mem_put.mp he with
    | inl he => exact Or.inl (he ▸ ⟨hsends, himei⟩)
    | inr he => exact Or.inr ⟨e, he.1, he.2, hsends, himei⟩
  · intro h
    cases h with
    | inl h => exact ⟨d, Table.mem_put.mpr (Or.inl rfl), h⟩
    | inr h =>
      obtain ⟨e, he, hne, hsends⟩ := h
      exact ⟨e, Table.mem_put.mpr (Or.inr ⟨he, hne⟩), hsends⟩

/-- **Writing a device moves its own IMEI only.** -/
theorem put_activeImeis (halone : t.Alone d)
    (hkeep : ∀ e ∈ t.rows, e.id = d.id → e.imei = d.imei) :
    (activeImeis (t.put d)).toFinset = letIn t.activeImeis.toFinset d := by
  ext imei
  rw [List.mem_toFinset, mem_activeImeis_put, letIn]
  -- the row decides for its own imei; the rows beside it for theirs
  by_cases hsends : d.sends = true
  · rw [if_pos hsends, Finset.mem_insert, List.mem_toFinset, mem_activeImeis]
    constructor
    · intro h
      cases h with
      | inl h => exact Or.inl h.2.symm
      | inr h =>
        obtain ⟨e, he, -, h⟩ := h
        exact Or.inr ⟨e, he, h⟩
    · intro h
      cases h with
      | inl h => exact Or.inl ⟨hsends, h.symm⟩
      | inr h =>
        obtain ⟨e, he, hsends', himei⟩ := h
        by_cases hid : e.id = d.id
        · exact Or.inl ⟨hsends, (hkeep e he hid).symm.trans himei⟩
        · exact Or.inr ⟨e, he, hid, hsends', himei⟩
  · rw [if_neg hsends, Finset.mem_erase, List.mem_toFinset, mem_activeImeis]
    constructor
    · intro h
      cases h with
      | inl h => exact absurd h.1 hsends
      | inr h =>
        obtain ⟨e, he, hid, hsends', himei⟩ := h
        exact ⟨fun h => halone e he hid (live_of_sends hsends') (himei.trans h),
          e, he, hsends', himei⟩
    · intro ⟨hne, e, he, hsends', himei⟩
      exact Or.inr ⟨e, he, fun hid => hne (himei.symm.trans (hkeep e he hid)), hsends', himei⟩

/-- Nothing has to be done for a device that sends if and only if it did before. -/
theorem letIn_self (halone : t.Alone d) (he : e ∈ t.rows) (hid : e.id = d.id)
    (himei : e.imei = d.imei) (hsends : e.sends = d.sends) :
    letIn t.activeImeis.toFinset d = t.activeImeis.toFinset := by
  unfold letIn
  by_cases h : d.sends = true
  · rw [if_pos h]
    apply Finset.insert_eq_self.mpr
    rw [List.mem_toFinset, mem_activeImeis]
    exact ⟨e, he, hsends.trans h, himei⟩
  · rw [if_neg h]
    apply Finset.erase_eq_self.mpr
    rw [List.mem_toFinset, mem_activeImeis]
    intro ⟨a, ha, hsends', himei'⟩
    by_cases hida : a.id = d.id
    · have hae : a = e := Table.eq_of_key ha he (hida.trans hid.symm)
      rw [hae, hsends] at hsends'
      exact h hsends'
    · exact halone a ha hida (live_of_sends hsends') himei'

end DeviceTable

/-- The devices and the allow-list are in step, and no id that will be drawn is taken. -/
structure Store.Lifecycle (D : ApiDeployment) (s : Store) : Prop where
  oneLive : s.backend.devices.OneLive
  allowed : s.allowList = s.backend.devices.activeImeis.toFinset
  fresh : ∀ d ∈ s.backend.devices.rows, ∀ n, s.drawn ≤ n → d.id ≠ D.uuid n

/-! ## Operations -/

section Operations

variable {D : ApiDeployment} {s s' : Store} {user : AuthUser} {d : Device}

/-- What an operation started in `s` may leave behind. -/
def Store.Settled (D : ApiDeployment) (s : Store) : Except ApiError Unit → Store → Prop
  | .ok _, s' => s'.Lifecycle D
  | .error _, s' =>
    s'.Lifecycle D ∧ s'.backend.devices = s.backend.devices ∧ s'.allowList = s.allowList

theorem settled_error (h : s.Lifecycle D) (e : ApiError) : s.Settled D (.error e) s :=
  ⟨h, rfl, rfl⟩

/-- A device is written, and the allow-list follows. -/
theorem Store.Lifecycle.put (h : s.Lifecycle D) (halone : s.backend.devices.Alone d)
    (hkeep : ∀ e ∈ s.backend.devices.rows, e.id = d.id → e.imei = d.imei)
    (hid : ∀ n, s'.drawn ≤ n → d.id ≠ D.uuid n) (hdrawn : s.drawn ≤ s'.drawn)
    (hdevices : s'.backend.devices = s.backend.devices.put d)
    (hallowed : s'.allowList = DeviceTable.letIn s.allowList d) : s'.Lifecycle D where
  oneLive := hdevices ▸ h.oneLive.put halone
  allowed := by
    rw [hallowed, hdevices, DeviceTable.put_activeImeis halone hkeep, h.allowed]
  fresh := by
    intro e he n hn
    rw [hdevices] at he
    cases Table.mem_put.mp he with
    | inl he => exact he ▸ hid n hn
    | inr he => exact h.fresh e he.1 n (hdrawn.trans hn)

/-- A row is replaced by one with its id and IMEI that no other live device has. -/
theorem Store.Lifecycle.replace (d' : Device) (h : s.Lifecycle D)
    (hd : d ∈ s.backend.devices.rows) (hid : d'.id = d.id) (himei : d'.imei = d.imei)
    (halone : s.backend.devices.Alone d') (hdrawn : s'.drawn = s.drawn)
    (hdevices : s'.backend.devices = s.backend.devices.put d')
    (hallowed : s'.allowList = DeviceTable.letIn s.allowList d') : s'.Lifecycle D := by
  refine h.put halone (fun e he heid => ?_) (fun n hn => ?_) hdrawn.ge hdevices hallowed
  · rw [Table.eq_of_key he hd (heid.trans hid), himei]
  · rw [hid]
    exact h.fresh d hd n (hdrawn ▸ hn)

/-- A live device is changed, its IMEI apart. -/
theorem Store.Lifecycle.change {tenantId id : String} (d' : Device) (h : s.Lifecycle D)
    (hfound : s.backend.devices.findById tenantId id false = some d) (hid : d'.id = d.id)
    (himei : d'.imei = d.imei) (hdrawn : s'.drawn = s.drawn)
    (hdevices : s'.backend.devices = s.backend.devices.put d')
    (hallowed : s'.allowList = DeviceTable.letIn s.allowList d') : s'.Lifecycle D := by
  obtain ⟨hd, -, -, hlive⟩ := DeviceTable.findById_eq_some_iff.mp hfound
  have halone : s.backend.devices.Alone d := h.oneLive.alone hd (by simpa using hlive)
  refine h.replace d' hd hid himei (fun e he hne hlive' => ?_) hdrawn hdevices hallowed
  rw [himei]
  exact halone e he (hid ▸ hne) hlive'

/-- A live device is changed in a field that says nothing about what it sends. -/
theorem Store.Lifecycle.patch {tenantId id : String} {patch : DevicePatch} (h : s.Lifecycle D)
    (hfound : s.backend.devices.findById tenantId id false = some d)
    (hpatch : patch.status = none) : ({ s with
      backend.devices := s.backend.devices.put (patch.apply d) } : Store).Lifecycle D := by
  refine h.change (patch.apply d) hfound rfl rfl rfl rfl ?_
  obtain ⟨hd, -, -, hlive⟩ := DeviceTable.findById_eq_some_iff.mp hfound
  have halone : s.backend.devices.Alone d := h.oneLive.alone hd (by simpa using hlive)
  have hsends : d.sends = (patch.apply d).sends := by
    simp [Device.sends, DevicePatch.apply, hpatch]
  have hself : DeviceTable.letIn s.allowList (patch.apply d) = s.allowList := by
    rw [h.allowed]
    exact DeviceTable.letIn_self halone hd rfl rfl hsends
  exact hself.symm

/-- What `getScoped` finds is what the queries of the repository find. -/
theorem findById_of_scoped {id : String} {includeDeleted : Bool}
    (h : s.scoped user id includeDeleted = some d) :
    s.backend.devices.findById user.tenantId id includeDeleted = some d :=
  (Option.filter_eq_some_iff.mp h).1

/-- A change of one field, after the scope check. -/
theorem lifecycle_updateFound {id : String} {patch : DevicePatch} (h : s.Lifecycle D)
    (hpatch : patch.status = none) :
    Store.Ends D resolves (s.Settled D)
      (DevicesService.updateFound user id patch >>= fun _ => pure ()) s :=
  ends_updateFound (fun _ hfound => h.patch hfound hpatch) (settled_error h)
    fun _ _ _ hx => absurd hx not_resolves

/-- The device as `setStatus` leaves it sends if its new status says so. -/
theorem sends_of_status {status : DeviceStatus} (hlive : d.deletedAt = none) :
    (DevicePatch.apply { status := some status } d).sends = decide (status ∈ SENDING_STATUSES) := by
  cases status with
  | provisioned => simp [Device.sends, DevicePatch.apply, SENDING_STATUSES, hlive]
  | active => simp [Device.sends, DevicePatch.apply, SENDING_STATUSES, hlive]
  | suspended => simp [Device.sends, DevicePatch.apply, SENDING_STATUSES]
  | retired => simp [Device.sends, DevicePatch.apply, SENDING_STATUSES]

theorem lifecycle_setStatus {id : String} {status : DeviceStatus} (h : s.Lifecycle D) :
    Store.Ends D resolves (s.Settled D) ((DeviceCall.setStatus id status).code user) s := by
  simp only [DeviceCall.code, DevicesService.setStatus, DevicesService.get, bind_assoc]
  refine ends_getScoped (fun d hscoped => ?_) (settled_error h)
  have hfound := findById_of_scoped hscoped
  have hlive : d.deletedAt = none := by
    simpa using (DeviceTable.findById_eq_some_iff.mp hfound).2.2.2
  refine ends_updateFound (fun d' hfound' => ?_) (settled_error h)
    fun _ _ _ hx => absurd hx not_resolves
  obtain rfl : d = d' := Option.some_inj.mp (hfound.symm.trans hfound')
  have hsends : (DevicePatch.apply { status := some status } d).sends =
      decide (status ∈ SENDING_STATUSES) := sends_of_status hlive
  -- the new status decides between add and remove
  split
  case isTrue hin =>
    simp only [bind_assoc, pure_bind]
    refine resolves_write rfl fun _ => ?_
    refine h.change (DevicePatch.apply { status := some status } d) hfound rfl rfl rfl rfl ?_
    rw [DeviceTable.letIn, hsends, decide_eq_true hin, if_pos rfl]
    rfl
  case isFalse hin =>
    simp only [bind_assoc, pure_bind]
    refine resolves_write rfl fun _ => ?_
    refine h.change (DevicePatch.apply { status := some status } d) hfound rfl rfl rfl rfl ?_
    rw [DeviceTable.letIn, hsends, decide_eq_false hin, if_neg Bool.false_ne_true]
    rfl

theorem lifecycle_remove {id : String} (h : s.Lifecycle D) :
    Store.Ends D resolves (s.Settled D) ((DeviceCall.remove id).code user) s := by
  simp only [DeviceCall.code, DevicesService.remove, DevicesService.get, nowText,
    Api.lift_bind, Api.lift_pure, bind_assoc, pure_bind]
  refine ends_getScoped (fun d hscoped => ?_) (settled_error h)
  have hfound := findById_of_scoped hscoped
  refine ends_step ?_
  refine resolves_write rfl fun _ => ?_
  refine resolves_write rfl fun _ => ?_
  let deleted : Device := { d with deletedAt := some (JsDate.isoText s.backend.now) }
  refine h.change deleted hfound rfl rfl rfl ?_ ?_
  · simp [Store.effect, Store.act, Backend.act, DeviceTable.softDelete, hfound, DeviceTable.write,
      deleted]
  · simp [Store.effect, Store.act, DeviceTable.letIn, Device.sends, deleted]

/-- A new device, with an id that no device has. -/
theorem lifecycle_provision {imei model : String} {departmentId : Option (Option String)}
    {name : Option String} {assetType : AssetType} (h : s.Lifecycle D) :
    Store.Ends D resolves (s.Settled D)
      ((DeviceCall.provision imei model departmentId name assetType).code user) s := by
  simp only [DeviceCall.code, DevicesService.provision, BillingService.assertCanAddDevice,
    bind_assoc]
  refine resolves_read rfl rfl fun _ => ?_
  simp only [Store.answer, Backend.answer]
  cases hfound : s.backend.devices.findByImei imei with
  | some d => exact settled_error h _
  | none =>
    simp only [bind_assoc, pure_bind]
    refine ends_assertCanAdd ?_ (settled_error h)
    refine ends_assertDepartmentInScope (fun _ => ?_) (settled_error h)
    refine ends_step ?_
    refine resolves_write rfl fun _ => ?_
    refine resolves_write rfl fun _ => ?_
    -- the id is fresh, so the row is a new one, and its status is a sending one
    have hnew : ∀ e ∈ s.backend.devices.rows, e.id ≠ D.uuid s.drawn :=
      fun e he => h.fresh e he s.drawn le_rfl
    refine h.put (d := ⟨D.uuid s.drawn, user.tenantId, imei, name, model, assetType, .provisioned,
      none, departmentId.getD user.departmentId, none⟩) ?_ ?_ ?_ ?_ rfl ?_
    · exact fun e he _ hlive => DeviceTable.findByImei_eq_none_iff.mp hfound e he hlive
    · exact fun e he hid => absurd hid (hnew e he)
    · intro n hn hid
      have hdrawn : s.drawn = n := D.fresh hid
      simp only [Store.effect, Store.act] at hn
      omega
    · exact Nat.le_succ _
    · simp [Store.effect, Store.act, DeviceTable.letIn, Device.sends]

/-- The allow-list follows a device that was restored. -/
theorem lifecycle_welcome {id : String} (h : s.Lifecycle D)
    (hfound : s.backend.devices.findById user.tenantId id true = some d)
    (hdeleted : d.deletedAt ≠ none) (hfree : s.backend.devices.findByImei d.imei = none) :
    Store.Ends D resolves (s.Settled D) (DevicesService.welcome user id >>= fun _ => pure ())
      { s with backend.devices := s.backend.devices.put { d with deletedAt := none } } := by
  obtain ⟨hd, hid, htenant, -⟩ := DeviceTable.findById_eq_some_iff.mp hfound
  have hread : DeviceTable.findById (s.backend.devices.put { d with deletedAt := none })
      user.tenantId id false = some { d with deletedAt := none } :=
    DeviceTable.findById_eq_some_iff.mpr ⟨Table.mem_put.mpr (Or.inl rfl), hid, htenant, by simp⟩
  -- no live row has the imei, so the restored one is alone with it
  have halone : s.backend.devices.Alone { d with deletedAt := none } :=
    fun e he _ hlive => DeviceTable.findByImei_eq_none_iff.mp hfree e he hlive
  simp only [DevicesService.welcome, bind_assoc]
  refine resolves_read rfl rfl fun _ => ?_
  simp only [Store.answer, Backend.answer, hread]
  split
  case isTrue hin =>
    simp only [bind_assoc, pure_bind]
    refine resolves_write rfl fun _ => ?_
    refine h.replace { d with deletedAt := none } hd rfl rfl halone rfl rfl ?_
    have hsends : Device.sends { d with deletedAt := none } = true := by
      simpa [Device.sends, SENDING_STATUSES, or_comm] using hin
    rw [DeviceTable.letIn, hsends, if_pos rfl]
    rfl
  case isFalse hin =>
    simp only [bind_assoc, pure_bind]
    refine h.replace { d with deletedAt := none } hd rfl rfl halone rfl rfl ?_
    have hsends : d.sends = Device.sends { d with deletedAt := none } := by
      simpa [Device.sends, SENDING_STATUSES, hdeleted, or_comm] using hin
    -- a device that does not send was not on the list and is not put there
    have hself : DeviceTable.letIn s.allowList { d with deletedAt := none } = s.allowList := by
      rw [h.allowed]
      exact DeviceTable.letIn_self halone hd rfl rfl hsends
    exact hself.symm

/-- A deleted device is live again, if no live device has its IMEI. -/
theorem lifecycle_restore {id : String} (h : s.Lifecycle D) :
    Store.Ends D resolves (s.Settled D) ((DeviceCall.restore id).code user) s := by
  simp only [DeviceCall.code, DevicesService.restore, BillingService.assertCanAddDevice,
    bind_assoc]
  refine resolves_read rfl rfl fun _ => ?_
  simp only [Store.answer, Backend.answer]
  cases hfound : (s.backend.devices.findById user.tenantId id true).filter
      fun d => d.deletedAt ≠ none with
  | none => exact settled_error h _
  | some d =>
    obtain ⟨hfound, hdeleted⟩ := Option.filter_eq_some_iff.mp hfound
    have hd := (DeviceTable.findById_eq_some_iff.mp hfound).1
    have hdeleted : d.deletedAt ≠ none := by simpa using hdeleted
    simp only [bind_assoc]
    refine ends_scopeFor ?_ fun e _ _ => settled_error h e
    split
    case isTrue => exact settled_error h _
    case isFalse =>
      simp only [bind_assoc]
      refine ends_assertCanAdd ?_ (settled_error h)
      refine resolves_write rfl fun _ => ?_
      simp only [Store.answer, Store.effect, DeviceTable.restore_eq hfound hdeleted]
      -- the row is restored only when its imei is free
      by_cases hfree : s.backend.devices.findByImei d.imei = none
      · simp only [if_pos hfree, Option.isSome_some, if_true]
        exact lifecycle_welcome h hfound hdeleted hfree
      · simp only [if_neg hfree]
        exact settled_error h _

/-- **An operation keeps the stores in step, and changes nothing if it throws.** -/
theorem lifecycle_call (h : s.Lifecycle D) (call : DeviceCall) :
    Store.Ends D resolves (s.Settled D) (call.code user) s := by
  cases call with
  | provision imei model departmentId name assetType => exact lifecycle_provision h
  | rename id name =>
    simp only [DeviceCall.code, DevicesService.rename, DevicesService.get, bind_assoc]
    exact ends_getScoped (fun _ _ => lifecycle_updateFound h rfl) (settled_error h)
  | setAssetType id assetType =>
    simp only [DeviceCall.code, DevicesService.setAssetType, DevicesService.get, bind_assoc]
    exact ends_getScoped (fun _ _ => lifecycle_updateFound h rfl) (settled_error h)
  | setStatus id status => exact lifecycle_setStatus h
  | assignDepartment id departmentId =>
    simp only [DeviceCall.code, DevicesService.assignDepartment, DevicesService.get, bind_assoc]
    refine ends_getScoped (fun _ _ => ?_) (settled_error h)
    exact ends_assertDepartmentInScope (fun _ => lifecycle_updateFound h rfl) (settled_error h)
  | remove id => exact lifecycle_remove h
  | restore id => exact lifecycle_restore h

end Operations

/-! ## Sequences of operations -/

/-- `AllowListBootstrap.onModuleInit`. -/
def AllowListBootstrap.onModuleInit : Api Unit := do
  let imeis ← Api.request .activeImeis
  Api.request (.allowListReplaceAll imeis)

/-- Run operations one after the other, each to completion and whether it returns or throws. -/
def Store.operate (D : ApiDeployment) (s : Store) (call : AuthUser × DeviceCall) : Option Store :=
  (s.complete D (fun _ => .resolves "") (call.2.code call.1)).map Prod.snd

/-- Any operations can be run. -/
theorem exists_operations (D : ApiDeployment) (calls : List (AuthUser × DeviceCall)) (s : Store) :
    ∃ s', Run (Store.operate D) (fun _ _ => True) s calls s' := by
  induction calls generalizing s with
  | nil => exact ⟨s, .nil⟩
  | cons call calls ih =>
    obtain ⟨out, hout⟩ :=
      exists_complete D (fun _ => .resolves "") (call.2.code call.1) s
    obtain ⟨s', hrun⟩ := ih out.2
    exact ⟨s', .cons trivial (by rw [Store.operate, hout]; rfl) hrun⟩

/-- **The allow-list is the set of the active IMEIs**, and no IMEI is live twice, after every
sequence of operations on devices by any users; an operation that throws changes nothing. -/
theorem allow_list_is_active (D : ApiDeployment) (s₀ s₁ s : Store)
    (honeLive : s₀.backend.devices.OneLive)
    (hfresh : ∀ d ∈ s₀.backend.devices.rows, ∀ n, s₀.drawn ≤ n → d.id ≠ D.uuid n)
    (hboot : s₀.complete D (fun _ => .resolves "") AllowListBootstrap.onModuleInit =
      some (.ok (), s₁))
    (calls : List (AuthUser × DeviceCall))
    (hrun : Run (Store.operate D) (fun _ _ => True) s₁ calls s) :
    s.backend.devices.OneLive ∧ s.allowList = s.backend.devices.activeImeis.toFinset ∧
      ∀ user call e s', s.complete D (fun _ => .resolves "") (DeviceCall.code user call) =
        some (.error e, s') →
          s'.backend.devices = s.backend.devices ∧ s'.allowList = s.allowList := by
  have hinit : s₁.Lifecycle D := by
    cases hboot
    exact ⟨honeLive, rfl, hfresh⟩
  have hinv : s.Lifecycle D := by
    refine hrun.invariant hinit fun s call s' h _ hstep => ?_
    obtain ⟨⟨r, s''⟩, hcall, rfl⟩ := Option.map_eq_some_iff.mp hstep
    have hsettled := (lifecycle_call h call.2).of_complete (resolves_always "") hcall
    cases r with
    | ok _ => exact hsettled
    | error e => exact hsettled.1
  refine ⟨hinv.oneLive, hinv.allowed, fun user call e s' hcall => ?_⟩
  exact ((lifecycle_call hinv call).of_complete (resolves_always "") hcall).2

/-- A tracker that was provisioned a second time after the first row was deleted. -/
def sampleRows : DeviceTable :=
  (Table.empty.put ⟨"first", "acme", "356307042441013", none, "FTC927", .car, .active, none, none,
    some "2024-05-01T08:00:00.000Z"⟩).put ⟨"second", "acme", "356307042441013", none, "FTC927",
    .car, .active, none, none, none⟩

def sampleTenantAdmin : AuthUser := ⟨"u", "acme", .admin, "admin@acme.test", none⟩

/-- Deleting the second row, restoring the first and deleting that one, in step throughout. -/
theorem sample_operations_in_step : ∃ s₁ s,
    Run (Store.operate sampleApi) (fun _ _ => True) s₁ [(sampleTenantAdmin, .remove "second"),
      (sampleTenantAdmin, .restore "first"), (sampleTenantAdmin, .remove "first")] s ∧
      s.backend.devices.OneLive ∧ s.allowList = s.backend.devices.activeImeis.toFinset := by
  let s₀ := Store.new (Backend.new sampleRows)
  let s₁ : Store := { s₀ with allowList := s₀.backend.devices.activeImeis.toFinset }
  obtain ⟨s, hrun⟩ := exists_operations sampleApi [(sampleTenantAdmin, .remove "second"),
    (sampleTenantAdmin, .restore "first"), (sampleTenantAdmin, .remove "first")] s₁
  have hids : ∀ d ∈ s₀.backend.devices.rows, d.id.toList.all (· = 'x') = false := by decide
  have h := allow_list_is_active sampleApi s₀ s₁ s (by unfold DeviceTable.OneLive; decide)
    (fun d hd n _ => ne_sampleApi_uuid (hids d hd) n) rfl _ hrun
  exact ⟨s₁, s, hrun, h.1, h.2.1⟩

end FleetTracking.ControlPlane
