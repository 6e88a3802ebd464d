import FleetTracking.ControlPlane.Lifecycle
import FleetTracking.ControlPlane.Overlap
import FleetTracking.ControlPlane.Services
import FleetTracking.ControlPlane.TenantStores
import FleetTracking.Lib.Supply

/-!
# Administrators at Work

The operations that write devices, the creation of users, and the publication of the allow-list
when the server starts, all interleaved at their awaits.

1. `AdminCall`, `administration`: the calls.
2. `AdminPhase`, `administrators`: what a call has read and written so far, and what it may do next.
3. `administration_conforms`: the services do no more than that.
4. `IdsInv`: no call writes a new row over another one.
-/

namespace FleetTracking.ControlPlane

open Async Transition Typestate

/-! ## The calls -/

/-- An operation on devices, a new user, or the start of the server. -/
inductive AdminCall where
  | device (user : AuthUser) (call : DeviceCall)
  | usersCreate (tenantId : String) (dto : CreateUserDto)
  | onModuleInit

def AdminCall.code (D : ApiDeployment) : AdminCall → Api Unit
  | .device user call => call.code user
  | .usersCreate tenantId dto => do
    let _ ← UsersService.create D tenantId dto
    pure ()
  | .onModuleInit => AllowListBootstrap.onModuleInit

/-- The tenant the call is for. -/
def AdminCall.tenantId : AdminCall → String
  | .device user _ => user.tenantId
  | .usersCreate tenantId _ => tenantId
  | .onModuleInit => ""

/-- The device the call names. -/
def AdminCall.target : AdminCall → String
  | .device _ (.rename id _) | .device _ (.setAssetType id _) | .device _ (.setStatus id _)
  | .device _ (.assignDepartment id _) | .device _ (.remove id) | .device _ (.restore id) => id
  | _ => ""

/-- The calls, interleaved at their awaits. -/
abbrev administration (D : ApiDeployment) :
    System apiSig Nat AdminCall Unit Store Outcome EnvMove :=
  apiCalls D (AdminCall.code D)

/-! ## Phases -/

/-- The plan that a subscription grants. -/
def Plan.given (sub : Option Subscription) : Plan :=
  PLANS ((sub.bind fun sub => planOf sub.planId).getD DEFAULT_PLAN)

/-- What a call has seen. -/
structure AdminPhase where
  tenantId : String
  target : String
  -- The device that was looked up.
  found : Option Device := none
  -- The id that was drawn for a new row.
  id : Option String := none
  plan : Option Plan := none
  devices : Option Nat := none
  users : Option Nat := none
  -- The IMEIs to start with.
  listed : Option (List String) := none
  -- The IMEI whose device was written, and that is still to be published.
  owes : Option String := none
  -- That device, and whether it may send as the call has written it (or has found it restored).
  standing : Option (String × Bool) := none
  -- The device was restored, and was not looked up again yet.
  restored : Bool := false

namespace AdminPhase

/-- The usage that was counted. -/
def counted (q : AdminPhase) : Resource → Option Nat
  | .devices => q.devices
  | .users => q.users

/-- The device that was looked up. After a restore it is looked up again, and only published if
it may send data. -/
def lookUp (q : AdminPhase) (d : Option Device) : AdminPhase :=
  match q.owes with
  | none => { q with found := d, restored := false }
  | some _ =>
    { q with owes := (d.filter fun d => d.status ∈ SENDING_STATUSES).map Device.imei,
             standing := d.map fun d => (d.id, decide (d.status ∈ SENDING_STATUSES)),
             restored := false }

/-- One more thing has been seen. -/
def next (q : AdminPhase) : Seen apiSig → AdminPhase
  | .answered (.backend (.devicesFindById _ _ _)) r =>
    match r with
    | .ok d => q.lookUp d
    | .error _ => { q with owes := none, restored := false }
  | .answered (.subscriptionGet _) (.ok sub) => { q with plan := some (Plan.given sub) }
  | .answered (.devicesCount _) (.ok n) => { q with devices := some n }
  | .answered (.usersCount _) (.ok n) => { q with users := some n }
  | .answered .activeImeis (.ok imeis) => { q with listed := some imeis }
  | .did .randomUUID id => { q with id := some id }
  | .answered (.devicesCreate d) r =>
    match r with
    | .ok _ =>
      { q with id := none, owes := some d.imei,
               standing := some (d.id, decide (d.status ∈ SENDING_STATUSES)), restored := false }
    | .error _ => { q with id := none }
  | .answered (.usersCreate _) _ => { q with id := none }
  | .answered (.devicesUpdate _ id patch) (.ok (some _)) =>
    match patch.status with
    | some status =>
      { q with owes := q.found.map Device.imei,
               standing := some (id, decide (status ∈ SENDING_STATUSES)), restored := false }
    | none => q
  | .answered (.devicesSoftDelete _ id _) (.ok _) =>
    { q with owes := q.found.map Device.imei, standing := some (id, false), restored := false }
  | .answered (.devicesRestore _ _) (.ok true) =>
    { q with owes := q.found.map Device.imei, standing := none, restored := true }
  | .answered (.allowListAdd _) _ | .answered (.allowListRemove _) _ =>
    { q with owes := none, restored := false }
  | _ => q

/-- The quota check has passed. -/
def MayAdd (q : AdminPhase) (resource : Resource) : Prop :=
  ∃ plan used, q.plan = some plan ∧ q.counted resource = some used ∧
    used < plan.limits.get resource

/-- The IMEI is to be published, of a device that may send or may not. -/
def Publishes (q : AdminPhase) (imei : String) (sends : Bool) : Prop :=
  q.owes = some imei ∧ ∃ id, q.standing = some (id, sends)

/-- The device of the call, once it was found. -/
def Names (q : AdminPhase) (tenantId id : String) : Prop :=
  tenantId = q.tenantId ∧ id = q.target ∧ q.found.isSome

/-- What a call may await. -/
def may (q : AdminPhase) : ApiOp → Prop
  | .backend (.findByImei _) | .backend (.orgUnitsList _) => True
  | .backend (.devicesFindById tenantId id _) =>
    tenantId = q.tenantId ∧ id = q.target ∧ (q.owes.isSome → q.found.isSome ∧ q.restored)
  | .orgUnitsFindById _ _ | .usersFindByEmail _ | .activeImeis => True
  | .subscriptionGet tenantId | .devicesCount tenantId | .usersCount tenantId =>
    tenantId = q.tenantId
  | .devicesCreate d =>
    d.tenantId = q.tenantId ∧ q.id = some d.id ∧ (q.owes = none ∧ q.found = none) ∧
      q.MayAdd .devices
  | .usersCreate u => u.tenantId = q.tenantId ∧ q.id = some u.id ∧ q.MayAdd .users
  | .devicesUpdate tenantId id _ | .devicesSoftDelete tenantId id _ =>
    q.Names tenantId id ∧ q.owes = none
  | .devicesRestore tenantId id => q.Names tenantId id ∧ q.owes = none ∧ q.MayAdd .devices
  | .allowListAdd imei => q.Publishes imei true
  | .allowListRemove imei => q.Publishes imei false
  | .allowListReplaceAll imeis => q.listed = some imeis
  | _ => False

/-- A lookup changes nothing else. -/
theorem lookUp_same (q : AdminPhase) (d : Option Device) :
    (q.lookUp d).tenantId = q.tenantId ∧ (q.lookUp d).target = q.target ∧
      (q.lookUp d).id = q.id ∧ (q.lookUp d).plan = q.plan := by
  unfold lookUp
  split
  · exact ⟨rfl, rfl, rfl, rfl⟩
  · exact ⟨rfl, rfl, rfl, rfl⟩

/-- A call stays with its tenant and its device. -/
theorem next_same (q : AdminPhase) (e : Seen apiSig) :
    (q.next e).tenantId = q.tenantId ∧ (q.next e).target = q.target := by
  fun_cases AdminPhase.next q e
  case case1 => exact ⟨(q.lookUp_same _).1, (q.lookUp_same _).2.1⟩
  all_goals exact ⟨rfl, rfl⟩

/-- A call knows the plan that it has read. -/
theorem next_plan (q : AdminPhase) (e : Seen apiSig) :
    (q.next e).plan = q.plan ∨ ∃ tenantId sub,
      e = .answered (.subscriptionGet tenantId) (.ok sub) ∧
        (q.next e).plan = some (Plan.given sub) := by
  fun_cases AdminPhase.next q e
  case case1 => exact Or.inl (q.lookUp_same _).2.2.2
  case case3 tenantId sub => exact Or.inr ⟨tenantId, sub, rfl, rfl⟩
  all_goals exact Or.inl rfl

/-- What a call may do at once. -/
def mayAct : ApiAct → Prop
  | .randomUUID | .forgetImei _ | .backend .now => True
  | _ => False

end AdminPhase

/-- The typestate of the calls: none ends with an IMEI that it still has to publish. -/
def administrators : Typestate apiSig AdminCall Unit where
  Phase := AdminPhase
  init c := { tenantId := c.tenantId, target := c.target }
  next := AdminPhase.next
  may := AdminPhase.may
  mayAct _ := AdminPhase.mayAct
  done q _ := q.owes = none

/-- How far a call in progress has come. -/
def adminPhase (th : Thread apiSig AdminCall Unit) : AdminPhase := administrators.phaseOf th

/-! ## The services -/

section Services

variable {user : AuthUser} {q : AdminPhase} {tenantId id : String}

/-- The code ends with nothing to publish. -/
abbrev Tidy (x : Api Unit) (q : AdminPhase) : Prop :=
  administrators.Conforms x q fun q' _ => AdminPhase.owes q' = none

theorem tidy_scopeFor {f : Option (List String) → Api Unit} (howes : q.owes = none)
    (hok : ∀ scope, Tidy (f scope) q) : Tidy (Api.lift (scopeFor user) >>= f) q := by
  unfold scopeFor
  cases user.departmentId.filter truthy with
  | none => exact hok none
  | some departmentId =>
    simp only [Api.lift_bind, Api.lift_pure, bind_assoc, pure_bind]
    rw [Api.lift_request]
    exact Conforms.perform_bind trivial (fun units => hok _) fun _ => howes

/-- A device is looked up before anything else is done. -/
theorem tidy_getScoped {includeDeleted : Bool} {f : Device → Api Unit}
    (htenant : user.tenantId = tenantId)
    (hok : ∀ d, Tidy (f d) { tenantId, target := id, found := some d }) :
    Tidy (Api.lift (getScoped user id includeDeleted) >>= f) { tenantId, target := id } := by
  simp only [getScoped, Api.lift_bind, bind_assoc]
  rw [Api.lift_request]
  refine Conforms.perform_bind ⟨htenant, rfl, fun hd => (by cases hd)⟩ (fun found => ?_) fun _ => rfl
  cases found with
  | none => exact rfl
  | some d =>
    simp only [Api.lift_bind, bind_assoc]
    refine tidy_scopeFor rfl fun scope => ?_
    split
    · exact rfl
    · exact hok d

theorem tidy_assertDepartmentInScope {departmentId : Option String} {f : Unit → Api Unit}
    (howes : q.owes = none) (hok : Tidy (f ()) q) :
    Tidy (DevicesService.assertDepartmentInScope user departmentId >>= f) q := by
  unfold DevicesService.assertDepartmentInScope
  cases departmentId with
  | none =>
    dsimp only
    split
    · exact howes
    · exact hok
  | some departmentId =>
    simp only [bind_assoc]
    refine Conforms.perform_bind trivial (fun found => ?_) fun _ => howes
    cases found with
    | none => exact howes
    | some u =>
      simp only [bind_assoc]
      refine tidy_scopeFor howes fun scope => ?_
      split
      · exact howes
      · exact hok

/-- The quota check leaves behind what it has counted. -/
theorem tidy_assertCanAdd {resource : Resource} {f : Unit → Api Unit}
    (htenant : tenantId = q.tenantId) (howes : q.owes = none)
    (hok : ∀ q' : AdminPhase, q'.tenantId = q.tenantId → q'.target = q.target →
      q'.found = q.found → q'.owes = none → q'.MayAdd resource → Tidy (f ()) q') :
    Tidy (BillingService.assertCanAdd tenantId resource >>= f) q := by
  simp only [BillingService.assertCanAdd, BillingService.planFor, BillingService.usage,
    bind_assoc, pure_bind]
  refine Conforms.perform_bind htenant (fun sub => ?_) fun _ => howes
  refine Conforms.perform_bind htenant (fun devices => ?_) fun _ => howes
  refine Conforms.perform_bind htenant (fun users => ?_) fun _ => howes
  split
  case isTrue => exact howes
  case isFalse hroom =>
    refine hok _ rfl rfl rfl howes ⟨Plan.given sub, _, rfl, ?_, not_le.mp fun hle =>
      hroom (decide_eq_true hle)⟩
    cases resource with
    | devices => rfl
    | users => rfl

theorem tidy_provision (imei model : String) (departmentId : Option (Option String))
    (name : Option String) (assetType : AssetType) :
    Tidy ((DeviceCall.provision imei model departmentId name assetType).code user)
      { tenantId := user.tenantId, target := "" } := by
  simp only [DeviceCall.code, DevicesService.provision, BillingService.assertCanAddDevice,
    bind_assoc]
  refine Conforms.perform_bind trivial (fun existing => ?_) fun _ => rfl
  cases existing with
  | some _ => exact rfl
  | none =>
    simp only [bind_assoc, pure_bind]
    refine tidy_assertCanAdd rfl rfl fun q htenant _ hfound howes hroom => ?_
    refine tidy_assertDepartmentInScope howes ?_
    refine Conforms.action_bind trivial fun id => ?_
    refine Conforms.perform_bind ⟨htenant.symm, rfl, ⟨howes, hfound⟩, hroom⟩ (fun device => ?_)
      fun _ => howes
    exact Conforms.perform_bind ⟨rfl, id, rfl⟩ (fun _ => rfl) fun _ => rfl

/-- A field other than the status is changed. -/
theorem tidy_updateFound {patch : DevicePatch} {f : Device → Api Unit} (howes : q.owes = none)
    (hnames : q.Names user.tenantId id) (hpatch : patch.status = none)
    (hok : ∀ d, Tidy (f d) q) : Tidy (DevicesService.updateFound user id patch >>= f) q := by
  simp only [DevicesService.updateFound, bind_assoc]
  refine Conforms.perform_bind ⟨hnames, howes⟩ (fun updated => ?_) fun _ => howes
  cases updated with
  | none => exact howes
  | some d =>
    have hnext : AdminPhase.next q (.answered (.devicesUpdate user.tenantId id patch)
        (.ok (some d))) = q := by
      simp only [AdminPhase.next, hpatch]
    show Tidy (f d) (AdminPhase.next q (.answered (.devicesUpdate user.tenantId id patch)
      (.ok (some d))))
    rw [hnext]
    exact hok d

theorem tidy_setStatus (id : String) (status : DeviceStatus) :
    Tidy ((DeviceCall.setStatus id status).code user)
      { tenantId := user.tenantId, target := id } := by
  simp only [DeviceCall.code, DevicesService.setStatus, DevicesService.get,
    DevicesService.updateFound, bind_assoc]
  refine tidy_getScoped rfl fun d => ?_
  refine Conforms.perform_bind ⟨⟨rfl, rfl, rfl⟩, rfl⟩ (fun updated => ?_) fun _ => rfl
  cases updated with
  | none => exact rfl
  | some _ =>
    simp only [pure_bind]
    -- the status that was written decides between add and remove
    split
    case isTrue hsends =>
      simp only [bind_assoc, pure_bind]
      refine Conforms.perform_bind ⟨rfl, id, ?_⟩ (fun _ => rfl) fun _ => rfl
      exact congrArg (fun sends => some (id, sends)) (decide_eq_true hsends)
    case isFalse hsends =>
      simp only [bind_assoc, pure_bind]
      refine Conforms.perform_bind ⟨rfl, id, ?_⟩ (fun _ => rfl) fun _ => rfl
      exact congrArg (fun sends => some (id, sends)) (decide_eq_false hsends)

theorem tidy_remove (id : String) : Tidy ((DeviceCall.remove id).code user)
    { tenantId := user.tenantId, target := id } := by
  simp only [DeviceCall.code, DevicesService.remove, DevicesService.get, nowText, Api.lift_bind,
    Api.lift_pure, bind_assoc, pure_bind]
  refine tidy_getScoped rfl fun d => Conforms.action_bind trivial fun now => ?_
  refine Conforms.perform_bind ⟨⟨rfl, rfl, rfl⟩, rfl⟩ (fun _ => ?_) fun _ => rfl
  refine Conforms.perform_bind ⟨rfl, id, rfl⟩ (fun _ => ?_) fun _ => rfl
  exact conforms_action.mpr ⟨trivial, fun _ => rfl⟩

/-- A restored device is looked up again, and what it says then is published. -/
theorem tidy_welcome {f : Device → Api Unit} (hnames : q.Names user.tenantId id)
    (howes : q.owes.isSome) (hrestored : q.restored)
    (hok : ∀ d q', AdminPhase.owes q' = none → Tidy (f d) q') :
    Tidy (DevicesService.welcome user id >>= f) q := by
  obtain ⟨imei, howes⟩ := Option.isSome_iff_exists.mp howes
  obtain ⟨tenant, target, found, drawn, plan, devices, users, listed, owes, standing, restored⟩ := q
  obtain rfl : owes = some imei := howes
  simp only [DevicesService.welcome, bind_assoc]
  refine Conforms.perform_bind ⟨hnames.1, hnames.2.1, fun _ => ⟨hnames.2.2, hrestored⟩⟩
    (fun restored => ?_) fun _ => rfl
  cases restored with
  | none => exact rfl
  | some d =>
    dsimp only
    split
    case isTrue hsends =>
      simp only [bind_assoc, pure_bind]
      refine Conforms.perform_bind ?_ (fun _ => ?_) fun _ => rfl
      · simp [administrators, AdminPhase.may, AdminPhase.Publishes, AdminPhase.next,
          AdminPhase.lookUp, Option.filter, hsends]
      exact Conforms.action_bind trivial fun _ => hok d _ rfl
    case isFalse hnot =>
      simp only [bind_assoc, pure_bind]
      exact Conforms.action_bind trivial fun _ => hok d _ (by simp [Option.filter, hnot,
        administrators, AdminPhase.next, AdminPhase.lookUp])

theorem tidy_restore (id : String) : Tidy ((DeviceCall.restore id).code user)
    { tenantId := user.tenantId, target := id } := by
  simp only [DeviceCall.code, DevicesService.restore, BillingService.assertCanAddDevice, bind_assoc]
  refine Conforms.perform_bind ⟨rfl, rfl, fun hd => (by cases hd)⟩ (fun found => ?_) fun _ => rfl
  cases hfound : found.filter fun d => decide (d.deletedAt ≠ none) with
  | none => exact rfl
  | some d =>
    obtain ⟨rfl, -⟩ := Option.filter_eq_some_iff.mp hfound
    simp only [bind_assoc]
    refine tidy_scopeFor rfl fun scope => ?_
    split
    case isTrue => exact rfl
    case isFalse =>
      simp only [bind_assoc]
      -- the quota is looked at before the row is written
      refine tidy_assertCanAdd rfl rfl fun q htenant htarget hdevice howes hroom => ?_
      have hnames : q.Names user.tenantId id := ⟨htenant.symm, htarget.symm, by rw [hdevice]; rfl⟩
      refine Conforms.perform_bind ⟨hnames, howes, hroom⟩ (fun ok => ?_) fun _ => howes
      cases ok with
      | false => exact howes
      | true =>
        refine tidy_welcome (q := { q with
          owes := q.found.map Device.imei, standing := none, restored := true }) hnames ?_
          rfl fun _ _ howes => howes
        rw [hdevice]
        rfl

theorem tidy_usersCreate {D : ApiDeployment} (dto : CreateUserDto) :
    Tidy ((AdminCall.usersCreate tenantId dto).code D) { tenantId, target := "" } := by
  simp only [AdminCall.code, UsersService.create, BillingService.assertCanAddUser, bind_assoc]
  refine Conforms.perform_bind trivial (fun existing => ?_) fun _ => rfl
  split
  case isTrue => exact rfl
  case isFalse =>
    simp only [bind_assoc, pure_bind]
    refine tidy_assertCanAdd rfl rfl fun q htenant _ _ howes hroom => ?_
    refine Conforms.action_bind trivial fun id => ?_
    exact Conforms.perform_bind ⟨htenant.symm, rfl, hroom⟩ (fun _ => howes) fun _ => howes

/-- **Every call follows the typestate.** -/
theorem administration_conforms (D : ApiDeployment) (c : AdminCall) :
    Tidy (c.code D) { tenantId := c.tenantId, target := c.target } := by
  cases c with
  | usersCreate tenantId dto => exact tidy_usersCreate dto
  | onModuleInit =>
    refine Conforms.perform_bind trivial (fun imeis => ?_) fun _ => rfl
    exact conforms_perform.mpr ⟨rfl, fun _ => rfl⟩
  | device user call =>
    cases call with
    | provision imei model departmentId name assetType =>
      exact tidy_provision imei model departmentId name assetType
    | rename id name =>
      simp only [AdminCall.code, DeviceCall.code, DevicesService.rename, DevicesService.get,
        bind_assoc]
      exact tidy_getScoped rfl fun d => tidy_updateFound rfl ⟨rfl, rfl, rfl⟩ rfl fun _ => rfl
    | setAssetType id assetType =>
      simp only [AdminCall.code, DeviceCall.code, DevicesService.setAssetType, DevicesService.get,
        bind_assoc]
      exact tidy_getScoped rfl fun d => tidy_updateFound rfl ⟨rfl, rfl, rfl⟩ rfl fun _ => rfl
    | setStatus id status => exact tidy_setStatus id status
    | assignDepartment id departmentId =>
      simp only [AdminCall.code, DeviceCall.code, DevicesService.assignDepartment,
        DevicesService.get, bind_assoc]
      exact tidy_getScoped rfl fun d => tidy_assertDepartmentInScope rfl
        (tidy_updateFound rfl ⟨rfl, rfl, rfl⟩ rfl fun _ => rfl)
    | remove id => exact tidy_remove id
    | restore id => exact tidy_restore id

end Services

/-! ## What the requests do -/

/-- The row that a request writes to the devices. -/
def ApiOp.writes (s : Store) : ApiOp → Option Device
  | .devicesCreate d => some { d with deletedAt := none }
  | .devicesUpdate tenantId id patch => s.backend.devices.update tenantId id patch
  | .devicesSoftDelete tenantId id at' => s.backend.devices.softDelete tenantId id at'
  | .devicesRestore tenantId id => s.backend.devices.restore tenantId id
  | _ => none

/-- The id of the row that a request adds. -/
def ApiOp.newId : ApiOp → Option String
  | .devicesCreate d => some d.id
  | .usersCreate u => some u.id
  | _ => none

/-- A row has the id. -/
def Store.UsesId (s : Store) (id : String) : Prop :=
  (∃ d ∈ s.backend.devices.rows, d.id = id) ∨ ∃ u ∈ s.users.rows, u.id = id

section Requests

variable {D : ApiDeployment} {s s' : Store} {q : AdminPhase} {op : ApiOp} {i : Nat}
  {c : AdminCall} {x : Outcome} {r : Except ApiError op.Res}

@[simp] theorem DeviceTable.write_none (t : DeviceTable) : t.write none = t := rfl

@[simp] theorem DeviceTable.write_some (t : DeviceTable) (d : Device) :
    t.write (some d) = t.put d := rfl

/-- The devices change by the one row. -/
theorem effect_devices (s : Store) (op : ApiOp) :
    (s.effect op).backend.devices = s.backend.devices.write (op.writes s) := by
  cases op with
  | backend op => cases op <;> rfl
  | usersUpdate id patch =>
    simp only [Store.effect]
    split
    · rfl
    · rfl
  | vehiclesUpdate tenantId id deviceId =>
    simp only [Store.effect]
    split
    · rfl
    · rfl
  | geofencesRemove tenantId id =>
    simp only [Store.effect]
    split
    · rfl
    · rfl
  | _ => rfl

/-- A row that is not new replaces one with its id, tenant and IMEI. -/
theorem old_of_writes (hnew : op.newId = none) {d : Device} (hd : op.writes s = some d) :
    ∃ e ∈ s.backend.devices.rows, e.id = d.id ∧ e.tenantId = d.tenantId ∧ e.imei = d.imei := by
  cases op with
  | devicesUpdate tenantId id patch =>
    obtain ⟨e, hfound, rfl⟩ := Option.map_eq_some_iff.mp hd
    exact ⟨e, (DeviceTable.findById_eq_some_iff.mp hfound).1, rfl, rfl, rfl⟩
  | devicesSoftDelete tenantId id at' =>
    obtain ⟨e, hfound, rfl⟩ := Option.map_eq_some_iff.mp hd
    exact ⟨e, (DeviceTable.findById_eq_some_iff.mp hfound).1, rfl, rfl, rfl⟩
  | devicesRestore tenantId id =>
    obtain ⟨e, hfound, rfl⟩ := Option.map_eq_some_iff.mp hd
    obtain ⟨hfound, -⟩ := Option.filter_eq_some_iff.mp hfound
    exact ⟨e, (DeviceTable.findById_eq_some_iff.mp hfound).1, rfl, rfl, rfl⟩
  | devicesCreate d => cases hnew
  | _ => cases hd

/-- The users change by the one that is created. -/
theorem effect_users (hmay : q.may op) :
    (s.effect op).users = s.users ∧ (∀ u, op ≠ .usersCreate u) ∨
      ∃ u, op = .usersCreate u ∧ (s.effect op).users = s.users.put u := by
  cases op with
  | usersCreate u => exact Or.inr ⟨u, rfl, rfl⟩
  | backend op =>
    cases op with
    | _ => first | exact hmay.elim | exact Or.inl ⟨rfl, fun _ => by simp⟩
  | _ => first | exact hmay.elim | exact Or.inl ⟨rfl, fun _ => by simp⟩

/-- None of the requests notes a read. -/
theorem noteRead_of_may (hmay : q.may op) : s.noteRead i op = s := by
  cases op with
  | backend op =>
    cases op with
    | hotGetLast _ _ => exact hmay.elim
    | positionsLatest _ _ => exact hmay.elim
    | _ => rfl
  | _ => rfl

/-- What a request leaves behind. -/
theorem settle_administration (hmay : q.may op)
    (h : (administration D).settle i c op x s = some (s', r)) :
    (s' = if x.takesEffect then s.effect op else s) ∧
      ∀ a, r = .ok a → ∃ reply, x = .resolves reply ∧ a = s.answer reply op := by
  have hcases := settle_cases h
  rwa [noteRead_of_may hmay] at hcases

/-- No id comes into use but that of a new row. -/
theorem usesId_effect (hmay : q.may op) {id : String} (h : (s.effect op).UsesId id) :
    s.UsesId id ∨ op.newId = some id := by
  rcases h with ⟨d, hd, rfl⟩ | ⟨u, hu, rfl⟩
  · rw [effect_devices] at hd
    cases hwrites : op.writes s with
    | none =>
      rw [hwrites] at hd
      exact Or.inl (Or.inl ⟨d, hd, rfl⟩)
    | some d' =>
      rw [hwrites] at hd
      rcases Table.mem_put.mp hd with rfl | ⟨hd, -⟩
      · cases hnew : op.newId with
        | none =>
          obtain ⟨e, he, hid, -⟩ := old_of_writes hnew hwrites
          exact Or.inl (Or.inl ⟨e, he, hid⟩)
        | some id =>
          cases op with
          | devicesCreate d =>
            cases hwrites
            exact Or.inr hnew.symm
          | usersCreate u => cases hwrites
          | _ => cases hnew
      · exact Or.inl (Or.inl ⟨d, hd, rfl⟩)
  · rcases effect_users (s := s) hmay with ⟨husers, -⟩ | ⟨u', rfl, husers⟩
    · rw [husers] at hu
      exact Or.inl (Or.inr ⟨u, hu, rfl⟩)
    · rw [husers] at hu
      rcases Table.mem_put.mp hu with rfl | ⟨hu, -⟩
      · exact Or.inr rfl
      · exact Or.inl (Or.inr ⟨u, hu, rfl⟩)

/-- The request that adds a row uses the id that was drawn for it. -/
theorem id_of_may (hmay : q.may op) {id : String} (hnew : op.newId = some id) : q.id = some id := by
  cases op with
  | devicesCreate d => exact hmay.2.1.trans hnew
  | usersCreate u => exact hmay.2.1.trans hnew
  | _ => cases hnew

/-- The id that was drawn is kept until a row is added, which uses it up. -/
theorem next_id (q : AdminPhase) (r : Except ApiError op.Res) :
    (q.next (.answered op r)).id = if op.newId = none then q.id else none := by
  -- only the writes that take an id give it up; every other answer leaves it held
  cases op with
  | devicesCreate d =>
    cases r with
    | ok _ => rfl
    | error _ => rfl
  | devicesUpdate tenantId id patch =>
    match r with
    | .ok (some _) =>
      simp only [AdminPhase.next]
      split
      · rfl
      · rfl
    | .ok none => rfl
    | .error _ => rfl
  | devicesRestore tenantId id =>
    match r with
    | .ok true => rfl
    | .ok false => rfl
    | .error _ => rfl
  | backend op =>
    cases op with
    | devicesFindById tenantId id b =>
      cases r with
      | ok d =>
        simp only [AdminPhase.next, AdminPhase.lookUp]
        split
        · rfl
        · rfl
      | error _ => rfl
    | _ => rfl
  | _ =>
    cases r with
    | ok _ => rfl
    | error _ => rfl

end Requests

/-! ## Ids of new rows -/

/-- The calls in progress and how far they have come. -/
abbrev AdminPhases := Nat → Option (AdminCall × AdminPhase)

/-- The ids that were drawn and are still to be used. -/
def idsHeld (ph : AdminPhases) : Nat → Option String := heldBy (fun call => call.2.id) ph

/-- No id that a call has drawn, or will draw, is that of a row. -/
def IdsInv (D : ApiDeployment) (s : Store) (ph : AdminPhases) : Prop :=
  Supply D.uuid s.drawn s.UsesId (idsHeld ph)

theorem idsInv_start {D : ApiDeployment} {s : Store}
    (hdevices : s.Unused D (s.backend.devices.rows.map Device.id))
    (husers : s.Unused D (s.users.rows.map User.id)) : IdsInv D s fun _ => none := by
  refine Supply.start fun id hused n hn => ?_
  rcases hused with ⟨d, hd, rfl⟩ | ⟨u, hu, rfl⟩
  · exact hdevices d.id (List.mem_map_of_mem hd) n hn
  · exact husers u.id (List.mem_map_of_mem hu) n hn

section Ids

variable {D : ApiDeployment} {s s' : Store} {ph : AdminPhases} {i : Nat} {c : AdminCall}
  {q q' : AdminPhase} {op : ApiOp}

/-- A row that is added has an id that no row has. -/
theorem IdsInv.fresh (h : IdsInv D s ph) (hi : ph i = some (c, q)) (hmay : q.may op) {id : String}
    (hnew : op.newId = some id) : ¬ s.UsesId id := by
  apply h.unused i
  rw [idsHeld, heldBy, hi]
  exact id_of_may hmay hnew

/-- A call starts. -/
theorem IdsInv.start (h : IdsInv D s ph) (hi : ph i = none) (hq : q.id = none) :
    IdsInv D s (Function.update ph i (some (c, q))) := by
  unfold IdsInv idsHeld
  rwa [heldBy_idle hi hq]

/-- A call ends. -/
theorem IdsInv.finish (h : IdsInv D s ph) : IdsInv D s (Function.update ph i none) := by
  unfold IdsInv idsHeld
  rw [heldBy_erase]
  exact Supply.drop h i

/-- A call draws an id. -/
theorem IdsInv.draw (h : IdsInv D s ph) (hq : q.id = some (D.uuid s.drawn)) :
    IdsInv D { s with drawn := s.drawn + 1 } (Function.update ph i (some (c, q))) := by
  unfold IdsInv idsHeld
  rw [heldBy_update, hq]
  exact Supply.draw h D.fresh i

/-- A call goes on, and keeps the id it has drawn. -/
theorem IdsInv.keep (h : IdsInv D s ph) (hi : ph i = some (c, q)) (hq : q'.id = q.id)
    (hdrawn : s'.drawn = s.drawn) (hused : ∀ id, s'.UsesId id → s.UsesId id) :
    IdsInv D s' (Function.update ph i (some (c, q'))) := by
  unfold IdsInv idsHeld
  rw [heldBy_same hi hq]
  exact h.mono hdrawn.ge hused

/-- A call adds a row with the id it has drawn. -/
theorem IdsInv.use (h : IdsInv D s ph) (hi : ph i = some (c, q)) {id : String}
    (hid : q.id = some id) (hq : q'.id = none) (hdrawn : s'.drawn = s.drawn)
    (hused : ∀ a, s'.UsesId a → a = id ∨ s.UsesId a) :
    IdsInv D s' (Function.update ph i (some (c, q'))) := by
  have hheld : idsHeld ph i = some id := by rw [idsHeld, heldBy, hi]; exact hid
  unfold IdsInv idsHeld
  rw [heldBy_update, hq, hdrawn]
  exact Supply.use h hheld hused

/-- A request turns out. -/
theorem IdsInv.settle (h : IdsInv D s ph) (hi : ph i = some (c, q)) (hmay : q.may op)
    (hs' : s' = s.effect op ∨ s' = s) (r : Except ApiError op.Res) :
    IdsInv D s' (Function.update ph i (some (c, q.next (.answered op r)))) := by
  have hdrawn : s'.drawn = s.drawn := by
    rcases hs' with rfl | rfl
    · exact effect_drawn s op
    · rfl
  have hused : ∀ id, s'.UsesId id → s.UsesId id ∨ op.newId = some id := by
    intro id hid
    rcases hs' with rfl | rfl
    · exact usesId_effect hmay hid
    · exact Or.inl hid
  have hnext := next_id q r
  cases hnew : op.newId with
  | none =>
    rw [if_pos hnew] at hnext
    refine h.keep hi hnext hdrawn fun id hid => (hused id hid).resolve_right ?_
    simp [hnew]
  | some id =>
    rw [if_neg (by simp [hnew])] at hnext
    refine h.use hi (id_of_may hmay hnew) hnext hdrawn fun a ha => ?_
    rcases hused a ha with ha | ha
    · exact Or.inr ha
    · exact Or.inl (Option.some_inj.mp (ha.symm.trans hnew))

/-- Every step keeps the ids apart. -/
theorem ids_preserves :
    Preserves (administration D) administrators (fun _ _ => True) (IdsInv D) where
  code := administration_conforms D
  start cfg i c h hi _ := h.start (Option.map_eq_none_iff.mpr hi) rfl
  act s ph i c q a h hi hmay := by
    cases a with
    | randomUUID => exact IdsInv.draw h rfl
    | forgetImei imei => exact IdsInv.keep h hi rfl rfl fun _ hid => hid
    | backend a =>
      cases a with
      | now => exact IdsInv.keep h hi rfl rfl fun _ hid => hid
      | _ => exact hmay.elim
    | sweepOffline _ _ => exact hmay.elim
  settle cfg i th x s' r h hth hmay _ hs := by
    -- a rejected write may have been stored: both outcomes are covered
    refine h.settle (phases_of_lookup (T := administrators) hth) hmay ?_ r
    rw [(settle_administration hmay hs).1]
    split
    · exact Or.inl rfl
    · exact Or.inr rfl
  finish s ph i c q r h _ _ := IdsInv.finish h
  env cfg e s' h _ hs := by
    obtain rfl := Option.some_inj.mp hs
    cases e with
    | elapse ms => exact h
    | expire tenantId deviceId => exact h

end Ids

end FleetTracking.ControlPlane
