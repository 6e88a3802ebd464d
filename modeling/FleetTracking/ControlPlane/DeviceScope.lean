import FleetTracking.ControlPlane.Account

/-!
# Lists and Lookups Agree

Whether a user may access a device is decided in four places: in the query of `list`, in
`getScoped`, in the filter of `listDeleted` and in `restore`. Each reads the departments of the
tenant and tests the subtree of the user's department in its own way.

1. `Store.reply`: what a call answers when its requests resolve.
2. `resolves_getScoped`, `resolves_assertCanAdd`: what the checks throw.
3. `lists_and_lookups_agree`.
-/

namespace FleetTracking.ControlPlane

open Async

/-! ## Answers -/

section Answers

variable {α β : Type} {D : ApiDeployment} {s : Store} {user : AuthUser} {id : String}

/-- What a call answers when all its requests resolve. -/
def Store.reply (D : ApiDeployment) (s : Store) (x : Api α) : Option (Except ApiError α) :=
  (s.complete D (fun _ => .resolves "") x).map Prod.fst

/-- The call returns. -/
def Store.Succeeds (D : ApiDeployment) (s : Store) (x : Api α) : Prop :=
  ∃ a, s.reply D x = some (.ok a)

/-- The call answers 404. -/
def Store.NotFound (D : ApiDeployment) (s : Store) (x : Api α) : Prop :=
  ∃ message, s.reply D x = some (.error (.notFound message))

/-- A device with the id is in the list that the call returns. -/
def Store.Lists (D : ApiDeployment) (s : Store) (x : Api (List Device)) (id : String) : Prop :=
  ∃ ds, s.reply D x = some (.ok ds) ∧ ∃ d ∈ ds, d.id = id

/-- A call answers something, with what the rules show. -/
theorem exists_reply {x : Api α} {Q : Except ApiError α → Store → Prop}
    (h : Store.Ends D resolves Q x s) : ∃ r s', s.reply D x = some r ∧ Q r s' := by
  obtain ⟨⟨r, s'⟩, hout⟩ := exists_complete D (fun _ => .resolves "") x s
  refine ⟨r, s', ?_, h.of_complete (resolves_always "") hout⟩
  rw [Store.reply, hout, Option.map_some]

theorem reply_of_ends {x : Api α} {r : Except ApiError α}
    (h : Store.Ends D resolves (fun r' _ => r' = r) x s) : s.reply D x = some r := by
  obtain ⟨r', s', hreply, rfl⟩ := exists_reply h
  exact hreply

/-! ## The checks -/

/-- `ends_scopeFor` where every request resolves. -/
theorem resolves_scopeFor {f : Option (List String) → Api β} {Q : Except ApiError β → Store → Prop}
    (hok : Store.Ends D resolves Q (f (user.scope s.backend.orgUnits)) s) :
    Store.Ends D resolves Q (Api.lift (scopeFor user) >>= f) s :=
  ends_scopeFor hok fun _ _ hx => absurd hx not_resolves

/-- `getScoped` answers with the device, or 404. -/
theorem resolves_getScoped {includeDeleted : Bool} :
    Store.Ends D resolves (fun r _ => r = match s.scoped user id includeDeleted with
        | some d => .ok d
        | none => .error (.notFound "Device not found"))
      (Api.lift (getScoped user id includeDeleted)) s := by
  simp only [getScoped, Api.lift_bind]
  rw [Api.lift_request]
  refine resolves_read rfl rfl fun _ => ?_
  simp only [Store.answer, Backend.answer, Store.scoped]
  cases s.backend.devices.findById user.tenantId id includeDeleted with
  | none => exact rfl
  | some d =>
    simp only [Api.lift_bind]
    refine resolves_scopeFor ?_
    by_cases hout : outOfScope (user.scope s.backend.orgUnits) d = true
    · simp only [hout, if_true, Option.filter]
      exact rfl
    · simp only [hout, Option.filter]
      exact rfl

/-- The quota check refuses with 402. -/
theorem resolves_assertCanAdd {tenantId : String} {resource : Resource} {f : Unit → Api β}
    {Q : Except ApiError β → Store → Prop} (hok : Store.Ends D resolves Q (f ()) s)
    (herr : ∀ message, Q (.error (.paymentRequired message)) s) :
    Store.Ends D resolves Q (BillingService.assertCanAdd tenantId resource >>= f) s := by
  simp only [BillingService.assertCanAdd, BillingService.planFor, BillingService.usage,
    bind_assoc, pure_bind]
  refine resolves_read rfl rfl fun _ => ?_
  refine resolves_read rfl rfl fun _ => ?_
  refine resolves_read rfl rfl fun _ => ?_
  split
  · exact herr _
  · exact hok

/-! ## The lists and the lookups -/

/-- A device that is found in the user's departments. -/
theorem scoped_isSome_iff {includeDeleted : Bool} :
    (∃ d, s.scoped user id includeDeleted = some d) ↔ ∃ d ∈ s.backend.devices.rows, d.id = id ∧
      d.within user.tenantId (user.scope s.backend.orgUnits) ∧
        (includeDeleted ∨ d.deletedAt = none) := by
  unfold Store.scoped
  simp only [Option.filter_eq_some_iff, DeviceTable.findById_eq_some_iff, decide_eq_true_eq,
    DeviceTable.not_outOfScope_iff]
  constructor
  · rintro ⟨d, ⟨hd, hid, htenant, hlive⟩, hin⟩
    exact ⟨d, hd, hid, ⟨htenant, hin⟩, hlive⟩
  · rintro ⟨d, hd, hid, ⟨htenant, hin⟩, hlive⟩
    exact ⟨d, ⟨hd, hid, htenant, hlive⟩, hin⟩

theorem succeeds_getScoped {includeDeleted : Bool} :
    s.Succeeds D (Api.lift (getScoped user id includeDeleted)) ↔
      ∃ d ∈ s.backend.devices.rows, d.id = id ∧
        d.within user.tenantId (user.scope s.backend.orgUnits) ∧
          (includeDeleted ∨ d.deletedAt = none) := by
  rw [← scoped_isSome_iff, Store.Succeeds, reply_of_ends resolves_getScoped]
  cases s.scoped user id includeDeleted with
  | none => simp
  | some d => simp

theorem lists_list : s.Lists D (DevicesService.list user) id ↔
    ∃ d ∈ s.backend.devices.rows, d.id = id ∧
      d.within user.tenantId (user.scope s.backend.orgUnits) ∧ d.deletedAt = none := by
  have hreply : s.reply D (DevicesService.list user) =
      some (.ok (s.backend.devices.list user.tenantId (user.scope s.backend.orgUnits))) := by
    refine reply_of_ends ?_
    unfold DevicesService.list
    refine resolves_scopeFor ?_
    rw [← bind_pure (Api.request _)]
    exact resolves_read rfl rfl fun _ => rfl
  rw [Store.Lists, hreply]
  constructor
  · rintro ⟨ds, hds, d, hd, hid⟩
    obtain rfl := Except.ok.inj (Option.some.inj hds)
    obtain ⟨hrow, hin, hlive⟩ := DeviceTable.mem_list.mp hd
    exact ⟨d, hrow, hid, hin, hlive⟩
  · rintro ⟨d, hrow, hid, hin, hlive⟩
    exact ⟨_, rfl, d, DeviceTable.mem_list.mpr ⟨hrow, hin, hlive⟩, hid⟩

theorem lists_listDeleted : s.Lists D (DevicesService.listDeleted user) id ↔
    ∃ d ∈ s.backend.devices.rows, d.id = id ∧
      d.within user.tenantId (user.scope s.backend.orgUnits) ∧ d.deletedAt ≠ none := by
  have hends : Store.Ends D resolves (fun r _ => ∃ ds, r = .ok ds ∧ ∀ d, d ∈ ds ↔
      d ∈ s.backend.devices.rows ∧ d.within user.tenantId (user.scope s.backend.orgUnits) ∧
        d.deletedAt ≠ none) (DevicesService.listDeleted user) s := by
    unfold DevicesService.listDeleted
    refine resolves_scopeFor ?_
    refine resolves_read rfl rfl fun _ => ⟨_, rfl, fun d => ?_⟩
    simp only [Store.answer, DeviceTable.listDeleted, List.mem_filter, List.mem_mergeSort,
      decide_eq_true_eq, DeviceTable.not_outOfScope_iff]
    constructor
    · rintro ⟨⟨hd, htenant, hdeleted⟩, hin⟩
      exact ⟨hd, ⟨htenant, hin⟩, hdeleted⟩
    · rintro ⟨hd, ⟨htenant, hin⟩, hdeleted⟩
      exact ⟨⟨hd, htenant, hdeleted⟩, hin⟩
  obtain ⟨r, s', hreply, ds, rfl, hmem⟩ := exists_reply hends
  rw [Store.Lists, hreply]
  constructor
  · rintro ⟨ds', hds, d, hd, hid⟩
    obtain rfl := Except.ok.inj (Option.some.inj hds)
    obtain ⟨hrow, hin, hdeleted⟩ := (hmem d).mp hd
    exact ⟨d, hrow, hid, hin, hdeleted⟩
  · rintro ⟨d, hrow, hid, hin, hdeleted⟩
    exact ⟨_, rfl, d, (hmem d).mpr ⟨hrow, hin, hdeleted⟩, hid⟩

/-- What the device has to be for `restore` to go on. -/
def Store.Restorable (s : Store) (user : AuthUser) (id : String) : Prop :=
  ∃ d ∈ s.backend.devices.rows, d.id = id ∧
    d.within user.tenantId (user.scope s.backend.orgUnits) ∧ d.deletedAt ≠ none

/-- `restore` answers 404 where the device is not there, is live or out of scope. -/
theorem ends_restore : Store.Ends D resolves
    (fun r _ => (∃ message, r = .error (.notFound message)) ↔ ¬ s.Restorable user id)
    (DevicesService.restore user id) s := by
  unfold DevicesService.restore
  refine resolves_read rfl rfl fun _ => ?_
  simp only [Store.answer, Backend.answer]
  cases hfound : (s.backend.devices.findById user.tenantId id true).filter
      fun d => d.deletedAt ≠ none with
  -- There is no deleted device with the id.
  | none =>
    have hnone : ¬ s.Restorable user id := by
      rintro ⟨d, hd, hid, ⟨htenant, -⟩, hdeleted⟩
      have hget := DeviceTable.findById_eq_some_iff.mpr ⟨hd, hid, htenant, Or.inl rfl⟩
      simp [hget, Option.filter, hdeleted] at hfound
    exact ⟨fun _ => hnone, fun _ => ⟨_, rfl⟩⟩
  | some d =>
    obtain ⟨hget, hdeleted⟩ := Option.filter_eq_some_iff.mp hfound
    obtain ⟨hd, hid, htenant, -⟩ := DeviceTable.findById_eq_some_iff.mp hget
    refine resolves_scopeFor ?_
    by_cases hout : outOfScope (user.scope s.backend.orgUnits) d = true
    · rw [if_pos hout]
      have hnone : ¬ s.Restorable user id := by
        rintro ⟨d', hd', hid', ⟨-, hin⟩, -⟩
        obtain rfl := Table.eq_of_key hd hd' (hid.trans hid'.symm)
        exact DeviceTable.not_outOfScope_iff.mpr hin hout
      exact ⟨fun _ => hnone, fun _ => ⟨_, rfl⟩⟩
    · rw [if_neg hout]
      have hsome : s.Restorable user id :=
        ⟨d, hd, hid, ⟨htenant, DeviceTable.not_outOfScope_iff.mp hout⟩, by simpa using hdeleted⟩
      have hother : ∀ r : Except ApiError Device, (∀ message, r ≠ .error (.notFound message)) →
          ((∃ message, r = .error (.notFound message)) ↔ ¬ s.Restorable user id) := by
        intro r hr
        constructor
        · rintro ⟨message, he⟩
          exact absurd he (hr message)
        · intro hnot
          exact absurd hsome hnot
      -- From here on, whatever goes wrong is not a 404: the plan is full, the IMEI is in use.
      refine resolves_assertCanAdd ?_ fun message => hother _ fun _ he => by cases he
      refine resolves_write rfl fun _ => ?_
      split
      case isFalse => exact hother _ fun _ he => by cases he
      case isTrue =>
        unfold DevicesService.welcome
        refine resolves_read rfl rfl fun _ => ?_
        split
        case h_1 => exact hother _ fun _ he => by cases he
        case h_2 restored hrestored =>
          split
          case isTrue =>
            refine resolves_write rfl fun _ => ?_
            refine ends_step ?_
            exact hother _ fun _ he => by cases he
          case isFalse =>
            refine ends_step ?_
            exact hother _ fun _ he => by cases he

theorem notFound_restore :
    s.NotFound D (DevicesService.restore user id) ↔ ¬ s.Restorable user id := by
  obtain ⟨r, s', hreply, hr⟩ := @exists_reply _ D s _ _ (@ends_restore D s user id)
  rw [Store.NotFound, hreply, ← hr]
  simp only [Option.some.injEq]

/-- **Lists and lookups agree on scope.** Whatever the departments, the devices, the user and the
id: `get` finds exactly what `list` shows, `getIncludingDeleted` what `list` or `listDeleted` shows,
and `restore` answers 404 exactly where `listDeleted` does not show the device. -/
theorem lists_and_lookups_agree (D : ApiDeployment) (s : Store) (user : AuthUser) (id : String) :
    (s.Succeeds D (DevicesService.get user id) ↔ s.Lists D (DevicesService.list user) id) ∧
    (s.Succeeds D (DevicesService.getIncludingDeleted user id) ↔
      s.Lists D (DevicesService.list user) id ∨
        s.Lists D (DevicesService.listDeleted user) id) ∧
    (s.NotFound D (DevicesService.restore user id) ↔
      ¬ s.Lists D (DevicesService.listDeleted user) id) := by
  refine ⟨?_, ?_, ?_⟩
  · rw [lists_list, DevicesService.get, succeeds_getScoped]
    simp only [Bool.false_eq_true, false_or]
  · rw [lists_list, lists_listDeleted, DevicesService.getIncludingDeleted, succeeds_getScoped]
    constructor
    · rintro ⟨d, hd, hid, hin, -⟩
      by_cases hlive : d.deletedAt = none
      · exact Or.inl ⟨d, hd, hid, hin, hlive⟩
      · exact Or.inr ⟨d, hd, hid, hin, hlive⟩
    · rintro (⟨d, hd, hid, hin, -⟩ | ⟨d, hd, hid, hin, -⟩)
      · exact ⟨d, hd, hid, hin, Or.inl rfl⟩
      · exact ⟨d, hd, hid, hin, Or.inl rfl⟩
  · rw [notFound_restore, lists_listDeleted]
    exact Iff.rfl

end Answers

end FleetTracking.ControlPlane
