import FleetTracking.ControlPlane.Administration

/-!
# Quotas Under Concurrency

`BillingService` reads the plan, counts what is used of it, and refuses what would exceed it. The
row is written several awaits later. Operations that overlap may all pass on the same count, and
together exceed the plan.

1. `Store.usage`, `Store.WithinPlan`: what a tenant uses of its plan.
2. `usage_effect`: what a request adds to it.
3. `StillRoom`: where the count has changed since, there is still room.
4. `within_plan_iff`: the plan holds exactly as long as that does.
-/

namespace FleetTracking.ControlPlane

open Async Transition Typestate

/-! ## Usage -/

/-- The plan of a tenant. -/
def Store.planFor (s : Store) (tenantId : String) : Plan :=
  Plan.given (s.subscriptions.get tenantId)

/-- What a tenant uses: its live devices, and its users. -/
def Store.usage (s : Store) (tenantId : String) : Usage where
  devices := s.backend.devices.count tenantId
  users := (s.users.rows.filter fun u => u.tenantId = tenantId).length

/-- The tenant keeps to its plan. -/
def Store.WithinPlan (tenantId : String) (s : Store) : Prop :=
  ∀ resource, (s.usage tenantId).get resource ≤ (s.planFor tenantId).limits.get resource

/-- What a request takes one more of for the tenant, if it takes effect. -/
def ApiOp.adds (tenantId : String) (s : Store) : ApiOp → Option Resource
  | .devicesCreate d => if d.tenantId = tenantId then some .devices else none
  | .devicesRestore tenant id =>
    if tenant = tenantId ∧ (s.backend.devices.restore tenant id).isSome then some .devices else none
  | .usersCreate u => if u.tenantId = tenantId then some .users else none
  | _ => none

section Usage

variable {t : DeviceTable} {tenantId : String} {d e : Device} {s : Store} {q : AdminPhase}
  {op : ApiOp}

/-- The devices that count. -/
def Device.counts (tenantId : String) (d : Device) : Bool :=
  d.tenantId = tenantId ∧ d.deletedAt = none

theorem count_eq (t : DeviceTable) (tenantId : String) :
    t.count tenantId = t.rows.countP (Device.counts tenantId) := by
  rw [DeviceTable.count, DeviceTable.list, List.countP_eq_length_filter]
  congr 1
  exact List.filter_congr fun d _ => by simp [Device.counts]

/-- A device is added. -/
theorem count_put_new (hnew : ∀ e ∈ t.rows, e.id ≠ d.id) :
    DeviceTable.count (t.put d) tenantId = t.count tenantId + if d.counts tenantId then 1 else 0 := by
  rw [count_eq, count_eq]
  exact countP_putRow_new _ hnew

/-- A device is replaced. -/
theorem count_put_old (he : e ∈ t.rows) (hid : e.id = d.id) :
    DeviceTable.count (t.put d) tenantId + (if e.counts tenantId then 1 else 0) =
      t.count tenantId + if d.counts tenantId then 1 else 0 := by
  rw [count_eq, count_eq]
  exact countP_putRow_old _ t.primaryKey he hid

/-- A restored device did not count, and does. -/
theorem count_restore {tenant id : String} (h : t.restore tenant id = some d) :
    DeviceTable.count (t.put d) tenantId = t.count tenantId + if tenant = tenantId then 1 else 0 := by
  obtain ⟨e, hfound, rfl⟩ := Option.map_eq_some_iff.mp h
  obtain ⟨hfound, hfree⟩ := Option.filter_eq_some_iff.mp hfound
  obtain ⟨he, -, rfl, -⟩ := DeviceTable.findById_eq_some_iff.mp hfound
  have hdeleted : e.deletedAt ≠ none := (of_decide_eq_true hfree).1
  have hput := @count_put_old _ tenantId { e with deletedAt := none } _ he rfl
  simpa [Device.counts, hdeleted] using hput

/-- What a request does to the number of live devices. -/
theorem count_effect (hfresh : ∀ id, op.newId = some id → ¬ s.UsesId id) (tenantId : String) :
    if op.adds tenantId s = some .devices then
      (s.effect op).backend.devices.count tenantId = s.backend.devices.count tenantId + 1
    else (s.effect op).backend.devices.count tenantId ≤ s.backend.devices.count tenantId := by
  rw [effect_devices]
  cases op with
  | devicesCreate d =>
    -- a fresh id replaces no row, so the new device is one more
    have hnew : ∀ e ∈ s.backend.devices.rows, e.id ≠ d.id := fun e he hid =>
      hfresh d.id rfl (Or.inl ⟨e, he, hid⟩)
    have hput := @count_put_new _ tenantId { d with deletedAt := none } hnew
    by_cases htenant : d.tenantId = tenantId
    · simpa [ApiOp.adds, ApiOp.writes, htenant, Device.counts] using hput
    · simpa [ApiOp.adds, ApiOp.writes, htenant, Device.counts] using hput.le
  | devicesRestore tenant id =>
    cases hrestore : s.backend.devices.restore tenant id with
    | none => simp [ApiOp.adds, ApiOp.writes, hrestore]
    | some d =>
      have hput := @count_restore _ tenantId _ _ _ hrestore
      by_cases htenant : tenant = tenantId
      · subst htenant
        simpa [ApiOp.adds, ApiOp.writes, hrestore] using hput
      · simpa [ApiOp.adds, ApiOp.writes, hrestore, htenant] using hput.le
  | devicesUpdate tenant id patch =>
    cases hupdate : s.backend.devices.update tenant id patch with
    | none => simp [ApiOp.adds, ApiOp.writes, hupdate]
    | some d =>
      obtain ⟨e, hfound, rfl⟩ := Option.map_eq_some_iff.mp hupdate
      have he := (DeviceTable.findById_eq_some_iff.mp hfound).1
      have hput := @count_put_old _ tenantId (patch.apply e) _ he rfl
      -- an update keeps the tenant and the deletion mark, which are all that is counted
      have hcounts : (patch.apply e).counts tenantId = e.counts tenantId := rfl
      rw [hcounts] at hput
      simpa [ApiOp.adds, ApiOp.writes, hupdate] using (Nat.add_right_cancel hput).le
  | devicesSoftDelete tenant id at' =>
    cases hdelete : s.backend.devices.softDelete tenant id at' with
    | none => simp [ApiOp.adds, ApiOp.writes, hdelete]
    | some d =>
      obtain ⟨e, hfound, rfl⟩ := Option.map_eq_some_iff.mp hdelete
      have he := (DeviceTable.findById_eq_some_iff.mp hfound).1
      have hput := @count_put_old _ tenantId { e with deletedAt := some at' } _ he rfl
      -- a deleted device no longer counts
      have hgone : Device.counts tenantId { e with deletedAt := some at' } = false := by
        simp [Device.counts]
      rw [hgone] at hput
      simpa [ApiOp.adds, ApiOp.writes, hdelete] using Nat.le.intro hput
  | usersCreate u =>
    rw [if_neg (by simp [ApiOp.adds])]
    exact le_rfl
  | _ => exact le_rfl

/-- What a request does to the number of users. -/
theorem users_effect (hmay : q.may op) (hfresh : ∀ id, op.newId = some id → ¬ s.UsesId id)
    (tenantId : String) : if op.adds tenantId s = some .users then
      ((s.effect op).usage tenantId).users = (s.usage tenantId).users + 1
    else ((s.effect op).usage tenantId).users ≤ (s.usage tenantId).users := by
  rcases effect_users (s := s) hmay with ⟨husers, hnot⟩ | ⟨u, rfl, husers⟩
  · have hadds : op.adds tenantId s ≠ some .users := by
      cases op with
      | usersCreate u => exact absurd rfl (hnot u)
      | devicesCreate d => simp [ApiOp.adds]
      | devicesRestore tenant id => simp [ApiOp.adds]
      | _ => exact Option.some_ne_none _ ∘ Eq.symm
    rw [if_neg hadds]
    simp only [Store.usage, husers, le_refl]
  · have hnew : ∀ v ∈ s.users.rows, v.id ≠ u.id := fun v hv hid =>
      hfresh u.id rfl (Or.inr ⟨v, hv, hid⟩)
    have hput := countP_putRow_new (fun v => decide (User.tenantId v = tenantId)) hnew
    simp only [Store.usage, husers, ← List.countP_eq_length_filter, Table.put]
    by_cases htenant : u.tenantId = tenantId
    · simpa [ApiOp.adds, htenant] using hput
    · simpa [ApiOp.adds, htenant] using hput.le

/-- **What a request adds to the usage.** -/
theorem usage_effect (hmay : q.may op) (hfresh : ∀ id, op.newId = some id → ¬ s.UsesId id)
    (tenantId : String) (resource : Resource) :
    if op.adds tenantId s = some resource then
      ((s.effect op).usage tenantId).get resource = (s.usage tenantId).get resource + 1
    else ((s.effect op).usage tenantId).get resource ≤ (s.usage tenantId).get resource := by
  cases resource with
  | devices => exact count_effect hfresh tenantId
  | users => exact users_effect hmay hfresh tenantId

end Usage

/-! ## The condition -/

/-- When a request takes effect on other numbers than those that were counted for it, there is
still room in the plan. -/
def StillRoom (tenantId : String) (cfg : Config apiSig AdminCall Unit Store Nat) :
    Event AdminCall Outcome EnvMove Nat → Prop
  | .settle i x => x.takesEffect = true → ∀ th ∈ cfg.threads.lookup i,
      ∀ resource ∈ th.op.adds tenantId cfg.shared,
        (adminPhase th).counted resource ≠ some ((cfg.shared.usage tenantId).get resource) →
          (cfg.shared.usage tenantId).get resource <
            (cfg.shared.planFor tenantId).limits.get resource
  | _ => True

instance (tenantId : String) (cfg : Config apiSig AdminCall Unit Store Nat) :
    (e : Event AdminCall Outcome EnvMove Nat) → Decidable (StillRoom tenantId cfg e)
  | .settle i x => inferInstanceAs (Decidable (x.takesEffect = true →
      ∀ th ∈ cfg.threads.lookup i, ∀ resource ∈ th.op.adds tenantId cfg.shared,
        (adminPhase th).counted resource ≠ some ((cfg.shared.usage tenantId).get resource) →
          (cfg.shared.usage tenantId).get resource <
            (cfg.shared.planFor tenantId).limits.get resource))
  | .start _ _ | .resume _ | .env _ => .isTrue trivial

/-! ## The invariant -/

/-- The tenant keeps to its plan, and what the calls have read of the plans is still so. -/
structure QuotaInv (D : ApiDeployment) (tenantId : String) (s : Store) (ph : AdminPhases) :
    Prop where
  ids : IdsInv D s ph
  plans : ∀ i c q, ph i = some (c, q) → ∀ plan ∈ q.plan, plan = s.planFor q.tenantId
  within : s.WithinPlan tenantId

section Quotas

variable {D : ApiDeployment} {tenantId : String} {s s' : Store} {ph : AdminPhases} {i : Nat}
  {c : AdminCall} {q q' : AdminPhase} {op : ApiOp}

/-- A call goes on, and no plan changes. -/
theorem QuotaInv.move (h : QuotaInv D tenantId s ph)
    (hids : IdsInv D s' (Function.update ph i (some (c, q'))))
    (hplan : ∀ tenant, s'.planFor tenant = s.planFor tenant)
    (hq : ∀ plan ∈ q'.plan, plan = s.planFor q'.tenantId) (hwithin : s'.WithinPlan tenantId) :
    QuotaInv D tenantId s' (Function.update ph i (some (c, q'))) where
  ids := hids
  plans j c' q hj plan hplan' := by
    rw [hplan]
    rcases update_some_iff.mp hj with ⟨-, heq⟩ | ⟨-, hj⟩
    · cases heq
      exact hq plan hplan'
    · exact h.plans j c' q hj plan hplan'
  within := hwithin

/-- What a call knows of its plan, after one more thing was seen. -/
theorem plan_of_next {r : Except ApiError op.Res} (hmay : q.may op)
    (hr : ∀ a, r = .ok a → ∃ reply, a = s.answer reply op)
    (hold : ∀ plan ∈ q.plan, plan = s.planFor q.tenantId) :
    ∀ plan ∈ (q.next (.answered op r)).plan,
      plan = s.planFor (q.next (.answered op r)).tenantId := by
  intro plan hplan
  rw [(q.next_same _).1]
  rcases q.next_plan (.answered op r) with hsame | ⟨tenant, sub, heq, hread⟩
  · rw [hsame] at hplan
    exact hold plan hplan
  · cases heq
    obtain rfl : tenant = q.tenantId := hmay
    obtain ⟨_, rfl⟩ := hr sub rfl
    rw [hread] at hplan
    exact (Option.some_inj.mp hplan).symm

/-- Nothing that the calls do changes a subscription. -/
theorem effect_subscriptions (hmay : q.may op) : (s.effect op).subscriptions = s.subscriptions := by
  cases op with
  | backend op =>
    cases op with
    | _ => rfl
  | _ => first | exact hmay.elim | rfl

/-- What a request takes one more of, its quota check was for. -/
theorem mayAdd_of_adds (hmay : q.may op) {resource : Resource}
    (hadds : op.adds tenantId s = some resource) : q.tenantId = tenantId ∧ q.MayAdd resource := by
  cases op with
  | devicesCreate d =>
    obtain ⟨htenant, heq⟩ := Option.ite_none_right_eq_some.mp hadds
    cases heq
    exact ⟨hmay.1.symm.trans htenant, hmay.2.2.2⟩
  | devicesRestore tenant id =>
    obtain ⟨⟨htenant, -⟩, heq⟩ := Option.ite_none_right_eq_some.mp hadds
    cases heq
    exact ⟨hmay.1.1.symm.trans htenant, hmay.2.2⟩
  | usersCreate u =>
    obtain ⟨htenant, heq⟩ := Option.ite_none_right_eq_some.mp hadds
    cases heq
    exact ⟨hmay.1.symm.trans htenant, hmay.2.2⟩
  | _ => cases hadds

/-- The quota check has passed, and there is still room. -/
theorem QuotaInv.room (h : QuotaInv D tenantId s ph) (hi : ph i = some (c, q)) (hmay : q.may op)
    {resource : Resource} (hadds : op.adds tenantId s = some resource)
    (hchanged : q.counted resource ≠ some ((s.usage tenantId).get resource) →
      (s.usage tenantId).get resource < (s.planFor tenantId).limits.get resource) :
    (s.usage tenantId).get resource < (s.planFor tenantId).limits.get resource := by
  by_cases hcounted : q.counted resource = some ((s.usage tenantId).get resource)
  · obtain ⟨htenant, plan, used, hplan, hused, hroom⟩ := mayAdd_of_adds hmay hadds
    rw [hcounted] at hused
    rw [h.plans i c q hi plan hplan, htenant, ← Option.some_inj.mp hused] at hroom
    exact hroom
  · exact hchanged hcounted

/-- With room for what a request adds, the tenant keeps to its plan. -/
theorem QuotaInv.within_effect (h : QuotaInv D tenantId s ph) (hi : ph i = some (c, q))
    (hmay : q.may op) (hroom : ∀ resource, op.adds tenantId s = some resource →
      (s.usage tenantId).get resource < (s.planFor tenantId).limits.get resource) :
    (s.effect op).WithinPlan tenantId := by
  intro resource
  have husage := usage_effect hmay (fun _ hnew => h.ids.fresh hi hmay hnew) tenantId resource
  have hplan : (s.effect op).planFor tenantId = s.planFor tenantId := by
    rw [Store.planFor, effect_subscriptions hmay, Store.planFor]
  rw [hplan]
  split at husage
  case isTrue hadds =>
    rw [husage]
    exact hroom resource hadds
  case isFalse => exact husage.trans (h.within resource)

/-- Every step keeps the invariant, as long as there is still room. -/
theorem quota_preserves :
    Preserves (administration D) administrators (StillRoom tenantId) (QuotaInv D tenantId) where
  code := administration_conforms D
  start cfg i c h hi _ := h.move (ids_preserves.start cfg i c h.ids hi trivial) (fun _ => rfl)
    (fun plan hplan => nomatch hplan) h.within
  act s ph i c q a h hi hmay := by
    have hids := ids_preserves.act s ph i c q a h.ids hi hmay
    have hold := h.plans i c q hi
    cases a with
    | randomUUID => exact QuotaInv.move h hids (fun _ => rfl) hold h.within
    | forgetImei imei => exact QuotaInv.move h hids (fun _ => rfl) hold h.within
    | backend a =>
      cases a with
      | now => exact QuotaInv.move h hids (fun _ => rfl) hold h.within
      | _ => exact hmay.elim
    | sweepOffline _ _ => exact hmay.elim
  settle cfg i th x s' r h hth hmay hok hs := by
    have hi := phases_of_lookup (T := administrators) hth
    have hids := ids_preserves.settle cfg i th x s' r h.ids hth hmay trivial hs
    obtain ⟨hs', hr⟩ := settle_administration hmay hs
    -- no administration step changes a subscription, so every plan stays as it was read
    refine h.move hids (fun tenant => ?_) (plan_of_next hmay (fun a ha => ?_) (h.plans i _ _ hi)) ?_
    · rw [hs', Store.planFor, Store.planFor]
      split
      · rw [effect_subscriptions hmay]
      · rfl
    · obtain ⟨reply, -, hreply⟩ := hr a ha
      exact ⟨reply, hreply⟩
    · rw [hs']
      split
      case isTrue hx =>
        -- the room that the call found is still there when it writes
        exact h.within_effect hi hmay fun resource hadds =>
          h.room hi hmay hadds (hok hx th hth resource hadds)
      case isFalse => exact h.within
  finish s ph i c q r h hi hdone :=
    ⟨ids_preserves.finish s ph i c q r h.ids hi hdone,
      fun j c' q' hj => h.plans j c' q' (update_none_iff.mp hj).2, h.within⟩
  env cfg e s' h _ hs := by
    have hids := ids_preserves.env cfg e s' h.ids trivial hs
    obtain rfl := Option.some_inj.mp hs
    cases e with
    | elapse ms => exact ⟨hids, h.plans, h.within⟩
    | expire tenantId deviceId => exact ⟨hids, h.plans, h.within⟩

/-- A step that leaves the tenant within its plan has met the condition. -/
theorem stillRoom_of_within {cfg cfg' : Config apiSig AdminCall Unit Store Nat}
    {e : Event AdminCall Outcome EnvMove Nat}
    (hg : Good administrators (QuotaInv D tenantId) cfg)
    (hs : (administration D).step cfg e = some cfg') (hP : cfg'.shared.WithinPlan tenantId) :
    StillRoom tenantId cfg e := by
  obtain ⟨h, hthreads⟩ := hg
  cases e with
  | start _ _ => trivial
  | resume _ => trivial
  | env _ => trivial
  | settle i x =>
    intro hx th hth resource hadds _
    obtain ⟨hmay, r, hsettle⟩ := may_of_settle hthreads hth hs
    have hi := phases_of_lookup (T := administrators) hth
    obtain ⟨hs', -⟩ := settle_administration hmay hsettle
    rw [if_pos hx] at hs'
    have husage := usage_effect hmay (fun _ hnew => h.ids.fresh hi hmay hnew) tenantId resource
    have hadds : th.op.adds tenantId cfg.shared = some resource := hadds
    rw [if_pos hadds, ← hs'] at husage
    have hwithin := hP resource
    rw [husage, hs', Store.planFor, effect_subscriptions hmay] at hwithin
    exact hwithin

/-- **Quotas under concurrency.** However the operations are interleaved, from a state in which
the tenant keeps to its plan: it does so in every state on the way if and only if no device or
user is added on a count that has changed since, with no room left. -/
theorem within_plan_iff (D : ApiDeployment) (tenantId : String) (s₀ : Store)
    (hwithin : s₀.WithinPlan tenantId)
    (hdevices : s₀.Unused D (s₀.backend.devices.rows.map Device.id))
    (husers : s₀.Unused D (s₀.users.rows.map User.id))
    {es : List (Event AdminCall Outcome EnvMove Nat)}
    {cfg : Config apiSig AdminCall Unit Store Nat}
    (hrun : Run (administration D).step (fun _ _ => True) (Config.start s₀) es cfg) :
    Always (administration D).step (fun _ _ => True) (Config.start s₀) es
        (fun cfg => cfg.shared.WithinPlan tenantId) ↔
      Run (administration D).step (StillRoom tenantId) (Config.start s₀) es cfg := by
  have hinit : QuotaInv D tenantId s₀ fun _ => none :=
    ⟨idsInv_start hdevices husers, (fun _ _ _ hi => nomatch hi), hwithin⟩
  exact quota_preserves.always_iff hinit (fun cfg hg => hg.1.within)
    (fun cfg e cfg' hg _ hs hP => stillRoom_of_within hg hs hP) hrun

/-! ## Provisioning at the limit -/

/-- A tenant on trial, with one device of two. -/
def sampleTrial : Store :=
  { Store.new (Backend.new (Table.empty.put ⟨"van", "acme", "356307042441013", none, "FTC927", .car,
      .active, none, none, none⟩)) with
    subscriptions := JsMap.empty.set "acme" ⟨"acme", "trial", .active, "2026-01-01T00:00:00.000Z"⟩ }

theorem sampleTrial_within : sampleTrial.WithinPlan "acme" := by
  intro resource
  cases resource with
  | devices => decide
  | users => decide

/-- The first and the second further device. -/
def furtherDevice (imei : String) : AdminCall :=
  .device sampleTenantAdmin (.provision imei "FTC927" none none .car)

/-- The second operation starts when the first one has ended. -/
def provisionedInTurn : List (Event AdminCall Outcome EnvMove Nat) :=
  ([.start 0 (furtherDevice "356307042441021")] : List (Event AdminCall Outcome EnvMove Nat)) ++
    ((List.replicate 6 [.settle 0 (.resolves ""), .resume 0]).flatten :
      List (Event AdminCall Outcome EnvMove Nat)) ++
    ([.start 1 (furtherDevice "356307042441039")] : List (Event AdminCall Outcome EnvMove Nat)) ++
    ((List.replicate 4 [.settle 1 (.resolves ""), .resume 1]).flatten :
      List (Event AdminCall Outcome EnvMove Nat))

/-- Both operations have counted the devices before either adds one. -/
def provisionedAtOnce : List (Event AdminCall Outcome EnvMove Nat) :=
  ([.start 0 (furtherDevice "356307042441021"), .start 1 (furtherDevice "356307042441039")] :
    List (Event AdminCall Outcome EnvMove Nat)) ++
    ((List.replicate 6 [.settle 0 (.resolves ""), .resume 0, .settle 1 (.resolves ""),
      .resume 1]).flatten :
      List (Event AdminCall Outcome EnvMove Nat))

/-- In turn, the second device is refused. -/
theorem sample_within_plan : ∃ cfg,
    Run (administration sampleApi).step (fun _ _ => True) (Config.start sampleTrial)
      provisionedInTurn cfg ∧
    Always (administration sampleApi).step (fun _ _ => True) (Config.start sampleTrial)
      provisionedInTurn (fun cfg => cfg.shared.WithinPlan "acme") ∧
    (cfg.shared.usage "acme").devices = 2 ∧ cfg.threads.keys = [] := by
  have hexists : ∃ cfg, Run (administration sampleApi).step (StillRoom "acme")
      (Config.start sampleTrial) provisionedInTurn cfg ∧
      (cfg.shared.usage "acme").devices = 2 ∧ cfg.threads.keys = [] := by
    apply Run.exists_of_any
    decide +kernel
  obtain ⟨cfg, hgood, hend⟩ := hexists
  have hrun : Run (administration sampleApi).step (fun _ _ => True) (Config.start sampleTrial)
      provisionedInTurn cfg := hgood.mono fun _ _ _ => trivial
  have hdevices : ∀ id ∈ sampleTrial.backend.devices.rows.map Device.id, id.toList.all (· = 'x') = false := by
    decide
  refine ⟨cfg, hrun, (within_plan_iff sampleApi "acme" sampleTrial sampleTrial_within
    (fun id hid n _ => ne_sampleApi_uuid (hdevices id hid) n) (fun id hid => ?_) hrun).mpr hgood, hend⟩
  exact absurd hid List.not_mem_nil

/-- **Two operations exceed the plan together.** Each has counted one device of two; both add
another one. -/
theorem provisioned_beyond_plan : sampleTrial.WithinPlan "acme" ∧ ∃ cfg,
    Run (administration sampleApi).step (fun _ _ => True) (Config.start sampleTrial)
      provisionedAtOnce cfg ∧ ¬ cfg.shared.WithinPlan "acme" := by
  have hexists : ∃ cfg, Run (administration sampleApi).step (fun _ _ => True)
      (Config.start sampleTrial) provisionedAtOnce cfg ∧
      (cfg.shared.planFor "acme").limits.devices < (cfg.shared.usage "acme").devices := by
    apply Run.exists_of_any
    decide +kernel
  obtain ⟨cfg, hrun, hmore⟩ := hexists
  exact ⟨sampleTrial_within, cfg, hrun, fun hwithin => absurd (hwithin .devices) (not_le.mpr hmore)⟩

end Quotas

end FleetTracking.ControlPlane
