import FleetTracking.ControlPlane.Account

/-!
# What a User Can Do to Its Own View

A user of a department sees the live devices of its subtree. What it sees depends on the
department in its token, on the tree and on the departments of the devices, and with its own
credentials the user may change all three. This module follows every sequence of its calls.

1. `Modest`: the user gives itself no department outside its subtree, and moves none into it.
2. `Sound`: what the stores satisfy; `Base`, `Confined`: what holds in every state.
3. One lemma for each event, and `view_not_widened`.
-/

namespace FleetTracking.ControlPlane

open Async Transition

/-! ## What the user holds -/

/-- The devices of a tenant that a department gives access to. -/
def Store.scopeOf (s : Store) (tenantId : String) (departmentId : Option String) :
    Option (List String) :=
  (departmentId.filter truthy).map
    (descendantIds (s.backend.orgUnits.filter fun u => u.tenantId = tenantId))

/-- The user has the department in a token, or in its row. -/
def Account.Holds (me : User) (a : Account) (departmentId : Option String) : Prop :=
  (∃ token ∈ a.tokens, token.departmentId = departmentId) ∨
    ∃ row ∈ a.store.users.rows, row.id = me.id ∧ row.departmentId = departmentId

/-- The department lies in the subtree of one the user has. -/
def Account.Inside (me : User) (a : Account) (x : String) : Prop :=
  ∃ departmentId, a.Holds me departmentId ∧
    ∀ ids, a.store.scopeOf me.tenantId departmentId = some ids → x ∈ ids

/-- The department gives no more access than one the user has. -/
def Account.Covers (me : User) (a : Account) (departmentId : Option String) : Prop :=
  match departmentId.filter truthy with
  | none => ∃ held, a.Holds me held ∧ held.filter truthy = none
  | some x => a.Inside me x

/-- The user gives itself no department outside its subtree, and moves no department from
outside its subtree into it. -/
def Account.Modest (me : User) (a : Account) : AccountEvent → Prop
  | .call _ (.departmentsUpdate id dto) _ =>
    ∀ parentId, dto.parentId = some (some parentId) → a.Inside me parentId → a.Inside me id
  | .call _ (.usersUpdate id dto) _ =>
    id = me.id → ∀ departmentId, dto.departmentId = some departmentId → a.Covers me departmentId
  | _ => True

/-! ## What the stores satisfy -/

/-- What the repositories guarantee of a store, besides `WellFormed`. -/
structure Store.Sound (D : ApiDeployment) (s : Store) : Prop extends s.WellFormed D where
  -- An email is registered once.
  emails : ∀ u ∈ s.users.rows, ∀ v ∈ s.users.rows, u.email = v.email → u.id = v.id
  -- No reference to a department is to one that does not exist yet.
  parentIds : ∀ u ∈ s.backend.orgUnits, ∀ p, u.parentId = some p → p ≠ "" → s.Unused D [p]
  departmentIds : ∀ d ∈ s.backend.devices.rows, ∀ x, d.departmentId = some x → s.Unused D [x]
  userDepartments : ∀ u ∈ s.users.rows, ∀ x, u.departmentId = some x → s.Unused D [x]

/-- The ids of devices that the user could access in `s₀`, or that were not there. -/
def Store.Granted (s₀ : Store) (me : User) (id : String) : Prop :=
  (∃ d ∈ s₀.backend.devices.rows, d.id = id ∧
      d.within me.tenantId (s₀.scopeOf me.tenantId me.departmentId)) ∨
    ∀ d ∈ s₀.backend.devices.rows, d.id ≠ id

/-! ## Every tenant of the user -/

/-- What holds of the account in every state, started with the store `s₀`. -/
structure Account.Base (D : ApiDeployment) (s₀ : Store) (me : User) (a : Account) : Prop where
  wellFormed : a.store.WellFormed D
  emails : ∀ u ∈ a.store.users.rows, ∀ v ∈ a.store.users.rows, u.email = v.email → u.id = v.id
  row : ∃ row ∈ a.store.users.rows, row.id = me.id ∧ row.email = me.email ∧
    row.tenantId = me.tenantId
  tokens : ∀ token ∈ a.tokens, token.tenantId = me.tenantId
  devices : ∀ d ∈ s₀.backend.devices.rows, ∃ e ∈ a.store.backend.devices.rows,
    e.id = d.id ∧ e.tenantId = d.tenantId

section Base

variable {D : ApiDeployment} {s₀ : Store} {me : User} {a a' : Account}

/-- Devices stay, with their tenant. -/
theorem mem_of_framed {t t' : DeviceTable} {tenantId : String} {scope : Option (List String)}
    (h : t.Framed tenantId scope t') {d : Device} (hd : d ∈ t.rows) :
    ∃ e ∈ t'.rows, e.id = d.id ∧ e.tenantId = d.tenantId := by
  have hget : t.get d.id = some d := Table.get_eq_some_iff.mpr ⟨hd, rfl⟩
  cases h d.id with
  | inl hsame =>
    exact ⟨d, (Table.get_eq_some_iff.mp (hsame.trans hget)).1, rfl, rfl⟩
  | inr hwritten =>
    obtain ⟨d', hget', hin', hin⟩ := hwritten
    obtain ⟨hmem, hid⟩ := Table.get_eq_some_iff.mp hget'
    exact ⟨d', hmem, hid, hin'.1.trans (hin d hget).1.symm⟩

/-- The user's own row, under its id or its email. -/
theorem row_of_login (h : a.Base D s₀ me) {row : User} (hrow : row ∈ a.store.users.rows)
    (hme : row.email = me.email ∨ row.id = me.id) : row.id = me.id ∧ row.tenantId = me.tenantId := by
  obtain ⟨own, hown, hid, hemail, htenant⟩ := h.row
  have hrowid : row.id = own.id := by
    cases hme with
    | inl hme => exact h.emails row hrow own hown (hme.trans hemail.symm)
    | inr hme => exact hme.trans hid.symm
  rw [Table.eq_of_key hrow hown hrowid]
  exact ⟨hid, htenant⟩

/-- The row of a user other than the one that is registered. -/
theorem ne_registered (h : a.Base D s₀ me) {w : User} (hw : w.id = D.uuid a.store.drawn)
    {v : User} (hv : v ∈ a.store.users.rows) : v.id ≠ w.id := by
  rw [hw]
  exact h.wellFormed.userIds v.id (List.mem_map_of_mem hv) _ le_rfl

/-- A row that is updated keeps its id, email and tenant. -/
theorem exists_of_updated {t : UserTable} {row u : User} (hrow : row ∈ t.rows) (patch : UserPatch)
    (hu : u ∈ (t.put (patch.apply row)).rows) : ∃ v ∈ t.rows, v.id = u.id ∧ v.email = u.email := by
  cases Table.mem_put.mp hu with
  | inl hu => exact ⟨row, hrow, by rw [hu]; rfl, by rw [hu]; rfl⟩
  | inr hu => exact ⟨u, hu.1, rfl, rfl⟩

theorem base_step (h : a.Base D s₀ me) {e : AccountEvent} (hmoves : a.Moves D me e a') :
    a'.Base D s₀ me := by
  cases hmoves with
  | login hstore htokens =>
    refine ⟨hstore ▸ h.wellFormed, hstore ▸ h.emails, hstore ▸ h.row, fun token htoken => ?_,
      hstore ▸ h.devices⟩
    -- a new token is signed from the row of the user who logs in
    cases htokens token htoken with
    | inl hold => exact h.tokens token hold
    | inr hnew =>
      obtain ⟨row, hrow, hme, rfl⟩ := hnew
      exact (row_of_login h hrow hme).2
  | call hheld hleads hwf hdrawn htokens =>
    have htokens' : ∀ token ∈ a'.tokens, token.tenantId = me.tenantId := htokens ▸ h.tokens
    cases hleads with
    | same hdevices horgUnits husers =>
      exact ⟨hwf, husers ▸ h.emails, husers ▸ h.row, htokens', hdevices ▸ h.devices⟩
    | device hwithin =>
      -- a device keeps its id and its tenant through every update
      refine ⟨hwf, hwithin.users ▸ h.emails, hwithin.users ▸ h.row, htokens', fun d hd => ?_⟩
      obtain ⟨e, he, heid, hetenant⟩ := h.devices d hd
      obtain ⟨f, hf, hfid, hftenant⟩ := mem_of_framed hwithin.framed he
      exact ⟨f, hf, hfid.trans heid, hftenant.trans hetenant⟩
    | created u hid hparent hdevices horgUnits husers =>
      exact ⟨hwf, husers ▸ h.emails, husers ▸ h.row, htokens', hdevices ▸ h.devices⟩
    | moved u hu hid hparent hdevices horgUnits husers =>
      exact ⟨hwf, husers ▸ h.emails, husers ▸ h.row, htokens', hdevices ▸ h.devices⟩
    | removed keep hdevices horgUnits husers =>
      exact ⟨hwf, husers ▸ h.emails, husers ▸ h.row, htokens', hdevices ▸ h.devices⟩
    | registered w hid hemail hdevices horgUnits husers =>
      -- registration checks that the address is free, under a fresh id
      refine ⟨hwf, fun u hu v hv heq => ?_, ?_, htokens', hdevices ▸ h.devices⟩
      · rw [husers, Table.mem_put] at hu hv
        cases hu with
        | inl hu =>
          cases hv with
          | inl hv => rw [hu, hv]
          | inr hv => exact absurd (heq.symm.trans (hu ▸ rfl)) (hemail v hv.1)
        | inr hu =>
          cases hv with
          | inl hv => exact absurd (heq.trans (hv ▸ rfl)) (hemail u hu.1)
          | inr hv => exact h.emails u hu.1 v hv.1 heq
      · obtain ⟨row, hrow, hrowid, hrest⟩ := h.row
        rw [husers]
        exact ⟨row, Table.mem_put.mpr (Or.inr ⟨hrow, ne_registered h hid hrow⟩), hrowid, hrest⟩
    | updated row hrow hid hdevices horgUnits husers =>
      -- an update may change neither id nor address
      refine ⟨hwf, fun u hu v hv heq => ?_, ?_, htokens', hdevices ▸ h.devices⟩
      · rw [husers] at hu hv
        obtain ⟨u', hu', huid, huemail⟩ := exists_of_updated hrow _ hu
        obtain ⟨v', hv', hvid, hvemail⟩ := exists_of_updated hrow _ hv
        rw [← huid, ← hvid]
        exact h.emails u' hu' v' hv' (huemail.trans (heq.trans hvemail.symm))
      · obtain ⟨own, hown, hownid, hemail, htenant⟩ := h.row
        rw [husers]
        -- the updated row may be my own
        by_cases hsame : own.id = row.id
        · obtain rfl := Table.eq_of_key hown hrow hsame
          exact ⟨_, Table.mem_put.mpr (Or.inl rfl), hownid, hemail, htenant⟩
        · exact ⟨own, Table.mem_put.mpr (Or.inr ⟨hown, hsame⟩), hownid, hemail, htenant⟩

end Base

/-! ## A user of a department -/

/-- What holds besides of the account of a user of a department. -/
structure Account.Confined (D : ApiDeployment) (s₀ : Store) (me : User) (a : Account) : Prop where
  parentIds : ∀ u ∈ a.store.backend.orgUnits, ∀ p, u.parentId = some p → p ≠ "" →
    a.store.Unused D [p]
  departmentIds : ∀ d ∈ a.store.backend.devices.rows, ∀ x, d.departmentId = some x →
    a.store.Unused D [x]
  held : ∀ departmentId, a.Holds me departmentId →
    ∃ x, departmentId.filter truthy = some x ∧ a.store.Unused D [x]
  granted : ∀ d ∈ a.store.backend.devices.rows, d.tenantId = me.tenantId →
    ∀ x, d.departmentId = some x → a.Inside me x → s₀.Granted me d.id

section Confined

variable {D : ApiDeployment} {s₀ s s' : Store} {me : User} {a a' : Account} {x y : String}
  {departmentId : Option String}

theorem unused_mono {ids : List String} (h : s.Unused D ids) (hdrawn : s.drawn ≤ s'.drawn) :
    s'.Unused D ids := fun id hid n hn => h id hid n (hdrawn.trans hn)

theorem unused_of_mem {ids : List String} (h : s.Unused D ids) (hx : x ∈ ids) :
    s.Unused D [x] := fun _ hid => List.mem_singleton.mp hid ▸ h x hx

/-- The subtree of a department the user has, in the tenant's tree. -/
theorem scopeOf_eq {tenantId : String} (hdep : departmentId.filter truthy = some x) :
    s.scopeOf tenantId departmentId =
      some (descendantIds (s.backend.orgUnits.filter fun u => u.tenantId = tenantId) x) := by
  rw [Store.scopeOf, hdep, Option.map_some]

theorem inside_self (hheld : a.Holds me departmentId)
    (hdep : departmentId.filter truthy = some x) : a.Inside me x := by
  refine ⟨departmentId, hheld, fun ids hids => ?_⟩
  rw [scopeOf_eq hdep] at hids
  exact Option.some_inj.mp hids ▸ mem_descendantIds_self _ x

/-- What is below a department inside is inside. -/
theorem inside_child (hx : a.Inside me x)
    (hchild : Child (a.store.backend.orgUnits.filter fun u => u.tenantId = me.tenantId) x y) :
    a.Inside me y := by
  obtain ⟨departmentId, hheld, hin⟩ := hx
  refine ⟨departmentId, hheld, fun ids hids => ?_⟩
  have hmem := hin ids hids
  obtain ⟨root, -, rfl⟩ := Option.map_eq_some_iff.mp hids
  exact mem_descendantIds.mpr ((mem_descendantIds.mp hmem).tail hchild)

/-- What holds of the departments the user has, and passes on to the departments below, holds of
all that are inside. -/
theorem inside_induction {P : String → Prop}
    (hroot : ∀ departmentId, a.Holds me departmentId →
      ∃ x, departmentId.filter truthy = some x ∧ P x)
    (hchild : ∀ y z, P y →
      Child (a.store.backend.orgUnits.filter fun u => u.tenantId = me.tenantId) y z → P z)
    (hx : a.Inside me x) : P x := by
  obtain ⟨departmentId, hheld, hin⟩ := hx
  obtain ⟨root, hdep, hP⟩ := hroot departmentId hheld
  have hreach := mem_descendantIds.mp (hin _ (scopeOf_eq hdep))
  clear hin
  induction hreach with
  | refl => exact hP
  | tail _ hstep ih => exact hchild _ _ ih hstep

/-- No department inside is one that does not exist yet. -/
theorem inside_unused (h : a.Confined D s₀ me) (hwf : a.store.WellFormed D)
    (hx : a.Inside me x) : a.store.Unused D [x] := by
  refine inside_induction (fun departmentId hheld => h.held departmentId hheld) ?_ hx
  intro y z _ ⟨_, u, hu, hid, _⟩
  exact unused_of_mem hwf.orgUnitIds (List.mem_map.mpr ⟨u, (List.mem_filter.mp hu).1, hid⟩)

/-- What an event must do to keep the user confined: the new state, in terms of the old one. -/
theorem confined_of (h : a.Confined D s₀ me) (hwf : a.store.WellFormed D)
    (hdrawn : a.store.drawn ≤ a'.store.drawn)
    (hparent : ∀ u ∈ a'.store.backend.orgUnits, ∀ p, u.parentId = some p → p ≠ "" →
      a.store.Unused D [p])
    (hdevice : ∀ d ∈ a'.store.backend.devices.rows, ∀ x, d.departmentId = some x →
      a.store.Unused D [x])
    (hheld : ∀ departmentId, a'.Holds me departmentId →
      ∃ x, departmentId.filter truthy = some x ∧ a.Inside me x)
    (hchild : ∀ y z, a.Inside me y →
      Child (a'.store.backend.orgUnits.filter fun u => u.tenantId = me.tenantId) y z →
        a.store.Unused D [z] → a.Inside me z)
    (hgranted : ∀ d ∈ a'.store.backend.devices.rows, d.tenantId = me.tenantId →
      ∀ x, d.departmentId = some x → a.Inside me x → s₀.Granted me d.id) :
    a'.Confined D s₀ me where
  parentIds u hu p hp hne := unused_mono (hparent u hu p hp hne) hdrawn
  departmentIds d hd x hx := unused_mono (hdevice d hd x hx) hdrawn
  held departmentId hholds := by
    obtain ⟨x, hdep, hx⟩ := hheld departmentId hholds
    exact ⟨x, hdep, unused_mono (inside_unused h hwf hx) hdrawn⟩
  granted d hd htenant x hx hin := by
    have hinside : a.store.Unused D [x] → a.Inside me x := by
      -- by induction on the descent from a department I hold
      refine inside_induction (P := fun x => a.store.Unused D [x] → a.Inside me x) ?_ ?_ hin
      · intro departmentId hholds
        obtain ⟨x, hdep, hx⟩ := hheld departmentId hholds
        exact ⟨x, hdep, fun _ => hx⟩
      · intro y z hy hyz hz
        have ⟨hne, u, hu, _, hparentId⟩ := hyz
        have hyused := hparent u (List.mem_filter.mp hu).1 y hparentId hne
        exact hchild y z (hy hyused) hyz hz
    exact hgranted d hd htenant x hx (hinside (hdevice d hd x hx))

theorem holds_congr (htokens : a'.tokens = a.tokens) (husers : a'.store.users = a.store.users)
    (hholds : a'.Holds me departmentId) : a.Holds me departmentId := by
  unfold Account.Holds at hholds
  rwa [htokens, husers] at hholds

/-- A device that a token gives access to is in a department inside. -/
theorem inside_of_within (hbase : a.Base D s₀ me) (h : a.Confined D s₀ me) {token : AuthUser}
    (hheld : token ∈ a.tokens) {d : Device}
    (hin : d.within token.tenantId (token.scope a.store.backend.orgUnits)) :
    d.tenantId = me.tenantId ∧ ∃ x, d.departmentId = some x ∧ a.Inside me x := by
  have htenant := hbase.tokens token hheld
  have hholds : a.Holds me token.departmentId := Or.inl ⟨token, hheld, rfl⟩
  obtain ⟨root, hdep, -⟩ := h.held token.departmentId hholds
  have hscope : token.scope a.store.backend.orgUnits =
      a.store.scopeOf me.tenantId token.departmentId := by
    rw [← htenant]
    rfl
  obtain ⟨x, hx, hdx⟩ := hin.2 _ (hscope.trans (scopeOf_eq hdep))
  refine ⟨hin.1.trans htenant, x, hdx, token.departmentId, hholds, fun ids hids => ?_⟩
  rw [scopeOf_eq hdep] at hids
  exact Option.some_inj.mp hids ▸ hx

/-- An operation on the devices. -/
theorem confined_device (hbase : a.Base D s₀ me) (h : a.Confined D s₀ me) {token : AuthUser}
    (hheld : token ∈ a.tokens) (hdrawn : a.store.drawn ≤ a'.store.drawn)
    (htokens : a'.tokens = a.tokens)
    (hwithin : a.store.Within token (token.scope a.store.backend.orgUnits) a'.store) :
    a'.Confined D s₀ me := by
  -- every device is an old one, or its row before and after lies in the caller's scope
  have hrow : ∀ d ∈ a'.store.backend.devices.rows, d ∈ a.store.backend.devices.rows ∨
      d.within token.tenantId (token.scope a.store.backend.orgUnits) ∧
        ∀ e ∈ a.store.backend.devices.rows, e.id = d.id →
          e.within token.tenantId (token.scope a.store.backend.orgUnits) := by
    intro d hd
    have hget : a'.store.backend.devices.get d.id = some d := Table.get_eq_some_iff.mpr ⟨hd, rfl⟩
    refine (hwithin.framed d.id).imp (fun hsame => ?_) fun ⟨d', hget', hin', hin⟩ => ?_
    · exact (Table.get_eq_some_iff.mp (hsame.symm.trans hget)).1
    · obtain rfl := Option.some_inj.mp (hget'.symm.trans hget)
      exact ⟨hin', fun e he hid => hin e (Table.get_eq_some_iff.mpr ⟨he, hid⟩)⟩
  refine confined_of h hbase.wellFormed hdrawn ?_ ?_ ?_ ?_ ?_
  · rw [hwithin.orgUnits]
    exact h.parentIds
  · intro d hd x hx
    cases hrow d hd with
    | inl hold => exact h.departmentIds d hold x hx
    | inr hnew =>
      obtain ⟨-, y, hy, hin⟩ := inside_of_within hbase h hheld hnew.1
      obtain rfl := Option.some_inj.mp (hy.symm.trans hx)
      exact inside_unused h hbase.wellFormed hin
  · intro departmentId hholds
    have hholds := holds_congr htokens hwithin.users hholds
    obtain ⟨x, hdep, -⟩ := h.held departmentId hholds
    exact ⟨x, hdep, inside_self hholds hdep⟩
  · rw [hwithin.orgUnits]
    exact fun y z hy hyz _ => inside_child hy hyz
  · intro d hd htenant x hx hin
    cases hrow d hd with
    | inl hold => exact h.granted d hold htenant x hx hin
    | inr hnew =>
      -- a device the start knows was in my scope before; any other is new
      by_cases hthere : ∃ d₀ ∈ s₀.backend.devices.rows, d₀.id = d.id
      · obtain ⟨d₀, hd₀, hid⟩ := hthere
        obtain ⟨e, he, heid, -⟩ := hbase.devices d₀ hd₀
        obtain ⟨hetenant, y, hy, hiny⟩ :=
          inside_of_within hbase h hheld (hnew.2 e he (heid.trans hid))
        have hgranted := h.granted e he hetenant y hy hiny
        rwa [heid.trans hid] at hgranted
      · exact Or.inr fun d₀ hd₀ hid => hthere ⟨d₀, hd₀, hid⟩

/-- An event that changes neither the devices nor the departments nor what the user holds. -/
theorem confined_same (hwf : a.store.WellFormed D) (h : a.Confined D s₀ me)
    (hdrawn : a.store.drawn ≤ a'.store.drawn)
    (hdevices : a'.store.backend.devices = a.store.backend.devices)
    (horgUnits : a'.store.backend.orgUnits = a.store.backend.orgUnits)
    (hheld : ∀ departmentId, a'.Holds me departmentId →
      ∃ x, departmentId.filter truthy = some x ∧ a.Inside me x) :
    a'.Confined D s₀ me := by
  refine confined_of h hwf hdrawn (horgUnits ▸ h.parentIds) (hdevices ▸ h.departmentIds) hheld ?_
    (hdevices ▸ h.granted)
  rw [horgUnits]
  exact fun y z hy hyz _ => inside_child hy hyz

/-- What the user holds it still holds. -/
theorem inside_of_holds (h : a.Confined D s₀ me) (hholds : a.Holds me departmentId) :
    ∃ x, departmentId.filter truthy = some x ∧ a.Inside me x := by
  obtain ⟨x, hdep, -⟩ := h.held departmentId hholds
  exact ⟨x, hdep, inside_self hholds hdep⟩

/-- A department with a new id: nothing refers to it yet. -/
theorem confined_created (hwf : a.store.WellFormed D) (h : a.Confined D s₀ me)
    (hdrawn : a.store.drawn ≤ a'.store.drawn) (htokens : a'.tokens = a.tokens) {u : OrgUnit}
    (hid : u.id = D.uuid a.store.drawn)
    (hparent : ∀ p, u.parentId = some p → p ≠ "" → ∃ v ∈ a.store.backend.orgUnits, v.id = p)
    (hdevices : a'.store.backend.devices = a.store.backend.devices)
    (horgUnits : a'.store.backend.orgUnits = putRow OrgUnit.id a.store.backend.orgUnits u)
    (husers : a'.store.users = a.store.users) : a'.Confined D s₀ me := by
  refine confined_of h hwf hdrawn ?_ (hdevices ▸ h.departmentIds)
    (fun departmentId hholds => inside_of_holds h (holds_congr htokens husers hholds)) ?_
    (hdevices ▸ h.granted)
  · intro v hv p hp hne
    rw [horgUnits] at hv
    cases mem_putRow.mp hv with
    | inl hnew =>
      obtain ⟨w, hw, rfl⟩ := hparent p (hnew ▸ hp) hne
      exact unused_of_mem hwf.orgUnitIds (List.mem_map_of_mem hw)
    | inr hold => exact h.parentIds v hold.1 p hp hne
  · intro y z hy hyz hz
    obtain ⟨hne, v, hv, rfl, hp⟩ := hyz
    obtain ⟨hv, htenant⟩ := List.mem_filter.mp hv
    rw [horgUnits] at hv
    cases mem_putRow.mp hv with
    | inl hnew => exact absurd (hnew ▸ hid) (hz v.id List.mem_cons_self _ le_rfl)
    | inr hold =>
      exact inside_child hy ⟨hne, v, List.mem_filter.mpr ⟨hold.1, htenant⟩, rfl, hp⟩

/-- A department that is moved below another one: if that is inside, so was the one moved. -/
theorem confined_moved (hwf : a.store.WellFormed D) (h : a.Confined D s₀ me)
    (hdrawn : a.store.drawn ≤ a'.store.drawn) (htokens : a'.tokens = a.tokens) {u : OrgUnit}
    {dto : OrgUnitPatch} (hu : u ∈ a.store.backend.orgUnits)
    (hparent : ∀ p, dto.parentId = some (some p) → ∃ v ∈ a.store.backend.orgUnits, v.id = p)
    (hmodest : ∀ p, dto.parentId = some (some p) → a.Inside me p → a.Inside me u.id)
    (hdevices : a'.store.backend.devices = a.store.backend.devices)
    (horgUnits : a'.store.backend.orgUnits =
      putRow OrgUnit.id a.store.backend.orgUnits (dto.apply u))
    (husers : a'.store.users = a.store.users) : a'.Confined D s₀ me := by
  -- the unit's parent is the one asked for or the one it had
  have hmoved : ∀ p, (dto.apply u).parentId = some p →
      dto.parentId = some (some p) ∨ u.parentId = some p := by
    intro p hp
    cases hdto : dto.parentId with
    | none => exact Or.inr (by simpa [OrgUnitPatch.apply, hdto] using hp)
    | some parentId => exact Or.inl (by simpa [OrgUnitPatch.apply, hdto] using hp)
  refine confined_of h hwf hdrawn ?_ (hdevices ▸ h.departmentIds)
    (fun departmentId hholds => inside_of_holds h (holds_congr htokens husers hholds)) ?_
    (hdevices ▸ h.granted)
  · intro v hv p hp hne
    rw [horgUnits] at hv
    cases mem_putRow.mp hv with
    | inl hnew =>
      cases hmoved p (hnew ▸ hp) with
      | inl hto =>
        obtain ⟨w, hw, rfl⟩ := hparent p hto
        exact unused_of_mem hwf.orgUnitIds (List.mem_map_of_mem hw)
      | inr hold => exact h.parentIds u hu p hold hne
    | inr hold => exact h.parentIds v hold.1 p hp hne
  · intro y z hy hyz _
    obtain ⟨hne, v, hv, rfl, hp⟩ := hyz
    obtain ⟨hv, htenant⟩ := List.mem_filter.mp hv
    rw [horgUnits] at hv
    cases mem_putRow.mp hv with
    | inl hnew =>
      subst hnew
      cases hmoved y hp with
      -- the only new edge is the one the request names
      | inl hto => exact hmodest y hto hy
      | inr hold => exact inside_child hy ⟨hne, u, List.mem_filter.mpr ⟨hu, htenant⟩, rfl, hold⟩
    | inr hold =>
      exact inside_child hy ⟨hne, v, List.mem_filter.mpr ⟨hold.1, htenant⟩, rfl, hp⟩

/-- A department that goes away takes others out of the subtree, and puts none in. -/
theorem confined_removed (hwf : a.store.WellFormed D) (h : a.Confined D s₀ me)
    (hdrawn : a.store.drawn ≤ a'.store.drawn) (htokens : a'.tokens = a.tokens)
    {keep : OrgUnit → Bool} (hdevices : a'.store.backend.devices = a.store.backend.devices)
    (horgUnits : a'.store.backend.orgUnits = a.store.backend.orgUnits.filter keep)
    (husers : a'.store.users = a.store.users) : a'.Confined D s₀ me := by
  refine confined_of h hwf hdrawn ?_ (hdevices ▸ h.departmentIds)
    (fun departmentId hholds => inside_of_holds h (holds_congr htokens husers hholds)) ?_
    (hdevices ▸ h.granted)
  · intro v hv
    rw [horgUnits] at hv
    exact h.parentIds v (List.mem_filter.mp hv).1
  · intro y z hy hyz _
    obtain ⟨hne, v, hv, hid, hp⟩ := hyz
    obtain ⟨hv, htenant⟩ := List.mem_filter.mp hv
    rw [horgUnits] at hv
    exact inside_child hy
      ⟨hne, v, List.mem_filter.mpr ⟨(List.mem_filter.mp hv).1, htenant⟩, hid, hp⟩

/-- What the user holds after an update of a user. -/
theorem held_of_updated (h : a.Confined D s₀ me) (htokens : a'.tokens = a.tokens)
    {dto : UpdateUserDto} {row : User} (hrow : row ∈ a.store.users.rows)
    (hmodest : row.id = me.id → ∀ departmentId, dto.departmentId = some departmentId →
      a.Covers me departmentId)
    (husers : a'.store.users = a.store.users.put ((UsersService.patchOf D dto).apply row))
    (hholds : a'.Holds me departmentId) :
    ∃ x, departmentId.filter truthy = some x ∧ a.Inside me x := by
  cases hholds with
  | inl htoken => exact inside_of_holds h (Or.inl (htokens ▸ htoken))
  | inr hown =>
    obtain ⟨own, hown, hid, rfl⟩ := hown
    rw [husers, Table.mem_put] at hown
    cases hown with
    | inr hold => exact inside_of_holds h (Or.inr ⟨own, hold.1, hid, rfl⟩)
    | inl hnew =>
      subst hnew
      -- an absent departmentId leaves the row's own
      cases hdto : dto.departmentId with
      | none =>
        refine inside_of_holds h (Or.inr ⟨row, hrow, hid, ?_⟩)
        simp [UserPatch.apply, UsersService.patchOf, hdto]
      | some departmentId =>
        have hcovers := hmodest hid departmentId hdto
        have hdep : ((UsersService.patchOf D dto).apply row).departmentId = departmentId := by
          simp [UserPatch.apply, UsersService.patchOf, hdto]
        rw [hdep]
        unfold Account.Covers at hcovers
        -- no department at all means the whole tenant, which nobody confined can cover
        cases hsome : departmentId.filter truthy with
        | none =>
          rw [hsome] at hcovers
          obtain ⟨held, hheld, hnone⟩ := hcovers
          obtain ⟨x, hx, -⟩ := h.held held hheld
          cases hnone.symm.trans hx
        | some x =>
          rw [hsome] at hcovers
          exact ⟨x, rfl, hcovers⟩

/-- **A modest event keeps the user confined.** -/
theorem confined_step (hbase : a.Base D s₀ me) (h : a.Confined D s₀ me) {e : AccountEvent}
    (hmodest : a.Modest me e) (hmoves : a.Moves D me e a') : a'.Confined D s₀ me := by
  have hwf := hbase.wellFormed
  cases hmoves with
  | login hstore htokens =>
    -- a login adds a token with the department of my own row
    refine confined_same hwf h (hstore ▸ le_rfl) (by rw [hstore]) (by rw [hstore]) ?_
    intro departmentId hholds
    refine inside_of_holds h ?_
    cases hholds with
    | inr hown => exact Or.inr (hstore ▸ hown)
    | inl htoken =>
      obtain ⟨token, htoken, hdep⟩ := htoken
      cases htokens token htoken with
      | inl hold => exact Or.inl ⟨token, hold, hdep⟩
      | inr hnew =>
        obtain ⟨row, hrow, hme, rfl⟩ := hnew
        exact Or.inr ⟨row, hrow, (row_of_login hbase hrow hme).1, hdep⟩
  | call hheld hleads _ hdrawn htokens =>
    cases hleads with
    | same hdevices horgUnits husers =>
      exact confined_same hwf h hdrawn hdevices horgUnits
        fun departmentId hholds => inside_of_holds h (holds_congr htokens husers hholds)
    | device hwithin => exact confined_device hbase h hheld hdrawn htokens hwithin
    | created u hid hparent hdevices horgUnits husers =>
      exact confined_created hwf h hdrawn htokens hid hparent hdevices horgUnits husers
    | moved u hu hid hparent hdevices horgUnits husers =>
      -- a move is modest when it takes no foreign unit below mine
      subst hid
      exact confined_moved hwf h hdrawn htokens hu hparent hmodest hdevices horgUnits husers
    | removed keep hdevices horgUnits husers =>
      exact confined_removed hwf h hdrawn htokens hdevices horgUnits husers
    | registered w hid hemail hdevices horgUnits husers =>
      refine confined_same hwf h hdrawn hdevices horgUnits fun departmentId hholds => ?_
      refine inside_of_holds h ?_
      cases hholds with
      | inl htoken => exact Or.inl (htokens ▸ htoken)
      | inr hown =>
        obtain ⟨own, hown, hownid, hdep⟩ := hown
        rw [husers, Table.mem_put] at hown
        cases hown with
        | inr hold => exact Or.inr ⟨own, hold.1, hownid, hdep⟩
        | inl hnew =>
          obtain ⟨row, hrow, hrowid, -⟩ := hbase.row
          -- the registered row has a fresh id, so it is not mine
          exact absurd (hrowid.trans (hownid.symm.trans (congrArg User.id hnew)))
            (ne_registered hbase hid hrow)
    | updated row hrow hid hdevices horgUnits husers =>
      subst hid
      exact confined_same hwf h hdrawn hdevices horgUnits
        fun departmentId hholds => held_of_updated h htokens hrow hmodest husers hholds

end Confined

/-! ## Runs -/

section Runs

variable {D : ApiDeployment} {s₀ : Store} {me : User} {a : Account} {es : List AccountEvent}

/-- The account of a user who has just logged in. -/
def Account.start (s₀ : Store) (me : User) : Account := ⟨s₀, [AuthService.accessToken me]⟩

theorem base_start (hsound : s₀.Sound D) (hme : me ∈ s₀.users.rows) :
    (Account.start s₀ me).Base D s₀ me where
  wellFormed := hsound.toWellFormed
  emails := hsound.emails
  row := ⟨me, hme, rfl, rfl, rfl⟩
  tokens token htoken := by rw [List.mem_singleton.mp htoken]; rfl
  devices d hd := ⟨d, hd, rfl, rfl⟩

/-- At the start the user has its own department only. -/
theorem held_start (hme : me ∈ s₀.users.rows) {departmentId : Option String}
    (hholds : (Account.start s₀ me).Holds me departmentId) : departmentId = me.departmentId := by
  cases hholds with
  | inl htoken =>
    obtain ⟨token, htoken, rfl⟩ := htoken
    rw [List.mem_singleton.mp htoken]
    rfl
  | inr hown =>
    obtain ⟨row, hrow, hid, rfl⟩ := hown
    rw [Table.eq_of_key hrow hme hid]

theorem confined_start (hsound : s₀.Sound D) (hme : me ∈ s₀.users.rows) {root : String}
    (hdep : me.departmentId.filter truthy = some root) :
    (Account.start s₀ me).Confined D s₀ me where
  parentIds := hsound.parentIds
  departmentIds := hsound.departmentIds
  held departmentId hholds := by
    rw [held_start hme hholds]
    exact ⟨root, hdep, hsound.userDepartments me hme root (Option.filter_eq_some_iff.mp hdep).1⟩
  granted d hd htenant x hx hin := by
    obtain ⟨departmentId, hholds, hin⟩ := hin
    rw [held_start hme hholds] at hin
    exact Or.inl ⟨d, hd, rfl, htenant, fun ids hids => ⟨x, hin ids hids, hx⟩⟩

/-- The invariant of the run. -/
theorem confined_of_run (hsound : s₀.Sound D) (hme : me ∈ s₀.users.rows)
    (hrun : Run (Account.step D me) (Account.Modest me) (Account.start s₀ me) es a) :
    a.Base D s₀ me ∧
      ∀ root, me.departmentId.filter truthy = some root → a.Confined D s₀ me := by
  refine Run.invariant (I := fun a => a.Base D s₀ me ∧
      ∀ root, me.departmentId.filter truthy = some root → a.Confined D s₀ me)
    ⟨base_start hsound hme, fun root hdep => confined_start hsound hme hdep⟩ ?_ hrun
  intro a e a' ⟨hbase, hconfined⟩ hmodest hstep
  have hmoves := moves_of_step hbase.wellFormed hstep
  exact ⟨base_step hbase hmoves,
    fun root hdep => confined_step hbase (hconfined root hdep) hmodest hmoves⟩

/-- A device that a token gives access to at the end was accessible at the start, or was not
there. -/
theorem granted_of_run (hsound : s₀.Sound D) (hme : me ∈ s₀.users.rows)
    (hrun : Run (Account.step D me) (Account.Modest me) (Account.start s₀ me) es a)
    {token : AuthUser} (htoken : token ∈ a.tokens) {d : Device}
    (hd : d ∈ a.store.backend.devices.rows)
    (hin : d.within token.tenantId (token.scope a.store.backend.orgUnits)) :
    s₀.Granted me d.id := by
  obtain ⟨hbase, hconfined⟩ := confined_of_run hsound hme hrun
  cases hdep : me.departmentId.filter truthy with
  | some root =>
    obtain ⟨htenant, x, hx, hinside⟩ := inside_of_within hbase (hconfined root hdep) htoken hin
    exact (hconfined root hdep).granted d hd htenant x hx hinside
  | none =>
    by_cases hthere : ∃ d₀ ∈ s₀.backend.devices.rows, d₀.id = d.id
    · obtain ⟨d₀, hd₀, hid⟩ := hthere
      obtain ⟨e, he, heid, hetenant⟩ := hbase.devices d₀ hd₀
      obtain rfl := Table.eq_of_key he hd (heid.trans hid)
      refine Or.inl ⟨d₀, hd₀, hid, ?_, fun ids hids => ?_⟩
      · rw [← hetenant, hin.1, hbase.tokens token htoken]
      · rw [Store.scopeOf, hdep] at hids
        cases hids
    · exact Or.inr fun d₀ hd₀ hid => hthere ⟨d₀, hd₀, hid⟩

end Runs

/-- **A user does not widen its own view.** Whatever it does with its own credentials, every
device it is shown afterwards is one it was shown before, or one of the deleted devices it was
shown before, or one that was not there before: it has provisioned it. -/
theorem view_not_widened (D : ApiDeployment) (s₀ : Store) (me : User) (hsound : s₀.Sound D)
    (hme : me ∈ s₀.users.rows) (ω : Nat → Outcome) (before deleted after : List Device)
    (s₁ s₂ s₃ : Store)
    (hbefore : s₀.complete D ω (DevicesService.list (AuthService.accessToken me)) =
      some (.ok before, s₁))
    (hdeleted : s₀.complete D ω (DevicesService.listDeleted (AuthService.accessToken me)) =
      some (.ok deleted, s₂))
    (es : List AccountEvent) (a : Account)
    (hrun : Run (Account.step D me) (Account.Modest me) (Account.start s₀ me) es a)
    (token : AuthUser) (htoken : token ∈ a.tokens)
    (hafter : a.store.complete D ω (DevicesService.list token) = some (.ok after, s₃))
    (d : Device) (hd : d ∈ after) :
    (∃ d₀ ∈ before, d₀.id = d.id) ∨ (∃ d₀ ∈ deleted, d₀.id = d.id) ∨
      ∀ d₀ ∈ s₀.backend.devices.rows, d₀.id ≠ d.id := by
  have hbefore := ends_list.of_complete (fun _ => trivial) hbefore before rfl
  have hdeleted := ends_listDeleted.of_complete (fun _ => trivial) hdeleted deleted rfl
  have hafter := ends_list.of_complete (fun _ => trivial) hafter after rfl
  obtain ⟨hrow, hin, -⟩ := (hafter d).mp hd
  cases granted_of_run hsound hme hrun htoken hrow hin with
  | inr hnew => exact Or.inr (Or.inr hnew)
  | inl hold =>
    obtain ⟨d₀, hd₀, hid, hin₀⟩ := hold
    by_cases hlive : d₀.deletedAt = none
    · exact Or.inl ⟨d₀, (hbefore d₀).mpr ⟨hd₀, hin₀, hlive⟩, hid⟩
    · exact Or.inr (Or.inl ⟨d₀, (hdeleted d₀).mpr ⟨hd₀, hin₀, hlive⟩, hid⟩)

/-- An admin of a department, with a deleted device below it and one outside. -/
def sampleScopedAdmin : User :=
  ⟨"u", "acme", "admin@acme.test", "secret", .admin, true, false, none, some "north"⟩

def sampleScoped : Store :=
  { Store.new { Backend.new ((Table.empty.put ⟨"truck", "acme", "356307042441021", none, "FTC927",
        .car, .active, none, none, none⟩).put ⟨"van", "acme", "356307042441013", none, "FTC927", .car,
        .active, none, some "depot", some "2026-07-01T10:00:00.000Z"⟩) with
      orgUnits := [⟨"north", "acme", "North", none⟩, ⟨"depot", "acme", "Depot", some "north"⟩] } with
    users := Table.empty.put sampleScopedAdmin }

theorem unused_sample {s : Store} {ids : List String}
    (h : ∀ id ∈ ids, id.toList.all (· = 'x') = false) : s.Unused sampleApi ids :=
  fun id hid n _ => ne_sampleApi_uuid (h id hid) n

theorem sample_sound : sampleScoped.Sound sampleApi where
  orgUnits := by decide
  geofences := by decide
  immobilizers _ _ h := nomatch h
  deviceIds := unused_sample (by decide)
  orgUnitIds := unused_sample (by decide)
  geofenceIds := unused_sample (by decide)
  userIds := unused_sample (by decide)
  vehicleIds := unused_sample (by decide)
  emails := by decide
  parentIds u hu p hp _ := unused_sample fun id hid => by
    have hparents : ∀ u ∈ sampleScoped.backend.orgUnits, ∀ p ∈ u.parentId,
        p.toList.all (· = 'x') = false := by decide
    exact List.mem_singleton.mp hid ▸ hparents u hu p hp
  departmentIds d hd x hx := unused_sample fun id hid => by
    have hdepartments : ∀ d ∈ sampleScoped.backend.devices.rows, ∀ x ∈ d.departmentId,
        x.toList.all (· = 'x') = false := by decide
    exact List.mem_singleton.mp hid ▸ hdepartments d hd x hx
  userDepartments u hu x hx := unused_sample fun id hid => by
    have hdepartments : ∀ u ∈ sampleScoped.users.rows, ∀ x ∈ u.departmentId,
        x.toList.all (· = 'x') = false := by decide
    exact List.mem_singleton.mp hid ▸ hdepartments u hu x hx

/-- The admin gives itself the inner department, logs in again, and restores the device. -/
theorem sample_not_widened : ∃ before deleted after s₁ s₂ s₃ a token,
    sampleScoped.complete sampleApi (fun _ => .resolves "")
      (DevicesService.list (AuthService.accessToken sampleScopedAdmin)) = some (.ok before, s₁) ∧
    sampleScoped.complete sampleApi (fun _ => .resolves "")
      (DevicesService.listDeleted (AuthService.accessToken sampleScopedAdmin)) = some (.ok deleted, s₂) ∧
    Run (Account.step sampleApi sampleScopedAdmin) (Account.Modest sampleScopedAdmin)
      (Account.start sampleScoped sampleScopedAdmin)
      [.call (AuthService.accessToken sampleScopedAdmin)
        (.usersUpdate "u" ⟨none, none, some (some "depot"), none⟩) fun _ => .resolves "",
        .login "secret" fun _ => .resolves "",
        .call (AuthService.accessToken sampleScopedAdmin) (.device (.restore "van"))
          fun _ => .resolves ""] a ∧
    token ∈ a.tokens ∧ token.departmentId = some "depot" ∧
    a.store.complete sampleApi (fun _ => .resolves "") (DevicesService.list token) =
      some (.ok after, s₃) ∧
    ∀ d ∈ after, (∃ d₀ ∈ before, d₀.id = d.id) ∨ (∃ d₀ ∈ deleted, d₀.id = d.id) ∨
      ∀ d₀ ∈ sampleScoped.backend.devices.rows, d₀.id ≠ d.id := by
  have hcovers : (Account.start sampleScoped sampleScopedAdmin).Covers sampleScopedAdmin (some "depot") := by
    refine ⟨some "north", Or.inl ⟨_, List.mem_cons_self, rfl⟩, fun ids hids => ?_⟩
    rw [← Option.some_inj.mp hids]
    decide
  have hmodest : (Account.start sampleScoped sampleScopedAdmin).Modest sampleScopedAdmin
      (.call (AuthService.accessToken sampleScopedAdmin)
        (.usersUpdate "u" ⟨none, none, some (some "depot"), none⟩) fun _ => .resolves "") := by
    intro _ departmentId hdep
    obtain rfl := Option.some_inj.mp hdep
    exact hcovers
  have hrun : Run (Account.step sampleApi sampleScopedAdmin) (Account.Modest sampleScopedAdmin)
      (Account.start sampleScoped sampleScopedAdmin)
      [.call (AuthService.accessToken sampleScopedAdmin)
        (.usersUpdate "u" ⟨none, none, some (some "depot"), none⟩) fun _ => .resolves "",
        .login "secret" fun _ => .resolves "",
        .call (AuthService.accessToken sampleScopedAdmin) (.device (.restore "van"))
          fun _ => .resolves ""] _ :=
    .cons hmodest rfl (.cons trivial rfl (.single trivial rfl))
  refine ⟨_, _, _, _, _, _, _, ⟨"u", "acme", .admin, "admin@acme.test", some "depot"⟩, rfl, rfl,
    hrun, List.mem_cons_of_mem _ List.mem_cons_self, rfl, rfl, ?_⟩
  exact view_not_widened sampleApi sampleScoped sampleScopedAdmin sample_sound (by decide)
    (fun _ => .resolves "") _ _ _ _ _ _ rfl rfl _ _ hrun _
    (List.mem_cons_of_mem _ List.mem_cons_self) rfl

/-- The admin restores the device: it was not listed before, and the admin has not provisioned
it. -/
theorem restored_not_listed : ∃ before after s₁ a s₂,
    sampleScoped.complete sampleApi (fun _ => .resolves "")
      (DevicesService.list (AuthService.accessToken sampleScopedAdmin)) = some (.ok before, s₁) ∧
    Run (Account.step sampleApi sampleScopedAdmin) (fun _ _ => True)
      (Account.start sampleScoped sampleScopedAdmin) [.call (AuthService.accessToken sampleScopedAdmin)
        (.device (.restore "van")) fun _ => .resolves ""] a ∧
    a.store.complete sampleApi (fun _ => .resolves "")
      (DevicesService.list (AuthService.accessToken sampleScopedAdmin)) = some (.ok after, s₂) ∧
    ∃ d ∈ after, (∀ d₀ ∈ before, d₀.id ≠ d.id) ∧
      ∃ d₀ ∈ sampleScoped.backend.devices.rows, d₀.id = d.id := by
  refine ⟨_, _, _, _, _, rfl, .single trivial rfl, rfl, _, List.mem_cons_self, ?_⟩
  exact ⟨by decide, by decide⟩

end FleetTracking.ControlPlane
