import FleetTracking.ControlPlane.DeviceScope
import FleetTracking.ControlPlane.Reads
import FleetTracking.Lib.Lockstep

/-!
# Reads Stay Within the Departments

A user of a department reads while data arrives for devices everywhere in the tenant. Every read
that first asks `DevicesService` for the device, or for the list of devices, is confined to the
user's departments: what is stored of the other devices, and when it arrives, makes no difference
to any answer. The reads that are given a device id and do not ask, those of trips and alerts, are
confined as long as the id is that of a device the user may access.

1. `Store.sees`, `Store.Alike`: the devices of a user, and stores that look alike to the user.
2. `Arrival`, `readers`: the reads of the user, interleaved with data that arrives.
3. `blind_code`: the code of a confined read asks for nothing else.
4. `reads_confined`; `trips_reveal`: what the other reads tell.
-/

namespace FleetTracking.ControlPlane

open Async Transition

/-! ## What a user sees -/

/-- The user may access a device with that id. -/
def Store.sees (s : Store) (user : AuthUser) (id : String) : Bool :=
  s.backend.devices.rows.any fun d =>
    d.id = id ∧ d.tenantId = user.tenantId ∧ ¬ outOfScope (user.scope s.backend.orgUnits) d

/-- Two stores that look alike to the user: they differ at most in the positions, the alerts and
the trips of devices that the user may not access. -/
structure Store.Alike (user : AuthUser) (s s' : Store) : Prop where
  now : s'.backend.now = s.backend.now
  devices : s'.backend.devices = s.backend.devices
  orgUnits : s'.backend.orgUnits = s.backend.orgUnits
  geofences : s'.backend.geofences = s.backend.geofences
  users : s'.users = s.users
  subscriptions : s'.subscriptions = s.subscriptions
  positions : ∀ id, s.sees user id = true →
    (s'.backend.positions.rows.filter fun p => p.deviceId = id) =
      s.backend.positions.rows.filter fun p => p.deviceId = id
  hot : ∀ id, s.sees user id = true → ∀ tenantId,
    s'.backend.hot.get (tenantId, id) = s.backend.hot.get (tenantId, id)
  alerts : ∀ id, s.sees user id = true →
    (s'.backend.alerts.filter fun a => a.deviceId = id) =
      s.backend.alerts.filter fun a => a.deviceId = id
  trips : ∀ id, s.sees user id = true →
    (s'.backend.trips.filter fun t => t.deviceId = id) =
      s.backend.trips.filter fun t => t.deviceId = id

/-- The read asks for the device first, or it is given the id of one of the user's devices. -/
def ApiRead.confined (s : Store) (user : AuthUser) : ApiRead → Bool
  | .trips deviceId _ _ => s.sees user deviceId
  | .alerts deviceId _ => deviceId.any (s.sees user)
  | .graphqlAlerts deviceId _ => deviceId.any (s.sees user)
  | _ => true

/-! ## Reads and data that arrives -/

/-- What happens to the data while the reads are in progress. -/
inductive Arrival where
  | position (p : Position)
  | lastPosition (p : Position)
  | lastPositionExpires (tenantId deviceId : String)
  | alert (a : AlertEvent)
  | trip (t : Trip)
  | elapse (ms : Nat)

def Store.arrive (s : Store) : Arrival → Store
  | .position p => { s with backend := s.backend.effect (.positionsInsertMany [p]) }
  | .lastPosition p => { s with backend := s.backend.effect (.hotSetLast p) }
  | .lastPositionExpires tenantId deviceId =>
    { s with backend := s.backend.env (.expire tenantId deviceId) }
  | .alert a => { s with backend := s.backend.effect (.alertsInsertMany [a]) }
  | .trip t => { s with backend := s.backend.effect (.tripsInsert t) }
  | .elapse ms => { s with backend := s.backend.env (.elapse ms) }

/-- The device that the data is about. -/
def Arrival.deviceId : Arrival → Option String
  | .position p => some p.deviceId
  | .lastPosition p => some p.deviceId
  | .lastPositionExpires _ deviceId => some deviceId
  | .alert a => some a.deviceId
  | .trip t => some t.deviceId
  | .elapse _ => none

/-- The data is about a device that the user may not access. -/
def Arrival.outside (s : Store) (user : AuthUser) (m : Arrival) : Bool :=
  m.deviceId.any fun id => !s.sees user id

/-- The reads of one user, any number of them at the same time. -/
def readers (D : ApiDeployment) (user : AuthUser) :
    System apiSig Nat ApiRead (Sigma ApiRead.Answer) Store Outcome Arrival where
  settle i _ op x s := some (s.settle i op x)
  act _ _ a s := s.act D a
  code read := (fun a => ⟨read, a⟩) <$> read.code user
  env m s := some (s.arrive m)

/-- The user only starts confined reads. -/
def StartsConfined (s : Store) (user : AuthUser)
    (_ : History apiSig ApiRead (Sigma ApiRead.Answer) Store Nat) :
    Event ApiRead Outcome Arrival Nat → Prop
  | .start _ read => read.confined s user = true
  | _ => True

instance (s : Store) (user : AuthUser)
    (h : History apiSig ApiRead (Sigma ApiRead.Answer) Store Nat)
    (e : Event ApiRead Outcome Arrival Nat) : Decidable (StartsConfined s user h e) :=
  match e with
  | .start _ _ => inferInstanceAs (Decidable (_ = _))
  | .settle _ _ => .isTrue trivial
  | .resume _ => .isTrue trivial
  | .env _ => .isTrue trivial

/-! ## Alike stores stay alike -/

section Alike

variable {user : AuthUser} {s₀ s s' : Store} {id : String}

theorem sees_iff : s.sees user id = true ↔ ∃ d ∈ s.backend.devices.rows, d.id = id ∧
    d.tenantId = user.tenantId ∧ ¬ outOfScope (user.scope s.backend.orgUnits) d = true := by
  simp [Store.sees]

/-- Two stores with the departments and devices of `s₀` that look alike to the user. -/
structure AsSeen (user : AuthUser) (s₀ s s' : Store) : Prop where
  devices : s.backend.devices = s₀.backend.devices
  orgUnits : s.backend.orgUnits = s₀.backend.orgUnits
  alike : s.Alike user s'

theorem AsSeen.sees (h : AsSeen user s₀ s s') : s.sees user id = s₀.sees user id := by
  simp only [Store.sees, h.devices, h.orgUnits]

theorem Store.Alike.refl (user : AuthUser) (s : Store) : s.Alike user s :=
  ⟨rfl, rfl, rfl, rfl, rfl, rfl, fun _ _ => rfl, fun _ _ _ => rfl, fun _ _ => rfl, fun _ _ => rfl⟩

/-- A query that only asks for rows on which two tables agree. -/
theorem filter_eq_of_imp {α : Type} {l l' : List α} {p q : α → Bool}
    (h : l'.filter p = l.filter p) (himp : ∀ a, q a = true → p a = true) :
    l'.filter q = l.filter q := by
  have hq : ∀ l : List α, l.filter q = (l.filter p).filter q := by
    intro l
    rw [List.filter_filter]
    apply List.filter_congr
    intro a _
    cases hqa : q a with
    | true => simp [himp a hqa]
    | false => simp
  rw [hq l', hq l, h]

/-! What is stored of a device of the user. -/

theorem Store.Alike.latest (h : s.Alike user s') (hid : s.sees user id = true)
    (tenantId : String) :
    s'.backend.positions.latest tenantId id = s.backend.positions.latest tenantId id := by
  unfold PositionTable.latest
  rw [filter_eq_of_imp (h.positions id hid) fun p hp => by simpa using (of_decide_eq_true hp).2]

theorem Store.Alike.history (h : s.Alike user s') (hid : s.sees user id = true)
    (tenantId start stop : String) (limit : Int) :
    s'.backend.positions.history tenantId id start stop limit =
      s.backend.positions.history tenantId id start stop limit := by
  unfold PositionTable.history
  rw [filter_eq_of_imp (h.positions id hid) fun p hp => by simpa using (of_decide_eq_true hp).1.2]

theorem Store.Alike.listTrips (h : s.Alike user s') (hid : s.sees user id = true)
    (tenantId start stop : String) (limit : Int) :
    ControlPlane.listTrips s'.backend.trips tenantId id start stop limit =
      ControlPlane.listTrips s.backend.trips tenantId id start stop limit := by
  unfold ControlPlane.listTrips
  rw [filter_eq_of_imp (h.trips id hid) fun t ht => by simpa using (of_decide_eq_true ht).2.1]

theorem Store.Alike.listAlerts (h : s.Alike user s') (hid : s.sees user id = true) (hne : id ≠ "")
    (tenantId : String) (limit : Int) :
    ControlPlane.listAlerts s'.backend.alerts tenantId (some id) limit =
      ControlPlane.listAlerts s.backend.alerts tenantId (some id) limit := by
  have hall : (some id).filter truthy = some id := by simp [truthy, hne]
  unfold ControlPlane.listAlerts
  rw [filter_eq_of_imp (h.alerts id hid) fun a ha => ?_]
  simpa [AlertEvent.of, hall] using (of_decide_eq_true ha).2

/-! What changes the data. -/

theorem AsSeen.noteRead (h : AsSeen user s₀ s s') (i : Nat) (op : ApiOp) :
    AsSeen user s₀ (s.noteRead i op) (s'.noteRead i op) := by
  have hsame : ∀ s : Store, ∃ reads, s.noteRead i op =
      { s with backend := { s.backend with speedReads := reads } } := by
    intro s
    cases op with
    | backend op => cases op <;> exact ⟨_, rfl⟩
    | _ => exact ⟨_, rfl⟩
  obtain ⟨reads, hs⟩ := hsame s
  obtain ⟨reads', hs'⟩ := hsame s'
  rw [hs, hs']
  exact ⟨h.devices, h.orgUnits, { h.alike with }⟩

/-- The hot state is written in both stores. -/
theorem AsSeen.setLast (h : AsSeen user s₀ s s') (p : Position) :
    AsSeen user s₀ (s.effect (.backend (.hotSetLast p))) (s'.effect (.backend (.hotSetLast p))) := by
  refine ⟨h.devices, h.orgUnits, { h.alike with hot := fun id hid tenantId => ?_ }⟩
  show (s'.backend.hot.set (p.tenantId, p.deviceId) p).get (tenantId, id) =
    (s.backend.hot.set (p.tenantId, p.deviceId) p).get (tenantId, id)
  by_cases hkey : (tenantId, id) = (p.tenantId, p.deviceId)
  · rw [hkey, JsMap.get_set_self, JsMap.get_set_self]
  · rw [JsMap.get_set_of_ne _ _ hkey, JsMap.get_set_of_ne _ _ hkey]
    exact h.alike.hot id hid tenantId

theorem filter_insert (t : PositionTable) (p : Position) (id : String) :
    ((t.insert p).rows.filter fun q => q.deviceId = id) =
      (t.rows.filter fun q => q.deviceId = id) ++
        if p.deviceId = id ∧ ∀ q ∈ (t.rows.filter fun q : Position => q.deviceId = id), q.ts ≠ p.ts then
          [p.row] else [] := by
  unfold PositionTable.insert
  split
  case isTrue hcollides =>
    obtain ⟨q, hq, hdevice, hts⟩ := hcollides
    rw [if_neg, List.append_nil]
    rintro ⟨hid, hnone⟩
    exact hnone q (by simp [hq, hdevice, hid]) hts
  case isFalse hfree =>
    rw [List.filter_append]
    by_cases hid : p.deviceId = id
    · have hnone : ∀ q ∈ (t.rows.filter fun q : Position => q.deviceId = id), q.ts ≠ p.ts := by
        intro q hq hts
        obtain ⟨hq, hdevice⟩ := List.mem_filter.mp hq
        exact hfree ⟨q, hq, (of_decide_eq_true hdevice).trans hid.symm, hts⟩
      rw [if_pos ⟨hid, hnone⟩]
      simp [hid]
    · rw [if_neg fun h => hid h.1]
      simp [hid]

/-- Data arrives in both stores. -/
theorem AsSeen.arrive (h : AsSeen user s₀ s s') (m : Arrival) :
    AsSeen user s₀ (s.arrive m) (s'.arrive m) := by
  cases m with
  | position p =>
    refine ⟨h.devices, h.orgUnits, { h.alike with positions := fun id hid => ?_ }⟩
    have hrows := h.alike.positions id hid
    exact (filter_insert _ p id).trans (by rw [hrows]; exact (filter_insert _ p id).symm)
  | lastPosition p => exact h.setLast p
  | lastPositionExpires tenantId deviceId =>
    refine ⟨h.devices, h.orgUnits, { h.alike with hot := fun id hid t => ?_ }⟩
    show (s'.backend.hot.delete (tenantId, deviceId)).get (t, id) =
      (s.backend.hot.delete (tenantId, deviceId)).get (t, id)
    -- the same key is gone on both sides, every other is as it was
    by_cases hkey : (t, id) = (tenantId, deviceId)
    · rw [hkey, JsMap.get_delete_self, JsMap.get_delete_self]
    · rw [JsMap.get_delete_of_ne _ hkey, JsMap.get_delete_of_ne _ hkey]
      exact h.alike.hot id hid t
  | alert a =>
    refine ⟨h.devices, h.orgUnits, { h.alike with alerts := fun id hid => ?_ }⟩
    have halerts := h.alike.alerts id hid
    simp only [Store.arrive, Backend.effect, List.filter_append, halerts]
  | trip t =>
    refine ⟨h.devices, h.orgUnits, { h.alike with trips := fun id hid => ?_ }⟩
    have htrips := h.alike.trips id hid
    simp only [Store.arrive, Backend.effect, List.filter_append, htrips]
  | elapse ms =>
    refine ⟨h.devices, h.orgUnits, { h.alike with now := ?_ }⟩
    exact congrArg (· + ms) h.alike.now

/-- Data of other devices arrives in one of the stores. -/
theorem AsSeen.arrive_outside (h : AsSeen user s₀ s s') {m : Arrival}
    (hm : m.outside s₀ user = true) : AsSeen user s₀ (s.arrive m) s' := by
  -- what arrives speaks of a device that the caller does not see
  have hother : ∀ deviceId, m.deviceId = some deviceId → ∀ id, s.sees user id = true →
      deviceId ≠ id := by
    rintro deviceId hdevice id hid rfl
    rw [h.sees] at hid
    simp [Arrival.outside, hdevice, hid] at hm
  cases m with
  | position p =>
    refine ⟨h.devices, h.orgUnits, { h.alike with positions := fun id hid => ?_ }⟩
    have hne := hother _ rfl id hid
    have hrows := filter_insert s.backend.positions p id
    rw [if_neg fun h => hne h.1, List.append_nil] at hrows
    exact (h.alike.positions id hid).trans hrows.symm
  | lastPosition p =>
    refine ⟨h.devices, h.orgUnits, { h.alike with hot := fun id hid tenantId => ?_ }⟩
    have hkey : (tenantId, id) ≠ (p.tenantId, p.deviceId) := by
      intro heq
      exact hother _ rfl id hid (Prod.mk.inj heq).2.symm
    have hget := JsMap.get_set_of_ne s.backend.hot p hkey
    exact (h.alike.hot id hid tenantId).trans hget.symm
  | lastPositionExpires tenantId deviceId =>
    refine ⟨h.devices, h.orgUnits, { h.alike with hot := fun id hid t => ?_ }⟩
    have hkey : (t, id) ≠ (tenantId, deviceId) := by
      intro heq
      exact hother _ rfl id hid (Prod.mk.inj heq).2.symm
    have hget := JsMap.get_delete_of_ne s.backend.hot hkey
    exact (h.alike.hot id hid t).trans hget.symm
  | alert a =>
    refine ⟨h.devices, h.orgUnits, { h.alike with alerts := fun id hid => ?_ }⟩
    have hne := hother _ rfl id hid
    simp only [Store.arrive, Backend.effect, List.filter_append]
    simp [h.alike.alerts id hid, hne]
  | trip t =>
    refine ⟨h.devices, h.orgUnits, { h.alike with trips := fun id hid => ?_ }⟩
    have hne := hother _ rfl id hid
    simp only [Store.arrive, Backend.effect, List.filter_append]
    simp [h.alike.trips id hid, hne]
  | elapse ms => cases hm

end Alike

/-! ## The code of a confined read -/

section Blind

variable {D : ApiDeployment} {user : AuthUser} {s₀ : Store} {id : String}

/-- The code does not tell apart two stores that look alike to the user. -/
abbrev Blindly {α : Type} (D : ApiDeployment) (user : AuthUser) (s₀ : Store) (Q : α → Prop)
    (x : Api α) : Prop :=
  (readers D user).Blind (AsSeen user s₀) Q x

/-- A request with the same answer in both stores, which stay alike. -/
theorem blind_request {op : ApiOp} {Q : op.Res → Prop}
    (hanswer : ∀ s s' reply, AsSeen user s₀ s s' → s'.answer reply op = s.answer reply op)
    (heffect : ∀ s s', AsSeen user s₀ s s' → AsSeen user s₀ (s.effect op) (s'.effect op))
    (hQ : ∀ s s' reply, AsSeen user s₀ s s' → Q (s.answer reply op)) :
    Blindly D user s₀ Q (Api.request op) := by
  apply blind_perform
  · intro i read x s s' out hseen hout
    have hnote := hseen.noteRead i op
    have hsettle : s.settle i op x = out := Option.some_inj.mp hout
    refine ⟨(s'.settle i op x).1, ?_, ?_⟩
    · show some (s'.settle i op x) = _
      rw [← hsettle]
      cases x with
      | resolves reply => simp only [Store.settle, hanswer _ _ reply hnote]
      | rejects e b => rfl
    · rw [← hsettle]
      simp only [Store.settle]
      split
      · exact heffect _ _ hnote
      · exact hnote
  · intro i read x s s' t r hseen hout
    have hsettle : s.settle i op x = (t, .ok r) := Option.some_inj.mp hout
    cases x with
    | resolves reply =>
      obtain rfl := Except.ok.inj (Prod.mk.inj hsettle).2
      exact hQ _ _ reply (hseen.noteRead i op)
    | rejects e b => cases (Prod.mk.inj hsettle).2

/-- A request that only reads. -/
theorem blind_read {op : ApiOp} {Q : op.Res → Prop} (heffect : ∀ s : Store, s.effect op = s)
    (hanswer : ∀ s s' reply, AsSeen user s₀ s s' → s'.answer reply op = s.answer reply op)
    (hQ : ∀ s s' reply, AsSeen user s₀ s s' → Q (s.answer reply op)) :
    Blindly D user s₀ Q (Api.request op) := by
  apply blind_request hanswer _ hQ
  intro s s' hseen
  rw [heffect, heffect]
  exact hseen

theorem blind_nowText : Blindly D user s₀ (fun _ => True) (Api.lift nowText) := by
  have hnow : (readers D user).SameAct (AsSeen user s₀) (.backend .now) :=
    fun i read s s' hseen => ⟨hseen.alike.now, hseen⟩
  simp only [nowText, Api.lift_bind, Api.lift_pure]
  exact World.Blind.bind (blind_action hnow) fun _ _ => blind_pure trivial

theorem blind_scopeFor : Blindly D user s₀ (fun scope => scope = user.scope s₀.backend.orgUnits)
    (Api.lift (scopeFor user)) := by
  unfold scopeFor AuthUser.scope
  cases user.departmentId.filter truthy with
  | none => exact rfl
  | some departmentId =>
    simp only [Api.lift_bind, Api.lift_pure]
    rw [Api.lift_request]
    refine World.Blind.bind (blind_read (Q := fun units =>
      units = s₀.backend.orgUnits.filter fun u => u.tenantId = user.tenantId) (fun _ => rfl)
      (fun s s' _ h => ?_) fun s s' _ h => ?_) fun units hunits => blind_pure ?_
    · simp only [Store.answer, Backend.answer, h.alike.orgUnits]
    · simp only [Store.answer, Backend.answer, h.orgUnits]
    · rw [hunits]
      rfl

/-- The access check returns the device, and the user may access it. -/
theorem blind_getScoped {includeDeleted : Bool} :
    Blindly D user s₀ (fun d => d.id = id ∧ s₀.sees user id = true)
      (Api.lift (getScoped user id includeDeleted)) := by
  simp only [getScoped, Api.lift_bind]
  rw [Api.lift_request]
  refine World.Blind.bind (blind_read (Q := fun found =>
    found = s₀.backend.devices.findById user.tenantId id includeDeleted) (fun _ => rfl)
    (fun s s' _ h => ?_) fun s s' _ h => ?_) fun found hfound => ?_
  · simp only [Store.answer, Backend.answer, h.alike.devices]
  · simp only [Store.answer, Backend.answer, h.devices]
  · cases found with
    | none => exact blind_throw
    | some d =>
      obtain ⟨hd, hid, htenant, -⟩ := DeviceTable.findById_eq_some_iff.mp hfound.symm
      simp only [Api.lift_bind]
      refine World.Blind.bind blind_scopeFor fun scope hscope => ?_
      rw [hscope]
      by_cases hout : outOfScope (user.scope s₀.backend.orgUnits) d = true
      · rw [if_pos hout]
        exact blind_throw
      · rw [if_neg hout]
        exact blind_pure ⟨hid, sees_iff.mpr ⟨d, hd, hid, htenant, hout⟩⟩

/-- The devices of a list are devices that the user may access. -/
theorem blind_list : Blindly D user s₀ (fun ds => ∀ d ∈ ds, s₀.sees user d.id = true)
    (DevicesService.list user) := by
  unfold DevicesService.list
  refine World.Blind.bind blind_scopeFor fun scope hscope => ?_
  refine blind_read (fun _ => rfl) (fun s s' _ h => ?_) fun s s' _ h d hd => ?_
  · simp only [Store.answer, h.alike.devices]
  · simp only [Store.answer, h.devices, hscope, DeviceTable.mem_list] at hd
    obtain ⟨hrow, ⟨htenant, hin⟩, -⟩ := hd
    exact sees_iff.mpr ⟨d, hrow, rfl, htenant, DeviceTable.not_outOfScope_iff.mpr hin⟩

theorem blind_listDeleted : Blindly D user s₀ (fun _ => True) (DevicesService.listDeleted user) := by
  unfold DevicesService.listDeleted
  refine World.Blind.bind blind_scopeFor fun scope _ => ?_
  refine World.Blind.bind (blind_read (Q := fun _ => True) (fun _ => rfl) (fun s s' _ h => ?_)
    fun _ _ _ _ => trivial) fun all _ => blind_pure trivial
  simp only [Store.answer, h.alike.devices]

/-! Data of a device of the user. -/

theorem blind_data {op : ApiOp} (heffect : ∀ s : Store, s.effect op = s)
    (hanswer : ∀ s s' reply, AsSeen user s₀ s s' → s'.answer reply op = s.answer reply op) :
    Blindly D user s₀ (fun _ => True) (Api.request op) :=
  blind_read heffect hanswer fun _ _ _ _ => trivial

theorem blind_hotGetLast (hid : s₀.sees user id = true) (tenantId : String) :
    Blindly D user s₀ (fun _ => True) (Api.request (.backend (.hotGetLast tenantId id))) :=
  blind_data (fun _ => rfl) fun _ _ _ h => h.alike.hot id (h.sees.trans hid) tenantId

theorem blind_positionsLatest (hid : s₀.sees user id = true) (tenantId : String) :
    Blindly D user s₀ (fun _ => True) (Api.request (.backend (.positionsLatest tenantId id))) :=
  blind_data (fun _ => rfl) fun _ _ _ h => h.alike.latest (h.sees.trans hid) tenantId

theorem blind_hotSetLast (p : Position) :
    Blindly D user s₀ (fun _ => True) (Api.request (.backend (.hotSetLast p))) :=
  blind_request (fun _ _ _ _ => rfl) (fun _ _ h => h.setLast p) fun _ _ _ _ => trivial

theorem blind_positionsHistory (hid : s₀.sees user id = true) (tenantId start stop : String)
    (limit : Int) : Blindly D user s₀ (fun _ => True)
      (Api.request (.positionsHistory tenantId id start stop limit)) :=
  blind_data (fun _ => rfl) fun _ _ _ h =>
    h.alike.history (h.sees.trans hid) tenantId start stop limit

theorem blind_tripsList (hid : s₀.sees user id = true) (tenantId start stop : String)
    (limit : Int) : Blindly D user s₀ (fun _ => True)
      (Api.request (.tripsList tenantId id start stop limit)) :=
  blind_data (fun _ => rfl) fun _ _ _ h =>
    h.alike.listTrips (h.sees.trans hid) tenantId start stop limit

theorem blind_alertsList (hid : s₀.sees user id = true) (hne : id ≠ "") (tenantId : String)
    (limit : Int) : Blindly D user s₀ (fun _ => True)
      (Api.request (.alertsList tenantId (some id) limit)) :=
  blind_data (fun _ => rfl) fun _ _ _ h =>
    h.alike.listAlerts (h.sees.trans hid) hne tenantId limit

/-! The reads. -/

theorem blind_latest : Blindly D user s₀ (fun _ => True) (Api.lift (latest user id)) := by
  simp only [latest, Api.lift_bind]
  refine World.Blind.bind blind_getScoped fun d hd => ?_
  rw [Api.lift_request]
  refine World.Blind.bind (blind_hotGetLast hd.2 _) fun pos _ => ?_
  cases pos with
  | some pos => exact blind_pure trivial
  | none =>
    simp only [Api.lift_bind]
    rw [Api.lift_request]
    refine World.Blind.bind (blind_positionsLatest hd.2 _) fun pos _ => ?_
    cases pos with
    | none => exact blind_throw
    | some pos =>
      simp only [Api.lift_bind, Api.lift_attempt, Api.lift_pure]
      rw [Api.lift_request]
      refine World.Blind.bind (World.Blind.attempt (blind_hotSetLast pos) fun _ => ?_) fun _ _ => ?_
      · exact blind_pure trivial
      · exact blind_pure trivial

theorem blind_alertsInRange (hid : s₀.sees user id = true) (hne : id ≠ "")
    (tenantId start stop : String) : Blindly D user s₀ (fun _ => True)
      (ReportsService.alertsInRange tenantId id start stop) :=
  World.Blind.bind (blind_alertsList hid hne tenantId _) fun _ _ => blind_pure trivial

theorem blind_perDevice {ds : List Device} (hds : ∀ d ∈ ds, s₀.sees user d.id = true ∧ d.id ≠ "")
    (tenantId start stop : String) : Blindly D user s₀ (fun _ => True)
      (ReportsService.perDevice tenantId start stop ds) := by
  induction ds with
  | nil => exact blind_pure trivial
  | cons d ds ih =>
    obtain ⟨hd, hne⟩ := hds d List.mem_cons_self
    have hrest := ih fun d' hd' => hds d' (List.mem_cons_of_mem _ hd')
    refine World.Blind.bind (blind_tripsList hd _ _ _ _) fun _ _ => ?_
    refine World.Blind.bind (blind_alertsInRange hd hne _ _ _) fun _ _ => ?_
    exact World.Blind.bind hrest fun _ _ => blind_pure trivial

variable (hids : ∀ d ∈ s₀.backend.devices.rows, d.id ≠ "")
include hids

theorem ne_of_sees (hid : s₀.sees user id = true) : id ≠ "" := by
  obtain ⟨d, hd, rfl, -⟩ := sees_iff.mp hid
  exact hids d hd

theorem blind_generate (type : ReportType) (deviceId : Option String) (start stop : String) :
    Blindly D user s₀ (fun _ => True)
      (ReportsService.generate user type deviceId start stop) := by
  refine World.Blind.bind blind_nowText fun now _ => ?_
  cases type with
  | fleet =>
    refine World.Blind.bind blind_list fun ds hds => ?_
    refine World.Blind.bind (blind_perDevice (fun d hd => ?_) _ _ _) fun _ _ => blind_pure trivial
    have hsees := hds d (List.mem_of_mem_take hd)
    exact ⟨hsees, ne_of_sees hids hsees⟩
  | device type =>
    cases deviceId.filter truthy with
    | none => exact blind_throw
    | some id =>
      refine World.Blind.bind blind_getScoped fun d hd => ?_
      refine World.Blind.bind (blind_tripsList hd.2 _ _ _ _) fun _ _ => ?_
      exact World.Blind.bind (blind_alertsInRange hd.2 (ne_of_sees hids hd.2) _ _ _)
        fun _ _ => blind_pure trivial

omit hids in
theorem blind_summary (tenantId : String) :
    Blindly D user s₀ (fun _ => True) (BillingService.summary tenantId) := by
  simp only [BillingService.summary, BillingService.planFor, BillingService.usage, bind_assoc,
    pure_bind]
  refine World.Blind.bind (blind_data (fun _ => rfl) fun s s' _ h => ?_) fun _ _ => ?_
  · simp only [Store.answer, h.alike.subscriptions]
  refine World.Blind.bind (blind_data (fun _ => rfl) fun s s' _ h => ?_) fun _ _ => ?_
  · simp only [Store.answer, h.alike.devices]
  refine World.Blind.bind (blind_data (fun _ => rfl) fun s s' _ h => ?_) fun _ _ => ?_
  · simp only [Store.answer, h.alike.users]
  exact blind_pure trivial

/-- **The code of a confined read** asks for nothing that tells alike stores apart. -/
theorem blind_code {read : ApiRead} (hread : read.confined s₀ user = true) :
    Blindly D user s₀ (fun _ => True) (read.code user) := by
  cases read with
  | devicesList => exact World.Blind.mono blind_list fun _ _ => trivial
  | devicesGet id => exact World.Blind.mono blind_getScoped fun _ _ => trivial
  | devicesGetIncludingDeleted id => exact World.Blind.mono blind_getScoped fun _ _ => trivial
  | devicesListDeleted => exact blind_listDeleted
  | latest id => exact blind_latest
  | history id start stop limit =>
    exact World.Blind.bind blind_getScoped fun d hd => blind_positionsHistory hd.2 _ _ _ _
  | trips id start stop => exact blind_tripsList hread _ _ _ _
  | alerts deviceId limit =>
    obtain ⟨id, rfl, hid⟩ := (Option.any_eq_true _ _).mp hread
    exact blind_alertsList hid (ne_of_sees hids hid) _ _
  | report type deviceId start stop => exact blind_generate hids type deviceId start stop
  | graphqlMe => exact blind_pure trivial
  | graphqlDevices => exact World.Blind.mono blind_list fun _ _ => trivial
  | graphqlDevice id => exact World.Blind.mono blind_getScoped fun _ _ => trivial
  | graphqlLatestPosition id =>
    exact World.Blind.bind blind_getScoped fun d hd => blind_hotGetLast hd.2 _
  | graphqlGeofences =>
    refine blind_data (fun _ => rfl) fun s s' _ h => ?_
    simp only [Store.answer, Backend.answer, h.alike.geofences]
  | graphqlAlerts deviceId limit =>
    obtain ⟨id, rfl, hid⟩ := (Option.any_eq_true _ _).mp hread
    exact blind_alertsList hid (ne_of_sees hids hid) _ _
  | graphqlBilling => exact blind_summary _

end Blind

/-! ## Runs -/

section Runs

variable {D : ApiDeployment} {user : AuthUser} {s s' : Store}

/-- **The reads are confined.** While one user reads, any number of reads at a time, data arrives.
In a store that looks alike to the user, and without the data about other devices, the same
events are possible: every read is answered the same, step by step. -/
theorem reads_confined (D : ApiDeployment) (user : AuthUser) {s s' : Store}
    (halike : s.Alike user s') (hids : ∀ d ∈ s.backend.devices.rows, d.id ≠ "")
    {es : List (Event ApiRead Outcome Arrival Nat)}
    {h : History apiSig ApiRead (Sigma ApiRead.Answer) Store Nat}
    (hrun : Run (readers D user).follow (StartsConfined s user) (History.start s) es h) :
    ∃ h', Run (readers D user).follow (fun _ _ => True) (History.start s')
        (es.filter (Event.shown fun m => m.outside s user)) h' ∧
      h'.ended = h.ended ∧ h'.config.threads = h.config.threads := by
  have hseen : AsSeen user s s s' := ⟨rfl, rfl, halike⟩
  have hcode : ∀ h i read, StartsConfined s user h (.start i read) →
      (readers D user).Blind (AsSeen user s) (fun _ => True) ((readers D user).code read) :=
    fun _ _ _ hread => World.Blind.map (blind_code hids hread) fun _ _ => trivial
  have hshown : ∀ (m : Arrival) t t' t₁, m.outside s user = false → AsSeen user s t t' →
      some (t.arrive m) = some t₁ → ∃ t₁', some (t'.arrive m) = some t₁' ∧ AsSeen user s t₁ t₁' := by
    rintro m t t' _ - hR ⟨⟩
    exact ⟨_, rfl, hR.arrive m⟩
  have hhidden : ∀ (m : Arrival) t t' t₁, m.outside s user = true → AsSeen user s t t' →
      some (t.arrive m) = some t₁ → AsSeen user s t₁ t' := by
    rintro m t t' _ hm hR ⟨⟩
    exact hR.arrive_outside hm
  obtain ⟨h', hrun', hin⟩ := follow_blind hrun hseen hcode hshown hhidden
  exact ⟨h', hrun', hin.ended, hin.threads⟩

/-- A user of the northern department, a van that belongs to it, and a truck of no department. -/
def sampleNorthern : AuthUser := ⟨"u", "acme", .viewer, "viewer@acme.test", some "north"⟩

def samplePosition (deviceId : String) : Position :=
  ⟨"acme", deviceId, "356307042441013", "2026-07-24T10:00:00.000Z", 0, 0, 0, 0, 0, 0, none, []⟩

def sampleNorth : Store :=
  Store.new { Backend.new ((Table.empty.put ⟨"truck", "acme", "356307042441021", none, "FTC927",
      .car, .active, none, none, none⟩).put ⟨"van", "acme", "356307042441013", none, "FTC927", .car,
      .active, none, some "depot", none⟩) with
    orgUnits := [⟨"north", "acme", "North", none⟩, ⟨"depot", "acme", "Depot", some "north"⟩]
    positions := PositionTable.empty.insert (samplePosition "van") }

/-- The position of the van is read while one of the truck arrives. -/
def sampleReading : List (Event ApiRead Outcome Arrival Nat) :=
  [.start 0 (.latest "van"), .settle 0 (.resolves ""), .resume 0, .settle 0 (.resolves ""), .resume 0,
    .env (.position (samplePosition "truck")), .settle 0 (.resolves ""), .resume 0,
    .settle 0 (.resolves ""), .env (.lastPosition (samplePosition "truck")), .resume 0,
    .settle 0 (.resolves ""), .resume 0]

theorem sample_confined : ∃ h', Run (readers sampleApi sampleNorthern).follow (fun _ _ => True)
    (History.start sampleNorth)
    (sampleReading.filter (Event.shown fun m => m.outside sampleNorth sampleNorthern)) h' ∧
    h'.ended.length = 1 := by
  let trip : Trip := ⟨"acme", "truck", "2026-07-24T10:00:00.000Z", "2026-07-24T11:00:00.000Z", 1, 1, 2⟩
  have hseen : AsSeen sampleNorthern sampleNorth sampleNorth sampleNorth :=
    ⟨rfl, rfl, Store.Alike.refl _ _⟩
  have halike := (hseen.arrive_outside (m := .trip trip) (by decide +kernel)).alike
  obtain ⟨h, hrun, hended⟩ : ∃ h, Run (readers sampleApi sampleNorthern).follow
      (StartsConfined (sampleNorth.arrive (.trip trip)) sampleNorthern)
      (History.start (sampleNorth.arrive (.trip trip))) sampleReading h ∧ h.ended.length = 1 := by
    apply Run.exists_of_any
    decide +kernel
  obtain ⟨h', hrun', heq, -⟩ := reads_confined sampleApi sampleNorthern halike (by decide +kernel) hrun
  exact ⟨h', hrun', by rw [heq, hended]⟩

/-- What the condition leaves out tells of other departments: the trips of a device that the user
may not access are read by its id, and they are not the same in all stores that look alike. -/
theorem trips_reveal (D : ApiDeployment) (user : AuthUser) (s : Store) {id start stop : String}
    (hout : s.sees user id = false) (hle : start ≤ stop) : ∃ s', s.Alike user s' ∧
      s'.reply D (AlertsService.listTrips user.tenantId id start stop) ≠
        s.reply D (AlertsService.listTrips user.tenantId id start stop) := by
  have hreply : ∀ s : Store, s.reply D (AlertsService.listTrips user.tenantId id start stop) =
      some (.ok (listTrips s.backend.trips user.tenantId id start stop 500)) := by
    intro s
    apply reply_of_ends
    rw [AlertsService.listTrips, ← bind_pure (Api.request _)]
    exact resolves_read rfl rfl fun _ => rfl
  have halike : ∀ trips : List Trip, (∀ other, other ≠ id →
      (trips.filter fun t => t.deviceId = other) = s.backend.trips.filter fun t => t.deviceId = other) →
      s.Alike user { s with backend.trips := trips } := by
    intro trips htrips
    refine { Store.Alike.refl user s with trips := fun other hother => htrips other ?_ }
    rintro rfl
    rw [hout] at hother
    cases hother
  let rest := s.backend.trips.filter fun t => t.deviceId ≠ id
  have hrest : ∀ other, other ≠ id → (rest.filter fun t => t.deviceId = other) =
      s.backend.trips.filter fun t => t.deviceId = other := by
    intro other hother
    rw [List.filter_filter]
    apply List.filter_congr
    intro t _
    by_cases ht : t.deviceId = other
    · simp [ht, hother]
    · simp [ht]
  have hempty : (rest.filter fun t : Trip => t.tenantId = user.tenantId ∧ t.deviceId = id ∧
      start ≤ t.startTs ∧ t.startTs ≤ stop) = [] := by
    rw [List.filter_eq_nil_iff]
    intro t ht
    have hne : t.deviceId ≠ id := of_decide_eq_true (List.mem_filter.mp ht).2
    simp [hne]
  have hnone : listTrips rest user.tenantId id start stop 500 = [] := by
    simp only [listTrips, hempty]
    simp [slice]
  by_cases hany : listTrips s.backend.trips user.tenantId id start stop 500 = []
  · -- no trips are there: with one more there are some
    let trip : Trip := ⟨user.tenantId, id, start, stop, 0, 0, 0⟩
    refine ⟨_, halike (rest ++ [trip]) fun other hother => ?_, ?_⟩
    · rw [List.filter_append, hrest other hother]
      simp [trip, hother.symm]
    · have hone : ((rest ++ [trip]).filter fun t : Trip => t.tenantId = user.tenantId ∧
          t.deviceId = id ∧ start ≤ t.startTs ∧ t.startTs ≤ stop) = [trip] := by
        rw [List.filter_append, hempty]
        simp [trip, hle]
      rw [hreply, hreply, hany]
      simp only [listTrips, hone]
      simp [slice]
  · refine ⟨_, halike rest hrest, ?_⟩
    rw [hreply, hreply]
    simp only [hnone]
    intro heq
    exact hany (Except.ok.inj (Option.some.inj heq)).symm

end Runs

end FleetTracking.ControlPlane
