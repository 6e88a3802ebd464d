import FleetTracking.ControlPlane.Administration

/-!
# The Allow-List Under Races and Failures

Every operation that changes whether a device may send data writes its row, and then adds its IMEI
to the allow-list or removes it. The start of the server reads the IMEIs of all rows, and then
replaces the list. Calls that overlap, and publications that fail, may leave the list out of step.

1. `Store.InStep`: the list agrees with the devices on an IMEI.
2. `InTime`: no call is overtaken by another before it publishes, and none gives up.
3. `ListInv`: the list is in step on every IMEI that no call in progress is still to publish.
4. `allow_list_converges`: once all calls have ended, the list is the set of the active IMEIs.
-/

namespace FleetTracking.ControlPlane

open Async Transition Typestate

/-! ## The condition -/

/-- The list agrees with the devices on an IMEI. -/
def Store.InStep (s : Store) (imei : String) : Prop :=
  imei ∈ s.allowList ↔ imei ∈ s.backend.devices.activeImeis

instance (s : Store) (imei : String) : Decidable (s.InStep imei) :=
  inferInstanceAs (Decidable (_ ↔ _))

/-- The store once a request has turned out. -/
def Store.after (s : Store) (op : ApiOp) (x : Outcome) : Store :=
  if x.takesEffect then s.effect op else s

/-- A live device of the tenant with this id may send data: `restore` looks for it. -/
def DeviceTable.sendsFor (t : DeviceTable) (tenantId id : String) : Bool :=
  (t.findById tenantId id false).any fun d => d.status ∈ SENDING_STATUSES

/-- The row with this id may send data. -/
def DeviceTable.sendsAs (t : DeviceTable) (id : String) : Bool :=
  t.rows.any fun e => e.id = id ∧ e.sends = true

/-- The IMEI that a call is still to publish, if the devices stay as they are. A restore that has
not looked its device up again publishes it only if it finds that it may send. -/
def AdminPhase.toPublish (q : AdminPhase) (t : DeviceTable) : Option String :=
  if q.restored then q.owes.filter fun _ => t.sendsFor q.tenantId q.target else q.owes

/-- The IMEIs that a request of a call is about. -/
def AdminPhase.concerns (q : AdminPhase) (s : Store) (op : ApiOp) : List String :=
  match op with
  | .allowListAdd imei | .allowListRemove imei => [imei]
  | .allowListReplaceAll imeis => imeis ++ s.backend.devices.activeImeis
  | .backend (.devicesFindById _ _ _) => q.owes.toList
  | _ => ((op.writes s).map Device.imei).toList

/-- Another device with the IMEI may send data. -/
def DeviceTable.Twin (t : DeviceTable) (id imei : String) : Prop :=
  ∃ e ∈ t.rows, e.id ≠ id ∧ e.imei = imei ∧ e.sends = true

instance (t : DeviceTable) (id imei : String) : Decidable (t.Twin id imei) :=
  inferInstanceAs (Decidable (∃ e ∈ _, _))

/-- **An overlap.** Another call has changed whether the device may send, since this one has written
its row (or has found it restored); or a remove finds a second device with the IMEI that may send.
For the boot: the devices were changed since it has read the IMEIs. -/
def AdminPhase.Overtaken (q : AdminPhase) (s : Store) (x : Outcome) (imei : String) : ApiOp → Prop
  | .allowListAdd _ => ∃ row ∈ q.standing, s.backend.devices.sendsAs row.1 ≠ row.2
  | .allowListRemove _ => ∃ row ∈ q.standing,
    s.backend.devices.sendsAs row.1 ≠ row.2 ∨ s.backend.devices.Twin row.1 imei
  | .allowListReplaceAll imeis =>
    x.takesEffect = true ∧ ¬ (imei ∈ imeis ↔ imei ∈ s.backend.devices.activeImeis)
  | _ => False

/-- **A failure.** The call throws with something left to publish: the list cannot be reached and
has to change, a restored device is not found again that is not on it, or a write that decides
whether the device sends took effect although it rejects. -/
def AdminPhase.GivesUp (q : AdminPhase) (s : Store) (x : Outcome) (imei : String) (op : ApiOp) :
    Prop :=
  match op with
  | .allowListAdd _ => x.takesEffect = false ∧ imei ∉ s.allowList
  | .allowListRemove _ => x.takesEffect = false ∧ imei ∈ s.allowList
  | .allowListReplaceAll _ => False
  | .backend (.devicesFindById _ _ _) =>
    x.isOk = false ∧ q.toPublish s.backend.devices = some imei ∧ imei ∉ s.allowList
  | _ => x.isOk = false ∧ x.takesEffect = true ∧
    ∃ d ∈ op.writes s, d.sends ≠ s.backend.devices.sendsAs d.id

instance AdminPhase.decidableOvertaken (q : AdminPhase) (s : Store) (x : Outcome) (imei : String)
    (op : ApiOp) : Decidable (q.Overtaken s x imei op) := by
  induction op using ApiOp.casesOn with
  | allowListAdd _ => exact inferInstanceAs (Decidable (∃ row ∈ q.standing, _ ≠ _))
  | allowListRemove _ => exact inferInstanceAs (Decidable (∃ row ∈ q.standing, _ ≠ _ ∨ _))
  | allowListReplaceAll imeis =>
    exact inferInstanceAs (Decidable (x.takesEffect = true ∧
      ¬ (imei ∈ imeis ↔ imei ∈ s.backend.devices.activeImeis)))
  | _ => exact inferInstanceAs (Decidable False)

instance (q : AdminPhase) (s : Store) (x : Outcome) (imei : String) (op : ApiOp) :
    Decidable (q.GivesUp s x imei op) := by
  induction op using ApiOp.casesOn with
  | allowListAdd _ => exact inferInstanceAs (Decidable (x.takesEffect = false ∧ imei ∉ s.allowList))
  | allowListRemove _ =>
    exact inferInstanceAs (Decidable (x.takesEffect = false ∧ imei ∈ s.allowList))
  | allowListReplaceAll _ => exact inferInstanceAs (Decidable False)
  | backend op =>
    induction op using CpOp.casesOn with
    | devicesFindById _ _ _ =>
      exact inferInstanceAs (Decidable (x.isOk = false ∧
        q.toPublish s.backend.devices = some imei ∧ imei ∉ s.allowList))
    | _ => exact isFalse fun h => (by obtain ⟨_, _, _, h, _⟩ := h; cases h)
  | _ => exact inferInstanceAs (Decidable (x.isOk = false ∧ x.takesEffect = true ∧ ∃ d ∈ _, _))

/-- Another call in progress is still to publish the IMEI, once the devices are as in `t`. -/
def PublishedLater (cfg : Config apiSig AdminCall Unit Store Nat) (t : DeviceTable) (i : Nat)
    (imei : String) : Prop :=
  ∃ j ∈ cfg.threads.keys, j ≠ i ∧
    (cfg.threads.lookup j).any (fun th => (adminPhase th).toPublish t = some imei) = true

instance (cfg : Config apiSig AdminCall Unit Store Nat) (t : DeviceTable) (i : Nat)
    (imei : String) : Decidable (PublishedLater cfg t i imei) :=
  inferInstanceAs (Decidable (∃ j ∈ _, _))

/-- No call is overtaken before it publishes, and none gives up what it has to publish, unless
another call is still to publish the IMEI. -/
def InTime (cfg : Config apiSig AdminCall Unit Store Nat) :
    Event AdminCall Outcome EnvMove Nat → Prop
  | .settle i x => ∀ th ∈ cfg.threads.lookup i,
      ∀ imei ∈ (adminPhase th).concerns cfg.shared th.op,
        ((adminPhase th).Overtaken cfg.shared x imei th.op ∨
          (adminPhase th).GivesUp cfg.shared x imei th.op) →
            PublishedLater cfg (cfg.shared.backend.devices.write (th.op.writes cfg.shared)) i imei
  | _ => True

instance (cfg : Config apiSig AdminCall Unit Store Nat) :
    (e : Event AdminCall Outcome EnvMove Nat) → Decidable (InTime cfg e)
  | .settle i x => inferInstanceAs (Decidable (∀ th ∈ cfg.threads.lookup i,
      ∀ imei ∈ (adminPhase th).concerns cfg.shared th.op,
        ((adminPhase th).Overtaken cfg.shared x imei th.op ∨
          (adminPhase th).GivesUp cfg.shared x imei th.op) →
            PublishedLater cfg (cfg.shared.backend.devices.write (th.op.writes cfg.shared)) i imei))
  | .start _ _ | .resume _ | .env _ => .isTrue trivial

/-! ## What the requests do to the list -/

section Requests

variable {s : Store} {q : AdminPhase} {op : ApiOp} {imei : String} {x : Outcome}

/-- Writing a device changes nothing for the other IMEIs. -/
theorem active_put_of_ne {t : DeviceTable} {d : Device}
    (hkeep : ∀ e ∈ t.rows, e.id = d.id → e.imei = d.imei) (hne : imei ≠ d.imei) :
    imei ∈ DeviceTable.activeImeis (t.put d) ↔ imei ∈ t.activeImeis := by
  rw [DeviceTable.mem_activeImeis_put, DeviceTable.mem_activeImeis]
  constructor
  · intro h
    rcases h with ⟨-, himei⟩ | ⟨e, he, -, hsends, himei⟩
    · exact absurd himei.symm hne
    · exact ⟨e, he, hsends, himei⟩
  · intro ⟨e, he, hsends, himei⟩
    exact Or.inr ⟨e, he, fun hid => hne (himei.symm.trans (hkeep e he hid)), hsends, himei⟩

theorem DeviceTable.sendsFor_iff {t : DeviceTable} {tenantId id : String} :
    t.sendsFor tenantId id = true ↔
      ∃ e ∈ t.rows, e.id = id ∧ e.tenantId = tenantId ∧ e.sends = true := by
  unfold sendsFor
  rw [Option.any_eq_true]
  constructor
  · intro h
    obtain ⟨e, hfound, hstatus⟩ := h
    obtain ⟨he, hid, htenant, hlive⟩ := DeviceTable.findById_eq_some_iff.mp hfound
    refine ⟨e, he, hid, htenant, ?_⟩
    simpa [Device.sends, SENDING_STATUSES, or_comm, hlive.resolve_left Bool.false_ne_true]
      using hstatus
  · intro h
    obtain ⟨e, he, hid, htenant, hsends⟩ := h
    simp only [Device.sends, decide_eq_true_eq] at hsends
    refine ⟨e, DeviceTable.findById_eq_some_iff.mpr ⟨he, hid, htenant, Or.inr hsends.1⟩, ?_⟩
    simpa [SENDING_STATUSES, or_comm] using hsends.2

theorem DeviceTable.sendsAs_eq {t : DeviceTable} {e : Device} (he : e ∈ t.rows) :
    t.sendsAs e.id = e.sends := by
  rw [Bool.eq_iff_iff, sendsAs, List.any_eq_true]
  constructor
  · intro ⟨a, ha, hsends⟩
    simp only [decide_eq_true_eq] at hsends
    rw [← Table.eq_of_key ha he hsends.1]
    exact hsends.2
  · intro hsends
    exact ⟨e, he, by simp [hsends]⟩

/-- Writing a device changes nothing for any IMEI, if it sends if and only if it did before. -/
theorem active_put_same {t : DeviceTable} {d : Device}
    (hkeep : ∀ e ∈ t.rows, e.id = d.id → e.imei = d.imei) (hsame : d.sends = t.sendsAs d.id) :
    imei ∈ DeviceTable.activeImeis (t.put d) ↔ imei ∈ t.activeImeis := by
  rw [DeviceTable.mem_activeImeis_put, DeviceTable.mem_activeImeis]
  constructor
  · intro h
    rcases h with ⟨hd, hdimei⟩ | ⟨a, ha, -, hsends, himei⟩
    · rw [hsame, DeviceTable.sendsAs, List.any_eq_true] at hd
      obtain ⟨e, he, hsends⟩ := hd
      simp only [decide_eq_true_eq] at hsends
      exact ⟨e, he, hsends.2, (hkeep e he hsends.1).trans hdimei⟩
    · exact ⟨a, ha, hsends, himei⟩
  · intro ⟨a, ha, hsends, himei⟩
    by_cases haid : a.id = d.id
    · refine Or.inl ⟨?_, (hkeep a ha haid).symm.trans himei⟩
      rw [hsame, ← haid, DeviceTable.sendsAs_eq ha]
      exact hsends
    · exact Or.inr ⟨a, ha, haid, hsends, himei⟩

/-- A row that is written has the tenant and the IMEI of the row it replaces. -/
theorem replaced_of_writes (hfresh : ∀ id, op.newId = some id → ¬ s.UsesId id) {d e : Device}
    (hd : op.writes s = some d) (he : e ∈ s.backend.devices.rows) (hid : e.id = d.id) :
    e.tenantId = d.tenantId ∧ e.imei = d.imei := by
  cases hnew : op.newId with
  | none =>
    obtain ⟨e', he', hid', htenant, himei⟩ := old_of_writes hnew hd
    rw [Table.eq_of_key he he' (hid.trans hid'.symm)]
    exact ⟨htenant, himei⟩
  | some id =>
    cases op with
    | devicesCreate d' =>
      cases hd
      exact absurd (Or.inl ⟨e, he, hid⟩) (hfresh d'.id rfl)
    | usersCreate u => cases hd
    | _ => cases hnew

/-- No row is lost, and none gets another IMEI. -/
theorem device_kept (hfresh : ∀ id, op.newId = some id → ¬ s.UsesId id) {e : Device}
    (he : e ∈ s.backend.devices.rows) :
    ∃ e' ∈ (s.effect op).backend.devices.rows, e'.id = e.id ∧ e'.imei = e.imei := by
  rw [effect_devices]
  cases hwrites : op.writes s with
  | none => exact ⟨e, he, rfl, rfl⟩
  | some d =>
    by_cases hid : e.id = d.id
    · exact ⟨d, Table.mem_put.mpr (Or.inl rfl), hid.symm,
        (replaced_of_writes hfresh hwrites he hid).2.symm⟩
    · exact ⟨e, Table.mem_put.mpr (Or.inr ⟨he, hid⟩), rfl, rfl⟩

/-- The requests that publish. -/
def ApiOp.publishes : ApiOp → Prop
  | .allowListAdd _ | .allowListRemove _ | .allowListReplaceAll _ => True
  | _ => False

/-- A request that does not publish changes the list on no IMEI but that of the row it writes, and
on that only if it decides whether the device sends. -/
theorem inStep_effect (hmay : q.may op) (hpub : ¬ op.publishes)
    (hfresh : ∀ id, op.newId = some id → ¬ s.UsesId id)
    (hwrites : ∀ d, op.writes s = some d →
      imei ≠ d.imei ∨ d.sends = s.backend.devices.sendsAs d.id) :
    (s.effect op).InStep imei ↔ s.InStep imei := by
  have hlist : (s.effect op).allowList = s.allowList := by
    cases op with
    | backend op =>
      cases op with
      | _ => rfl
    | allowListAdd _ => exact absurd trivial hpub
    | allowListRemove _ => exact absurd trivial hpub
    | allowListReplaceAll _ => exact absurd trivial hpub
    | _ => first | exact hmay.elim | rfl
  unfold Store.InStep
  rw [hlist, effect_devices]
  cases hd : op.writes s with
  | none => exact Iff.rfl
  | some d =>
    have hkeep : ∀ e ∈ s.backend.devices.rows, e.id = d.id → e.imei = d.imei := fun e he hid =>
      (replaced_of_writes hfresh hd he hid).2
    rw [DeviceTable.write_some]
    rcases hwrites d hd with hne | hsame
    · rw [active_put_of_ne hkeep hne]
    · rw [active_put_same hkeep hsame]

/-- The devices once a request has turned out. -/
theorem devices_after : (s.after op x).backend.devices =
    if x.takesEffect then s.backend.devices.write (op.writes s) else s.backend.devices := by
  unfold Store.after
  split
  · exact effect_devices s op
  · rfl

theorem toPublish_iff {t : DeviceTable} : q.toPublish t = some imei ↔
    q.owes = some imei ∧ (q.restored = true → t.sendsFor q.tenantId q.target = true) := by
  unfold AdminPhase.toPublish
  split
  case isTrue h => simp [Option.filter_eq_some_iff, h]
  case isFalse h => simp [h]

end Requests

/-! ## The invariant -/

/-- The IMEI that is to be published is that of the row that the call has written. -/
def Store.Stands (s : Store) (q : AdminPhase) : Prop :=
  ∀ row ∈ q.standing, ∀ imei ∈ q.owes,
    ∃ e ∈ s.backend.devices.rows, e.id = row.1 ∧ e.imei = imei

/-- What the calls have looked up is still so. -/
structure LookupInv (D : ApiDeployment) (s : Store) (ph : AdminPhases) : Prop where
  ids : IdsInv D s ph
  found : ∀ i c q, ph i = some (c, q) → ∀ d ∈ q.found, d.id = q.target ∧
    (∃ e ∈ s.backend.devices.rows, e.id = d.id ∧ e.imei = d.imei) ∧ ∀ imei ∈ q.owes, imei = d.imei
  restored : ∀ i c q, ph i = some (c, q) → q.restored = true → q.found.isSome
  standing : ∀ i c q, ph i = some (c, q) → s.Stands q

/-- A call other than `i` is still to publish the IMEI, once the devices are as in `t`. -/
def PublishedBut (ph : AdminPhases) (t : DeviceTable) (i : Nat) (imei : String) : Prop :=
  ∃ j c q, j ≠ i ∧ ph j = some (c, q) ∧ q.toPublish t = some imei

/-- The list is in step on every IMEI that no call in progress is still to publish. -/
structure ListInv (D : ApiDeployment) (s : Store) (ph : AdminPhases) : Prop where
  lookups : LookupInv D s ph
  settled : ∀ imei, s.InStep imei ∨
    ∃ i c q, ph i = some (c, q) ∧ q.toPublish s.backend.devices = some imei

section Lookups

variable {D : ApiDeployment} {s s' : Store} {ph : AdminPhases} {i : Nat} {c : AdminCall}
  {q q' : AdminPhase} {op : ApiOp} {x : Outcome} {r : Except ApiError op.Res}

/-- No row is lost. -/
theorem Store.Stands.kept (h : s.Stands q)
    (hkept : ∀ e ∈ s.backend.devices.rows,
      ∃ e' ∈ s'.backend.devices.rows, e'.id = e.id ∧ e'.imei = e.imei) : s'.Stands q := by
  intro row hrow imei himei
  obtain ⟨e, he, hid, heimei⟩ := h row hrow imei himei
  obtain ⟨e', he', hid', himei'⟩ := hkept e he
  exact ⟨e', he', hid'.trans hid, himei'.trans heimei⟩

/-- A call goes on, and no row is lost. -/
theorem LookupInv.move (h : LookupInv D s ph)
    (hids : IdsInv D s' (Function.update ph i (some (c, q'))))
    (hkept : ∀ e ∈ s.backend.devices.rows,
      ∃ e' ∈ s'.backend.devices.rows, e'.id = e.id ∧ e'.imei = e.imei)
    (hrestored : q'.restored = true → q'.found.isSome) (hstands : s'.Stands q')
    (hq : ∀ d ∈ q'.found, d.id = q'.target ∧
      (∃ e ∈ s.backend.devices.rows, e.id = d.id ∧ e.imei = d.imei) ∧
        ∀ imei ∈ q'.owes, imei = d.imei) :
    LookupInv D s' (Function.update ph i (some (c, q'))) where
  ids := hids
  standing j c' q'' hj := by
    rcases update_some_iff.mp hj with ⟨-, heq⟩ | ⟨-, hj⟩
    · cases heq
      exact hstands
    · exact (h.standing j c' q'' hj).kept hkept
  restored j c' q'' hj := by
    rcases update_some_iff.mp hj with ⟨-, heq⟩ | ⟨-, hj⟩
    · cases heq
      exact hrestored
    · exact h.restored j c' q'' hj
  found j c' q hj d hd := by
    have hold : d.id = q.target ∧
        (∃ e ∈ s.backend.devices.rows, e.id = d.id ∧ e.imei = d.imei) ∧
          ∀ imei ∈ q.owes, imei = d.imei := by
      rcases update_some_iff.mp hj with ⟨-, heq⟩ | ⟨-, hj⟩
      · cases heq
        exact hq d hd
      · exact h.found j c' q hj d hd
    obtain ⟨htarget, ⟨e, he, hid, himei⟩, howes⟩ := hold
    obtain ⟨e', he', hid', himei'⟩ := hkept e he
    exact ⟨htarget, ⟨e', he', hid'.trans hid, himei'.trans himei⟩, howes⟩

/-- The device that a call has found is the row with its id. -/
theorem LookupInv.imei_of_target (h : LookupInv D s ph) (hi : ph i = some (c, q)) {d e : Device}
    (hd : d ∈ q.found) (he : e ∈ s.backend.devices.rows) (hid : e.id = q.target) :
    e.imei = d.imei := by
  obtain ⟨htarget, ⟨e', he', hid', himei⟩, -⟩ := h.found i c q hi d hd
  rw [← himei, Table.eq_of_key he he' (hid.trans (htarget.symm.trans hid'.symm))]

/-- What a call has found stays, and what it owes is the IMEI of that, if it neither looks a device
up nor adds one. -/
theorem next_found (q : AdminPhase) (e : Seen apiSig) :
    ((q.next e).found = q.found ∧ ((q.next e).owes = q.owes ∨ (q.next e).owes = none ∨
      (q.next e).owes = q.found.map Device.imei)) ∨
    (∃ tenantId id b d, e = .answered (.backend (.devicesFindById tenantId id b)) (.ok d)) ∨
    ∃ d r, e = .answered (.devicesCreate d) r := by
  fun_cases AdminPhase.next q e
  case case1 tenantId id b d => exact Or.inr (Or.inl ⟨tenantId, id, b, d, rfl⟩)
  case case8 d a => exact Or.inr (Or.inr ⟨d, .ok a, rfl⟩)
  case case9 d e => exact Or.inr (Or.inr ⟨d, .error e, rfl⟩)
  all_goals first
    | exact Or.inl ⟨rfl, Or.inl rfl⟩
    | exact Or.inl ⟨rfl, Or.inr (Or.inl rfl)⟩
    | exact Or.inl ⟨rfl, Or.inr (Or.inr rfl)⟩

/-- A call that has restored its device has found it before. -/
theorem next_restored (hmay : q.may op) (h : q.restored = true → q.found.isSome) :
    (q.next (.answered op r)).restored = true → (q.next (.answered op r)).found.isSome := by
  by_cases hop : ∃ tenantId id, op = .devicesRestore tenantId id
  · -- it is restored only once it has been named
    obtain ⟨tenantId, id, rfl⟩ := hop
    intro hr
    match r with
    | .ok true => exact hmay.1.2.2
    | .ok false => exact h hr
    | .error _ => exact h hr
  · generalize he : (Seen.answered op r : Seen apiSig) = e
    fun_cases AdminPhase.next q e
    case case1 tenantId id b d =>
      unfold AdminPhase.lookUp
      split
      · exact fun hr => absurd hr Bool.false_ne_true
      · exact fun hr => absurd hr Bool.false_ne_true
    all_goals first
      | exact h
      | exact fun hr => absurd hr Bool.false_ne_true
      | exact absurd ⟨_, _, (Seen.answered.inj he).1⟩ hop

/-- A device that was looked up is the row with the id of the call. -/
theorem LookupInv.found_of_lookUp (h : LookupInv D s ph) (hi : ph i = some (c, q)) {b : Bool}
    {found : Option Device} (hr : s.result (.backend (.devicesFindById q.tenantId q.target b)) x =
      .ok found) {d : Device}
    (hd : d ∈ (q.next (.answered (.backend (.devicesFindById q.tenantId q.target b))
      (s.result (.backend (.devicesFindById q.tenantId q.target b)) x))).found) :
    d.id = q.target ∧ (∃ e ∈ s.backend.devices.rows, e.id = d.id ∧ e.imei = d.imei) ∧
      ∀ imei ∈ (q.next (.answered (.backend (.devicesFindById q.tenantId q.target b))
        (s.result (.backend (.devicesFindById q.tenantId q.target b)) x))).owes, imei = d.imei := by
  cases x with
  | rejects e applied => cases hr
  | resolves reply =>
    obtain rfl : s.backend.devices.findById q.tenantId q.target b = found := Except.ok.inj hr
    have hrow : ∀ e, s.backend.devices.findById q.tenantId q.target b = some e →
        e ∈ s.backend.devices.rows ∧ e.id = q.target := fun e he =>
      ⟨(DeviceTable.findById_eq_some_iff.mp he).1, (DeviceTable.findById_eq_some_iff.mp he).2.1⟩
    have hnext : q.next (.answered (.backend (.devicesFindById q.tenantId q.target b))
        (s.result (.backend (.devicesFindById q.tenantId q.target b)) (.resolves reply))) =
          q.lookUp (s.backend.devices.findById q.tenantId q.target b) := rfl
    rw [hnext] at hd ⊢
    unfold AdminPhase.lookUp at hd ⊢
    cases howes : q.owes with
    | none =>
      simp only [howes] at hd ⊢
      obtain ⟨he, hid⟩ := hrow d hd
      exact ⟨hid, ⟨d, he, rfl, rfl⟩, fun imei himei => nomatch himei⟩
    | some imei =>
      -- After a restore: what is owed is the IMEI of the row as it is found now.
      simp only [howes] at hd ⊢
      obtain ⟨htarget, hold, -⟩ := h.found i c q hi d hd
      refine ⟨htarget, hold, fun imei himei => ?_⟩
      obtain ⟨e, hfound, rfl⟩ := Option.map_eq_some_iff.mp himei
      obtain ⟨he, hid⟩ := hrow e (Option.filter_eq_some_iff.mp hfound).1
      exact h.imei_of_target hi hd he hid

/-- The row that a call has named, when it is written, is the one it has found. -/
theorem LookupInv.stands_found (h : LookupInv D s ph) (hi : ph i = some (c, q))
    {tenantId id : String} (hnames : q.Names tenantId id)
    (hkept : ∀ e ∈ s.backend.devices.rows,
      ∃ e' ∈ s'.backend.devices.rows, e'.id = e.id ∧ e'.imei = e.imei) {imei : String}
    (himei : imei ∈ q.found.map Device.imei) :
    ∃ e ∈ s'.backend.devices.rows, e.id = id ∧ e.imei = imei := by
  obtain ⟨-, rfl, -⟩ := hnames
  obtain ⟨d, hd, rfl⟩ := Option.map_eq_some_iff.mp himei
  obtain ⟨htarget, ⟨e, he, hid, heimei⟩, -⟩ := h.found i c q hi d hd
  obtain ⟨e', he', hid', himei'⟩ := hkept e he
  exact ⟨e', he', hid'.trans (hid.trans htarget), himei'.trans heimei⟩

/-- What a call has written stands once its request has turned out. -/
theorem LookupInv.stands_next (h : LookupInv D s ph) (hi : ph i = some (c, q)) (hmay : q.may op)
    (hkept : ∀ e ∈ s.backend.devices.rows, ∃ e' ∈ (s.after op x).backend.devices.rows,
      e'.id = e.id ∧ e'.imei = e.imei) :
    (s.after op x).Stands (q.next (.answered op (s.result op x))) := by
  have hold := (h.standing i c q hi).kept hkept
  have hnothing : ∀ q' : AdminPhase, q'.owes = none → (s.after op x).Stands q' := by
    intro q' howes row _ imei himei
    rw [howes] at himei
    cases himei
  generalize hr : s.result op x = r
  generalize he : (Seen.answered op r : Seen apiSig) = e
  fun_cases AdminPhase.next q e
  case case1 tenantId id b d =>
    cases he
    obtain ⟨rfl, rfl, -⟩ := hmay
    have hafter : s.after (.backend (.devicesFindById q.tenantId q.target b)) x = s := ite_self _
    unfold AdminPhase.lookUp
    split
    case h_1 howes => exact hnothing _ howes
    case h_2 =>
      -- what is found after a restore is the row itself
      intro row hrow imei himei
      obtain ⟨e, hfound, rfl⟩ := Option.map_eq_some_iff.mp himei
      obtain ⟨e', hfound', rfl⟩ := Option.map_eq_some_iff.mp hrow
      obtain rfl := Option.some_inj.mp ((Option.filter_eq_some_iff.mp hfound).1.symm.trans hfound')
      cases x with
      | rejects e applied => cases hr
      | resolves reply =>
        rw [hafter]
        have hget : s.backend.devices.findById q.tenantId q.target b = some e :=
          (Except.ok.inj hr).trans hfound'
        exact ⟨e, (DeviceTable.findById_eq_some_iff.mp hget).1, rfl, rfl⟩
  case case2 => exact hnothing _ rfl
  case case8 d a =>
    cases he
    intro row hrow imei himei
    cases hrow
    cases himei
    cases x with
    | rejects e applied => cases hr
    | resolves reply =>
      exact ⟨{ d with deletedAt := none }, Table.mem_put.mpr (Or.inl rfl), rfl, rfl⟩
  case case11 tenantId id patch d status hstatus =>
    cases he
    intro row hrow imei himei
    cases hrow
    exact h.stands_found hi hmay.1 hkept himei
  case case13 tenantId id at' d =>
    cases he
    intro row hrow imei himei
    cases hrow
    exact h.stands_found hi hmay.1 hkept himei
  case case14 =>
    intro row hrow
    cases hrow
  case case15 => exact hnothing _ rfl
  case case16 => exact hnothing _ rfl
  all_goals exact hold

/-- A request turns out. -/
theorem LookupInv.settle (h : LookupInv D s ph) (hi : ph i = some (c, q)) (hmay : q.may op) :
    LookupInv D (s.after op x)
      (Function.update ph i (some (c, q.next (.answered op (s.result op x))))) := by
  have hids : IdsInv D (s.after op x)
      (Function.update ph i (some (c, q.next (.answered op (s.result op x))))) := by
    refine h.ids.settle hi hmay ?_ _
    unfold Store.after
    split
    · exact Or.inl rfl
    · exact Or.inr rfl
  -- rows are never removed and never change their imei
  have hkept : ∀ e ∈ s.backend.devices.rows, ∃ e' ∈ (s.after op x).backend.devices.rows,
      e'.id = e.id ∧ e'.imei = e.imei := by
    intro e he
    unfold Store.after
    split
    · exact device_kept (fun _ hnew => h.ids.fresh hi hmay hnew) he
    · exact ⟨e, he, rfl, rfl⟩
  refine h.move hids hkept (next_restored hmay (h.restored i c q hi))
    (h.stands_next hi hmay hkept) fun d hd => ?_
  have hold := h.found i c q hi
  rw [(q.next_same _).2]
  -- what the call has found stays, was just read, or is about to be created
  rcases next_found q (.answered op (s.result op x)) with
    ⟨hfound, howes⟩ | ⟨tenantId, id, b, found, heq⟩ | ⟨d', r, heq⟩
  · rw [hfound] at hd
    obtain ⟨htarget, hrow, hsame⟩ := hold d hd
    refine ⟨htarget, hrow, fun imei himei => ?_⟩
    rcases howes with howes | howes | howes
    · exact hsame imei (howes ▸ himei)
    · rw [howes] at himei
      cases himei
    · rw [howes, hd] at himei
      cases himei
      rfl
  · obtain ⟨rfl, hr⟩ := Seen.answered.inj heq
    obtain ⟨rfl, rfl, -⟩ := hmay
    exact h.found_of_lookUp hi (eq_of_heq hr) hd
  · cases heq
    have hnone :
        (q.next (.answered (.devicesCreate d') (s.result (.devicesCreate d') x))).found = none := by
      cases x with
      | resolves _ => exact hmay.2.2.1.2
      | rejects _ _ => exact hmay.2.2.1.2
    rw [hnone] at hd
    cases hd

/-- The device that is written for a call is the one it has found. -/
theorem LookupInv.owes_of_names (h : LookupInv D s ph) (hi : ph i = some (c, q))
    {tenantId id : String} (hnames : q.Names tenantId id) {d e : Device}
    (hfound : s.backend.devices.findById tenantId id true = some e ∨
      s.backend.devices.findById tenantId id false = some e) (himei : d.imei = e.imei) :
    q.found.map Device.imei = some d.imei := by
  obtain ⟨-, rfl, hsome⟩ := hnames
  obtain ⟨d', hd'⟩ := Option.isSome_iff_exists.mp hsome
  have hrow : e ∈ s.backend.devices.rows ∧ e.id = q.target := by
    rcases hfound with hfound | hfound
    · exact ⟨(DeviceTable.findById_eq_some_iff.mp hfound).1,
        (DeviceTable.findById_eq_some_iff.mp hfound).2.1⟩
    · exact ⟨(DeviceTable.findById_eq_some_iff.mp hfound).1,
        (DeviceTable.findById_eq_some_iff.mp hfound).2.1⟩
  rw [hd', Option.map_some, himei, h.imei_of_target hi hd' hrow.1 hrow.2]

end Lookups

/-! ## Who has to publish -/

section Turns

variable {D : ApiDeployment} {s s' : Store} {ph : AdminPhases} {i : Nat} {c : AdminCall}
  {q q' : AdminPhase} {op : ApiOp} {x : Outcome} {later : String → Prop}

/-- On every IMEI on which the list was in step, or that the call was to publish, the list is in
step, or the call or another one is to publish it. -/
def Turns (s : Store) (q : AdminPhase) (op : ApiOp) (x : Outcome) (later : String → Prop) : Prop :=
  ∀ imei, s.InStep imei ∨ q.toPublish s.backend.devices = some imei → (s.after op x).InStep imei ∨
    (q.next (.answered op (s.result op x))).toPublish (s.after op x).backend.devices = some imei ∨
      later imei

/-- A request that neither writes a device nor publishes. -/
theorem turns_read (hmay : q.may op) (hpub : ¬ op.publishes) (hwrites : op.writes s = none)
    (hfresh : ∀ id, op.newId = some id → ¬ s.UsesId id)
    (hnext : ∀ t, (q.next (.answered op (s.result op x))).toPublish t = q.toPublish t) :
    Turns s q op x later := by
  intro imei h
  have hdevices : (s.after op x).backend.devices = s.backend.devices := by
    rw [devices_after, hwrites, DeviceTable.write_none, ite_self]
  rw [hnext, hdevices]
  rcases h with hin | howed
  · left
    unfold Store.after
    split
    · exact (inStep_effect hmay hpub hfresh (by simp [hwrites])).mpr hin
    · exact hin
  · exact Or.inr (Or.inl howed)

/-- A device is written. The call is to publish its IMEI then, or whether it sends is as before. -/
theorem turns_write (hmay : q.may op) (hpub : ¬ op.publishes) (howes : q.owes = none)
    (hfresh : ∀ id, op.newId = some id → ¬ s.UsesId id)
    (hwrote : ∀ d, op.writes s = some d → x.takesEffect = true →
      (q.next (.answered op (s.result op x))).toPublish (s.backend.devices.put d) = some d.imei ∨
        d.sends = s.backend.devices.sendsAs d.id ∨ later d.imei) : Turns s q op x later := by
  intro imei h
  -- a call that writes owes nothing yet, so the imei was in step
  have hin : s.InStep imei := by
    refine h.resolve_right fun hpublish => ?_
    rw [toPublish_iff, howes] at hpublish
    cases hpublish.1
  by_cases hx : x.takesEffect = true
  · have hafter : s.after op x = s.effect op := if_pos hx
    -- only the imei of the row written may fall out of step
    by_cases hd : ∃ d, op.writes s = some d ∧ imei = d.imei
    · obtain ⟨d, hd, rfl⟩ := hd
      rcases hwrote d hd hx with hpublish | hsame | hlater
      · right
        left
        rw [devices_after, if_pos hx, hd]
        exact hpublish
      · left
        rw [hafter, inStep_effect hmay hpub hfresh]
        · exact hin
        · intro d' hd'
          rw [hd] at hd'
          cases hd'
          exact Or.inr hsame
      · exact Or.inr (Or.inr hlater)
    · left
      rw [hafter, inStep_effect hmay hpub hfresh fun d hwrites =>
        Or.inl fun himei => hd ⟨d, hwrites, himei⟩]
      exact hin
  · left
    rw [Store.after, if_neg hx]
    exact hin

/-- The IMEI of a device that sends as it was written is active. -/
theorem LookupInv.active (h : LookupInv D s ph) (hi : ph i = some (c, q)) {imei : String}
    (hmay : q.may (.allowListAdd imei)) (hnot : ¬ q.Overtaken s x imei (.allowListAdd imei)) :
    imei ∈ s.backend.devices.activeImeis := by
  obtain ⟨howes, id, hstanding⟩ := hmay
  have hsends : s.backend.devices.sendsAs id = true := by
    by_contra hne
    exact hnot ⟨_, hstanding, hne⟩
  rw [DeviceTable.sendsAs, List.any_eq_true] at hsends
  obtain ⟨e, he, hsends⟩ := hsends
  rw [decide_eq_true_eq] at hsends
  obtain ⟨e', he', hid, himei⟩ := h.standing i c q hi _ hstanding imei howes
  obtain rfl := Table.eq_of_key he he' (hsends.1.trans hid.symm)
  exact DeviceTable.mem_activeImeis.mpr ⟨e, he, hsends.2, himei⟩

/-- The IMEI of a device that was written as not sending is not active, unless it has a twin. -/
theorem not_active_of_standing {imei : String} (hmay : q.may (.allowListRemove imei))
    (hnot : ¬ q.Overtaken s x imei (.allowListRemove imei)) :
    imei ∉ s.backend.devices.activeImeis := by
  obtain ⟨-, id, hstanding⟩ := hmay
  intro hactive
  obtain ⟨e, he, hsends, himei⟩ := DeviceTable.mem_activeImeis.mp hactive
  by_cases hid : e.id = id
  · refine hnot ⟨_, hstanding, Or.inl ?_⟩
    rw [← hid, DeviceTable.sendsAs_eq he, hsends]
    exact Bool.true_eq_false_eq_False
  · exact hnot ⟨_, hstanding, Or.inr ⟨e, he, hid, himei, hsends⟩⟩

/-- The call publishes the IMEI: the list is in step on it, unless another call is still to publish
it, and on the other IMEIs as before. -/
theorem turns_publish {imei : String} (hop : op = .allowListAdd imei ∨ op = .allowListRemove imei)
    (howes : q.owes = some imei)
    (hright : (op = .allowListAdd imei ↔ imei ∈ s.backend.devices.activeImeis) ∨ later imei)
    (hfault : q.GivesUp s x imei op → later imei) :
    Turns s q op x later := by
  intro imei' h
  -- the publication speaks of one imei; the others keep their standing
  by_cases himei : imei' = imei
  · subst himei
    rcases hright with hright | hlater
    · by_cases hgives : q.GivesUp s x imei' op
      · exact Or.inr (Or.inr (hfault hgives))
      · left
        -- it reaches the list, or the list has what it says already
        unfold Store.after
        rcases hop with rfl | rfl
        · have hactive : imei' ∈ s.backend.devices.activeImeis := hright.mp rfl
          split
          case isTrue => simpa [Store.InStep, Store.effect] using hactive
          case isFalse hx =>
            have hlisted : imei' ∈ s.allowList := by
              by_contra hnot
              exact hgives ⟨Bool.not_eq_true _ ▸ hx, hnot⟩
            exact iff_of_true hlisted hactive
        · have hactive : imei' ∉ s.backend.devices.activeImeis := by
            intro hactive
            cases hright.mpr hactive
          split
          case isTrue => simpa [Store.InStep, Store.effect] using hactive
          case isFalse hx =>
            have hlisted : imei' ∉ s.allowList := fun hlisted =>
              hgives ⟨Bool.not_eq_true _ ▸ hx, hlisted⟩
            exact iff_of_false hlisted hactive
    · exact Or.inr (Or.inr hlater)
  · have hin : s.InStep imei' := by
      refine h.resolve_right fun hpublish => himei ?_
      rw [toPublish_iff, howes] at hpublish
      exact (Option.some_inj.mp hpublish.1).symm
    left
    unfold Store.after
    split
    · rcases hop with rfl | rfl
      · simpa [Store.InStep, Store.effect, himei] using hin
      · simpa [Store.InStep, Store.effect, himei] using hin
    · exact hin

/-- A replaced list is in step on every IMEI of which it is up to date. -/
theorem inStep_replaceAll {imeis : List String} (imei : String)
    (hfault : ∀ imei ∈ imeis ++ s.backend.devices.activeImeis,
      ¬ (imei ∈ imeis ↔ imei ∈ s.backend.devices.activeImeis) → later imei) :
    (s.effect (.allowListReplaceAll imeis)).InStep imei ∨ later imei := by
  by_cases hcurrent : imei ∈ imeis ↔ imei ∈ s.backend.devices.activeImeis
  · left
    simpa [Store.InStep, Store.effect] using hcurrent
  · refine Or.inr (hfault imei ?_ hcurrent)
    by_contra hmem
    obtain ⟨hnot, hnot'⟩ := not_or.mp fun hor => hmem (List.mem_append.mpr hor)
    exact hcurrent (iff_of_false hnot hnot')

/-- The list is replaced. -/
theorem turns_replaceAll {imeis : List String} (howes : ∀ r,
      (q.next (.answered (.allowListReplaceAll imeis) r)) = q)
    (hfault : ∀ imei ∈ imeis ++ s.backend.devices.activeImeis,
      q.Overtaken s x imei (.allowListReplaceAll imeis) → later imei) :
    Turns s q (.allowListReplaceAll imeis) x later := by
  intro imei h
  rw [howes]
  by_cases hx : x.takesEffect = true
  · have hafter : s.after (.allowListReplaceAll imeis) x = s.effect (.allowListReplaceAll imeis) :=
      if_pos hx
    rw [hafter]
    refine (inStep_replaceAll _ fun imei' hmem hnot => ?_).imp_right Or.inr
    exact hfault imei' hmem ⟨hx, hnot⟩
  · rw [Store.after, if_neg hx]
    exact h.imp_right Or.inl

/-- A device is looked up, perhaps again after a restore. -/
theorem turns_lookUp (h : LookupInv D s ph) (hi : ph i = some (c, q)) {tenantId id : String}
    {b : Bool} (hmay : q.may (.backend (.devicesFindById tenantId id b)))
    (hfault : ∀ imei ∈ q.owes,
      q.GivesUp s x imei (.backend (.devicesFindById tenantId id b)) → later imei) :
    Turns s q (.backend (.devicesFindById tenantId id b)) x later := by
  intro imei hcases
  obtain ⟨rfl, rfl, hsome⟩ := hmay
  have hafter : s.after (.backend (.devicesFindById q.tenantId q.target b)) x = s := ite_self _
  rw [hafter]
  by_cases hin : s.InStep imei
  · exact Or.inl hin
  · have hpublish : q.toPublish s.backend.devices = some imei := hcases.resolve_left hin
    obtain ⟨howes, hsends⟩ := toPublish_iff.mp hpublish
    obtain ⟨hfound, hrestored⟩ := hsome (by simp [howes])
    obtain ⟨e, he, hid, htenant, hsends⟩ := DeviceTable.sendsFor_iff.mp (hsends hrestored)
    obtain ⟨d', hd'⟩ := Option.isSome_iff_exists.mp hfound
    have himei : e.imei = imei := (h.imei_of_target hi hd' he hid).trans
      ((h.found i c q hi d' hd').2.2 imei howes).symm
    right
    cases x with
    | resolves reply =>
      -- the device is found, and it may send
      left
      have hrow : s.backend.devices.findById q.tenantId q.target b = some e := by
        simp only [Device.sends, decide_eq_true_eq] at hsends
        exact DeviceTable.findById_eq_some_iff.mpr ⟨he, hid, htenant, Or.inr hsends.1⟩
      have hstatus : e.status ∈ SENDING_STATUSES := by
        simp only [Device.sends, decide_eq_true_eq] at hsends
        simpa [SENDING_STATUSES, or_comm] using hsends.2
      rw [toPublish_iff]
      simp [Store.result, Store.answer, Backend.answer, AdminPhase.next, AdminPhase.lookUp,
        howes, hrow, Option.filter, hstatus, himei]
    | rejects err applied =>
      right
      refine hfault imei howes ⟨rfl, hpublish, fun hlisted => hin ?_⟩
      refine iff_of_true hlisted (DeviceTable.mem_activeImeis.mpr ⟨e, he, hsends, himei⟩)

/-- What a call that has written a device is to do then: it publishes its IMEI, or the write has not
decided whether the device sends, or it has rejected. -/
theorem LookupInv.wrote (h : LookupInv D s ph) (hi : ph i = some (c, q)) (hmay : q.may op)
    {d : Device} (hd : op.writes s = some d) (hx : x.takesEffect = true)
    (hfault : ∀ imei ∈ q.concerns s op, q.GivesUp s x imei op → later imei) :
    (q.next (.answered op (s.result op x))).toPublish (s.backend.devices.put d) = some d.imei ∨
      d.sends = s.backend.devices.sendsAs d.id ∨ later d.imei := by
  by_cases hsame : d.sends = s.backend.devices.sendsAs d.id
  · exact Or.inr (Or.inl hsame)
  cases x with
  | rejects e applied =>
    right
    right
    have hconcerns : d.imei ∈ ((op.writes s).map Device.imei).toList := by simp [hd]
    cases op with
    | devicesCreate d' => exact hfault d.imei hconcerns ⟨rfl, hx, d, hd, hsame⟩
    | devicesUpdate _ _ _ => exact hfault d.imei hconcerns ⟨rfl, hx, d, hd, hsame⟩
    | devicesSoftDelete _ _ _ => exact hfault d.imei hconcerns ⟨rfl, hx, d, hd, hsame⟩
    | devicesRestore _ _ => exact hfault d.imei hconcerns ⟨rfl, hx, d, hd, hsame⟩
    | _ => cases hd
  | resolves reply =>
    left
    cases op with
    | devicesCreate d' =>
      cases hd
      rfl
    | devicesUpdate tenantId id patch =>
      obtain ⟨e, hfound, rfl⟩ := Option.map_eq_some_iff.mp hd
      have he := (DeviceTable.findById_eq_some_iff.mp hfound).1
      have hupdate : s.backend.devices.update tenantId id patch = some (patch.apply e) := hd
      cases hstatus : patch.status with
      | none =>
        -- without a new status the device sends if and only if it did before
        refine absurd ?_ hsame
        rw [show (patch.apply e).id = e.id from rfl, DeviceTable.sendsAs_eq he]
        simp [Device.sends, DevicePatch.apply, hstatus]
      | some status =>
        rw [toPublish_iff]
        simp only [Store.result, Store.answer, hupdate, AdminPhase.next, hstatus]
        exact ⟨h.owes_of_names hi hmay.1 (Or.inr hfound) rfl, fun hr => absurd hr Bool.false_ne_true⟩
    | devicesSoftDelete tenantId id at' =>
      obtain ⟨e, hfound, rfl⟩ := Option.map_eq_some_iff.mp hd
      exact h.owes_of_names hi hmay.1 (Or.inr hfound) rfl
    | devicesRestore tenantId id =>
      have hrestore : s.backend.devices.restore tenantId id = some d := hd
      obtain ⟨e, hfilter, rfl⟩ := Option.map_eq_some_iff.mp hd
      obtain ⟨hfound, hfree⟩ := Option.filter_eq_some_iff.mp hfilter
      obtain ⟨he, hid, htenant, -⟩ := DeviceTable.findById_eq_some_iff.mp hfound
      obtain ⟨hnames, -⟩ := hmay
      have hdeleted : e.sends = false := by
        simp only [decide_eq_true_eq] at hfree
        simp [Device.sends, hfree.1]
      have hsends : Device.sends { e with deletedAt := none } = true := by
        rw [DeviceTable.sendsAs_eq he, hdeleted] at hsame
        exact Bool.eq_true_of_not_eq_false hsame
      rw [toPublish_iff]
      simp only [Store.result, Store.answer, hrestore, Option.isSome_some, AdminPhase.next]
      refine ⟨h.owes_of_names hi hnames (Or.inl hfound) rfl, fun _ => ?_⟩
      exact DeviceTable.sendsFor_iff.mpr ⟨_, Table.mem_put.mpr (Or.inl rfl),
        hid.trans hnames.2.1, htenant.trans hnames.1, hsends⟩
    | _ => cases hd

/-- **Whatever a call awaits**: on an IMEI that it has done with, the list is in step, or another
call is to publish it. -/
theorem turns_settle (h : LookupInv D s ph) (hi : ph i = some (c, q)) (hmay : q.may op)
    (hfault : ∀ imei ∈ q.concerns s op,
      q.Overtaken s x imei op ∨ q.GivesUp s x imei op → later imei) : Turns s q op x later := by
  have hfresh : ∀ id, op.newId = some id → ¬ s.UsesId id :=
    fun _ hnew => h.ids.fresh hi hmay hnew
  -- a write that takes effect makes its call owe the publication
  have hwrote : ∀ d, op.writes s = some d → x.takesEffect = true →
      (q.next (.answered op (s.result op x))).toPublish (s.backend.devices.put d) = some d.imei ∨
        d.sends = s.backend.devices.sendsAs d.id ∨ later d.imei := fun d hd hx =>
    h.wrote hi hmay hd hx fun imei himei hbad => hfault imei himei (Or.inr hbad)
  -- one lemma for each kind: look-up, read, write, publication, replacement
  cases op with
  | backend op =>
    cases op with
    | devicesFindById tenantId id b =>
      refine turns_lookUp h hi hmay fun imei himei hbad => hfault imei ?_ (Or.inr hbad)
      exact Option.mem_toList.mpr himei
    | findByImei imei => exact turns_read hmay (fun hp => hp) rfl hfresh fun _ => rfl
    | orgUnitsList tenantId => exact turns_read hmay (fun hp => hp) rfl hfresh fun _ => rfl
    | _ => exact hmay.elim
  | devicesCreate d => exact turns_write hmay (fun hp => hp) hmay.2.2.1.1 hfresh hwrote
  | devicesUpdate tenantId id patch => exact turns_write hmay (fun hp => hp) hmay.2 hfresh hwrote
  | devicesSoftDelete tenantId id at' => exact turns_write hmay (fun hp => hp) hmay.2 hfresh hwrote
  | devicesRestore tenantId id => exact turns_write hmay (fun hp => hp) hmay.2.1 hfresh hwrote
  | allowListAdd imei =>
    have hbad := hfault imei (List.mem_singleton.mpr rfl)
    refine turns_publish (Or.inl rfl) hmay.1 ?_ fun hgives => hbad (Or.inr hgives)
    by_cases hovertaken : q.Overtaken s x imei (.allowListAdd imei)
    · exact Or.inr (hbad (Or.inl hovertaken))
    · exact Or.inl (iff_of_true rfl (h.active hi hmay hovertaken))
  | allowListRemove imei =>
    have hbad := hfault imei (List.mem_singleton.mpr rfl)
    refine turns_publish (Or.inr rfl) hmay.1 ?_ fun hgives => hbad (Or.inr hgives)
    by_cases hovertaken : q.Overtaken s x imei (.allowListRemove imei)
    · exact Or.inr (hbad (Or.inl hovertaken))
    · exact Or.inl (iff_of_false (by simp) (not_active_of_standing hmay hovertaken))
  | allowListReplaceAll imeis =>
    refine turns_replaceAll (fun r => ?_) fun imei himei hbad => hfault imei himei (Or.inl hbad)
    cases r with
    | _ => rfl
  | usersCreate u => exact turns_read hmay (fun hp => hp) rfl hfresh fun _ => rfl
  | _ =>
    first
      | exact hmay.elim
      | refine turns_read hmay (fun hp => hp) rfl hfresh fun t => ?_
        cases x with
        | resolves reply => rfl
        | rejects e applied => rfl

/-- Another call that was to publish an IMEI is still to do so, unless its device was suspended or
deleted in the meantime: then that call is to publish it. -/
theorem LookupInv.others_keep (h : LookupInv D s ph) (hi : ph i = some (c, q)) (hmay : q.may op)
    (hfault : ∀ imei ∈ q.concerns s op, q.GivesUp s x imei op → later imei) {j : Nat}
    {c' : AdminCall} {q' : AdminPhase} (hj : ph j = some (c', q')) {imei : String}
    (hpublish : q'.toPublish s.backend.devices = some imei) :
    q'.toPublish (s.after op x).backend.devices = some imei ∨
      (q.next (.answered op (s.result op x))).toPublish (s.after op x).backend.devices =
        some imei ∨ later imei := by
  rw [devices_after]
  split
  case isFalse => exact Or.inl hpublish
  case isTrue hx =>
    cases hd : op.writes s with
    | none => exact Or.inl hpublish
    | some d =>
      rw [DeviceTable.write_some]
      obtain ⟨howes, hsends⟩ := toPublish_iff.mp hpublish
      by_cases hrestored : q'.restored = true
      · obtain ⟨e, he, hid, htenant, hsends⟩ := DeviceTable.sendsFor_iff.mp (hsends hrestored)
        have hkeeps : (∃ a ∈ (s.backend.devices.put d).rows, a.id = q'.target ∧
            a.tenantId = q'.tenantId ∧ a.sends = true) →
              q'.toPublish (s.backend.devices.put d) = some imei := fun hrow =>
          toPublish_iff.mpr ⟨howes, fun _ => DeviceTable.sendsFor_iff.mpr hrow⟩
        by_cases heq : e.id = d.id
        · obtain ⟨htenant', himei⟩ := replaced_of_writes
            (fun _ hnew => h.ids.fresh hi hmay hnew) hd he heq
          by_cases hsends' : d.sends = true
          · exact Or.inl (hkeeps ⟨d, Table.mem_put.mpr (Or.inl rfl), heq.symm.trans hid,
              htenant'.symm.trans htenant, hsends'⟩)
          · -- the device has stopped to send, and the call that has written it owes its IMEI
            obtain ⟨d', hd'⟩ := Option.isSome_iff_exists.mp (h.restored j c' q' hj hrestored)
            have hsame : d.imei = imei := by
              rw [← himei, h.imei_of_target hj hd' he hid]
              exact ((h.found j c' q' hj d' hd').2.2 imei howes).symm
            rw [← hsame]
            rcases h.wrote hi hmay hd hx hfault with hpublish' | hunchanged | hlater
            · exact Or.inr (Or.inl hpublish')
            · rw [hunchanged, ← heq, DeviceTable.sendsAs_eq he] at hsends'
              exact absurd hsends hsends'
            · exact Or.inr (Or.inr hlater)
        · exact Or.inl (hkeeps ⟨e, Table.mem_put.mpr (Or.inr ⟨he, heq⟩), hid, htenant, hsends⟩)
      · exact Or.inl (toPublish_iff.mpr ⟨howes, fun hr => absurd hr hrestored⟩)

/-- A call goes on. -/
theorem ListInv.move (h : ListInv D s ph) (hi : ph i = some (c, q))
    (hlookups : LookupInv D s' (Function.update ph i (some (c, q'))))
    (hturns : ∀ imei, s.InStep imei ∨ q.toPublish s.backend.devices = some imei →
      s'.InStep imei ∨ q'.toPublish s'.backend.devices = some imei ∨
        PublishedBut ph s'.backend.devices i imei)
    (hothers : ∀ j c'' q'' imei, j ≠ i → ph j = some (c'', q'') →
      q''.toPublish s.backend.devices = some imei →
        q''.toPublish s'.backend.devices = some imei ∨
          q'.toPublish s'.backend.devices = some imei ∨
            PublishedBut ph s'.backend.devices i imei) :
    ListInv D s' (Function.update ph i (some (c, q'))) where
  lookups := hlookups
  settled imei := by
    have hself : s'.InStep imei ∨ q'.toPublish s'.backend.devices = some imei ∨
        PublishedBut ph s'.backend.devices i imei := by
      rcases h.settled imei with hin | ⟨j, c', q'', hj, hpublish⟩
      · exact hturns imei (Or.inl hin)
      · by_cases hji : j = i
        · subst hji
          rw [hi] at hj
          cases hj
          exact hturns imei (Or.inr hpublish)
        · right
          rcases hothers j c' q'' imei hji hj hpublish with hpublish | hrest
          · exact Or.inr ⟨j, c', q'', hji, hj, hpublish⟩
          · exact hrest
    rcases hself with hin | hpublish | ⟨j, c', q'', hji, hj, hpublish⟩
    · exact Or.inl hin
    · exact Or.inr ⟨i, c, q', Function.update_self .., hpublish⟩
    · exact Or.inr ⟨j, c', q'', update_some_iff.mpr (Or.inr ⟨hji, hj⟩), hpublish⟩

/-- Nothing changes for the list. -/
theorem ListInv.keep (h : ListInv D s ph) (hi : ph i = some (c, q))
    (hlookups : LookupInv D s' (Function.update ph i (some (c, q'))))
    (hlist : s'.allowList = s.allowList) (hdevices : s'.backend.devices = s.backend.devices)
    (hsame : ∀ t, q'.toPublish t = q.toPublish t) :
    ListInv D s' (Function.update ph i (some (c, q'))) := by
  refine h.move hi hlookups (fun imei hcases => ?_) fun j c'' q'' imei _ _ hpublish => ?_
  · unfold Store.InStep at hcases ⊢
    rw [hlist, hdevices, hsame]
    exact hcases.imp_right Or.inl
  · rw [hdevices]
    exact Or.inl hpublish

end Turns

/-! ## Runs -/

section Runs

variable {D : ApiDeployment} {s s' : Store} {cfg : Config apiSig AdminCall Unit Store Nat} {i : Nat}

theorem publishedBut_of_later {t : DeviceTable} {imei : String} (h : PublishedLater cfg t i imei) :
    PublishedBut (administrators.phases cfg) t i imei := by
  obtain ⟨j, -, hji, hany⟩ := h
  obtain ⟨th, hth, hpublish⟩ := (Option.any_eq_true _ _).mp hany
  exact ⟨j, th.call, adminPhase th, hji, phases_of_lookup (T := administrators) hth,
    of_decide_eq_true hpublish⟩

/-- What the calls have looked up stays so, whatever they do. -/
theorem lookups_preserves :
    Preserves (administration D) administrators (fun _ _ => True) (LookupInv D) where
  code := administration_conforms D
  start cfg i c h hi _ := h.move (ids_preserves.start cfg i c h.ids hi trivial)
    (fun e he => ⟨e, he, rfl, rfl⟩) (fun hr => absurd hr Bool.false_ne_true)
    (fun row hrow => nomatch hrow) (fun d hd => nomatch hd)
  act s ph i c q a h hi hmay := by
    have hids := ids_preserves.act s ph i c q a h.ids hi hmay
    have hfound := h.found i c q hi
    have hrestored := h.restored i c q hi
    have hstands := h.standing i c q hi
    have hkept : ∀ e ∈ s.backend.devices.rows,
        ∃ e' ∈ s.backend.devices.rows, e'.id = e.id ∧ e'.imei = e.imei :=
      fun e he => ⟨e, he, rfl, rfl⟩
    cases a with
    | randomUUID => exact LookupInv.move h hids hkept hrestored hstands hfound
    | forgetImei imei => exact LookupInv.move h hids hkept hrestored hstands hfound
    | backend a =>
      cases a with
      | now => exact LookupInv.move h hids hkept hrestored hstands hfound
      | _ => exact hmay.elim
    | sweepOffline _ _ => exact hmay.elim
  settle cfg i th x s' r h hth hmay _ hs := by
    have hi := phases_of_lookup (T := administrators) hth
    obtain ⟨rfl, -⟩ := settle_administration hmay hs
    obtain rfl := settle_result hs
    rw [noteRead_of_may hmay]
    exact h.settle hi hmay
  finish s ph i c q r h hi hdone :=
    ⟨ids_preserves.finish s ph i c q r h.ids hi hdone,
      fun j c' q' hj => h.found j c' q' (update_none_iff.mp hj).2,
      fun j c' q' hj => h.restored j c' q' (update_none_iff.mp hj).2,
      fun j c' q' hj => h.standing j c' q' (update_none_iff.mp hj).2⟩
  env cfg e s' h _ hs := by
    have hids := ids_preserves.env cfg e s' h.ids trivial hs
    obtain rfl := Option.some_inj.mp hs
    cases e with
    | elapse ms => exact ⟨hids, h.found, h.restored, h.standing⟩
    | expire tenantId deviceId => exact ⟨hids, h.found, h.restored, h.standing⟩

/-- What the condition says of a request: who publishes the IMEI once it has turned out. -/
theorem later_of_inTime {x : Outcome} {th : Thread apiSig AdminCall Unit}
    (hth : cfg.threads.lookup i = some th) (hok : InTime cfg (.settle i x)) :
    ∀ imei ∈ (adminPhase th).concerns cfg.shared th.op,
      (adminPhase th).Overtaken cfg.shared x imei th.op ∨
          (adminPhase th).GivesUp cfg.shared x imei th.op →
        PublishedBut (administrators.phases cfg) (cfg.shared.after th.op x).backend.devices i imei := by
  intro imei himei hbad
  have hlater := publishedBut_of_later (hok th hth imei himei hbad)
  rw [devices_after]
  split
  case isTrue => exact hlater
  case isFalse hx =>
    -- without an effect only a publication or a lookup can go wrong
    have hnone : th.op.writes cfg.shared = none := by
      cases hop : th.op with
      | devicesCreate d => simp_all [AdminPhase.Overtaken, AdminPhase.GivesUp]
      | devicesUpdate _ _ _ => simp_all [AdminPhase.Overtaken, AdminPhase.GivesUp]
      | devicesSoftDelete _ _ _ => simp_all [AdminPhase.Overtaken, AdminPhase.GivesUp]
      | devicesRestore _ _ => simp_all [AdminPhase.Overtaken, AdminPhase.GivesUp]
      | _ => rfl
    rwa [hnone] at hlater

/-- Every step keeps the invariant, as long as no call is overtaken or gives up. -/
theorem list_preserves : Preserves (administration D) administrators InTime (ListInv D) where
  code := administration_conforms D
  start cfg i c h hi _ := by
    refine ⟨lookups_preserves.start cfg i c h.lookups hi trivial, fun imei => ?_⟩
    -- whoever owed the imei owes it still: the call that starts is another
    refine (h.settled imei).imp_right fun ⟨j, c', q, hj, hpublish⟩ => ⟨j, c', q, ?_, hpublish⟩
    refine update_some_iff.mpr (Or.inr ⟨fun hji => ?_, hj⟩)
    rw [hji, show administrators.phases cfg i = none from Option.map_eq_none_iff.mpr hi] at hj
    cases hj
  act s ph i c q a h hi hmay := by
    have hlookups := lookups_preserves.act s ph i c q a h.lookups hi hmay
    cases a with
    | randomUUID => exact ListInv.keep h hi hlookups rfl rfl fun _ => rfl
    | forgetImei imei => exact ListInv.keep h hi hlookups rfl rfl fun _ => rfl
    | backend a =>
      cases a with
      | now => exact ListInv.keep h hi hlookups rfl rfl fun _ => rfl
      | _ => exact hmay.elim
    | sweepOffline _ _ => exact hmay.elim
  settle cfg i th x s' r h hth hmay hok hs := by
    have hi := phases_of_lookup (T := administrators) hth
    have hlookups := lookups_preserves.settle cfg i th x s' r h.lookups hth hmay trivial hs
    obtain ⟨rfl, -⟩ := settle_administration hmay hs
    obtain rfl := settle_result hs
    rw [noteRead_of_may hmay] at hlookups ⊢
    -- a step in time leaves no fault, unless a later call makes it good
    have hfault := later_of_inTime hth hok
    exact h.move hi hlookups (turns_settle h.lookups hi hmay hfault)
      fun j c' q' imei _ hj hpublish => h.lookups.others_keep hi hmay
        (fun imei himei hbad => hfault imei himei (Or.inr hbad)) hj hpublish
  finish s ph i c q r h hi hdone := by
    refine ⟨lookups_preserves.finish s ph i c q r h.lookups hi hdone, fun imei => ?_⟩
    refine (h.settled imei).imp_right fun ⟨j, c', q', hj, hpublish⟩ => ⟨j, c', q', ?_, hpublish⟩
    refine update_none_iff.mpr ⟨fun hji => ?_, hj⟩
    rw [hji, hi] at hj
    cases hj
    -- a call that is over owes nothing
    have howes := (toPublish_iff.mp hpublish).1
    rw [show AdminPhase.owes _ = none from hdone] at howes
    cases howes
  env cfg e s' h _ hs := by
    have hlookups := lookups_preserves.env cfg e s' h.lookups trivial hs
    obtain rfl := Option.some_inj.mp hs
    cases e with
    | elapse ms => exact ⟨hlookups, h.settled⟩
    | expire tenantId deviceId => exact ⟨hlookups, h.settled⟩

/-- A boot replaces the list. -/
def Resyncs (cfg : Config apiSig AdminCall Unit Store Nat) :
    Event AdminCall Outcome EnvMove Nat → Prop
  | .settle i x => x.takesEffect = true ∧
      ∃ th ∈ cfg.threads.lookup i, ∃ imeis, th.op = .allowListReplaceAll imeis
  | _ => False

/-- A boot replaces the list on the way. -/
def Resynced (D : ApiDeployment) (s₀ : Store) (es : List (Event AdminCall Outcome EnvMove Nat)) :
    Prop :=
  ∃ es₁ e es₂ cfg, es = es₁ ++ e :: es₂ ∧
    Run (administration D).step (fun _ _ => True) (Config.start s₀) es₁ cfg ∧ Resyncs cfg e

/-- Once the list was replaced, it is in step on what nobody is to publish. -/
theorem list_of_resyncs {cfg' : Config apiSig AdminCall Unit Store Nat}
    {e : Event AdminCall Outcome EnvMove Nat} (hg : Good administrators (LookupInv D) cfg)
    (hok : InTime cfg e) (hs : (administration D).step cfg e = some cfg') (he : Resyncs cfg e) :
    Good administrators (ListInv D) cfg' := by
  obtain ⟨hlookups, hthreads⟩ := step_good lookups_preserves hg trivial hs
  refine ⟨⟨hlookups, fun imei => ?_⟩, hthreads⟩
  cases e with
  | settle i x =>
    obtain ⟨hx, th, hth, imeis, hop⟩ := he
    obtain ⟨hmay, r, hsettle⟩ := may_of_settle hg.2 hth hs
    obtain ⟨hs', -⟩ := settle_administration hmay hsettle
    -- the boot replaces the whole list, which sets every imei right at once
    have hfault := later_of_inTime hth hok
    rw [hop] at hs' hfault
    have heffect : cfg.shared.after (.allowListReplaceAll imeis) x =
        cfg.shared.effect (.allowListReplaceAll imeis) := if_pos hx
    have hafter : cfg'.shared = cfg.shared.effect (.allowListReplaceAll imeis) :=
      hs'.trans heffect
    rw [heffect] at hfault
    rw [hafter]
    rcases inStep_replaceAll imei fun imei' hmem hnot =>
        hfault imei' hmem (Or.inl ⟨hx, hnot⟩) with hin | ⟨j, c, q, hji, hj, hpublish⟩
    · exact Or.inl hin
    · refine Or.inr ⟨j, c, q, ?_, hpublish⟩
      rw [phases, lookup_settle_of_ne hs hji]
      exact hj
  | start _ _ => exact he.elim
  | resume _ => exact he.elim
  | env _ => exact he.elim

/-- **The allow-list converges.** However the operations on devices and boots of the server are
interleaved, and whatever becomes of their requests: if the list was in step with the devices
before, or a boot has replaced it, and no call is overtaken before it publishes or gives up what it
has to publish (unless another call is still to publish the IMEI), then it is the set of the active
IMEIs once all calls have ended. -/
theorem allow_list_converges (D : ApiDeployment) (s₀ : Store)
    (hdevices : s₀.Unused D (s₀.backend.devices.rows.map Device.id))
    (husers : s₀.Unused D (s₀.users.rows.map User.id))
    {es : List (Event AdminCall Outcome EnvMove Nat)}
    (hrun : Run (administration D).step InTime (Config.start s₀) es cfg)
    (hstart : (∀ imei, s₀.InStep imei) ∨ Resynced D s₀ es) (hended : cfg.threads.keys = []) :
    cfg.shared.allowList = cfg.shared.backend.devices.activeImeis.toFinset := by
  have hinit : LookupInv D s₀ fun _ => none :=
    ⟨idsInv_start hdevices husers, (fun _ _ _ hi => nomatch hi), (fun _ _ _ hi => nomatch hi),
      (fun _ _ _ hi => nomatch hi)⟩
  -- from the start or from the boot on, every imei is in step or owed
  have hgood : Good administrators (ListInv D) cfg := by
    rcases hstart with hall | ⟨es₁, e, es₂, cfg₁, rfl, hrun₁, he⟩
    · exact hrun.invariant (good_start ⟨hinit, fun imei => Or.inl (hall imei)⟩)
        fun _ _ _ hg hok hs => step_good list_preserves hg hok hs
    · obtain ⟨cfg₁', hbefore, hafter⟩ := hrun.exists_of_append
      obtain rfl := hrun₁.eq_of_run hbefore
      obtain ⟨cfg₂, hboot, hrest⟩ := @Run.exists_of_append _ _ _ _ _ _ [e] _ hafter
      have hlookups : Good administrators (LookupInv D) cfg₁ :=
        hrun₁.invariant (good_start hinit) fun _ _ _ hg _ hs =>
          step_good lookups_preserves hg trivial hs
      obtain ⟨hok, hs⟩ := hboot.of_single
      exact hrest.invariant (list_of_resyncs hlookups hok hs he)
        fun _ _ _ hg hok hs => step_good list_preserves hg hok hs
  -- no call is left, so nothing is owed
  ext imei
  rw [List.mem_toFinset]
  rcases hgood.1.settled imei with hin | ⟨i, c, q, hi, -⟩
  · exact hin
  · rw [phases, lookup_of_keys hended] at hi
    cases hi

/-! ## Operations on one device -/

/-- A tenant with one active device, whose IMEI is on the list. -/
def sampleListed : Store :=
  let devices := Table.empty.put ⟨"van", "acme", "356307042441013", none, "FTC927", .car, .active,
    none, none, none⟩
  { Store.new (Backend.new devices) with allowList := (DeviceTable.activeImeis devices).toFinset }

theorem sampleListed_inStep (imei : String) : sampleListed.InStep imei := List.mem_toFinset

def inOrder : List Nat → List (Event AdminCall Outcome EnvMove Nat) :=
  List.flatMap fun i => [.settle i (.resolves ""), .resume i]

/-- The device is suspended and activated at the same time; the publication of the later write comes
last. -/
def suspendedAndActivated : List (Event AdminCall Outcome EnvMove Nat) :=
  [.start 0 (.device sampleTenantAdmin (.setStatus "van" .suspended)),
    .start 1 (.device sampleTenantAdmin (.setStatus "van" .active))] ++
    inOrder [0, 1, 0, 1, 0, 1]

theorem sample_allow_list_converges : ∃ cfg,
    Run (administration sampleApi).step InTime (Config.start sampleListed)
      suspendedAndActivated cfg ∧
    cfg.shared.allowList = cfg.shared.backend.devices.activeImeis.toFinset ∧
      cfg.shared.backend.devices.activeImeis = ["356307042441013"] := by
  have hexists : ∃ cfg, Run (administration sampleApi).step InTime
      (Config.start sampleListed) suspendedAndActivated cfg ∧ cfg.threads.keys = [] ∧
      cfg.shared.backend.devices.activeImeis = ["356307042441013"] := by
    apply Run.exists_of_any
    decide +kernel
  obtain ⟨cfg, hrun, hended, hactive⟩ := hexists
  have hids : ∀ id ∈ sampleListed.backend.devices.rows.map Device.id, id.toList.all (· = 'x') = false := by
    decide
  exact ⟨cfg, hrun, allow_list_converges sampleApi sampleListed
    (fun id hid n _ => ne_sampleApi_uuid (hids id hid) n) (fun id hid => absurd hid List.not_mem_nil)
    hrun (Or.inl sampleListed_inStep) hended, hactive⟩

/-- A boot has read the active IMEIs; the device is removed before the list is replaced. -/
def removedWhileBooting : List (Event AdminCall Outcome EnvMove Nat) :=
  ([.start 0 .onModuleInit, .settle 0 (.resolves ""),
    .start 1 (.device sampleTenantAdmin (.remove "van"))] :
    List (Event AdminCall Outcome EnvMove Nat)) ++
    inOrder [1, 1, 1] ++
    ([.resume 0] : List (Event AdminCall Outcome EnvMove Nat)) ++
    inOrder [0]

/-- The device is suspended, and the list cannot be reached. -/
def suspendedUnpublished : List (Event AdminCall Outcome EnvMove Nat) :=
  ([.start 0 (.device sampleTenantAdmin (.setStatus "van" .suspended))] :
    List (Event AdminCall Outcome EnvMove Nat)) ++
    inOrder [0, 0] ++
    ([.settle 0 (.rejects (.error "Connection is closed.") false), .resume 0] :
      List (Event AdminCall Outcome EnvMove Nat))

/-- **The list stays out of step.** A removed device is on it after the boot, and a suspended one
after a publication that has failed; all calls have ended. -/
theorem allow_list_out_of_step : (∀ imei, sampleListed.InStep imei) ∧
    ∀ es ∈ [removedWhileBooting, suspendedUnpublished], ∃ cfg,
      Run (administration sampleApi).step (fun _ _ => True) (Config.start sampleListed) es cfg ∧
      cfg.threads.keys = [] ∧
      cfg.shared.allowList ≠ cfg.shared.backend.devices.activeImeis.toFinset := by
  refine ⟨sampleListed_inStep, fun es hes => ?_⟩
  apply Run.exists_of_any
  revert es
  decide +kernel

end Runs

end FleetTracking.ControlPlane
