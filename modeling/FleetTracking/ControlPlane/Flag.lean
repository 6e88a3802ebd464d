import FleetTracking.ControlPlane.OneDevice

/-!
# The Immobilized Flag Tells the Truth

The row of a device says whether its relay is engaged, as last commanded from here. The
calls that change it overlap: `immobilize` and `mobilize` record what they have sent only
after the tracker has confirmed it, `configure` and the record of a call write back a whole row
read earlier, and `test` sends a command without recording its kind.

1. `Sends`: the server, with the calls whose commands the device has applied.
2. `Truthful`: the stored flag agrees with the last command applied.
3. `Misleads`: the steps that set the flag wrong, by what they find and what overlaps.
4. If another call is still to set it right wherever a step misleads, the flag is true whenever
   no call is in progress.
-/

namespace FleetTracking.ControlPlane

open Async Transition Typestate

/-! ## What is remembered of a run -/

/-- The server, and the calls whose commands the device has applied, newest first, with whether
the command was an engage command. -/
structure Sends where
  backend : Backend
  sent : List (Nat × Bool)

/-- What a request of call `i` adds. -/
def appliedNote (dev : Device) (i : Nat) : CpOp → Outcome → List (Nat × Bool)
  | .send imei command, x =>
    if imei = dev.imei ∧ x.takesEffect then [(i, command.engages)] else []
  | _, _ => []

/-- The calls on a server, with the commands to one device. -/
def sends (D : Deployment) (dev : Device) :
    System cpSig Nat Call Response Sends Outcome EnvMove where
  settle i _ op x s :=
    let out := s.backend.settle i op x
    some (⟨out.1, appliedNote dev i op x ++ s.sent⟩, out.2)
  act _ _ a s :=
    let out := s.backend.act D a
    (⟨out.1, s.sent⟩, out.2)
  code := serve D
  env e s := some ⟨s.backend.env e, s.sent⟩

/-! ## The guarantee -/

/-- The stored flag; a device without a row is not immobilized. -/
def immobilizedFlag (dev : Device) (s : Backend) : Bool :=
  (s.immobilizer dev.tenantId dev.id).any ImmobilizerConfig.immobilized

/-- The last command the tracker has applied was an engage command. -/
def lastEngages (dev : Device) (s : Backend) : Bool :=
  (commandsTo s dev.imei).head?.any SetDigout.engages

/-- The stored flag is set exactly when the last command applied was an engage command. -/
def Truthful (dev : Device) (s : Backend) : Prop :=
  immobilizedFlag dev s = lastEngages dev s

/-! ## The condition -/

/-- The kind of command a call has still to record: it was confirmed, the row is not written
yet, and nothing has failed. -/
def RelayPhase.toRecord (q : RelayPhase) : Option Bool :=
  if q.pending && !q.failed then q.request.flag else none

/-- A call other than `i` is to record a command of this kind. -/
def Due (ph : Nat → Option (Call × CallPhase)) (i : Nat) (engages : Bool) : Prop :=
  ∃ j c q, j ≠ i ∧ ph j = some (c, .relay q) ∧ q.toRecord = some engages

/-- The last command the device has applied is of another call, and of the other kind. -/
def Sends.Overtaken (s : Sends) (i : Nat) (engages : Bool) : Prop :=
  ∃ e ∈ s.sent.head?, e.1 ≠ i ∧ e.2 ≠ engages

/-- A call that is to record its command finds the flag of the other kind, and was not
overtaken: if it stops here, the flag stays wrong. -/
def Sends.Needs (dev : Device) (s : Sends) (i : Nat) (q : RelayPhase) : Prop :=
  ∃ engages ∈ q.toRecord, ¬ s.Overtaken i engages ∧ immobilizedFlag dev s.backend ≠ engages

/-- The operations of call `i` that set the flag wrong, or leave it wrong. -/
def Misleads (dev : Device) (s : Sends) (i : Nat) (q : RelayPhase) : CpOp → Outcome → Prop
  -- A dry test releases the relay of a device that is stored as immobilized.
  | .send _ _, _ => q.request.flag = none ∧ immobilizedFlag dev s.backend = true
  -- A configuration writes back a flag that was changed since it has read the row.
  | .immobilizerUpsert row, x =>
    x.takesEffect = true ∧ row.immobilized ≠ immobilizedFlag dev s.backend
  | .immobilizerPatch _ row patch, x =>
    if x.takesEffect then
      -- A command is recorded that another call has overtaken.
      (∃ engages ∈ patch.immobilized, s.Overtaken i engages) ∨
        -- A test writes back a flag that was changed since its record has read the row.
        patch.immobilized = none ∧ row.immobilized ≠ immobilizedFlag dev s.backend
    else s.Needs dev i q
  -- A call that fails here does not go on to record its command.
  | .addEvent _, x | .immobilizerPatchGet _ _, x => x.isOk = false ∧ s.Needs dev i q
  | _, _ => False

/-- The kind of the last command once the operation is made. -/
def lastAfter (dev : Device) (s : Backend) : CpOp → Bool
  | .send _ command => command.engages
  | _ => lastEngages dev s

section Decidable

variable (dev : Device) (s : Sends) (i : Nat) (q : RelayPhase)

instance Sends.decidableOvertaken (engages : Bool) : Decidable (s.Overtaken i engages) :=
  inferInstanceAs (Decidable (∃ e ∈ s.sent.head?, e.1 ≠ i ∧ e.2 ≠ engages))

instance : Decidable (s.Needs dev i q) :=
  inferInstanceAs (Decidable (∃ engages ∈ q.toRecord,
    ¬ s.Overtaken i engages ∧ immobilizedFlag dev s.backend ≠ engages))

instance : (op : CpOp) → (x : Outcome) → Decidable (Misleads dev s i q op x)
  | .send _ _, _ =>
    inferInstanceAs (Decidable (q.request.flag = none ∧ immobilizedFlag dev s.backend = true))
  | .immobilizerUpsert row, x => inferInstanceAs (Decidable
      (x.takesEffect = true ∧ row.immobilized ≠ immobilizedFlag dev s.backend))
  | .immobilizerPatch _ row patch, x => inferInstanceAs (Decidable (if x.takesEffect then
      (∃ engages ∈ patch.immobilized, s.Overtaken i engages) ∨
        patch.immobilized = none ∧ row.immobilized ≠ immobilizedFlag dev s.backend
    else s.Needs dev i q))
  | .addEvent _, x | .immobilizerPatchGet _ _, x =>
    inferInstanceAs (Decidable (x.isOk = false ∧ s.Needs dev i q))
  | .devicesFindById _ _ _, _ | .orgUnitsList _, _ | .findByImei _, _ | .immobilizerGet _ _, _
  | .hotGetLast _ _, _ | .hotSetLast _, _ | .positionsLatest _ _, _ | .positionsInsertMany _, _
  | .alertConfigGet _, _ | .geofencesList _, _ | .alertsInsertMany _, _ | .tripsInsert _, _ =>
    .isFalse id

end Decidable

/-- The phase of a call to the immobilizer. -/
def CallPhase.relayPhase : CallPhase → Option RelayPhase
  | .relay q => some q
  | _ => none

/-- Where an operation misleads, another call is still to record a command of the last kind. -/
def KeepsFlag (D : Deployment) (dev : Device) (cfg : Config cpSig Call Response Sends Nat) :
    Event Call Outcome EnvMove Nat → Prop
  | .settle i x => ∀ th ∈ cfg.threads.lookup i,
      ∀ q ∈ CallPhase.relayPhase ((controlCalls D).phaseOf th),
        Misleads dev cfg.shared i q th.op x →
          Due ((controlCalls D).phases cfg) i (lastAfter dev cfg.shared.backend th.op)
  | _ => True

theorem due_iff {D : Deployment} {cfg : Config cpSig Call Response Sends Nat} {i : Nat}
    {engages : Bool} :
    (∃ j ∈ cfg.threads.keys, j ≠ i ∧ ∃ th ∈ cfg.threads.lookup j,
      ∃ q ∈ CallPhase.relayPhase ((controlCalls D).phaseOf th), q.toRecord = some engages) ↔
    Due ((controlCalls D).phases cfg) i engages := by
  constructor
  · intro h
    obtain ⟨j, -, hji, th, hth, q, hq, hrecord⟩ := h
    have hphase := phases_of_lookup (T := controlCalls D) hth
    -- a call is due by its phase alone, so the thread is forgotten
    revert hphase hq
    generalize (controlCalls D).phaseOf th = p
    intro hq hphase
    cases p with
    | relay q' =>
      cases hq
      exact ⟨j, th.call, q, hji, hphase, hrecord⟩
    | ingest q' => cases hq
    | serve q' => cases hq
  · intro h
    obtain ⟨j, c, q, hji, hphase, hrecord⟩ := h
    obtain ⟨th, hth, heq⟩ := Option.map_eq_some_iff.mp hphase
    refine ⟨j, ?_, hji, th, hth, q, ?_, hrecord⟩
    · exact AList.lookup_isSome.mp (Option.isSome_iff_exists.mpr ⟨th, hth⟩)
    · rw [(Prod.mk.inj heq).2]
      rfl

instance (D : Deployment) (cfg : Config cpSig Call Response Sends Nat) (i : Nat) :
    DecidablePred (Due ((controlCalls D).phases cfg) i) :=
  fun _ => decidable_of_iff _ due_iff

instance (D : Deployment) (dev : Device) (cfg : Config cpSig Call Response Sends Nat) :
    (e : Event Call Outcome EnvMove Nat) → Decidable (KeepsFlag D dev cfg e)
  | .settle i x => inferInstanceAs (Decidable (∀ th ∈ cfg.threads.lookup i,
      ∀ q ∈ CallPhase.relayPhase ((controlCalls D).phaseOf th),
        Misleads dev cfg.shared i q th.op x →
          Due ((controlCalls D).phases cfg) i (lastAfter dev cfg.shared.backend th.op)))
  | .start _ _ | .resume _ | .env _ => .isTrue trivial

/-! ## The invariant -/

section Invariant

variable {D : Deployment} {dev : Device} {s s' : Backend} {q : RelayPhase}

/-- A call about the device that has read its row has read a row that is still there. -/
structure RowStays (dev : Device) (s : Backend) (q : RelayPhase) : Prop where
  about : q.About dev
  read : ∀ row, q.row = some (some row) → (s.immobilizer dev.tenantId dev.id).isSome = true
  confirmed : q.confirmed = true → (s.immobilizer dev.tenantId dev.id).isSome = true

/-- The invariant: the flag is true, or a call in progress is to make it true. -/
structure FlagInv (dev : Device) (s : Sends) (ph : Nat → Option (Call × CallPhase)) :
    Prop where
  device : dev ∈ s.backend.devices.rows
  calls : ∀ i c q, ph i = some (c, .relay q) → RowStays dev s.backend q
  -- The last command of a call that was confirmed is its own.
  sent : ∀ i c q, ph i = some (c, .relay q) → q.confirmed = true → ∃ engages,
    s.sent.lookup i = some engages ∧ q.request.engages = some engages
  last : ∀ e ∈ s.sent.head?, e.2 = lastEngages dev s.backend
  flag : Truthful dev s.backend ∨
    ∃ i c q, ph i = some (c, .relay q) ∧ q.toRecord = some (lastEngages dev s.backend)

/-- A call starts without having read the row. -/
theorem rowStays_init {user : AuthUser} {deviceId : String} {request : ImmobilizerRequest}
    (htenant : user.tenantId = dev.tenantId) (hid : deviceId = dev.id) :
    RowStays dev s { user, deviceId, request } where
  about := ⟨htenant, hid, fun _ h => (by cases h), fun _ h => (by cases h)⟩
  read _ h := by cases h
  confirmed h := by cases h

theorem RowStays.mono (h : RowStays dev s q)
    (hrow : (s.immobilizer dev.tenantId dev.id).isSome = true →
      (s'.immobilizer dev.tenantId dev.id).isSome = true) : RowStays dev s' q where
  about := h.about
  read row hread := hrow (h.read row hread)
  confirmed hconfirmed := hrow (h.confirmed hconfirmed)

theorem truthful_congr (h : SameRelay s s') : Truthful dev s' ↔ Truthful dev s := by
  rw [Truthful, Truthful, immobilizedFlag, immobilizedFlag, lastEngages, lastEngages,
    h.immobilizer, h.commandsTo]

theorem lastEngages_congr (h : SameRelay s s') : lastEngages dev s' = lastEngages dev s := by
  rw [lastEngages, lastEngages, h.commandsTo]

variable {w w' : Sends} {ph : Nat → Option (Call × CallPhase)} {i : Nat} {c : Call}

/-- Where the flag is wrong, call `i` or another one is to record the last command. -/
theorem FlagInv.true_or_recorded (h : FlagInv dev w ph) (hi : ph i = some (c, .relay q)) :
    (Truthful dev w.backend ∨ Due ph i (lastEngages dev w.backend)) ∨
      q.toRecord = some (lastEngages dev w.backend) := by
  rcases h.flag with htrue | ⟨j, c', q', hj, hrecord⟩
  · exact Or.inl (Or.inl htrue)
  · by_cases hji : j = i
    · rw [hji, hi] at hj
      cases hj
      exact Or.inr hrecord
    · exact Or.inl (Or.inr ⟨j, c', q', hji, hj, hrecord⟩)

/-- A request that records a kind of command sends a command of this kind. -/
theorem ImmobilizerRequest.engages_of_flag {req : ImmobilizerRequest} {f : Bool}
    (h : req.flag = some f) : req.engages = some f := by
  cases req with
  | configure dto => cases h
  | immobilize => exact h
  | mobilize => exact h
  | test => cases h

/-- A call was overtaken when the last command is of the other kind. -/
theorem FlagInv.overtaken_iff (h : FlagInv dev w ph) (hi : ph i = some (c, .relay q))
    (hconfirmed : q.confirmed = true) {engages : Bool} (hflag : q.request.flag = some engages) :
    w.Overtaken i engages ↔ lastEngages dev w.backend ≠ engages := by
  obtain ⟨own, hown, hkind⟩ := h.sent i c q hi hconfirmed
  rw [ImmobilizerRequest.engages_of_flag hflag] at hkind
  obtain rfl : engages = own := Option.some.inj hkind
  have hlast := h.last
  rw [Sends.Overtaken]
  cases hsent : w.sent with
  | nil =>
    rw [hsent] at hown
    cases hown
  | cons e rest =>
    rw [hsent] at hown hlast
    have hkind : e.2 = lastEngages dev w.backend := hlast e rfl
    simp only [List.head?_cons, Option.mem_some_iff, exists_eq_left', ← hkind,
      and_iff_right_iff_imp]
    -- were the last command the call's own, it would be of the call's kind
    intro hne he
    obtain ⟨j, kind⟩ := e
    simp only at he hne
    rw [he, List.lookup_cons_self] at hown
    exact hne (Option.some.inj hown)

/-- A step of a call to the immobilizer. -/
theorem FlagInv.move {q' : RelayPhase} (h : FlagInv dev w ph)
    (hdevices : w'.backend.devices = w.backend.devices)
    (hrow : (w.backend.immobilizer dev.tenantId dev.id).isSome = true →
      (w'.backend.immobilizer dev.tenantId dev.id).isSome = true)
    (hcall : RowStays dev w'.backend q')
    (hsent : ∀ j, j ≠ i → w'.sent.lookup j = w.sent.lookup j)
    (hown : q'.confirmed = true → ∃ engages,
      w'.sent.lookup i = some engages ∧ q'.request.engages = some engages)
    (hlast : ∀ e ∈ w'.sent.head?, e.2 = lastEngages dev w'.backend)
    (hflag : (Truthful dev w'.backend ∨ Due ph i (lastEngages dev w'.backend)) ∨
      q'.toRecord = some (lastEngages dev w'.backend)) :
    FlagInv dev w' (Function.update ph i (some (c, .relay q'))) where
  device := by
    rw [hdevices]
    exact h.device
  calls j c' q'' hj := by
    rcases update_some_iff.mp hj with ⟨-, heq⟩ | ⟨-, hj⟩
    · cases heq
      exact hcall
    · exact (h.calls j c' q'' hj).mono hrow
  sent j c' q'' hj := by
    rcases update_some_iff.mp hj with ⟨rfl, heq⟩ | ⟨hji, hj⟩
    · cases heq
      exact hown
    · rw [hsent j hji]
      exact h.sent j c' q'' hj
  last := hlast
  flag := by
    -- the flag tells the truth, or the record is still to come: from another call or from this one
    rcases hflag with (htrue | ⟨j, c', q'', hji, hj, hrecord⟩) | hrecord
    · exact Or.inl htrue
    · exact Or.inr ⟨j, c', q'', update_some_iff.mpr (Or.inr ⟨hji, hj⟩), hrecord⟩
    · exact Or.inr ⟨i, c, q', update_some_iff.mpr (Or.inl ⟨rfl, rfl⟩), hrecord⟩

/-- A call of another kind does not touch the flag. -/
theorem FlagInv.move_other {p p' : CallPhase} {b : Backend} (h : FlagInv dev w ph)
    (hi : ph i = some (c, p)) (hp : ∀ q, p ≠ .relay q) (hp' : ∀ q, p' ≠ .relay q)
    (hsame : SameRelay w.backend b) :
    FlagInv dev ⟨b, w.sent⟩ (Function.update ph i (some (c, p'))) where
  device := by
    rw [hsame.devices]
    exact h.device
  -- call i is no relay before or after, so it owes the flag nothing
  calls j c' q hj := by
    rcases update_some_iff.mp hj with ⟨-, heq⟩ | ⟨-, hj⟩
    · cases heq
      exact absurd rfl (hp' q)
    · apply (h.calls j c' q hj).mono
      rw [hsame.immobilizer]
      exact id
  sent j c' q hj := by
    rcases update_some_iff.mp hj with ⟨-, heq⟩ | ⟨-, hj⟩
    · cases heq
      exact absurd rfl (hp' q)
    · exact h.sent j c' q hj
  last := by
    rw [lastEngages_congr hsame]
    exact h.last
  flag := by
    rw [truthful_congr hsame, lastEngages_congr hsame]
    rcases h.flag with htrue | ⟨j, c', q, hj, hrecord⟩
    · exact Or.inl htrue
    · refine Or.inr ⟨j, c', q, update_some_iff.mpr (Or.inr ⟨?_, hj⟩), hrecord⟩
      rintro rfl
      rw [hi] at hj
      cases hj
      exact hp q rfl

/-! ## One operation -/

/-- No operation of a call about the device removes its row. -/
theorem row_kept {op : CpOp} {x : Outcome} {n : Nat} (habout : q.About dev) (hmay : q.may D op)
    (hrow : (s.immobilizer dev.tenantId dev.id).isSome = true) :
    ((s.settle n op x).1.immobilizer dev.tenantId dev.id).isSome = true := by
  by_cases hsame : ¬ op.Relays ∨ x.takesEffect = false
  · rw [(settle_sameRelay _ hsame).immobilizer]
    exact hrow
  · simp only [not_or, not_not, Bool.not_eq_false] at hsame
    obtain ⟨hop, hx⟩ := hsame
    rw [settle_effect _ hop hx]
    cases op with
    | immobilizerUpsert cfg =>
      obtain ⟨-, dto, current, createdAt, -, -, rfl⟩ := hmay
      have hstored := immobilizer_upsert s (configured q.user q.deviceId dto current createdAt)
      simp only [configured, habout.tenantId, habout.deviceId] at hstored ⊢
      rw [hstored]
      rfl
    | immobilizerPatch deviceId row patch =>
      obtain ⟨rfl, hstored, -⟩ := hmay
      rw [habout.deviceId, immobilizer_patch s patch (habout.stored row hstored)]
      rfl
    | send imei command => exact hrow
    | _ => cases hop

/-- What a call has read stays true over its next operation. -/
theorem RowStays.settle {op : CpOp} {x : Outcome} {n : Nat} (h : RowStays dev s q)
    (hdev : dev ∈ s.devices.rows) (hmay : q.may D op) :
    RowStays dev (s.settle n op x).1 (q.next (.answered op (s.settle n op x).2)) where
  about := h.about.settle hdev hmay
  read row hread := by
    apply row_kept h.about hmay
    rcases RelayPhase.row_next hread with hread | ⟨tenantId, deviceId, he⟩
    · exact h.read row hread
    · generalize hr : (s.settle n op x).2 = r at he
      cases he
      obtain ⟨-, reply, hanswer⟩ := settle_ok hr
      obtain ⟨⟨rfl, rfl⟩, -⟩ := hmay
      rw [← h.about.tenantId, ← h.about.deviceId]
      have hstored : s.immobilizer q.user.tenantId q.deviceId = some row := hanswer.symm
      rw [hstored]
      rfl
  confirmed hconfirmed := by
    apply row_kept h.about hmay
    rcases RelayPhase.confirmed_next hconfirmed with hconfirmed | ⟨imei, command, reply, he⟩
    · exact h.confirmed hconfirmed
    · generalize (s.settle n op x).2 = r at he
      cases he
      obtain ⟨-, -, -, -, device, cfg, immobilize, -, -, hread, -⟩ := hmay
      exact h.read cfg hread

/-- A request that goes on to the same thing to record: no command, no write, and no failure of
the log or of the read of the row. -/
theorem RelayPhase.toRecord_next {op : CpOp} {r : Except ApiError op.Res} (hop : ¬ op.Relays)
    (hlog : ∀ e, op ≠ .addEvent e)
    (hget : ∀ tenantId deviceId, op ≠ .immobilizerPatchGet tenantId deviceId) :
    (q.next (.answered op r)).toRecord = q.toRecord := by
  generalize he : (Seen.answered op r : Seen cpSig) = e
  unfold RelayPhase.next
  split
  case h_6 => cases he; exact absurd trivial hop
  case h_7 => cases he; exact absurd trivial hop
  case h_8 => cases he; exact absurd trivial hop
  case h_9 => cases he; exact absurd rfl (hget _ _)
  case h_10 => cases he; exact absurd rfl (hget _ _)
  case h_11 => cases he; exact absurd trivial hop
  case h_12 => cases he; exact absurd trivial hop
  case h_13 => cases he; exact absurd rfl (hlog _)
  all_goals rfl

theorem toRecord_of_flag (h : q.request.flag = none) : q.toRecord = none := by
  rw [RelayPhase.toRecord, h]
  split
  · rfl
  · rfl

/-- A call that is to record a command is confirmed, and records the kind of its request. -/
theorem of_toRecord {engages : Bool} (h : q.toRecord = some engages) :
    q.confirmed = true ∧ q.request.flag = some engages := by
  rw [RelayPhase.toRecord] at h
  split at h
  case isTrue hpending =>
    simp only [RelayPhase.pending, Bool.and_eq_true] at hpending
    exact ⟨hpending.1.1.1, h⟩
  case isFalse => cases h

/-- A configuration leaves the flag it has read. -/
theorem flag_upsert {cfg : ImmobilizerConfig} (hcall : RowStays dev s q)
    (hmay : q.may D (.immobilizerUpsert cfg)) :
    immobilizedFlag dev (s.effect (.immobilizerUpsert cfg)) = cfg.immobilized := by
  obtain ⟨-, dto, current, createdAt, -, -, rfl⟩ := hmay
  have hstored := immobilizer_upsert s (configured q.user q.deviceId dto current createdAt)
  simp only [configured, hcall.about.tenantId, hcall.about.deviceId] at hstored
  rw [immobilizedFlag]
  simp only [configured, hcall.about.tenantId, hcall.about.deviceId]
  rw [hstored]
  rfl

/-- Recording a command sets the flag to its kind, or to what the row that was read says. -/
theorem flag_patch {deviceId : String} {row : ImmobilizerConfig} {patch : ImmobilizerPatch}
    (hcall : RowStays dev s q) (hmay : q.may D (.immobilizerPatch deviceId row patch)) :
    immobilizedFlag dev (s.effect (.immobilizerPatch deviceId row patch)) =
      patch.immobilized.getD row.immobilized := by
  obtain ⟨rfl, hstored, -⟩ := hmay
  rw [immobilizedFlag, hcall.about.deviceId,
    immobilizer_patch s patch (hcall.about.stored row hstored)]
  rfl

/-- Writing the row does not touch what was applied. -/
theorem lastEngages_patch {deviceId : String} {row : ImmobilizerConfig}
    {patch : ImmobilizerPatch} :
    lastEngages dev (s.effect (.immobilizerPatch deviceId row patch)) = lastEngages dev s := rfl

/-- Of the requests, only a command adds to what was sent. -/
theorem appliedNote_eq_nil {op : CpOp} {x : Outcome} (h : ∀ imei command, op ≠ .send imei command) :
    appliedNote dev i op x = [] := by
  cases op with
  | send imei command => exact absurd rfl (h imei command)
  | _ => rfl

/-- The state after call `i` had an operation turn out. -/
def Sends.settle (dev : Device) (w : Sends) (i : Nat) (op : CpOp) (x : Outcome) : Sends :=
  ⟨(w.backend.settle i op x).1, appliedNote dev i op x ++ w.sent⟩

/-- What is to be shown of the flag after an operation of call `i`, which is then in phase `q'`. -/
def Settled (dev : Device) (ph : Nat → Option (Call × CallPhase)) (i : Nat) (b : Backend)
    (q' : RelayPhase) : Prop :=
  (Truthful dev b ∨ Due ph i (lastEngages dev b)) ∨ q'.toRecord = some (lastEngages dev b)

/-- A call that stops before it has recorded its command leaves the flag true, or another call is
to set it right. -/
theorem FlagInv.stopped (h : FlagInv dev w ph) (hi : ph i = some (c, .relay q))
    (hkeeps : w.Needs dev i q → Due ph i (lastEngages dev w.backend)) :
    Truthful dev w.backend ∨ Due ph i (lastEngages dev w.backend) := by
  rcases h.true_or_recorded hi with htrue | hrecord
  · exact htrue
  · obtain ⟨hconfirmed, hflag⟩ := of_toRecord hrecord
    by_cases htrue : Truthful dev w.backend
    · exact Or.inl htrue
    -- the call's own command is the last one, and the stored flag says otherwise
    · refine Or.inr (hkeeps ⟨_, hrecord, ?_, htrue⟩)
      rw [h.overtaken_iff hi hconfirmed hflag]
      exact fun hne => hne rfl

/-- A confirmed command is the last one, and the call is to record it if it records at all. -/
theorem FlagInv.settled_send (h : FlagInv dev w ph) (hi : ph i = some (c, .relay q))
    {imei : String} {command : SetDigout} {reply : String} (hmay : q.may D (.send imei command))
    (hkeeps : Misleads dev w i q (.send imei command) (.resolves reply) →
      Due ph i command.engages) :
    Settled dev ph i (w.backend.effect (.send imei command))
      (q.next (.answered (.send imei command) (.ok reply))) := by
  have hcall := h.calls i c q hi
  obtain ⟨-, hwritten, -, hfailed, device, cfg, immobilize, hdevice, rfl, -, -, hengages, rfl, -⟩ :=
    hmay
  obtain rfl : device = dev := hcall.about.device device hdevice
  have hlast : lastEngages device
      (w.backend.effect (.send device.imei (cfg.command immobilize))) = immobilize := by
    rw [lastEngages, commandsTo_cons (s := w.backend) rfl]
    exact command_engages cfg immobilize
  rw [Settled, hlast]
  cases hflag : q.request.flag with
  | none =>
    -- a dry test sends a release command
    have himmobilize : immobilize = false := by
      cases hreq : q.request with
      | configure dto => rw [hreq] at hengages; cases hengages
      | immobilize => rw [hreq] at hflag; cases hflag
      | mobilize => rw [hreq] at hflag; cases hflag
      | test => rw [hreq] at hengages; exact (Option.some.inj hengages).symm
    left
    cases hstored : immobilizedFlag device w.backend with
    | false =>
      left
      rw [Truthful, hlast, himmobilize]
      exact hstored
    | true =>
      right
      rw [command_engages] at hkeeps
      exact hkeeps ⟨hflag, hstored⟩
  | some f =>
    rw [ImmobilizerRequest.engages_of_flag hflag] at hengages
    obtain rfl : f = immobilize := Option.some.inj hengages
    right
    simp [RelayPhase.next, RelayPhase.toRecord, RelayPhase.pending, hwritten, hfailed, hflag]

/-- A configuration that writes back the flag as it is stored changes nothing about it. -/
theorem FlagInv.settled_upsert (h : FlagInv dev w ph) (hi : ph i = some (c, .relay q))
    {cfg : ImmobilizerConfig} {x : Outcome} {q' : RelayPhase}
    (hmay : q.may D (.immobilizerUpsert cfg)) (hx : x.takesEffect = true)
    (hkeeps : Misleads dev w i q (.immobilizerUpsert cfg) x →
      Due ph i (lastEngages dev w.backend)) :
    Settled dev ph i (w.backend.effect (.immobilizerUpsert cfg)) q' := by
  have hlast : lastEngages dev (w.backend.effect (.immobilizerUpsert cfg)) =
      lastEngages dev w.backend := rfl
  left
  rw [Truthful, flag_upsert (h.calls i c q hi) hmay, hlast]
  by_cases hsame : cfg.immobilized = immobilizedFlag dev w.backend
  · obtain ⟨-, dto, current, createdAt, hreq, -⟩ := hmay
    have hrecord : q.toRecord = none := toRecord_of_flag (by rw [hreq]; rfl)
    have hcases := h.true_or_recorded hi
    rw [hrecord] at hcases
    rw [hsame]
    exact hcases.resolve_right (by simp)
  · exact Or.inr (hkeeps ⟨hx, hsame⟩)

/-- A call that records its command sets the flag right unless it was overtaken; a test writes
the flag back. -/
theorem FlagInv.settled_patch (h : FlagInv dev w ph) (hi : ph i = some (c, .relay q))
    {deviceId : String} {row : ImmobilizerConfig} {patch : ImmobilizerPatch} {x : Outcome}
    {q' : RelayPhase} (hmay : q.may D (.immobilizerPatch deviceId row patch))
    (hx : x.takesEffect = true)
    (hkeeps : Misleads dev w i q (.immobilizerPatch deviceId row patch) x →
      Due ph i (lastEngages dev w.backend)) :
    Settled dev ph i (w.backend.effect (.immobilizerPatch deviceId row patch)) q' := by
  rw [Misleads, if_pos hx] at hkeeps
  left
  rw [Truthful, flag_patch (h.calls i c q hi) hmay, lastEngages_patch]
  obtain ⟨-, -, hconfirmed, -, hflag, -⟩ := hmay
  -- a patch without a flag of its own writes back the one that the row had when it was read
  cases hreq : q.request.flag with
  | none =>
    rw [hreq] at hflag
    rw [hflag, Option.getD_none]
    by_cases hsame : row.immobilized = immobilizedFlag dev w.backend
    · have hcases := h.true_or_recorded hi
      rw [toRecord_of_flag hreq] at hcases
      rw [hsame]
      exact hcases.resolve_right (by simp)
    · exact Or.inr (hkeeps (Or.inr ⟨hflag, hsame⟩))
  | some engages =>
    rw [hreq] at hflag
    rw [hflag, Option.getD_some]
    -- a record of its own is true unless a later command has overtaken it
    by_cases hover : w.Overtaken i engages
    · exact Or.inr (hkeeps (Or.inl ⟨engages, hflag, hover⟩))
    · rw [h.overtaken_iff hi hconfirmed hreq, not_not] at hover
      exact Or.inl hover.symm

/-- An operation of a call to the immobilizer leaves the flag true, or a call is to set it
right. -/
theorem FlagInv.settled {op : CpOp} {x : Outcome} (h : FlagInv dev w ph)
    (hi : ph i = some (c, .relay q)) (hmay : q.may D op)
    (hconfirmed : ∀ imei command, op = .send imei command → x.isOk = true)
    (hkeeps : Misleads dev w i q op x → Due ph i (lastAfter dev w.backend op)) :
    Settled dev ph i (w.backend.settle i op x).1
      (q.next (.answered op (w.backend.settle i op x).2)) := by
  -- where neither rows nor commands change, the flag stays as it is
  have hsame : ∀ q' : RelayPhase, (¬ op.Relays ∨ x.takesEffect = false) →
      (Truthful dev w.backend ∨ Due ph i (lastEngages dev w.backend)) ∨
        q'.toRecord = some (lastEngages dev w.backend) →
      Settled dev ph i (w.backend.settle i op x).1 q' := by
    intro q' hquiet hstays
    have hview := settle_sameRelay (s := w.backend) (i := i) op hquiet
    rw [Settled, truthful_congr hview, lastEngages_congr hview]
    exact hstays
  cases op with
  | send imei command =>
    have hx := hconfirmed imei command rfl
    cases x with
    | resolves reply => exact h.settled_send hi hmay hkeeps
    | rejects e applied => cases hx
  | immobilizerUpsert cfg =>
    cases hx : x.takesEffect with
    | false =>
      obtain ⟨-, dto, current, createdAt, hreq, -⟩ := hmay
      have hrecord : q.toRecord = none := toRecord_of_flag (by rw [hreq]; rfl)
      have hcases := h.true_or_recorded hi
      rw [hrecord] at hcases
      exact hsame _ (Or.inr hx) (Or.inl (hcases.resolve_right (by simp)))
    | true =>
      rw [settle_effect (.immobilizerUpsert cfg) trivial hx]
      exact h.settled_upsert hi hmay hx hkeeps
  | immobilizerPatch deviceId row patch =>
    cases hx : x.takesEffect with
    | false =>
      rw [Misleads, if_neg (by simp [hx])] at hkeeps
      exact hsame _ (Or.inr hx) (Or.inl (h.stopped hi hkeeps))
    | true =>
      rw [settle_effect (.immobilizerPatch deviceId row patch) trivial hx]
      exact h.settled_patch hi hmay hx hkeeps
  | addEvent e =>
    apply hsame _ (Or.inl fun hop => hop)
    cases x with
    | resolves reply => exact h.true_or_recorded hi
    | rejects err applied => exact Or.inl (h.stopped hi fun hneeds => hkeeps ⟨rfl, hneeds⟩)
  | immobilizerPatchGet tenantId deviceId =>
    apply hsame _ (Or.inl fun hop => hop)
    cases x with
    | resolves reply =>
      -- the row is still there
      obtain ⟨⟨rfl, rfl⟩, hc, -⟩ := hmay
      have hcall := h.calls i c q hi
      obtain ⟨row, hrow⟩ := Option.isSome_iff_exists.mp (hcall.confirmed hc)
      rw [← hcall.about.tenantId, ← hcall.about.deviceId] at hrow
      have hanswer : (w.backend.settle i (.immobilizerPatchGet q.user.tenantId q.deviceId)
          (.resolves reply)).2 = .ok (some row) := congrArg Except.ok hrow
      have hcases := h.true_or_recorded hi
      rw [hanswer]
      exact hcases
    | rejects err applied => exact Or.inl (h.stopped hi fun hneeds => hkeeps ⟨rfl, hneeds⟩)
  | _ =>
    apply hsame _ (Or.inl fun hop => hop)
    rw [RelayPhase.toRecord_next]
    · exact h.true_or_recorded hi
    · exact fun hop => hop
    · intro e he
      cases he
    · intro tenantId deviceId he
      cases he

/-- A command to the device that is applied is the last of those sent. -/
theorem FlagInv.last_settle {op : CpOp} {x : Outcome} (h : FlagInv dev w ph)
    (hi : ph i = some (c, .relay q)) (hmay : q.may D op) :
    ∀ e ∈ (w.settle dev i op x).sent.head?, e.2 = lastEngages dev (w.settle dev i op x).backend := by
  -- only a command that is handed over is noted
  by_cases hsame : ¬ op.Relays ∨ x.takesEffect = false
  · have hview := settle_sameRelay (s := w.backend) (i := i) op hsame
    have hnote : appliedNote dev i op x = [] := by
      cases op with
      | send imei command =>
        rcases hsame with hop | hx
        · exact absurd trivial hop
        · simp [appliedNote, hx]
      | _ => rfl
    rw [Sends.settle, hnote, lastEngages_congr hview]
    exact h.last
  · simp only [not_or, not_not, Bool.not_eq_false] at hsame
    obtain ⟨hop, hx⟩ := hsame
    rw [Sends.settle, settle_effect op hop hx]
    cases op with
    | send imei command =>
      obtain ⟨-, -, -, -, device, cfg, immobilize, hdevice, rfl, -⟩ := hmay
      obtain rfl : device = dev := (h.calls i c q hi).about.device device hdevice
      intro e he
      simp only [appliedNote, hx, and_self, if_true, List.cons_append, List.head?_cons,
        Option.mem_some_iff] at he
      subst he
      rw [lastEngages, commandsTo_cons (s := w.backend) rfl]
      rfl
    | immobilizerUpsert cfg => exact h.last
    | immobilizerPatch deviceId row patch => exact h.last
    | _ => cases hop

/-- The last command of a call that was confirmed is its own, after one more operation of it. -/
theorem FlagInv.sent_settle {op : CpOp} {x : Outcome} (h : FlagInv dev w ph)
    (hi : ph i = some (c, .relay q)) (hmay : q.may D op)
    (hconfirmed : (q.next (.answered op (w.backend.settle i op x).2)).confirmed = true) :
    ∃ engages, (w.settle dev i op x).sent.lookup i = some engages ∧ q.request.engages = some engages := by
  by_cases hop : ∃ imei command, op = .send imei command
  · obtain ⟨imei, command, rfl⟩ := hop
    obtain ⟨-, -, hno, -, device, cfg, immobilize, hdevice, rfl, -, -, hengages, rfl, -⟩ := hmay
    obtain rfl : device = dev := (h.calls i c q hi).about.device device hdevice
    cases x with
    | resolves reply =>
      refine ⟨immobilize, ?_, hengages⟩
      simp [Sends.settle, appliedNote, Outcome.takesEffect, command_engages]
    | rejects e applied =>
      -- it was not confirmed before, and is not now
      have hc : q.confirmed = true := hconfirmed
      rw [hno] at hc
      cases hc
  · simp only [not_exists] at hop
    have hc : q.confirmed = true := by
      rcases RelayPhase.confirmed_next hconfirmed with hc | ⟨imei, command, reply, he⟩
      · exact hc
      · generalize (w.backend.settle i op x).2 = r at he
        cases he
        exact absurd rfl (hop imei command)
    rw [Sends.settle, appliedNote_eq_nil hop]
    exact h.sent i c q hi hc

/-- An operation of a call to the immobilizer keeps the invariant. -/
theorem FlagInv.settle_relay {op : CpOp} {x : Outcome} (h : FlagInv dev w ph)
    (hi : ph i = some (c, .relay q)) (hmay : q.may D op)
    (hconfirmed : ∀ imei command, op = .send imei command → x.isOk = true)
    (hkeeps : Misleads dev w i q op x → Due ph i (lastAfter dev w.backend op)) :
    FlagInv dev (w.settle dev i op x) (Function.update ph i
      (some (c, .relay (q.next (.answered op (w.backend.settle i op x).2))))) := by
  have hcall := h.calls i c q hi
  apply h.move (settle_devices ..) (row_kept hcall.about hmay) (hcall.settle h.device hmay) ?_ ?_
    (h.last_settle hi hmay) (h.settled hi hmay hconfirmed hkeeps)
  · -- the notes of a call are about no other call
    intro j hji
    have hnote : ∀ e ∈ appliedNote dev i op x, e.1 = i := by
      cases op with
      | send imei command =>
        intro e he
        simp only [appliedNote] at he
        split at he
        · rw [List.mem_singleton.mp he]
        · cases he
      | _ => exact fun e he => by cases he
    have hnone : (appliedNote dev i op x).lookup j = none := by
      rw [List.lookup_eq_none_iff]
      intro e he
      rw [hnote e he]
      simpa using hji
    rw [Sends.settle, List.lookup_append, hnone, Option.none_or]
  · intro hc
    rw [(q.next_request _).1]
    exact h.sent_settle hi hmay hc

end Invariant

/-! ## The flag is true when no call is in progress -/

section Flag

variable {D : Deployment} {dev : Device}

/-- What is asked of the steps of a run: the calls are about the device, every command is
confirmed, and where a step misleads another call is to set the flag right. -/
def FlagStep (D : Deployment) (dev : Device) (cfg : Config cpSig Call Response Sends Nat)
    (e : Event Call Outcome EnvMove Nat) : Prop :=
  OnDevice dev ⟨cfg.shared.backend, cfg.threads⟩ e ∧
    Confirmed ⟨cfg.shared.backend, cfg.threads⟩ e ∧ KeepsFlag D dev cfg e

instance (D : Deployment) (dev : Device) (cfg : Config cpSig Call Response Sends Nat)
    (e : Event Call Outcome EnvMove Nat) : Decidable (FlagStep D dev cfg e) :=
  inferInstanceAs (Decidable (OnDevice dev ⟨cfg.shared.backend, cfg.threads⟩ e ∧
    Confirmed ⟨cfg.shared.backend, cfg.threads⟩ e ∧ KeepsFlag D dev cfg e))

theorem flagInv_preserves :
    Preserves (sends D dev) (controlCalls D) (FlagStep D dev) (FlagInv dev) where
  code c := serve_conforms c
  start cfg i c h hnone hok := by
    have hphase : (controlCalls D).phases cfg i = none := by
      simp [phases, hnone]
    refine ⟨h.device, fun j c' q hj => ?_, fun j c' q hj hconfirmed => ?_, h.last, ?_⟩
    · rcases update_some_iff.mp hj with ⟨-, heq⟩ | ⟨-, hj⟩
      · cases c with
        | immobilizer user deviceId req =>
          cases heq
          exact rowStays_init hok.1.1 hok.1.2
        | process batch => cases heq
        | latest user deviceId => cases heq
      · exact h.calls j c' q hj
    · rcases update_some_iff.mp hj with ⟨-, heq⟩ | ⟨-, hj⟩
      · cases c with
        | immobilizer user deviceId req =>
          cases heq
          cases hconfirmed
        | process batch => cases heq
        | latest user deviceId => cases heq
      · exact h.sent j c' q hj hconfirmed
    · rcases h.flag with htrue | ⟨j, c', q, hj, hrecord⟩
      · exact Or.inl htrue
      · refine Or.inr ⟨j, c', q, update_some_iff.mpr (Or.inr ⟨?_, hj⟩), hrecord⟩
        intro hji
        rw [hji, hphase] at hj
        cases hj
  act s ph i c q a h hi hmay := by
    have hsame := act_sameRelay D s.backend a
    cases q with
    | relay q =>
      have ha : a = .now := hmay
      subst ha
      exact h.move rfl id (h.calls i c q hi) (fun _ _ => rfl) (h.sent i c q hi) h.last
        (h.true_or_recorded hi)
    | ingest q => exact h.move_other hi (fun _ he => by cases he) (fun _ he => by cases he) hsame
    | serve q => exact h.move_other hi (fun _ he => by cases he) (fun _ he => by cases he) hsame
  settle cfg i th x s' r h hth hmay hok hs := by
    cases hs
    obtain ⟨-, hconfirmed, hkeeps⟩ := hok
    have hi := phases_of_lookup (T := controlCalls D) hth
    have hkeeps' := hkeeps th hth
    -- no command of another call is noted
    have hother : (∀ imei command, th.op ≠ .send imei command) → (cfg.shared.settle dev i th.op x) =
        ⟨(cfg.shared.backend.settle i th.op x).1, cfg.shared.sent⟩ := by
      intro hop
      rw [Sends.settle, appliedNote_eq_nil hop]
      rfl
    show FlagInv dev (cfg.shared.settle dev i th.op x) _
    revert hmay hi hkeeps'
    generalize (controlCalls D).phaseOf th = p
    intro hmay hi hkeeps'
    cases p with
    | relay q =>
      apply h.settle_relay hi hmay ?_ (hkeeps' q rfl)
      intro imei command hop
      apply hconfirmed th hth
      rw [hop]
      rfl
    | ingest q =>
      have hop : ¬ th.op.Relays := by
        revert hmay
        cases th.op <;> simp [controlCalls, IngestPhase.may, CpOp.Relays]
      rw [hother fun imei command he => hop (he ▸ trivial)]
      exact h.move_other hi (fun _ he => by cases he) (fun _ he => by cases he)
        (settle_sameRelay _ (Or.inl hop))
    | serve q =>
      have hop : ¬ th.op.Relays := by
        revert hmay
        cases th.op <;> simp [controlCalls, ServePhase.may, CpOp.Relays]
      rw [hother fun imei command he => hop (he ▸ trivial)]
      exact h.move_other hi (fun _ he => by cases he) (fun _ he => by cases he)
        (settle_sameRelay _ (Or.inl hop))
  finish s ph i c q r h hi hdone := by
    refine ⟨h.device, fun j c' q hj => h.calls j c' q (update_none_iff.mp hj).2,
      fun j c' q hj => h.sent j c' q (update_none_iff.mp hj).2, h.last, ?_⟩
    rcases h.flag with htrue | ⟨j, c', q', hj, hrecord⟩
    · exact Or.inl htrue
    · refine Or.inr ⟨j, c', q', update_none_iff.mpr ⟨?_, hj⟩, hrecord⟩
      intro hji
      rw [hji, hi] at hj
      cases hj
      -- a call that ends without having recorded its command has failed
      rw [RelayPhase.toRecord] at hrecord
      split at hrecord
      case isTrue hpending =>
        simp only [Bool.and_eq_true, Bool.not_eq_true'] at hpending
        have hfailed := hdone hpending.1
        rw [hpending.2] at hfailed
        cases hfailed
      case isFalse => cases hrecord
  env cfg e s' h hok hs := by
    cases hs
    have hsame := env_sameRelay cfg.shared.backend e
    refine ⟨?_, fun j c q hj => (h.calls j c q hj).mono ?_, h.sent, ?_, ?_⟩
    · rw [hsame.devices]
      exact h.device
    · rw [hsame.immobilizer]
      exact id
    · rw [lastEngages_congr hsame]
      exact h.last
    · rw [truthful_congr hsame, lastEngages_congr hsame]
      exact h.flag

/-- **The flag tells the truth.** However the calls are interleaved, as long as another call is
to set the flag right wherever a step misleads: once all calls have completed, the stored flag is
set exactly when the last command applied was an engage command. -/
theorem flag_truthful {s₀ : Backend} (hdev : dev ∈ s₀.devices.rows) (htrue : Truthful dev s₀)
    {es : List (Event Call Outcome EnvMove Nat)} {cfg : Config cpSig Call Response Sends Nat}
    (hrun : Run (sends D dev).step (FlagStep D dev) (Config.start ⟨s₀, []⟩) es cfg)
    (hquiet : ∀ i, cfg.threads.lookup i = none) : Truthful dev cfg.shared.backend := by
  have hinit : FlagInv dev ⟨s₀, []⟩ fun _ => none := by
    refine ⟨hdev, fun i c q hi => ?_, fun i c q hi => ?_, fun e he => ?_, Or.inl htrue⟩
    · cases hi
    · cases hi
    · cases he
  have h := flagInv_preserves.invariant hinit hrun
  rcases h.flag with htrue | ⟨i, c, q, hi, -⟩
  · exact htrue
  · rw [phases, hquiet i] at hi
    cases hi

/-- A server on which the immobilizer of the sample device is enabled. -/
def enabledBackend : Backend :=
  sampleBackend.effect (.immobilizerUpsert (configured sampleAdmin sampleDevice.id
    ⟨true, none, none, none⟩ none "2026-01-01T00:00:00.000Z"))

/-- An immobilize call and a configuration that overlaps with it. -/
def overlappingCalls : List (Event Call Outcome EnvMove Nat) :=
  ([.start 0 (sampleCall .immobilize).1, .start 1 (sampleCall (switchTo true)).1] :
    List (Event Call Outcome EnvMove Nat)) ++
    ((List.replicate 4 [.settle 1 (.resolves "OK"), .resume 1]).flatten :
      List (Event Call Outcome EnvMove Nat)) ++
    ((List.replicate 9 [.settle 0 (.resolves "OK"), .resume 0]).flatten :
      List (Event Call Outcome EnvMove Nat))

/-- A configuration that was written before the command was sent does not overwrite the flag. -/
theorem overlapping_calls_truthful : ∃ es cfg,
    Run (sends sampleDeployment sampleDevice).step (FlagStep sampleDeployment sampleDevice)
      (Config.start ⟨enabledBackend, []⟩) es cfg ∧
    (∀ i, cfg.threads.lookup i = none) ∧ immobilizedFlag sampleDevice cfg.shared.backend = true ∧
    Truthful sampleDevice cfg.shared.backend := by
  have hfold : (overlappingCalls.foldlM (fun cfg e =>
      if FlagStep sampleDeployment sampleDevice cfg e then
        (sends sampleDeployment sampleDevice).step cfg e else none)
      (Config.start ⟨enabledBackend, []⟩)).any (fun cfg => cfg.threads.keys = [] ∧
        immobilizedFlag sampleDevice cfg.shared.backend = true) = true := by
    decide +kernel
  obtain ⟨cfg, hcfg, hend⟩ := (Option.any_eq_true _ _).mp hfold
  obtain ⟨hkeys, hflag⟩ := of_decide_eq_true hend
  have hrun := Run.of_foldlM hcfg
  have hquiet := lookup_of_keys hkeys
  have hstart : Truthful sampleDevice enabledBackend := rfl
  exact ⟨_, cfg, hrun, hquiet, hflag, flag_truthful List.mem_cons_self hstart hrun hquiet⟩

/-- **A dry test makes the flag lie.** Enabled, engaged, then tested: the test sends a real
release command, and the row still says immobilized. -/
theorem test_makes_flag_lie :
    ¬ ∀ (D : Deployment) (dev : Device) (s₀ : Backend) (es : List (Event Call Outcome EnvMove Nat))
      (cfg : Config cpSig Call Response Backend Nat),
      dev ∈ s₀.devices.rows → Truthful dev s₀ →
      Run (controlPlane D).step (fun cfg e => OnDevice dev cfg e ∧ Confirmed cfg e)
        (Config.start s₀) es cfg →
      (∀ i, cfg.threads.lookup i = none) → Truthful dev cfg.shared := by
  intro hall
  -- configure, immobilize and test, each run to its end before the next
  have hcalls : ((controlPlane sampleDeployment).calls 0
      [sampleCall (switchTo true), sampleCall .immobilize, sampleCall .test] sampleBackend).any
      (fun s => immobilizedFlag sampleDevice s = true ∧ lastEngages sampleDevice s = false) =
      true := by
    decide +kernel
  obtain ⟨s, hs, hend⟩ := (Option.any_eq_true _ _).mp hcalls
  obtain ⟨hflag, hlast⟩ := of_decide_eq_true hend
  -- as steps of the control plane, with the side conditions of the claim
  have hsteps : ∃ es, Run (controlPlane sampleDeployment).step
      (fun cfg e => OnDevice sampleDevice cfg e ∧ Confirmed cfg e)
      (Config.start sampleBackend) es (Config.start s) := by
    apply exists_run_of_calls ?_ ?_ hs
    · intro s x hx
      refine ⟨?_, trivial⟩
      simp only [List.mem_cons, List.not_mem_nil, or_false] at hx
      obtain rfl | rfl | rfl := hx
      · exact ⟨rfl, rfl⟩
      · exact ⟨rfl, rfl⟩
      · exact ⟨rfl, rfl⟩
    · intro x hx cfg n
      simp only [List.mem_cons, List.not_mem_nil, or_false] at hx
      refine ⟨⟨trivial, fun th _ _ => ?_⟩, trivial, trivial⟩
      obtain rfl | rfl | rfl := hx
      · rfl
      · rfl
      · rfl
  obtain ⟨es, hrun⟩ := hsteps
  have hstart : Truthful sampleDevice sampleBackend := rfl
  have htrue : immobilizedFlag sampleDevice s = lastEngages sampleDevice s :=
    hall _ _ _ _ _ List.mem_cons_self hstart hrun fun _ => rfl
  rw [hflag, hlast] at htrue
  cases htrue

end Flag

end FleetTracking.ControlPlane
