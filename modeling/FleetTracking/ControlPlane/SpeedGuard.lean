import FleetTracking.ControlPlane.Flag
import FleetTracking.ControlPlane.HotState

/-!
# The Speed Guard of the Immobilizer

Before an engage command is sent, the last known speed is compared with the limit in the row of
the device. It is read from the hot state, or from the durable store when nothing is cached.
Whether it is the speed of the newest stored position depends on the writes to both.

1. `GuardStep`: the writes to the hot state are timely, a resent position has the speed it had
   before, no speed is read while the hot state is behind, and a failed read of the store does
   not pass for a device without positions.
2. `engage_guarded`: under these conditions no engage command is sent unless the newest stored
   position, when the speed was read, was within the limit.
-/

namespace FleetTracking.ControlPlane

open Async Transition Typestate

/-! ## Conditions -/

/-- The rows of a batch, and those that are there already, agree in the speed where they have
the same device and time. -/
def SameSpeed (s : Backend) (ps : List Position) : Prop :=
  ∀ p ∈ ps, ∀ r ∈ (s.positions.insertMany ps).rows, r.Collides p → r.speedKph = p.speedKph

instance (s : Backend) (ps : List Position) : Decidable (SameSpeed s ps) :=
  inferInstanceAs (Decidable (∀ p ∈ ps, ∀ r ∈ (s.positions.insertMany ps).rows,
    r.Collides p → r.speedKph = p.speedKph))

/-- How a read of the last known speed may turn out. -/
def SoundRead (elsewhere : String × String → Prop) : CpOp → Outcome → Prop
  | .hotGetLast tenantId deviceId, .resolves _ => ¬ elsewhere (tenantId, deviceId)
  | .positionsLatest _ _, .rejects _ _ => False
  | _, _ => True

instance (elsewhere : String × String → Prop) [DecidablePred elsewhere] :
    (op : CpOp) → (x : Outcome) → Decidable (SoundRead elsewhere op x)
  | .hotGetLast tenantId deviceId, .resolves _ =>
    inferInstanceAs (Decidable (¬ elsewhere (tenantId, deviceId)))
  | .positionsLatest _ _, .rejects _ _ => .isFalse id
  | .hotGetLast _ _, .rejects _ _ | .positionsLatest _ _, .resolves _
  | .devicesFindById _ _ _, _ | .orgUnitsList _, _ | .findByImei _, _ | .immobilizerGet _ _, _
  | .immobilizerUpsert _, _ | .immobilizerPatchGet _ _, _ | .immobilizerPatch _ _ _, _
  | .addEvent _, _ | .send _ _, _
  | .hotSetLast _, _ | .positionsInsertMany _, _ | .alertConfigGet _, _ | .geofencesList _, _
  | .alertsInsertMany _, _ | .tripsInsert _, _ => .isTrue trivial

/-- What a step has to do with the reads of the last known speed: calls have numbers of their own,
stored speeds are not contradicted, and the immobilizer reads what is stored. -/
def KeepsSpeeds (D : Deployment) (cfg : Config cpSig Call Response Backend Nat) :
    Event Call Outcome EnvMove Nat → Prop
  | .start i _ => ∀ e ∈ cfg.shared.speedReads, e.1 ≠ i
  | .settle i x => ∀ th ∈ cfg.threads.lookup i, SameSpeed cfg.shared th.op.batch ∧
      ∀ q ∈ CallPhase.relayPhase ((controlCalls D).phaseOf th),
        SoundRead (Elsewhere ((controlCalls D).phases cfg) i) th.op x
  | _ => True

instance (D : Deployment) (cfg : Config cpSig Call Response Backend Nat) :
    (e : Event Call Outcome EnvMove Nat) → Decidable (KeepsSpeeds D cfg e)
  | .start i _ => inferInstanceAs (Decidable (∀ e ∈ cfg.shared.speedReads, e.1 ≠ i))
  | .settle i x => inferInstanceAs (Decidable (∀ th ∈ cfg.threads.lookup i,
      SameSpeed cfg.shared th.op.batch ∧
        ∀ q ∈ CallPhase.relayPhase ((controlCalls D).phaseOf th),
          SoundRead (Elsewhere ((controlCalls D).phases cfg) i) th.op x))
  | .resume _ | .env _ => .isTrue trivial

/-- The steps of a run in which the guard can be relied on. -/
def GuardStep (D : Deployment) (cfg : Config cpSig Call Response Backend Nat)
    (e : Event Call Outcome EnvMove Nat) : Prop :=
  Timely D cfg e ∧ KeepsSpeeds D cfg e

instance (D : Deployment) (cfg : Config cpSig Call Response Backend Nat)
    (e : Event Call Outcome EnvMove Nat) : Decidable (GuardStep D cfg e) :=
  inferInstanceAs (Decidable (_ ∧ _))

/-! ## The invariant -/

/-- The position has a row of its device and time, with its speed. -/
def Backend.Recorded (s : Backend) (p : Position) : Prop :=
  ∃ r ∈ s.positions.rows, r.Of p.tenantId p.deviceId ∧ r.ts = p.ts ∧ r.speedKph = p.speedKph

/-- The speed a call of the immobilizer has read is that of the newest stored position. -/
def SpeedKnown (s : Backend) (i : Nat) (q : RelayPhase) : Prop :=
  ∀ speed, q.speed = some speed → ∃ newest, (i, newest) ∈ s.speedReads ∧
    newest.map Position.speedKph = speed ∧ ∀ p ∈ newest, p.Of q.user.tenantId q.deviceId

/-- The invariant: what is in the hot state, or is to be written to it, was stored with its
speed, and what the immobilizer has read was the speed of the newest stored position. -/
structure GuardInv (s : Backend) (ph : Nat → Option (Call × CallPhase)) : Prop where
  fresh : HotInv s ph
  stored : ∀ r ∈ s.positions.rows, s.IsDevice r.key
  held : ∀ k p, s.hot.get k = some p → s.Recorded p
  left : ∀ i c q, ph i = some (c, q) → ∀ p ∈ q.left, s.Recorded p
  found : ∀ i c v, ph i = some (c, .serve v) → ∀ p ∈ v.found, s.Recorded p
  calls : ∀ i c v, ph i = some (c, .relay v) → c = .immobilizer v.user v.deviceId v.request
  speeds : ∀ i c v, ph i = some (c, .relay v) → SpeedKnown s i v

section Invariant

variable {D : Deployment} {s s' : Backend} {ph : Nat → Option (Call × CallPhase)} {i : Nat}
  {c : Call} {q q' : CallPhase} {op : CpOp} {x : Outcome} {n : Nat}

theorem Backend.Recorded.mono {p : Position} (h : s.Recorded p)
    (hrows : ∀ r ∈ s.positions.rows, r ∈ s'.positions.rows) : s'.Recorded p := by
  obtain ⟨r, hr, hof, hts, hspeed⟩ := h
  exact ⟨r, hrows r hr, hof, hts, hspeed⟩

theorem recorded_of_mem {p : Position} (h : p ∈ s.positions.rows) : s.Recorded p :=
  ⟨p, h, ⟨rfl, rfl⟩, rfl, rfl⟩

/-- What is fresh and recorded has the speed of the newest stored position. -/
theorem speed_of_fresh {k : String × String} {p : Position} (hfresh : s.positions.UpToDate k p)
    (hrecorded : s.Recorded p) :
    (s.positions.latest k.1 k.2).map Position.speedKph = some p.speedKph := by
  obtain ⟨rfl, hlatest⟩ := hfresh
  obtain ⟨newest, hnewest, hts⟩ := Option.map_eq_some_iff.mp hlatest
  obtain ⟨hmem, hof⟩ := PositionTable.latest_mem hnewest
  obtain ⟨r, hr, hrof, hrts, hspeed⟩ := hrecorded
  have hsame : newest = r :=
    PositionTable.eq_of_collides hmem hr ⟨hof.2.trans hrof.2.symm, hts.trans hrts.symm⟩
  rw [hnewest, hsame, Option.map_some, hspeed]

/-- A step of call `i`. -/
theorem GuardInv.move (h : GuardInv s ph) (hfresh : HotInv s' (Function.update ph i (some (c, q'))))
    (hrows : ∀ r ∈ s.positions.rows, r ∈ s'.positions.rows)
    (hreads : ∀ e ∈ s.speedReads, e ∈ s'.speedReads)
    (hstored : ∀ r ∈ s'.positions.rows, s'.IsDevice r.key)
    (hheld : ∀ k p, s'.hot.get k = some p → s'.Recorded p)
    (hleft : ∀ p ∈ q'.left, s'.Recorded p)
    (hfound : ∀ v, q' = .serve v → ∀ p ∈ v.found, s'.Recorded p)
    (hcalls : ∀ v, q' = .relay v → c = .immobilizer v.user v.deviceId v.request)
    (hspeeds : ∀ v, q' = .relay v → SpeedKnown s' i v) :
    GuardInv s' (Function.update ph i (some (c, q'))) where
  -- every field splits alike: call i has the new phase, the others keep theirs
  fresh := hfresh
  stored := hstored
  held := hheld
  left j c' q'' hj p hp := by
    rcases update_some_iff.mp hj with ⟨-, heq⟩ | ⟨-, hj⟩
    · cases heq
      exact hleft p hp
    · exact (h.left j c' q'' hj p hp).mono hrows
  found j c' v hj p hp := by
    rcases update_some_iff.mp hj with ⟨-, heq⟩ | ⟨-, hj⟩
    · cases heq
      exact hfound v rfl p hp
    · exact (h.found j c' v hj p hp).mono hrows
  calls j c' v hj := by
    rcases update_some_iff.mp hj with ⟨-, heq⟩ | ⟨-, hj⟩
    · cases heq
      exact hcalls v rfl
    · exact h.calls j c' v hj
  speeds j c' v hj speed hspeed := by
    rcases update_some_iff.mp hj with ⟨rfl, heq⟩ | ⟨-, hj⟩
    · cases heq
      exact hspeeds v rfl speed hspeed
    · obtain ⟨newest, hmem, hnewest⟩ := h.speeds j c' v hj speed hspeed
      exact ⟨newest, hreads _ hmem, hnewest⟩

/-! ## What a request does to positions and reads -/

theorem rows_settle {r : Position} (h : r ∈ s.positions.rows) :
    r ∈ (s.settle n op x).1.positions.rows := by
  by_cases hstores : ¬ op.Stores ∨ x.takesEffect = false
  · rw [(settle_sameHot n hstores).positions]
    exact h
  · simp only [not_or, not_not, Bool.not_eq_false] at hstores
    cases op with
    | positionsInsertMany ps =>
      simp only [Backend.settle, hstores.2, if_true]
      exact PositionTable.subset_insertMany _ ps h
    | hotSetLast p =>
      simp only [Backend.settle, hstores.2, if_true]
      exact h
    | _ => exact absurd hstores.1 id

/-- A row that is new is that of a position of the batch. -/
theorem mem_rows_settle {r : Position} (h : r ∈ (s.settle n op x).1.positions.rows) :
    r ∈ s.positions.rows ∨ ∃ p ∈ op.batch, r = p.row := by
  by_cases hstores : ¬ op.Stores ∨ x.takesEffect = false
  · rw [(settle_sameHot n hstores).positions] at h
    exact Or.inl h
  · simp only [not_or, not_not, Bool.not_eq_false] at hstores
    cases op with
    | positionsInsertMany ps =>
      simp only [Backend.settle, hstores.2, if_true] at h
      exact PositionTable.mem_insertMany h
    | hotSetLast p =>
      simp only [Backend.settle, hstores.2, if_true] at h
      exact Or.inl h
    | _ => exact absurd hstores.1 id

/-- What is in the hot state was there, or has just been written. -/
theorem hot_settle {k : String × String} {p : Position}
    (h : (s.settle n op x).1.hot.get k = some p) : s.hot.get k = some p ∨ op = .hotSetLast p := by
  by_cases hstores : ¬ op.Stores ∨ x.takesEffect = false
  · rw [(settle_sameHot n hstores).hot] at h
    exact Or.inl h
  · simp only [not_or, not_not, Bool.not_eq_false] at hstores
    cases op with
    | positionsInsertMany ps =>
      simp only [Backend.settle, hstores.2, if_true] at h
      exact Or.inl h
    | hotSetLast p' =>
      simp only [Backend.settle, hstores.2, if_true] at h
      have hset : (s.hot.set (p'.tenantId, p'.deviceId) p').get k = some p := h
      by_cases hk : k = (p'.tenantId, p'.deviceId)
      · rw [hk, JsMap.get_set_self] at hset
        cases hset
        exact Or.inr rfl
      · rw [JsMap.get_set_of_ne _ _ hk] at hset
        exact Or.inl hset
    | _ => exact absurd hstores.1 id

/-- The reads of last positions so far are kept, and one more is noted. -/
theorem reads_settle : (s.settle n op x).1.speedReads = (s.noteRead n op).speedReads := by
  simp only [Backend.settle]
  split
  case isFalse => rfl
  case isTrue => cases op <;> rfl

theorem reads_kept {e : Nat × Option Position} (h : e ∈ s.speedReads) :
    e ∈ (s.settle n op x).1.speedReads := by
  rw [reads_settle]
  cases op with
  | hotGetLast tenantId deviceId => exact List.mem_cons_of_mem _ h
  | positionsLatest tenantId deviceId => exact List.mem_cons_of_mem _ h
  | _ => exact h

/-! ## One operation -/

/-- What a call has still to write after one more answer was there before, or is of the batch that
was just stored. -/
theorem left_next {e : Seen cpSig} {p : Position} (h : p ∈ ((controlCalls D).next q e).left) :
    p ∈ q.left ∨ ∃ ps u, e = .answered (.positionsInsertMany ps) (.ok u) ∧ p ∈ ps := by
  cases q with
  | relay v => cases h
  | serve v => cases h
  | ingest v =>
    change p ∈ (CallPhase.ingest (v.next e)).left at h
    unfold IngestPhase.next at h
    split at h
    case h_1 => cases v <;> exact Or.inl h
    case h_2 => cases v <;> exact Or.inl h
    case h_3 ps u => exact Or.inr ⟨ps, u, rfl, mem_newestPerDevice h⟩
    case h_4 =>
      split at h
      · exact Or.inl (List.mem_of_mem_tail h)
      · exact Or.inl h
    case h_5 => cases h
    case h_6 => exact Or.inl h

/-- A batch stores positions of devices of the table. -/
theorem batch_devices (h : HotInv s ph) (hi : ph i = some (c, q))
    (hmay : (controlCalls D).may q op) {p : Position} (hp : p ∈ op.batch) : s.IsDevice p.key := by
  cases op with
  | positionsInsertMany ps =>
    cases q with
    | relay v => cases hmay
    | serve v => cases hmay
    | ingest v =>
      obtain ⟨refs, rfl, hrefs⟩ := hmay
      exact h.known i c refs hi p.key (hrefs p hp)
  | _ => cases hp

/-- What is written to the hot state was stored before. -/
theorem recorded_write (h : GuardInv s ph) (hi : ph i = some (c, q)) {p : Position}
    (hmay : (controlCalls D).may q (.hotSetLast p)) : s.Recorded p := by
  cases q with
  | relay v => cases hmay
  | serve v => exact h.found i c v hi p hmay
  | ingest v =>
    obtain ⟨rest, rfl⟩ := hmay
    exact h.left i c _ hi p List.mem_cons_self

/-- A batch that is stored has rows with its speeds. -/
theorem recorded_batch (h : GuardInv s ph) {ps : List Position}
    (hdevices : ∀ p ∈ ps, s.IsDevice p.key) (hspeeds : SameSpeed s ps) {p : Position} (hp : p ∈ ps)
    {reply : String} : (s.settle n (.positionsInsertMany ps) (.resolves reply)).1.Recorded p := by
  obtain ⟨r, hr, hcollides⟩ := PositionTable.exists_insertMany s.positions hp
  have hdevice : s.IsDevice r.key := by
    rcases PositionTable.mem_insertMany hr with hold | ⟨p', hp', rfl⟩
    · exact h.stored r hold
    · exact hdevices p' hp'
  have hkey : r.key = p.key := eq_of_isDevice hdevice (hdevices p hp) hcollides.1
  refine ⟨r, hr, Prod.mk.inj hkey, hcollides.2, hspeeds p hp r hr hcollides⟩

/-- The speed a call has read is the last one it was answered. -/
theorem speed_next {v : RelayPhase} {e : Seen cpSig} {speed : Option ℚ}
    (h : (v.next e).speed = some speed) : v.speed = some speed ∨
      (∃ tenantId deviceId p, e = .answered (.hotGetLast tenantId deviceId) (.ok (some p)) ∧
        speed = some p.speedKph) ∨
      (∃ tenantId deviceId p, e = .answered (.positionsLatest tenantId deviceId) (.ok p) ∧
        speed = p.map Position.speedKph) ∨
      ∃ tenantId deviceId err, e = .answered (.positionsLatest tenantId deviceId) (.error err) := by
  unfold RelayPhase.next at h
  split at h
  case h_3 tenantId deviceId p => exact Or.inr (Or.inl ⟨_, _, p, rfl, (Option.some.inj h).symm⟩)
  case h_4 tenantId deviceId p =>
    exact Or.inr (Or.inr (Or.inl ⟨_, _, p, rfl, (Option.some.inj h).symm⟩))
  case h_5 tenantId deviceId err => exact Or.inr (Or.inr (Or.inr ⟨_, _, err, rfl⟩))
  all_goals exact Or.inl h

/-- After a sound read the speed is that of the newest stored position. -/
theorem speedKnown_next {v : RelayPhase} (h : GuardInv s ph) (hi : ph i = some (c, .relay v))
    (hmay : v.may D op) (hsound : SoundRead (Elsewhere ph i) op x) :
    SpeedKnown (s.settle i op x).1 i (v.next (.answered op (s.settle i op x).2)) := by
  obtain ⟨-, huser, hdevice⟩ := RelayPhase.next_request v (.answered op (s.settle i op x).2)
  intro speed hspeed
  rw [huser, hdevice]
  rcases speed_next hspeed with hold | ⟨tenantId, deviceId, p, he, rfl⟩ |
    ⟨tenantId, deviceId, p, he, rfl⟩ | ⟨tenantId, deviceId, err, he⟩
  · obtain ⟨newest, hmem, hnewest⟩ := h.speeds i c v hi speed hold
    exact ⟨newest, reads_kept hmem, hnewest⟩
  · -- from the hot state, which is fresh and holds what was stored
    generalize hr : (s.settle i op x).2 = r at he
    cases he
    obtain ⟨hok, reply, hanswer⟩ := settle_ok hr
    obtain ⟨⟨rfl, rfl⟩, -⟩ := hmay
    cases x with
    | rejects e applied => cases hok
    | resolves reply =>
      have hheld : s.hot.get (v.user.tenantId, v.deviceId) = some p := hanswer.symm
      have hfresh := h.fresh.fresh_of_call hi List.not_mem_nil hsound p hheld
      refine ⟨s.positions.latest v.user.tenantId v.deviceId, ?_,
        speed_of_fresh hfresh (h.held _ p hheld), fun q hq => (PositionTable.latest_mem hq).2⟩
      rw [reads_settle]
      exact List.mem_cons_self
  · -- from the durable store
    generalize hr : (s.settle i op x).2 = r at he
    cases he
    obtain ⟨hok, reply, hanswer⟩ := settle_ok hr
    obtain ⟨⟨rfl, rfl⟩, -⟩ := hmay
    have hlatest : s.positions.latest v.user.tenantId v.deviceId = p := hanswer.symm
    refine ⟨p, ?_, rfl, fun q hq => (PositionTable.latest_mem (hlatest.trans hq)).2⟩
    rw [reads_settle, ← hlatest]
    exact List.mem_cons_self
  · generalize hr : (s.settle i op x).2 = r at he
    cases he
    cases x with
    | resolves reply => cases hr
    | rejects e applied => exact hsound.elim

/-- What a read of the last position has found is stored. -/
theorem found_next {v : ServePhase} {p : Position} (h : GuardInv s ph)
    (hi : ph i = some (c, .serve v))
    (hp : p ∈ (v.next (.answered op (s.settle n op x).2)).found) :
    (s.settle n op x).1.Recorded p := by
  generalize hr : (s.settle n op x).2 = r at hp
  unfold ServePhase.next at hp
  split at hp
  case h_1 tenantId deviceId p' he =>
    cases he
    obtain ⟨-, reply, hanswer⟩ := settle_ok hr
    have hlatest : s.positions.latest tenantId deviceId = some p := hanswer.symm.trans hp
    exact recorded_of_mem (rows_settle (PositionTable.latest_mem hlatest).1)
  case h_2 => exact (h.found i c v hi p hp).mono fun r hr => rows_settle hr

/-- An operation of a call. -/
theorem GuardInv.settle (h : GuardInv s ph) (hi : ph i = some (c, q))
    (hmay : (controlCalls D).may q op) (htimely : TimelyWrite s (Elsewhere ph i) q.left op x)
    (hspeeds : SameSpeed s op.batch)
    (hsound : ∀ v, q = .relay v → SoundRead (Elsewhere ph i) op x) :
    GuardInv (s.settle i op x).1 (Function.update ph i
      (some (c, (controlCalls D).next q (.answered op (s.settle i op x).2)))) := by
  -- rows are only ever added, so what was recorded stays recorded
  have hgrow : ∀ r ∈ s.positions.rows, r ∈ (s.settle i op x).1.positions.rows :=
    fun r hr => rows_settle hr
  have hdevices := settle_devices s i op x
  refine h.move (h.fresh.settle hi hmay htimely) hgrow (fun e he => reads_kept he) ?_ ?_ ?_ ?_ ?_ ?_
  · intro r hr
    apply (isDevice_congr hdevices).mpr
    -- a new row comes from a batch, whose messages name devices of this store
    rcases mem_rows_settle hr with hold | ⟨p, hp, rfl⟩
    · exact h.stored r hold
    · have hdevice : s.IsDevice p.key := batch_devices h.fresh hi hmay hp
      exact hdevice
  · intro k p hp
    rcases hot_settle hp with hold | rfl
    · exact (h.held k p hold).mono hgrow
    · exact (recorded_write h hi hmay).mono hgrow
  · intro p hp
    -- what the consumer leaves to the hot store is the batch it has just inserted
    rcases left_next hp with hold | ⟨ps, u, he, hps⟩
    · exact (h.left i c q hi p hold).mono hgrow
    · generalize hr : (s.settle i op x).2 = r at he
      cases he
      obtain ⟨hok, -⟩ := settle_ok hr
      cases x with
      | rejects e applied => cases hok
      | resolves reply =>
        exact recorded_batch h (fun p hp => batch_devices h.fresh hi hmay hp) hspeeds hps
  · intro v hv p hp
    cases q with
    | relay w => cases hv
    | ingest w => cases hv
    | serve w =>
      cases hv
      -- only a latest request looks positions up
      exact found_next h hi hp
  · intro v hv
    cases q with
    | serve w => cases hv
    | ingest w => cases hv
    | relay w =>
      cases hv
      obtain ⟨hrequest, huser, hdevice⟩ :=
        RelayPhase.next_request w (.answered op (s.settle i op x).2)
      rw [hrequest, huser, hdevice]
      exact h.calls i c w hi
  · intro v hv
    cases q with
    | serve w => cases hv
    | ingest w => cases hv
    | relay w =>
      cases hv
      -- only a relay keeps a speed, and it keeps the one its read has answered
      exact speedKnown_next h hi hmay (hsound w rfl)

/-- An action of a call. -/
theorem GuardInv.act (h : GuardInv s ph) (hi : ph i = some (c, q)) {a : CpAct}
    (hmay : (controlCalls D).mayAct q a) :
    GuardInv (s.act D a).1
      (Function.update ph i (some (c, (controlCalls D).next q (.did a (s.act D a).2)))) := by
  -- an act leaves the rows and the hot store alone
  have hsame := act_sameHot D s a
  have hreads : (s.act D a).1.speedReads = s.speedReads := by
    cases a <;> rfl
  have hrecorded : ∀ p, s.Recorded p → (s.act D a).1.Recorded p :=
    fun p hp => hp.mono fun r hr => hsame.positions ▸ hr
  refine h.move (h.fresh.act hi hmay) (fun r hr => hsame.positions ▸ hr)
    (fun e he => hreads ▸ he) ?_ ?_ ?_ ?_ ?_ ?_
  · intro r hr
    rw [hsame.positions] at hr
    exact (isDevice_congr (act_sameRelay D s a).devices).mpr (h.stored r hr)
  · intro k p hp
    rw [hsame.hot] at hp
    exact hrecorded p (h.held k p hp)
  · intro p hp
    rw [left_did] at hp
    exact hrecorded p (h.left i c q hi p hp)
  · intro v hv p hp
    cases q with
    | serve w => cases hmay
    | relay w => cases hv
    | ingest w => cases hv
  · intro v hv
    cases q with
    | serve w => cases hv
    | ingest w => cases hv
    | relay w =>
      cases hv
      exact h.calls i c w hi
  · intro v hv speed hspeed
    cases q with
    | serve w => cases hv
    | ingest w => cases hv
    | relay w =>
      cases hv
      rw [hreads]
      exact h.speeds i c w hi speed hspeed

theorem guardInv_preserves :
    Preserves (controlPlane D) (controlCalls D) (GuardStep D) GuardInv where
  code c := serve_conforms c
  start cfg i c h hnone hok := by
    have hfresh := hotInv_preserves.start cfg i c h.fresh hnone hok.1
    -- a call that begins has found no position and holds none back
    refine h.move hfresh (fun _ hr => hr) (fun _ he => he) h.stored h.held ?_ ?_ ?_ ?_
    · intro p hp
      rw [left_init] at hp
      cases hp
    · intro v hv p hp
      cases c with
      | latest user deviceId =>
        cases hv
        cases hp
      | immobilizer user deviceId req => cases hv
      | process batch => cases hv
    · intro v hv
      cases c with
      | immobilizer user deviceId req =>
        cases hv
        rfl
      | process batch => cases hv
      | latest user deviceId => cases hv
    · intro v hv speed hspeed
      cases c with
      | immobilizer user deviceId req =>
        cases hv
        cases hspeed
      | process batch => cases hv
      | latest user deviceId => cases hv
  act s ph i c q a h hi hmay := h.act hi hmay
  settle cfg i th x s' r h hth hmay hok hs := by
    cases hs
    -- the step's side conditions speak of the thread, the invariant of its phase
    obtain ⟨hspeeds, hsound⟩ := hok.2 th hth
    refine h.settle (phases_of_lookup hth) hmay (hok.1 th hth) hspeeds fun v hv => ?_
    apply hsound v
    rw [hv]
    rfl
  finish s ph i c q r h hi hdone := by
    refine ⟨hotInv_preserves.finish s ph i c q r h.fresh hi hdone, h.stored, h.held, ?_, ?_, ?_, ?_⟩
    · exact fun j c' q' hj => h.left j c' q' (update_none_iff.mp hj).2
    · exact fun j c' v hj => h.found j c' v (update_none_iff.mp hj).2
    · exact fun j c' v hj => h.calls j c' v (update_none_iff.mp hj).2
    · exact fun j c' v hj => h.speeds j c' v (update_none_iff.mp hj).2
  env cfg e s' h hok hs := by
    have hfresh := hotInv_preserves.env cfg e s' h.fresh hok.1 hs
    cases hs
    cases e with
    | elapse ms => exact ⟨hfresh, h.stored, h.held, h.left, h.found, h.calls, h.speeds⟩
    | expire tenantId deviceId =>
      refine ⟨hfresh, h.stored, fun k p hp => ?_, h.left, h.found, h.calls, h.speeds⟩
      -- the expired key has no entry any more, the others keep theirs
      by_cases hk : k = (tenantId, deviceId)
      · simp [Backend.env, hk] at hp
      · simp only [Backend.env] at hp
        rw [JsMap.get_delete_of_ne _ hk] at hp
        exact h.held k p hp

end Invariant

/-! ## Engage commands -/

section Engage

variable {D : Deployment}

/-- **A moving vehicle is not cut.** However batches, reads of the last position and calls to the
immobilizer are interleaved, as long as the steps keep the speeds that are read sound: when a call
is about to send an engage command, it has read an enabled row, and a speed when the newest stored
position of the device, if there was one, was not faster than the limit of that row. -/
theorem engage_guarded {s₀ : Backend}
    (hcached : ∀ imei e, s₀.consumer.imeiCache.get imei = some e → ∀ ref ∈ e.ref, s₀.IsDevice ref)
    (hfresh : ∀ k, s₀.FreshAt k) (hstored : ∀ r ∈ s₀.positions.rows, s₀.IsDevice r.key)
    (hheld : ∀ k p, s₀.hot.get k = some p → s₀.Recorded p)
    {es : List (Event Call Outcome EnvMove Nat)} {cfg : Config cpSig Call Response Backend Nat}
    (hrun : Run (controlPlane D).step (GuardStep D) (Config.start s₀) es cfg) {i : Nat}
    {th : Thread cpSig Call Response} (hth : cfg.threads.lookup i = some th)
    (hreply : th.reply = none) {imei : String} {command : SetDigout}
    (hop : th.op = .send imei command) (hengages : command.engages = true) :
    ∃ user deviceId v row newest, th.call = .immobilizer user deviceId .immobilize ∧
      (controlCalls D).phaseOf th = .relay v ∧ v.row = some (some row) ∧ row.enabled = true ∧
      command = row.command true ∧ (i, newest) ∈ cfg.shared.speedReads ∧
      ∀ p ∈ newest, p.Of user.tenantId deviceId ∧ p.speedKph ≤ (row.maxEngageKph : ℚ) := by
  have hinit : GuardInv s₀ fun _ => none := by
    refine ⟨⟨hcached, ?_, ?_, fun k _ => hfresh k⟩, hstored, hheld, ?_, ?_, ?_, ?_⟩
    all_goals
      intro i c q hi
      cases hi
  -- the invariant holds along the run, and the thread that is about to send is in its phase
  have hgood := hrun.invariant (good_start (T := controlCalls D) hinit)
    fun _ _ _ hg hok hs => step_good guardInv_preserves hg hok hs
  have hthread := hgood.2 i th hth
  simp only [Threaded, hreply] at hthread
  have hmay := hthread.1
  have hi := phases_of_lookup (T := controlCalls D) hth
  rw [hop] at hmay
  -- only the phase matters from here on, so the thread is forgotten
  revert hmay hi
  generalize (controlCalls D).phaseOf th = p
  intro hmay hi
  cases p with
  | serve v => cases hmay
  | ingest v => cases hmay
  | relay v =>
    -- the typestate says what may be sent: the row was read and enabled, and engaging needs a safe
    -- speed
    obtain ⟨-, -, -, -, device, row, immobilize, -, -, hrow, henabled, hrequest, rfl, hsafe⟩ := hmay
    rw [command_engages] at hengages
    subst hengages
    obtain ⟨speed, hspeed, hlimit⟩ := hsafe rfl
    -- the invariant says where that speed comes from
    obtain ⟨newest, hmem, hknown, hof⟩ := hgood.1.speeds i _ v hi speed hspeed
    have himmobilize : v.request = .immobilize := by
      cases hreq : v.request with
      | immobilize => rfl
      | _ =>
        rw [hreq] at hrequest
        cases hrequest
    have hcall := hgood.1.calls i _ v hi
    rw [himmobilize] at hcall
    refine ⟨v.user, v.deviceId, v, row, newest, hcall, rfl, hrow, henabled, rfl, hmem,
      fun p hp => ⟨hof p hp, ?_⟩⟩
    apply hlimit
    rw [← hknown]
    exact Option.mem_map_of_mem _ hp

/-- An admin immobilizes the sample device, up to the command. -/
def engaging (i : Nat) : List (Event Call Outcome EnvMove Nat) :=
  .start i (sampleCall .immobilize).1 :: goOn i 4

/-- A request that sends an engage command. -/
def CpOp.engages : CpOp → Bool
  | .send _ command => command.engages
  | _ => false

/-- Call `i` is about to send an engage command. -/
def AboutToEngage (cfg : Config cpSig Call Response Backend Nat) (i : Nat) : Prop :=
  ∃ th ∈ cfg.threads.lookup i, th.reply.isNone = true ∧ th.op.engages = true

instance (cfg : Config cpSig Call Response Backend Nat) (i : Nat) :
    Decidable (AboutToEngage cfg i) :=
  inferInstanceAs (Decidable (∃ th ∈ cfg.threads.lookup i,
    th.reply.isNone = true ∧ th.op.engages = true))

theorem parked_run : ∃ cfg, Run (controlPlane sampleDeployment).step (GuardStep sampleDeployment)
    (Config.start enabledBackend)
    ([.start 0 (.process [positionAt "2026-07-24T10:00:00.000Z" 0])] ++ goOn 0 5 ++ engaging 1) cfg ∧
    AboutToEngage cfg 1 := by
  apply Run.exists_of_any
  decide +kernel

theorem parked_engage_guarded : ∃ cfg newest, AboutToEngage cfg 1 ∧
    (1, newest) ∈ cfg.shared.speedReads ∧ ∀ p ∈ newest, p.speedKph ≤ 50 := by
  obtain ⟨cfg, hrun, th, hth, hreply, hengages⟩ := parked_run
  cases hop : th.op with
  | send imei command =>
    obtain ⟨user, deviceId, v, row, newest, -, -, -, -, -, hmem, hlimit⟩ :=
      engage_guarded (fun imei e he => by cases he) (fun k p hp => by cases hp)
        (fun r hr => by cases hr) (fun k p hp => by cases hp) hrun hth
        (Option.isNone_iff_eq_none.mp hreply) hop (by simpa [hop, CpOp.engages] using hengages)
    refine ⟨cfg, newest, ⟨th, hth, hreply, hengages⟩, hmem, fun p hp => (hlimit p hp).2.trans ?_⟩
    exact_mod_cast row.maxEngageKph.2
  | _ => simp [hop, CpOp.engages] at hengages

/-- The read that puts the older position back lets an engage command through at 90 km/h. -/
theorem moving_vehicle_cut : ∃ cfg, Run (controlPlane sampleDeployment).step (fun _ _ => True)
    (Config.start enabledBackend) (rewarming false ++ engaging 3) cfg ∧ AboutToEngage cfg 3 ∧
    ∃ p ∈ cfg.shared.positions.latest "t1" "d1", p.speedKph = 90 := by
  apply Run.exists_of_any
  decide +kernel

end Engage

end FleetTracking.ControlPlane
