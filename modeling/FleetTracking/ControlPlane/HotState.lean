import FleetTracking.ControlPlane.OneDevice

/-!
# The Hot State and the Position Table

The hot state is a cache of the newest stored position of each device. It is written by
the consumer, after the positions of a batch are stored, and by the read API, when it finds
nothing cached. Timestamps are compared only within a batch: which position the hot state
ends up with depends on how these writes interleave.

1. `Backend.FreshAt`: what is cached for a device has the time of its newest stored position.
2. `TimelyWrite`: how a write to the hot state, or its failure, may turn out without leaving
   it behind for good.
3. `hot_fresh_iff`: the hot state is fresh all along an interleaving, for every device whose
   update is not still to come, exactly if every step is timely.
-/

namespace FleetTracking.ControlPlane

open Async Transition Typestate

/-! ## Freshness -/

/-- The key of a position in the hot state: tenant and id of its device. -/
def Position.key (p : Position) : String × String := (p.tenantId, p.deviceId)

/-- The position is of the device and has the time of its newest stored position. -/
def PositionTable.UpToDate (t : PositionTable) (k : String × String) (p : Position) : Prop :=
  p.key = k ∧ (t.latest k.1 k.2).map Position.ts = some p.ts

instance (t : PositionTable) (k : String × String) (p : Position) : Decidable (t.UpToDate k p) :=
  inferInstanceAs (Decidable (_ ∧ _))

/-- What the hot state holds for a device, if anything, is up to date. -/
def Backend.FreshAt (s : Backend) (k : String × String) : Prop :=
  ∀ p ∈ s.hot.get k, s.positions.UpToDate k p

instance (s : Backend) (k : String × String) : Decidable (s.FreshAt k) :=
  inferInstanceAs (Decidable (∀ p ∈ s.hot.get k, s.positions.UpToDate k p))

/-- The positions of a request that stores a batch. -/
def CpOp.batch : CpOp → List Position
  | .positionsInsertMany ps => ps
  | _ => []

/-! ## Updates that are still to come -/

/-- The positions a call has still to write to the hot state. -/
def CallPhase.left : CallPhase → List Position
  | .ingest (.writing rest) => rest
  | _ => []

/-- A call has still to update the hot state of the device. -/
def Pending (ph : Nat → Option (Call × CallPhase)) (k : String × String) : Prop :=
  ∃ i c q, ph i = some (c, q) ∧ k ∈ q.left.map Position.key

/-- A call other than `i` has still to update the hot state of the device. -/
def Elsewhere (ph : Nat → Option (Call × CallPhase)) (i : Nat) (k : String × String) : Prop :=
  ∃ j c q, j ≠ i ∧ ph j = some (c, q) ∧ k ∈ q.left.map Position.key

/-- How an operation of a call may turn out that has the positions `left` still to write: what
it writes to the hot state is up to date, and where it fails, what it leaves behind is fresh,
unless another call is still to update the hot state of the device. -/
def TimelyWrite (s : Backend) (elsewhere : String × String → Prop) (left : List Position) :
    CpOp → Outcome → Prop
  | .hotSetLast p, .resolves _ => s.positions.UpToDate p.key p ∨ elsewhere p.key
  -- The write took effect, but its call goes no further.
  | .hotSetLast p, .rejects _ true => (s.positions.UpToDate p.key p ∨ elsewhere p.key) ∧
      ∀ q ∈ left.tail, s.FreshAt q.key ∨ elsewhere q.key
  | .hotSetLast _, .rejects _ false => ∀ q ∈ left, s.FreshAt q.key ∨ elsewhere q.key
  -- The batch was stored, but its call does not come to update the hot state.
  | .positionsInsertMany ps, .rejects _ true =>
      ∀ p ∈ ps, (s.effect (.positionsInsertMany ps)).FreshAt p.key ∨ elsewhere p.key
  | _, _ => True

instance (s : Backend) (elsewhere : String × String → Prop) [DecidablePred elsewhere]
    (left : List Position) : (op : CpOp) → (x : Outcome) →
      Decidable (TimelyWrite s elsewhere left op x)
  | .hotSetLast p, .resolves _ =>
    inferInstanceAs (Decidable (s.positions.UpToDate p.key p ∨ elsewhere p.key))
  | .hotSetLast p, .rejects _ true =>
    inferInstanceAs (Decidable ((s.positions.UpToDate p.key p ∨ elsewhere p.key) ∧
      ∀ q ∈ left.tail, s.FreshAt q.key ∨ elsewhere q.key))
  | .hotSetLast _, .rejects _ false =>
    inferInstanceAs (Decidable (∀ q ∈ left, s.FreshAt q.key ∨ elsewhere q.key))
  | .positionsInsertMany ps, .rejects _ true => inferInstanceAs (Decidable (∀ p ∈ ps,
      (s.effect (.positionsInsertMany ps)).FreshAt p.key ∨ elsewhere p.key))
  | .positionsInsertMany _, .resolves _ | .positionsInsertMany _, .rejects _ false
  | .devicesFindById _ _ _, _ | .orgUnitsList _, _ | .findByImei _, _ | .immobilizerGet _ _, _
  | .immobilizerUpsert _, _ | .immobilizerPatchGet _ _, _ | .immobilizerPatch _ _ _, _
  | .addEvent _, _ | .send _ _, _
  | .hotGetLast _ _, _ | .positionsLatest _ _, _ | .alertConfigGet _, _ | .geofencesList _, _
  | .alertsInsertMany _, _ | .tripsInsert _, _ => .isTrue trivial

/-- The operation that takes effect is timely. -/
def Timely (D : Deployment) (cfg : Config cpSig Call Response Backend Nat) :
    Event Call Outcome EnvMove Nat → Prop
  | .settle i x => ∀ th ∈ cfg.threads.lookup i,
      TimelyWrite cfg.shared (Elsewhere ((controlCalls D).phases cfg) i)
        ((controlCalls D).phaseOf th).left th.op x
  | _ => True

theorem elsewhere_iff {D : Deployment} {cfg : Config cpSig Call Response Backend Nat} {i : Nat}
    {k : String × String} :
    (∃ j ∈ cfg.threads.keys, j ≠ i ∧ ∃ th ∈ cfg.threads.lookup j,
      k ∈ (CallPhase.left ((controlCalls D).phaseOf th)).map Position.key) ↔
    Elsewhere ((controlCalls D).phases cfg) i k := by
  constructor
  · rintro ⟨j, -, hji, th, hth, hk⟩
    exact ⟨j, th.call, _, hji, phases_of_lookup hth, hk⟩
  · rintro ⟨j, c, q, hji, hj, hk⟩
    obtain ⟨th, hth, heq⟩ := Option.map_eq_some_iff.mp hj
    refine ⟨j, ?_, hji, th, hth, ?_⟩
    · exact AList.lookup_isSome.mp (Option.isSome_iff_exists.mpr ⟨th, hth⟩)
    · rw [(Prod.mk.inj heq).2]
      exact hk

instance (D : Deployment) (cfg : Config cpSig Call Response Backend Nat) (i : Nat) :
    DecidablePred (Elsewhere ((controlCalls D).phases cfg) i) :=
  fun _ => decidable_of_iff _ elsewhere_iff

instance (D : Deployment) (cfg : Config cpSig Call Response Backend Nat) :
    (e : Event Call Outcome EnvMove Nat) → Decidable (Timely D cfg e)
  | .settle i x => inferInstanceAs (Decidable (∀ th ∈ cfg.threads.lookup i,
      TimelyWrite cfg.shared (Elsewhere ((controlCalls D).phases cfg) i)
        ((controlCalls D).phaseOf th).left th.op x))
  | .start _ _ | .resume _ | .env _ => .isTrue trivial

/-- The hot state of every device is fresh, unless a call has still to update it. -/
def HotFresh (D : Deployment) (cfg : Config cpSig Call Response Backend Nat) : Prop :=
  ∀ k, ¬ Pending ((controlCalls D).phases cfg) k → cfg.shared.FreshAt k

/-! ## The newest stored position -/

theorem latest_insert_of_ne (t : PositionTable) {p : Position} {k : String × String}
    (h : p.key ≠ k) : (t.insert p).latest k.1 k.2 = t.latest k.1 k.2 := by
  have hof : ¬ p.row.Of k.1 k.2 := fun hof => h (Prod.ext hof.1 hof.2)
  unfold PositionTable.insert
  split
  case isTrue => rfl
  case isFalse => simp [PositionTable.latest, List.filter_append, hof]

/-- Storing positions of other devices does not change which position is the newest. -/
theorem latest_insertMany_of_ne (t : PositionTable) {ps : List Position} {k : String × String}
    (h : ∀ p ∈ ps, p.key ≠ k) : (t.insertMany ps).latest k.1 k.2 = t.latest k.1 k.2 := by
  induction ps generalizing t with
  | nil => rfl
  | cons p ps ih =>
    have hrest := ih (t.insert p) fun p' hp' => h p' (List.mem_cons_of_mem p hp')
    rw [← latest_insert_of_ne t (h p List.mem_cons_self)]
    exact hrest

/-! ## The newest positions of a batch -/

/-- What is collected over a batch: for each device with positions one of them. -/
structure Batch.Keyed (b : Batch) : Prop where
  entries : ∀ e ∈ b.latestPerDevice.entries, e.1 = e.2.deviceId ∧ e.2 ∈ b.toInsert
  devices : ∀ p ∈ b.toInsert, p.deviceId ∈ b.latestPerDevice.keys

theorem Batch.keyed_empty : Batch.empty.Keyed where
  entries e he := by cases he
  devices p hp := by cases hp

theorem Batch.Keyed.push {b : Batch} (h : b.Keyed) (pos : Position) : (b.push pos).Keyed := by
  have hold : ∀ e ∈ b.latestPerDevice.entries, e.1 = e.2.deviceId ∧ e.2 ∈ (b.push pos).toInsert :=
    fun e he => ⟨(h.entries e he).1, List.mem_append_left _ (h.entries e he).2⟩
  by_cases hnew : (b.latestPerDevice.get pos.deviceId).all (fun prev => prev.ts < pos.ts) = true
  · have hmap : (b.push pos).latestPerDevice = b.latestPerDevice.set pos.deviceId pos := if_pos hnew
    refine ⟨fun e he => ?_, fun p hp => ?_⟩
    · rw [hmap] at he
      rcases JsMap.mem_entries_of_set he with rfl | he
      · exact ⟨rfl, List.mem_append_right _ List.mem_cons_self⟩
      · exact hold e he
    · rw [hmap, JsMap.keys_set]
      rcases List.mem_append.mp hp with hp | hp
      · have hkey := h.devices p hp
        split
        · exact hkey
        · exact List.mem_append_left _ hkey
      · rw [List.mem_singleton.mp hp]
        split
        · assumption
        · exact List.mem_append_right _ List.mem_cons_self
  · have hmap : (b.push pos).latestPerDevice = b.latestPerDevice := if_neg hnew
    refine ⟨fun e he => hold e (hmap ▸ he), fun p hp => ?_⟩
    rw [hmap]
    rcases List.mem_append.mp hp with hp | hp
    · exact h.devices p hp
    · -- only a device that is known already keeps its position
      rw [List.mem_singleton.mp hp]
      by_contra hkey
      rw [← JsMap.get_eq_none] at hkey
      simp [hkey] at hnew

theorem Batch.keyed_collected (ps : List Position) : (ps.foldl Batch.push Batch.empty).Keyed := by
  suffices h : ∀ b : Batch, b.Keyed → (ps.foldl Batch.push b).Keyed from h _ Batch.keyed_empty
  induction ps with
  | nil => exact fun b hb => hb
  | cons p ps ih => exact fun b hb => ih _ (hb.push p)

theorem toInsert_collected (ps : List Position) :
    (ps.foldl Batch.push Batch.empty).toInsert = ps := by
  suffices h : ∀ b : Batch, (ps.foldl Batch.push b).toInsert = b.toInsert ++ ps from h _
  induction ps with
  | nil => exact fun b => (List.append_nil _).symm
  | cons p ps ih =>
    intro b
    rw [List.foldl_cons, ih, Batch.push, List.append_assoc, List.singleton_append]

/-- No device has two positions among the newest ones. -/
theorem nodup_newestPerDevice (ps : List Position) :
    ((newestPerDevice ps).map Position.key).Nodup := by
  have hkeyed := Batch.keyed_collected ps
  have hids : ((newestPerDevice ps).map Position.deviceId).Nodup := by
    have hnodup := (ps.foldl Batch.push Batch.empty).latestPerDevice.nodup
    rw [newestPerDevice, List.map_map]
    rwa [List.map_congr_left fun e he => (hkeyed.entries e he).1] at hnodup
  apply List.Nodup.of_map Prod.snd
  rwa [List.map_map]

theorem mem_newestPerDevice {ps : List Position} {p : Position} (h : p ∈ newestPerDevice ps) :
    p ∈ ps := by
  obtain ⟨e, he, rfl⟩ := List.mem_map.mp h
  have hmem := ((Batch.keyed_collected ps).entries e he).2
  rwa [toInsert_collected] at hmem

/-- Every device with a position has one among the newest ones. -/
theorem exists_newestPerDevice {ps : List Position} {p : Position} (h : p ∈ ps) :
    ∃ q ∈ newestPerDevice ps, q ∈ ps ∧ q.deviceId = p.deviceId := by
  have hkeyed := Batch.keyed_collected ps
  have hkey := hkeyed.devices p (by rwa [toInsert_collected])
  obtain ⟨e, he, hid⟩ := List.mem_map.mp hkey
  obtain ⟨hdevice, hmem⟩ := hkeyed.entries e he
  rw [toInsert_collected] at hmem
  exact ⟨e.2, List.mem_map_of_mem he, hmem, hdevice.symm.trans hid⟩

/-! ## The invariant -/

/-- Tenant and id of a device of the table. -/
def Backend.IsDevice (s : Backend) (ref : String × String) : Prop :=
  ∃ d ∈ s.devices.rows, (d.tenantId, d.id) = ref

/-- The invariant: the consumer works on devices of the table, a batch writes the hot state of
a device once, and what no call is to update is fresh. -/
structure HotInv (s : Backend) (ph : Nat → Option (Call × CallPhase)) : Prop where
  cached : ∀ imei e, s.consumer.imeiCache.get imei = some e → ∀ ref ∈ e.ref, s.IsDevice ref
  known : ∀ i c refs, ph i = some (c, .gathering refs) → ∀ ref ∈ refs, s.IsDevice ref
  distinct : ∀ i c q, ph i = some (c, q) → (q.left.map Position.key).Nodup
  fresh : ∀ k, ¬ Pending ph k → s.FreshAt k

section Invariant

variable {D : Deployment} {s s' : Backend} {ph : Nat → Option (Call × CallPhase)} {i : Nat}
  {c : Call} {q q' : CallPhase} {k : String × String}

theorem isDevice_congr (h : s'.devices = s.devices) : s'.IsDevice k ↔ s.IsDevice k := by
  unfold Backend.IsDevice
  rw [h]

/-- The id determines the device. -/
theorem eq_of_isDevice {k' : String × String} (h : s.IsDevice k) (h' : s.IsDevice k')
    (hid : k.2 = k'.2) : k = k' := by
  obtain ⟨d, hd, rfl⟩ := h
  obtain ⟨d', hd', rfl⟩ := h'
  rw [Table.eq_of_key hd hd' hid]

theorem pending_iff (hi : ph i = some (c, q)) :
    Pending ph k ↔ k ∈ q.left.map Position.key ∨ Elsewhere ph i k := by
  constructor
  · rintro ⟨j, c', q', hj, hk⟩
    by_cases hji : j = i
    · rw [hji, hi] at hj
      cases hj
      exact Or.inl hk
    · exact Or.inr ⟨j, c', q', hji, hj, hk⟩
  · rintro (hk | ⟨j, c', q', -, hj, hk⟩)
    · exact ⟨i, c, q, hi, hk⟩
    · exact ⟨j, c', q', hj, hk⟩

theorem elsewhere_update {x : Option (Call × CallPhase)} :
    Elsewhere (Function.update ph i x) i k ↔ Elsewhere ph i k := by
  constructor
  · rintro ⟨j, c', q', hji, hj, hk⟩
    rw [Function.update_of_ne hji] at hj
    exact ⟨j, c', q', hji, hj, hk⟩
  · rintro ⟨j, c', q', hji, hj, hk⟩
    rw [← Function.update_of_ne hji x ph] at hj
    exact ⟨j, c', q', hji, hj, hk⟩

/-- What is to be updated after a step of call `i`. -/
theorem pending_update : Pending (Function.update ph i (some (c, q'))) k ↔
    k ∈ q'.left.map Position.key ∨ Elsewhere ph i k := by
  rw [pending_iff (Function.update_self ..), elsewhere_update]

theorem HotInv.fresh_of_call (h : HotInv s ph) (hi : ph i = some (c, q))
    (hk : k ∉ q.left.map Position.key) (helse : ¬ Elsewhere ph i k) : s.FreshAt k := by
  apply h.fresh
  rw [pending_iff hi]
  exact not_or.mpr ⟨hk, helse⟩

/-- A step of call `i`. -/
theorem HotInv.move (h : HotInv s ph) (hdevices : s'.devices = s.devices)
    (hcached : ∀ imei e, s'.consumer.imeiCache.get imei = some e → ∀ ref ∈ e.ref, s.IsDevice ref)
    (hknown : ∀ refs, q' = .gathering refs → ∀ ref ∈ refs, s.IsDevice ref)
    (hdistinct : (q'.left.map Position.key).Nodup)
    (hfresh : ∀ k, k ∉ q'.left.map Position.key → ¬ Elsewhere ph i k → s'.FreshAt k) :
    HotInv s' (Function.update ph i (some (c, q'))) where
  cached imei e he ref href := (isDevice_congr hdevices).mpr (hcached imei e he ref href)
  known j c' refs hj ref href := by
    apply (isDevice_congr hdevices).mpr
    rcases update_some_iff.mp hj with ⟨-, heq⟩ | ⟨-, hj⟩
    · exact hknown refs (Prod.mk.inj heq).2 ref href
    · exact h.known j c' refs hj ref href
  distinct j c' q'' hj := by
    rcases update_some_iff.mp hj with ⟨-, heq⟩ | ⟨-, hj⟩
    · rw [← (Prod.mk.inj heq).2]
      exact hdistinct
    · exact h.distinct j c' q'' hj
  fresh k hk := by
    rw [pending_update, not_or] at hk
    exact hfresh k hk.1 hk.2

/-! ## One operation -/

/-- The hot state and the stored positions are the same. -/
structure SameHot (s s' : Backend) : Prop where
  hot : s'.hot = s.hot
  positions : s'.positions = s.positions

theorem SameHot.freshAt (h : SameHot s s') : s'.FreshAt k ↔ s.FreshAt k := by
  rw [Backend.FreshAt, Backend.FreshAt, h.hot, h.positions]

/-- A request that writes positions. -/
def CpOp.Stores : CpOp → Prop
  | .hotSetLast _ | .positionsInsertMany _ => True
  | _ => False

theorem noteRead_sameHot (s : Backend) (n : Nat) (op : CpOp) : SameHot s (s.noteRead n op) := by
  cases op <;> exact ⟨rfl, rfl⟩

theorem settle_sameHot {op : CpOp} {x : Outcome} (n : Nat)
    (h : ¬ op.Stores ∨ x.takesEffect = false) : SameHot s (s.settle n op x).1 := by
  cases hx : x.takesEffect with
  | false => simpa [Backend.settle, hx] using noteRead_sameHot s n op
  | true =>
    have hop : ¬ op.Stores := h.resolve_right (by simp [hx])
    simp only [Backend.settle, hx]
    cases op with
    | hotSetLast p => exact absurd trivial hop
    | positionsInsertMany ps => exact absurd trivial hop
    | _ => exact ⟨rfl, rfl⟩

/-- What neither a request nor the note about it changes. -/
theorem settle_part {α : Type} {part : Backend → α}
    (hnote : ∀ s n op, part (Backend.noteRead s n op) = part s)
    (heffect : ∀ s op, part (Backend.effect s op) = part s) (s : Backend) (n : Nat) (op : CpOp)
    (x : Outcome) : part (s.settle n op x).1 = part s := by
  simp only [Backend.settle]
  split
  case isFalse => exact hnote s n op
  case isTrue => exact (heffect _ op).trans (hnote s n op)

/-- No request touches the memory of the consumer. -/
theorem settle_consumer (s : Backend) (n : Nat) (op : CpOp) (x : Outcome) :
    (s.settle n op x).1.consumer = s.consumer := by
  apply settle_part
  · intro s n op
    cases op <;> rfl
  · intro s op
    cases op <;> rfl

theorem act_sameHot (D : Deployment) (s : Backend) (a : CpAct) : SameHot s (s.act D a).1 := by
  cases a <;> exact ⟨rfl, rfl⟩

/-- The effect of a write to the hot state on the device it is about. -/
theorem freshAt_hotSetLast (p : Position) :
    (s.effect (.hotSetLast p)).FreshAt p.key ↔ s.positions.UpToDate p.key p := by
  simp only [Backend.FreshAt, Backend.effect]
  rw [show (p.tenantId, p.deviceId) = p.key from rfl, JsMap.get_set_self]
  simp

theorem freshAt_hotSetLast_of_ne {p : Position} (h : k ≠ p.key) :
    (s.effect (.hotSetLast p)).FreshAt k ↔ s.FreshAt k := by
  simp only [Backend.FreshAt, Backend.effect]
  rw [show (p.tenantId, p.deviceId) = p.key from rfl, JsMap.get_set_of_ne _ _ h]

/-- Storing positions of other devices. -/
theorem freshAt_insertMany_of_ne {ps : List Position} (h : ∀ p ∈ ps, p.key ≠ k) :
    (s.effect (.positionsInsertMany ps)).FreshAt k ↔ s.FreshAt k := by
  simp only [Backend.FreshAt, Backend.effect, PositionTable.UpToDate]
  rw [latest_insertMany_of_ne _ h]

/-- What is to be fresh after an operation of call `i` in phase `q`: of every device that neither
this call, now in phase `q'`, nor another one is still to update. -/
def FreshAfter (s' : Backend) (ph : Nat → Option (Call × CallPhase)) (i : Nat) (q' : CallPhase) :
    Prop :=
  ∀ k, k ∉ q'.left.map Position.key → ¬ Elsewhere ph i k → s'.FreshAt k

/-- An operation that stores nothing, of a call that has nothing less to update after it. -/
theorem freshAfter_same (h : HotInv s ph) (hi : ph i = some (c, q)) (hsame : SameHot s s')
    (hleft : q'.left = q.left) : FreshAfter s' ph i q' := by
  intro k hk helse
  rw [hleft] at hk
  exact hsame.freshAt.mpr (h.fresh_of_call hi hk helse)

/-- A write to the hot state that takes effect, of a call that is left with the positions `rest`. -/
theorem freshAfter_hotSetLast {p : Position} (h : HotInv s ph) (hi : ph i = some (c, q))
    (hself : p.key ∉ q'.left.map Position.key)
    (hothers : ∀ k ∈ q.left.map Position.key, k ≠ p.key →
      k ∈ q'.left.map Position.key ∨ (s.FreshAt k ∨ Elsewhere ph i k)) :
    FreshAfter (s.effect (.hotSetLast p)) ph i q' ↔
      s.positions.UpToDate p.key p ∨ Elsewhere ph i p.key := by
  constructor
  · intro hfresh
    by_cases helse : Elsewhere ph i p.key
    · exact Or.inr helse
    · exact Or.inl ((freshAt_hotSetLast p).mp (hfresh p.key hself helse))
  · intro htimely k hk helse
    by_cases hkey : k = p.key
    · subst hkey
      exact (freshAt_hotSetLast p).mpr (htimely.resolve_right helse)
    · apply (freshAt_hotSetLast_of_ne hkey).mpr
      by_cases hleft : k ∈ q.left.map Position.key
      · exact ((hothers k hleft hkey).resolve_left hk).resolve_right helse
      · exact h.fresh_of_call hi hleft helse

/-- An operation of a call to the read API. -/
theorem freshAfter_serve {v : ServePhase} {op : CpOp} {x : Outcome} {n : Nat} (h : HotInv s ph)
    (hi : ph i = some (c, .serve v)) (hmay : v.may op) :
    FreshAfter (s.settle n op x).1 ph i (.serve (v.next (.answered op (s.settle n op x).2))) ↔
      TimelyWrite s (Elsewhere ph i) [] op x := by
  have hsteady : ¬ op.Stores ∨ x.takesEffect = false → FreshAfter (s.settle n op x).1 ph i
      (.serve (v.next (.answered op (s.settle n op x).2))) :=
    fun hop => freshAfter_same h hi (settle_sameHot n hop) rfl
  cases op with
  | hotSetLast p =>
    have hwrite : FreshAfter (s.effect (.hotSetLast p)) ph i
        (.serve (v.next (.answered (.hotSetLast p) (s.settle n (.hotSetLast p) x).2))) ↔
        s.positions.UpToDate p.key p ∨ Elsewhere ph i p.key :=
      freshAfter_hotSetLast h hi (by simp [CallPhase.left]) (by simp [CallPhase.left])
    cases x with
    | resolves reply => exact hwrite
    | rejects e applied =>
      cases applied with
      | true => exact hwrite.trans (by simp [TimelyWrite])
      | false => exact iff_of_true (hsteady (Or.inr rfl)) (by simp [TimelyWrite])
  | positionsInsertMany ps => cases hmay
  | _ => exact iff_of_true (hsteady (Or.inl fun hop => hop)) trivial

/-- The devices of the positions that a batch stores are those it is to update after it. -/
theorem freshAfter_stored {ps : List Position} (h : HotInv s ph) (hi : ph i = some (c, q))
    (hleft : q.left = []) (hdevices : ∀ p ∈ ps, s.IsDevice p.key) :
    FreshAfter (s.effect (.positionsInsertMany ps)) ph i
      (.ingest (.writing (newestPerDevice ps))) := by
  intro k hk helse
  apply (freshAt_insertMany_of_ne ?_).mpr (h.fresh_of_call hi (by simp [hleft]) helse)
  intro p hp hkey
  obtain ⟨p', hnewest, hp', hid⟩ := exists_newestPerDevice hp
  have hsame : p'.key = k :=
    (eq_of_isDevice (hdevices p' hp') (hdevices p hp) hid).trans hkey
  exact hk (hsame ▸ List.mem_map_of_mem hnewest)

/-- A batch that was stored, but whose call does not go on to update the hot state. -/
theorem freshAfter_abandoned {ps : List Position} (h : HotInv s ph) (hi : ph i = some (c, q))
    (hleft : q.left = []) : FreshAfter (s.effect (.positionsInsertMany ps)) ph i (.ingest .over) ↔
      ∀ p ∈ ps, (s.effect (.positionsInsertMany ps)).FreshAt p.key ∨ Elsewhere ph i p.key := by
  constructor
  · intro hfresh p hp
    by_cases helse : Elsewhere ph i p.key
    · exact Or.inr helse
    · exact Or.inl (hfresh p.key (by simp [CallPhase.left]) helse)
  · intro htimely k hk helse
    by_cases hkey : ∃ p ∈ ps, p.key = k
    · obtain ⟨p, hp, rfl⟩ := hkey
      exact (htimely p hp).resolve_right helse
    · apply (freshAt_insertMany_of_ne fun p hp he => hkey ⟨p, hp, he⟩).mpr
      exact h.fresh_of_call hi (by simp [hleft]) helse

/-- An operation of a batch that is still collecting its positions. -/
theorem freshAfter_gathering {refs : List (String × String)} {op : CpOp} {x : Outcome} {n : Nat}
    (h : HotInv s ph) (hi : ph i = some (c, .gathering refs))
    (hmay : (IngestPhase.gathering refs).may op) :
    FreshAfter (s.settle n op x).1 ph i
        (.ingest ((IngestPhase.gathering refs).next (.answered op (s.settle n op x).2))) ↔
      TimelyWrite s (Elsewhere ph i) [] op x := by
  have hknown := h.known i c refs hi
  have hover : ∀ y : Backend, SameHot s y → FreshAfter y ph i (.ingest .over) :=
    fun y hsame => freshAfter_same h hi hsame rfl
  cases op with
  | hotSetLast p =>
    obtain ⟨rest, hrest⟩ := hmay
    cases hrest
  | positionsInsertMany ps =>
    obtain ⟨refs', href, hrefs⟩ := hmay
    cases href
    cases x with
    | resolves reply =>
      exact iff_of_true (freshAfter_stored h hi rfl fun p hp => hknown p.key (hrefs p hp)) trivial
    | rejects e applied =>
      cases applied with
      | true => exact freshAfter_abandoned h hi rfl
      | false => exact iff_of_true (hover s ⟨rfl, rfl⟩) trivial
  | _ =>
    -- nothing is stored, and there was nothing to update before
    refine iff_of_true (freshAfter_same h hi (settle_sameHot n (Or.inl fun hop => hop)) ?_) trivial
    cases hr : (s.settle n _ x).2 with
    | error e => rfl
    | ok a => first | rfl | (cases a <;> rfl)

/-- A call that stops without having updated the hot state. -/
theorem freshAfter_stopped (h : HotInv s ph) (hi : ph i = some (c, q)) :
    FreshAfter s ph i (.ingest .over) ↔ ∀ p ∈ q.left, s.FreshAt p.key ∨ Elsewhere ph i p.key := by
  constructor
  · intro hfresh p hp
    by_cases helse : Elsewhere ph i p.key
    · exact Or.inr helse
    · exact Or.inl (hfresh p.key (by simp [CallPhase.left]) helse)
  · intro htimely k hk helse
    by_cases hleft : k ∈ q.left.map Position.key
    · obtain ⟨p, hp, rfl⟩ := List.mem_map.mp hleft
      exact (htimely p hp).resolve_right helse
    · exact h.fresh_of_call hi hleft helse

/-- A call that stops after a write to the hot state that took effect. -/
theorem freshAfter_last {p : Position} {rest : List Position} (h : HotInv s ph)
    (hi : ph i = some (c, .ingest (.writing (p :: rest)))) :
    FreshAfter (s.effect (.hotSetLast p)) ph i (.ingest .over) ↔
      (s.positions.UpToDate p.key p ∨ Elsewhere ph i p.key) ∧
        ∀ q ∈ rest, s.FreshAt q.key ∨ Elsewhere ph i q.key := by
  -- the keys left are distinct, so this write speaks for p alone
  have hdistinct := h.distinct i c _ hi
  simp only [CallPhase.left, List.map_cons, List.nodup_cons] at hdistinct
  have hwrite : (∀ q ∈ rest, s.FreshAt q.key ∨ Elsewhere ph i q.key) →
      (FreshAfter (s.effect (.hotSetLast p)) ph i (.ingest .over) ↔
        s.positions.UpToDate p.key p ∨ Elsewhere ph i p.key) := by
    intro hrest
    apply freshAfter_hotSetLast h hi (by simp [CallPhase.left])
    intro k hk hne
    obtain ⟨q, hq, rfl⟩ := List.mem_map.mp ((List.mem_cons.mp hk).resolve_left hne)
    exact Or.inr (hrest q hq)
  constructor
  · intro hfresh
    have hrest : ∀ q ∈ rest, s.FreshAt q.key ∨ Elsewhere ph i q.key := by
      intro q hq
      by_cases helse : Elsewhere ph i q.key
      · exact Or.inr helse
      · have hne : q.key ≠ p.key := fun he => hdistinct.1 (he ▸ List.mem_map_of_mem hq)
        have hq' := hfresh q.key (by simp [CallPhase.left]) helse
        exact Or.inl ((freshAt_hotSetLast_of_ne hne).mp hq')
    exact ⟨(hwrite hrest).mp hfresh, hrest⟩
  · intro htimely
    exact (hwrite htimely.2).mpr htimely.1

/-- A batch that updates the hot state writes the next position. -/
theorem freshAfter_writing {p : Position} {rest : List Position} {x : Outcome} {n : Nat}
    (h : HotInv s ph) (hi : ph i = some (c, .ingest (.writing (p :: rest)))) :
    FreshAfter (s.settle n (.hotSetLast p) x).1 ph i (.ingest ((IngestPhase.writing (p :: rest)).next
        (.answered (.hotSetLast p) (s.settle n (.hotSetLast p) x).2))) ↔
      TimelyWrite s (Elsewhere ph i) (p :: rest) (.hotSetLast p) x := by
  cases x with
  | resolves reply =>
    have hdistinct := h.distinct i c _ hi
    simp only [CallPhase.left, List.map_cons, List.nodup_cons] at hdistinct
    have hwrite : FreshAfter (s.effect (.hotSetLast p)) ph i (.ingest (.writing rest)) ↔
        s.positions.UpToDate p.key p ∨ Elsewhere ph i p.key := by
      apply freshAfter_hotSetLast h hi hdistinct.1
      intro k hk hne
      exact Or.inl ((List.mem_cons.mp hk).resolve_left hne)
    exact hwrite
  | rejects e applied =>
    cases applied with
    | true => exact freshAfter_last h hi
    | false => exact freshAfter_stopped h hi

/-- What a batch may await: it collects positions, or it writes the next one to the hot state. -/
theorem IngestPhase.may_cases {v : IngestPhase} {op : CpOp} (h : v.may op) :
    (∃ refs, v = .gathering refs) ∨ ∃ p rest, op = .hotSetLast p ∧ v = .writing (p :: rest) := by
  cases op with
  | hotSetLast p =>
    obtain ⟨rest, hv⟩ := h
    exact Or.inr ⟨p, rest, rfl, hv⟩
  | positionsInsertMany ps =>
    obtain ⟨refs, hv, -⟩ := h
    exact Or.inl ⟨refs, hv⟩
  | findByImei imei => exact Or.inl h
  | alertConfigGet tenantId => exact Or.inl h
  | geofencesList tenantId => exact Or.inl h
  | alertsInsertMany events => exact Or.inl h
  | tripsInsert trip => exact Or.inl h
  | _ => cases h

/-- **One operation**: after it everything is fresh that nobody is to update, exactly if it is
timely. -/
theorem freshAfter_settle {op : CpOp} {x : Outcome} {n : Nat} (h : HotInv s ph)
    (hi : ph i = some (c, q)) (hmay : (controlCalls D).may q op) :
    FreshAfter (s.settle n op x).1 ph i
        ((controlCalls D).next q (.answered op (s.settle n op x).2)) ↔
      TimelyWrite s (Elsewhere ph i) q.left op x := by
  cases q with
  | relay q =>
    have hop : ¬ op.Stores := by
      revert hmay
      cases op <;> simp [controlCalls, RelayPhase.may, CpOp.Stores]
    refine iff_of_true (freshAfter_same h hi (settle_sameHot n (Or.inl hop)) rfl) ?_
    cases op with
    | hotSetLast p => exact absurd trivial hop
    | positionsInsertMany ps => exact absurd trivial hop
    | _ => trivial
  | serve q => exact freshAfter_serve h hi hmay
  | ingest q =>
    rcases IngestPhase.may_cases hmay with ⟨refs, rfl⟩ | ⟨p, rest, rfl, rfl⟩
    · exact freshAfter_gathering h hi hmay
    · exact freshAfter_writing h hi

/-! ## The invariant of a run -/

/-- The devices a batch knows after one more answer are those it knew, or the one that was found. -/
theorem known_next {v : IngestPhase} {e : Seen cpSig} {refs : List (String × String)}
    (h : v.next e = .gathering refs) : v = .gathering refs ∨
      ∃ ref refs', refs = ref :: refs' ∧ v = .gathering refs' ∧
        ((∃ imei d, e = .answered (.findByImei imei) (.ok (some d)) ∧ ref = (d.tenantId, d.id)) ∨
          ∃ imei expiresAt, e = .did (.imeiCacheGet imei) (some ⟨some ref, expiresAt⟩)) := by
  unfold IngestPhase.next at h
  -- only the two ways to resolve a device add one: the look-up and the cache
  split at h
  case h_1 imei d =>
    cases v with
    | gathering refs' =>
      cases h
      exact Or.inr ⟨_, refs', rfl, rfl, Or.inl ⟨imei, d, rfl, rfl⟩⟩
    | writing rest => cases h
    | _ => cases h
  case h_2 imei ref expiresAt =>
    cases v with
    | gathering refs' =>
      cases h
      exact Or.inr ⟨ref, refs', rfl, rfl, Or.inr ⟨imei, expiresAt, rfl⟩⟩
    | writing rest => cases h
    | _ => cases h
  case h_3 => cases h
  case h_4 =>
    split at h
    · cases h
    · exact Or.inl h
  case h_5 => cases h
  case h_6 => exact Or.inl h

/-- A batch writes the hot state of a device once. -/
theorem distinct_next (e : Seen cpSig) (h : (q.left.map Position.key).Nodup) :
    (((controlCalls D).next q e).left.map Position.key).Nodup := by
  cases q with
  | relay q => exact List.nodup_nil
  | serve q => exact List.nodup_nil
  | ingest v =>
    show ((CallPhase.ingest (v.next e)).left.map Position.key).Nodup
    unfold IngestPhase.next
    split
    case h_1 =>
      cases v with
      | gathering refs => exact List.nodup_nil
      | writing rest => exact h
      | _ => exact h
    case h_2 =>
      cases v with
      | gathering refs => exact List.nodup_nil
      | writing rest => exact h
      | _ => exact h
    -- the insert leaves one position for each device
    case h_3 => exact nodup_newestPerDevice _
    case h_4 =>
      split
      case h_1 rest =>
        simp only [CallPhase.left, List.map_tail] at h ⊢
        -- each hot write takes the first away
        exact h.sublist (List.tail_sublist _)
      case h_2 => exact h
    case h_5 => exact List.nodup_nil
    case h_6 => exact h

/-- A call that is over has nothing left to write. -/
theorem left_of_done {r : Except ApiError Response} (h : (controlCalls D).done q r) :
    q.left = [] := by
  cases q with
  | relay q => rfl
  | serve q => rfl
  | ingest v =>
    cases v with
    | writing rest =>
      cases rest with
      | nil => rfl
      | cons p rest => exact absurd rfl (h p rest)
    | _ => rfl

theorem left_init (c : Call) : ((controlCalls D).init c).left = [] := by
  cases c <;> rfl

theorem left_did (a : CpAct) (r : a.Ret) : ((controlCalls D).next q (.did a r)).left = q.left := by
  cases q with
  | relay q => rfl
  | serve q => rfl
  | ingest v =>
    cases a with
    | imeiCacheGet imei =>
      rcases r with _ | ⟨_ | ref, expiresAt⟩
      · rfl
      · rfl
      · cases v <;> rfl
    | _ => rfl

/-- An action of a call. -/
theorem HotInv.act (h : HotInv s ph) (hi : ph i = some (c, q)) {a : CpAct}
    (hmay : (controlCalls D).mayAct q a) :
    HotInv (s.act D a).1
      (Function.update ph i (some (c, (controlCalls D).next q (.did a (s.act D a).2)))) := by
  have hleft : ((controlCalls D).next q (.did a (s.act D a).2)).left = q.left := left_did a _
  refine h.move (act_sameRelay D s a).devices ?_ ?_ ?_ ?_
  · -- only answers that were looked up are cached
    intro imei e he ref href
    cases a with
    | imeiCacheSet imei' entry =>
      have he' : (s.consumer.imeiCache.set imei' entry).get imei = some e := he
      by_cases himei : imei = imei'
      · rw [himei, JsMap.get_set_self] at he'
        cases he'
        cases q with
        | relay q => cases hmay
        | serve q => cases hmay
        | ingest v =>
          have hknows := hmay ref href
          cases v with
          | gathering refs => exact h.known i c refs hi ref hknows
          | writing rest => cases hknows
          | _ => cases hknows
      · rw [JsMap.get_set_of_ne _ _ himei] at he'
        exact h.cached imei e he' ref href
    | _ => exact h.cached imei e he ref href
  · intro refs hrefs ref href
    cases q with
    | relay q => cases hrefs
    | serve q => cases hrefs
    | ingest v =>
      rcases known_next (CallPhase.ingest.inj hrefs) with rfl | ⟨ref', refs', rfl, rfl, hnew⟩
      · exact h.known i c refs hi ref href
      · rcases List.mem_cons.mp href with rfl | href
        · rcases hnew with ⟨imei, d, he, -⟩ | ⟨imei, expiresAt, he⟩
          · cases he
          · cases a with
            | imeiCacheGet imei' =>
              have hhit : s.consumer.imeiCache.get imei' = some ⟨some ref, expiresAt⟩ :=
                eq_of_heq (Seen.did.inj he).2
              exact h.cached imei' _ hhit ref rfl
            | _ => cases he
        · exact h.known i c refs' hi ref href
  · rw [hleft]
    exact h.distinct i c q hi
  · exact freshAfter_same h hi (act_sameHot D s a) hleft

/-- A timely operation of a call. -/
theorem HotInv.settle {op : CpOp} {x : Outcome} (h : HotInv s ph) (hi : ph i = some (c, q))
    (hmay : (controlCalls D).may q op) (htimely : TimelyWrite s (Elsewhere ph i) q.left op x) :
    HotInv (s.settle i op x).1 (Function.update ph i
      (some (c, (controlCalls D).next q (.answered op (s.settle i op x).2)))) := by
  refine h.move (settle_devices ..) ?_ ?_ (distinct_next _ (h.distinct i c q hi))
    ((freshAfter_settle h hi hmay).mpr htimely)
  · rw [settle_consumer]
    exact h.cached
  · intro refs hrefs ref href
    cases q with
    | relay q => cases hrefs
    | serve q => cases hrefs
    | ingest v =>
      rcases known_next (CallPhase.ingest.inj hrefs) with rfl | ⟨ref', refs', rfl, rfl, hnew⟩
      · exact h.known i c refs hi ref href
      · rcases List.mem_cons.mp href with rfl | href
        · rcases hnew with ⟨imei, d, he, rfl⟩ | ⟨imei, expiresAt, he⟩
          · generalize hr : (s.settle i op x).2 = r at he
            cases he
            obtain ⟨-, reply, hfound⟩ := settle_ok hr
            exact ⟨d, List.mem_of_find?_eq_some hfound.symm, rfl⟩
          · cases he
        · exact h.known i c refs' hi ref href

/-- A key that expires. -/
theorem freshAt_env (e : EnvMove) (h : s.FreshAt k) : (s.env e).FreshAt k := by
  cases e with
  | elapse ms => exact h
  | expire tenantId deviceId =>
    intro p hp
    by_cases hkey : k = (tenantId, deviceId)
    · simp [Backend.env, hkey] at hp
    · simp only [Backend.env] at hp
      rw [JsMap.get_delete_of_ne _ hkey] at hp
      exact h p hp

theorem hotInv_preserves :
    Preserves (controlPlane D) (controlCalls D) (Timely D) HotInv where
  code c := serve_conforms c
  start cfg i c h hnone hok := by
    have hphase : (controlCalls D).phases cfg i = none := by
      simp [phases, hnone]
    refine h.move rfl h.cached ?_ ?_ ?_
    · intro refs hrefs ref href
      cases c with
      | immobilizer user deviceId req => cases hrefs
      | latest user deviceId => cases hrefs
      | process batch =>
        cases hrefs
        cases href
    · rw [left_init]
      exact List.nodup_nil
    · intro k hk helse
      apply h.fresh
      rintro ⟨j, c', q', hj, hkq⟩
      refine helse ⟨j, c', q', ?_, hj, hkq⟩
      rintro rfl
      rw [hphase] at hj
      cases hj
  act s ph i c q a h hi hmay := h.act hi hmay
  settle cfg i th x s' r h hth hmay hok hs := by
    cases hs
    exact h.settle (phases_of_lookup hth) hmay (hok th hth)
  finish s ph i c q r h hi hdone := by
    have hleft := left_of_done hdone
    refine ⟨h.cached, fun j c' refs hj => h.known j c' refs (update_none_iff.mp hj).2,
      fun j c' q' hj => h.distinct j c' q' (update_none_iff.mp hj).2, fun k hk => h.fresh k ?_⟩
    -- a call that is over leaves nothing pending, so what is stale is another's
    rw [pending_iff hi, hleft]
    rintro (hnil | ⟨j, c', q', hji, hj, hkq⟩)
    · cases hnil
    · exact hk ⟨j, c', q', update_none_iff.mpr ⟨hji, hj⟩, hkq⟩
  env cfg e s' h hok hs := by
    cases hs
    have hdevices := (env_sameRelay cfg.shared e).devices
    refine ⟨fun imei en hen ref href => (isDevice_congr hdevices).mpr ?_,
      fun i c refs hi ref href => (isDevice_congr hdevices).mpr (h.known i c refs hi ref href),
      h.distinct, fun k hk => freshAt_env e (h.fresh k hk)⟩
    cases e with
    | elapse ms => exact h.cached imei en hen ref href
    | expire tenantId deviceId => exact h.cached imei en hen ref href

end Invariant

/-! ## Runs -/

section Runs

variable {D : Deployment}

/-- The state and the calls in progress after an operation has taken effect. -/
theorem phases_of_settle {cfg cfg' : Config cpSig Call Response Backend Nat} {i : Nat} {x : Outcome}
    {th : Thread cpSig Call Response} (hth : cfg.threads.lookup i = some th)
    (hs : (controlPlane D).step cfg (.settle i x) = some cfg') :
    cfg'.shared = (cfg.shared.settle i th.op x).1 ∧
      (controlCalls D).phases cfg' = Function.update ((controlCalls D).phases cfg) i
        (some (th.call, (controlCalls D).next ((controlCalls D).phaseOf th)
          (.answered th.op (cfg.shared.settle i th.op x).2))) := by
  obtain ⟨c, past, op, k, reply⟩ := th
  cases reply with
  | some r =>
    simp only [System.step, hth] at hs
    cases hs
  | none =>
    simp only [System.step, hth, controlPlane, Option.some.injEq] at hs
    subst hs
    refine ⟨rfl, ?_⟩
    rw [phases_insert, phaseOf, phaseOf_snoc]
    rfl

/-- A timely step is what keeps the hot state fresh. -/
theorem timely_of_hotFresh {cfg cfg' : Config cpSig Call Response Backend Nat}
    {e : Event Call Outcome EnvMove Nat} (hgood : Good (controlCalls D) HotInv cfg)
    (hs : (controlPlane D).step cfg e = some cfg') (hfresh : HotFresh D cfg') :
    Timely D cfg e := by
  cases e with
  | start i c => trivial
  | resume i => trivial
  | env e => trivial
  | settle i x =>
    intro th hth
    obtain ⟨hmay, -⟩ := may_of_settle hgood.2 hth hs
    obtain ⟨hshared, hphases⟩ := phases_of_settle hth hs
    have hi := phases_of_lookup (T := controlCalls D) hth
    apply (freshAfter_settle (n := i) hgood.1 hi hmay).mp
    intro k hk helse
    rw [← hshared]
    apply hfresh k
    rw [hphases]
    exact fun hpending => (pending_update.mp hpending).elim hk helse

/-- **The hot state is fresh exactly if its writes are timely.** However batches, reads of the last
position and calls to the immobilizer are interleaved at their awaits, and whichever of their
requests fail: all along the way the hot state of every device whose update is not still to come
has the time of its newest stored position, if and only if every step is timely. -/
theorem hot_fresh_iff {s₀ : Backend}
    (hcached : ∀ imei e, s₀.consumer.imeiCache.get imei = some e → ∀ ref ∈ e.ref, s₀.IsDevice ref)
    (hfresh : ∀ k, s₀.FreshAt k) {es : List (Event Call Outcome EnvMove Nat)}
    {cfg : Config cpSig Call Response Backend Nat}
    (hrun : Run (controlPlane D).step (fun _ _ => True) (Config.start s₀) es cfg) :
    Always (controlPlane D).step (fun _ _ => True) (Config.start s₀) es (HotFresh D) ↔
      Run (controlPlane D).step (Timely D) (Config.start s₀) es cfg := by
  have hinit : HotInv s₀ fun _ => none := by
    refine ⟨hcached, fun i c refs hi => ?_, fun i c q hi => ?_, fun k _ => hfresh k⟩
    · cases hi
    · cases hi
  exact hotInv_preserves.always_iff hinit (fun _ hgood => hgood.1.fresh)
    (fun _ _ _ hgood _ hs hP => timely_of_hotFresh hgood hs hP) hrun

/-- A message with a position. -/
def messageOf (imei ts : String) (speedKph : ℚ) : TelemetryMessage where
  imei := imei
  data := .record
    { imei, ts, latitude := 19, longitude := -81, altitude := 0, heading := 0
      speedKph, satellites := 8, fields := JsMap.empty, attrs := [] }

/-- A message with a position of the sample device. -/
def positionAt (ts : String) (speedKph : ℚ) : TelemetryMessage :=
  messageOf "356307042441013" ts speedKph

/-- Call `i` goes on over `n` awaits. -/
def goOn {κ η : Type} (i n : Nat) : List (Event κ Outcome η Nat) :=
  (List.replicate n [.settle i (.resolves ""), .resume i]).flatten

/-- A batch is processed. Its entry in the hot state expires, a read finds none and reads the
stored position; then the next batch is stored. The read and the batch both update the hot
state, the batch last (`early`) or the read. -/
def rewarming (early : Bool) : List (Event Call Outcome EnvMove Nat) :=
  ([.start 0 (.process [positionAt "2026-07-24T10:00:00.000Z" 0])] ++ goOn 0 5 ++
    [.env (.expire "t1" "d1"), .start 1 (.latest sampleAdmin "d1")] ++ goOn 1 3 ++
    [.start 2 (.process [positionAt "2026-07-24T10:00:05.000Z" 90])]) ++
    if early then goOn 2 1 ++ goOn 1 1 ++ goOn 2 1 else goOn 2 2 ++ goOn 1 1

theorem rewarming_fresh : ∃ cfg,
    Run (controlPlane sampleDeployment).step (Timely sampleDeployment)
      (Config.start sampleBackend) (rewarming true) cfg ∧
    (cfg.shared.hot.get ("t1", "d1")).any (fun p => p.ts = "2026-07-24T10:00:05.000Z") = true := by
  apply Run.exists_of_any
  decide +kernel

theorem rewarming_always_fresh : ∃ cfg,
    Run (controlPlane sampleDeployment).step (fun _ _ => True) (Config.start sampleBackend)
      (rewarming true) cfg ∧
    Always (controlPlane sampleDeployment).step (fun _ _ => True) (Config.start sampleBackend)
      (rewarming true) (HotFresh sampleDeployment) := by
  obtain ⟨cfg, htimely, -⟩ := rewarming_fresh
  have hrun : Run (controlPlane sampleDeployment).step (fun _ _ => True) _ (rewarming true) cfg :=
    htimely.mono fun _ _ _ => trivial
  refine ⟨cfg, hrun, (hot_fresh_iff ?_ ?_ hrun).mpr htimely⟩
  · intro imei e he
    cases he
  · intro k p hp
    cases hp

/-- The read that comes last puts the older position back, and nobody is to correct it. -/
theorem rewarming_overtakes : ∃ cfg,
    Run (controlPlane sampleDeployment).step (fun _ _ => True) (Config.start sampleBackend)
      (rewarming false) cfg ∧ ¬ HotFresh sampleDeployment cfg := by
  have hrun : ∃ cfg, Run (controlPlane sampleDeployment).step (fun _ _ => True)
      (Config.start sampleBackend) (rewarming false) cfg ∧
      (cfg.threads.keys = [] ∧ ¬ cfg.shared.FreshAt ("t1", "d1")) := by
    apply Run.exists_of_any
    decide +kernel
  obtain ⟨cfg, hrun, hkeys, hstale⟩ := hrun
  refine ⟨cfg, hrun, fun hfresh => hstale (hfresh _ ?_)⟩
  rintro ⟨i, c, q, hi, -⟩
  rw [phases, lookup_of_keys hkeys i] at hi
  cases hi

end Runs

end FleetTracking.ControlPlane
