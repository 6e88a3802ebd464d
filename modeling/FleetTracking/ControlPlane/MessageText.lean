import FleetTracking.ControlPlane.OneDevice
import FleetTracking.Lib.Completion
import FleetTracking.Lib.Json

/-!
# Batches of Arbitrary Texts

The data of a message is any text. The consumer catches the error of `JSON.parse`, but not those of
the use of what it returns.

1. `recordOf`, `payloadOf`: what becomes of a text.
2. `collect`: what a batch inserts, or the error that ends it.
3. `process_ends`: `process` does that.
4. `unspoiled_iff`: when a bad message does not spoil a batch.
-/

namespace FleetTracking.ControlPlane

open Async

/-! ## Texts -/

/-- A message as it stands in the stream. -/
structure RawMessage where
  imei : String
  data : String

/-- A value that has the shape of a normalized record. -/
def recordOf (v : Json) : Option Normalized := do
  let field := fun name => (v.property name).join
  let imei ← (field "imei").bind Json.asStr
  let ts ← (field "ts").bind Json.asStr
  let latitude ← (field "latitude").bind Json.asNum
  let longitude ← (field "longitude").bind Json.asNum
  let altitude ← (field "altitude").bind Json.asNum
  let heading ← (field "heading").bind Json.asNum
  let speedKph ← (field "speedKph").bind Json.asNum
  let satellites ← (field "satellites").bind Json.asNum
  let fields ← (field "fields").bind Json.asNumbers
  -- `n.attrs ?? {}`
  let attrs ←
    match field "attrs" with
    | none | some .null => some []
    | some attrs => attrs.asNumbers
  pure
    { imei, ts, latitude, longitude, altitude, heading, speedKph, satellites, attrs
      fields := fields.foldl (fun m e => m.set e.1 e.2) JsMap.empty }

/-- What `n.fields.ignition` throws, if it throws. -/
def fieldsError (v : Json) : Option String :=
  match v.property "fields" with
  | none => some "Cannot read properties of null (reading 'fields')"
  | some none => some "Cannot read properties of undefined (reading 'ignition')"
  | some (some .null) => some "Cannot read properties of null (reading 'ignition')"
  | some (some _) => none

/-- What becomes of a value that is no record although its `fields` can be read: a position with
whatever its properties are converted to, or the error of a conversion. -/
abbrev Coercion := Json → Except String Normalized

/-- What `process` finds in a text. -/
def payloadOf (coerce : Coercion) (text : String) : Payload :=
  match Json.parse text with
  | none => .invalid
  | some v =>
    match recordOf v with
    | some n => .record n
    | none =>
      match fieldsError v with
      | some message => .malformed message
      | none =>
        match coerce v with
        | .ok n => .record n
        | .error message => .malformed message

def RawMessage.message (coerce : Coercion) (msg : RawMessage) : TelemetryMessage :=
  ⟨msg.imei, payloadOf coerce msg.data⟩

/-! ## What a batch inserts -/

/-- Tenant and id of the live device with an IMEI: from the cache while it is fresh. -/
def Backend.resolves (s : Backend) (imei : String) : Option (String × String) :=
  match (s.consumer.imeiCache.get imei).filter fun e => s.now < e.expiresAt with
  | some e => e.ref
  | none => (s.devices.findByImei imei).map fun d => (d.tenantId, d.id)

/-- The positions of a batch in order, or the error of the first message that throws. -/
def collect (s : Backend) : List TelemetryMessage → Except String (List Position)
  | [] => .ok []
  | msg :: rest =>
    match s.resolves msg.imei with
    | none => collect s rest
    | some (tenantId, deviceId) =>
      match msg.data with
      | .invalid => collect s rest
      | .malformed message => .error message
      | .record n => (toPosition tenantId deviceId n :: ·) <$> collect s rest

/-- The backend, and the positions that were passed to `insertMany`. -/
structure Recorded where
  backend : Backend
  inserted : List Position

/-- Ghost: the positions of an insert. -/
def CpOp.inserts : CpOp → List Position
  | .positionsInsertMany ps => ps
  | _ => []

/-- The consumer, whose calls run from start to end. -/
def recording (D : Deployment) : World cpSig Nat Unit Recorded Outcome where
  settle i _ op x s :=
    let out := s.backend.settle i op x
    some (⟨out.1, s.inserted ++ op.inserts⟩, out.2)
  act _ _ a s :=
    let out := s.backend.act D a
    (⟨out.1, s.inserted⟩, out.2)

section Process

variable {D : Deployment} {s : Recorded}

/-- Where a call is over if no repository fails. -/
abbrev Recorded.Ends {α : Type} (D : Deployment) (Q : Except ApiError α → Recorded → Prop)
    (x : Cp α) (s : Recorded) : Prop :=
  (recording D).Ends 0 () (fun x => x.isOk = true) Q x s

/-- Nothing was inserted, and IMEIs resolve as before. -/
structure Quiet (s s' : Recorded) : Prop where
  inserted : s'.inserted = s.inserted
  resolves : ∀ imei, s'.backend.resolves imei = s.backend.resolves imei

theorem Quiet.refl (s : Recorded) : Quiet s s := ⟨rfl, fun _ => rfl⟩

theorem Quiet.trans {s₁ s₂ s₃ : Recorded} (h : Quiet s₁ s₂) (h' : Quiet s₂ s₃) : Quiet s₁ s₃ :=
  ⟨h'.inserted.trans h.inserted, fun imei => (h'.resolves imei).trans (h.resolves imei)⟩

/-- What resolving an IMEI depends on. -/
theorem resolves_congr {b b' : Backend} (hcache : b'.consumer.imeiCache = b.consumer.imeiCache)
    (hnow : b'.now = b.now) (hdevices : b'.devices = b.devices) (imei : String) :
    b'.resolves imei = b.resolves imei := by
  simp only [Backend.resolves, hcache, hnow, hdevices]

/-- A request that resolves. -/
theorem ends_request {op : CpOp} {Q : Except ApiError op.Res → Recorded → Prop}
    (h : ∀ reply, Q (.ok ((s.backend.noteRead 0 op).answer reply op))
      ⟨(s.backend.noteRead 0 op).effect op, s.inserted ++ op.inserts⟩) :
    Recorded.Ends D Q (request op) s := by
  apply ends_perform.mpr
  intro x hx out hout
  obtain rfl := Option.some.inj hout
  cases x with
  | resolves reply => exact h reply
  | rejects e applied => cases hx

/-- The call returns, inserts nothing, and IMEIs resolve as before. -/
def Quietly {α : Type} (s : Recorded) (r : Except ApiError α) (s' : Recorded) : Prop :=
  (∃ a, r = .ok a) ∧ Quiet s s'

/-- One quiet part after the other. -/
theorem Quietly.bind {α β : Type} {x : Cp α} {f : α → Cp β}
    (hx : Recorded.Ends D (Quietly s) x s)
    (hf : ∀ a s', Quiet s s' → Recorded.Ends D (Quietly s') (f a) s') :
    Recorded.Ends D (Quietly s) (x >>= f) s := by
  apply Ends.bind hx
  · intro a s' h
    apply Ends.mono (hf a s' h.2)
    exact fun r s'' h' => ⟨h'.1, h.2.trans h'.2⟩
  · intro e s' h
    obtain ⟨⟨a, ha⟩, -⟩ := h
    cases ha

/-- A request that leaves alone what resolving an IMEI depends on. -/
theorem quiet_request {op : CpOp} (hop : op.inserts = [])
    (hcache : ((s.backend.noteRead 0 op).effect op).consumer.imeiCache =
      s.backend.consumer.imeiCache)
    (hnow : ((s.backend.noteRead 0 op).effect op).now = s.backend.now)
    (hdevices : ((s.backend.noteRead 0 op).effect op).devices = s.backend.devices) :
    Recorded.Ends D (Quietly s) (request op) s := by
  apply ends_request
  intro reply
  refine ⟨⟨_, rfl⟩, ?_, resolves_congr hcache hnow hdevices⟩
  rw [hop, List.append_nil]

/-- A step made at once that leaves it alone. -/
theorem quiet_step {a : CpAct}
    (hcache : (s.backend.act D a).1.consumer.imeiCache = s.backend.consumer.imeiCache)
    (hnow : (s.backend.act D a).1.now = s.backend.now)
    (hdevices : (s.backend.act D a).1.devices = s.backend.devices) :
    Recorded.Ends D (Quietly s) (step a) s :=
  ⟨⟨_, rfl⟩, rfl, resolves_congr hcache hnow hdevices⟩

theorem quiet_pure {α : Type} (a : α) : Recorded.Ends D (Quietly s) (pure a : Cp α) s :=
  ⟨⟨a, rfl⟩, .refl s⟩

/-! ## The parts of `process` -/

/-- **One lookup**: what the IMEI resolves to is returned, and from then on found in the cache. -/
theorem resolveDevice_ends (imei : String) :
    Recorded.Ends D (fun r s' => r = .ok (s.backend.resolves imei) ∧ Quiet s s')
      (resolveDevice imei) s := by
  unfold resolveDevice
  show (recording D).Ends 0 () _ _ (match (s.backend.consumer.imeiCache.get imei).filter
    fun e => s.backend.now < e.expiresAt with
    | some e => pure e.ref
    | none => _) s
  cases hfresh : (s.backend.consumer.imeiCache.get imei).filter
    fun e => s.backend.now < e.expiresAt with
  | some e =>
    refine ⟨?_, .refl s⟩
    simp only [Backend.resolves, hfresh]
  | none =>
    apply ends_bind.mpr
    apply ends_request
    intro reply
    have hresolves : s.backend.resolves imei =
        (s.backend.devices.findByImei imei).map fun d => (d.tenantId, d.id) := by
      simp only [Backend.resolves, hfresh]
    refine ⟨congrArg Except.ok hresolves.symm, List.append_nil _, fun other => ?_⟩
    by_cases hother : other = imei
    · -- the answer that was stored is fresh
      subst hother
      rw [hresolves]
      simp only [Backend.resolves, recording, Backend.act, Backend.answer, Backend.effect,
        Backend.noteRead, JsMap.get_set_self]
      rw [Option.filter_some, if_pos]
      apply decide_eq_true
      have hpos : ∀ found : Bool, 0 < if found then POSITIVE_CACHE_MS else NEGATIVE_CACHE_MS := by
        decide
      exact Nat.lt_add_of_pos_right (hpos _)
    · simp only [Backend.resolves, recording, Backend.act, Backend.effect, Backend.noteRead,
        JsMap.get_set_of_ne _ _ hother]
      rfl

/-- A look-up through a cache is quiet, if its parts are. -/
theorem throughCache_quiet {α : Type} {get : Cp (Option (Nat × α))} {load : Cp α}
    {set : Nat × α → Cp Unit} (hget : ∀ s, Recorded.Ends D (Quietly s) get s)
    (hload : ∀ s, Recorded.Ends D (Quietly s) load s)
    (hset : ∀ e s, Recorded.Ends D (Quietly s) (set e) s) :
    Recorded.Ends D (Quietly s) (throughCache get load set) s := by
  refine Quietly.bind (hget s) fun hit s₁ _ => ?_
  refine Quietly.bind (quiet_step rfl rfl rfl) fun now s₂ _ => ?_
  split
  · exact quiet_pure _
  · -- not in the cache, or too old
    refine Quietly.bind (hload s₂) fun value s₃ _ => ?_
    refine Quietly.bind (quiet_step rfl rfl rfl) fun now s₄ _ => ?_
    exact Quietly.bind (hset _ s₄) fun _ s₅ _ => quiet_pure _

theorem configFor_quiet (tenantId : String) :
    Recorded.Ends D (Quietly s) (configFor tenantId) s := by
  apply throughCache_quiet
  · exact fun s => quiet_step rfl rfl rfl
  · exact fun s => quiet_request rfl rfl rfl rfl
  · exact fun e s => quiet_step rfl rfl rfl

theorem geofencesFor_quiet (tenantId : String) :
    Recorded.Ends D (Quietly s) (geofencesFor tenantId) s := by
  apply throughCache_quiet
  · exact fun s => quiet_step rfl rfl rfl
  · exact fun s => quiet_request rfl rfl rfl rfl
  · exact fun e s => quiet_step rfl rfl rfl

theorem publishAlerts_quiet (alerts : List AlertEvent) :
    Recorded.Ends D (Quietly s) (publishAlerts alerts) s := by
  induction alerts generalizing s with
  | nil => exact quiet_pure _
  | cons a rest ih => exact Quietly.bind (quiet_step rfl rfl rfl) fun _ s₁ _ => ih

theorem storeAlerts_quiet (alertEvents : List AlertEvent) :
    Recorded.Ends D (Quietly s) (storeAlerts alertEvents) s := by
  unfold storeAlerts
  split
  · exact quiet_pure _
  · exact Quietly.bind (quiet_request rfl rfl rfl rfl) fun _ s₁ _ => publishAlerts_quiet alertEvents

theorem storeTrip_quiet (trip : Option Trip) :
    Recorded.Ends D (Quietly s) (storeTrip trip) s := by
  cases trip with
  | none => exact quiet_pure _
  | some trip => exact quiet_request rfl rfl rfl rfl

/-- The rules engine never fails on a position. -/
theorem runRules_quiet (now : Nat) (pos : Position) :
    Recorded.Ends D (Quietly s) (runRules now pos) s := by
  refine Quietly.bind (configFor_quiet _) fun config s₁ _ => ?_
  refine Quietly.bind (geofencesFor_quiet _) fun fences s₂ _ => ?_
  refine Quietly.bind (quiet_step rfl rfl rfl) fun alertEvents s₃ _ => ?_
  refine Quietly.bind (storeAlerts_quiet _) fun _ s₄ _ => ?_
  exact Quietly.bind (quiet_step rfl rfl rfl) fun trip s₅ _ => storeTrip_quiet trip

theorem setLatest_quiet (ps : List Position) :
    Recorded.Ends D (Quietly s) (setLatest ps) s := by
  induction ps generalizing s with
  | nil => exact quiet_pure _
  | cons p rest ih =>
    refine Quietly.bind (quiet_request rfl rfl rfl rfl) fun _ s₁ _ => ?_
    exact Quietly.bind (quiet_step rfl rfl rfl) fun _ s₂ _ => ih

/-! ## A batch -/

/-- What is collected does not depend on what has happened quietly. -/
theorem collect_congr {s' : Recorded} (h : Quiet s s') (msgs : List TelemetryMessage) :
    collect s'.backend msgs = collect s.backend msgs := by
  induction msgs with
  | nil => rfl
  | cons msg rest ih => rw [collect, collect, h.resolves, ih]

/-- How the loop over the messages ends. -/
def Gathers (s : Recorded) (msgs : List TelemetryMessage) (b : Batch) (r : Except ApiError Batch)
    (s' : Recorded) : Prop :=
  Quiet s s' ∧
    match collect s.backend msgs with
    | .ok ps => ∃ b', r = .ok b' ∧ b'.toInsert = b.toInsert ++ ps
    | .error message => r = .error (.error message)

/-- **The loop over the messages**: it gathers the positions in order, up to the first message that
throws. -/
theorem processMessages_ends (now : Nat) (msgs : List TelemetryMessage) (b : Batch) :
    Recorded.Ends D (Gathers s msgs b) (processMessages now msgs b) s := by
  induction msgs generalizing s b with
  | nil => exact ⟨.refl s, b, rfl, (List.append_nil _).symm⟩
  | cons msg rest ih =>
    apply Ends.bind (resolveDevice_ends msg.imei)
    · rintro ref s₁ ⟨href, hquiet⟩
      obtain rfl := Except.ok.inj href
      -- a message that adds nothing
      have hskip : collect s.backend (msg :: rest) = collect s.backend rest →
          Recorded.Ends D (Gathers s (msg :: rest) b) (processMessages now rest b) s₁ := by
        intro heq
        apply Ends.mono (ih b)
        rintro r s₂ ⟨hquiet', hgathers⟩
        refine ⟨hquiet.trans hquiet', ?_⟩
        rw [heq, ← collect_congr hquiet]
        exact hgathers
      cases hresolves : s.backend.resolves msg.imei with
      | none => exact hskip (by simp only [collect, hresolves])
      | some ref =>
        cases hdata : msg.data with
        | invalid => exact hskip (by simp only [collect, hresolves, hdata])
        | malformed message =>
          refine ⟨hquiet, ?_⟩
          simp only [collect, hresolves, hdata]
        | record n =>
          apply Ends.bind (runRules_quiet now (toPosition ref.1 ref.2 n))
          · rintro _ s₂ ⟨_, hquiet'⟩
            apply Ends.mono (ih (b.push (toPosition ref.1 ref.2 n)))
            rintro r s₃ ⟨hquiet'', hgathers⟩
            refine ⟨hquiet.trans (hquiet'.trans hquiet''), ?_⟩
            rw [collect_congr (hquiet.trans hquiet')] at hgathers
            simp only [collect, hresolves, hdata]
            cases hrest : collect s.backend rest with
            | ok ps =>
              rw [hrest] at hgathers
              obtain ⟨b', rfl, hinsert⟩ := hgathers
              exact ⟨b', rfl, by simpa [Batch.push] using hinsert⟩
            | error message =>
              rw [hrest] at hgathers
              exact hgathers
          · rintro e s₂ ⟨⟨_, ha⟩, _⟩
            cases ha
    · rintro e s₁ ⟨href, _⟩
      cases href

/-- How `process` ends. -/
def Processes (s : Recorded) (batch : List TelemetryMessage) (r : Except ApiError Unit)
    (s' : Recorded) : Prop :=
  match collect s.backend batch with
  | .ok ps => r = .ok () ∧ s'.inserted = s.inserted ++ ps
  | .error message => r = .error (.error message) ∧ s'.inserted = s.inserted

/-- **`process`**: if no message throws, the positions are inserted in order; otherwise nothing is
inserted. -/
theorem process_ends (batch : List TelemetryMessage) :
    Recorded.Ends D (Processes s batch) (process batch) s := by
  have hloop : Recorded.Ends D (Gathers s batch Batch.empty)
      (processMessages s.backend.now batch Batch.empty) s := processMessages_ends ..
  apply Ends.bind hloop
  · intro b s₁ ⟨hquiet, hgathers⟩
    -- the loop has gathered what collect computes, or thrown where it does
    cases hcollect : collect s.backend batch with
    | error message =>
      rw [hcollect] at hgathers
      cases hgathers
    | ok ps =>
      rw [hcollect] at hgathers
      obtain ⟨_, hb, hinsert⟩ := hgathers
      obtain rfl := Except.ok.inj hb
      rw [show Batch.empty.toInsert = [] from rfl, List.nil_append] at hinsert
      -- nothing is inserted for an empty batch, which changes nothing either
      have hstore : Recorded.Ends D (fun r s' => r = .ok () ∧ s'.inserted = s.inserted ++ ps)
          (storePositions b.toInsert) s₁ := by
        unfold storePositions
        split
        case isTrue hempty =>
          rw [hinsert, List.isEmpty_iff] at hempty
          exact ⟨rfl, by rw [hempty, List.append_nil, hquiet.inserted]⟩
        case isFalse =>
          apply ends_request
          intro reply
          exact ⟨rfl, by rw [hquiet.inserted, ← hinsert]; rfl⟩
      apply Ends.bind hstore
      · intro _ s₂ ⟨_, hinserted⟩
        apply Ends.mono (setLatest_quiet _)
        intro r s₃ ⟨⟨_, hr⟩, hquiet'⟩
        simp only [Processes, hcollect]
        exact ⟨hr, hquiet'.inserted.trans hinserted⟩
      · intro e s₂ ⟨he, _⟩
        cases he
  · intro e s₁ ⟨hquiet, hgathers⟩
    cases hcollect : collect s.backend batch with
    | error message =>
      rw [hcollect] at hgathers
      obtain rfl := Except.error.inj hgathers
      simp only [Processes, hcollect]
      exact ⟨trivial, hquiet.inserted⟩
    | ok ps =>
      rw [hcollect] at hgathers
      obtain ⟨_, hb, _⟩ := hgathers
      cases hb

end Process

/-! ## When a batch is not spoiled -/

/-- The position of a message whose IMEI resolves to a live device and whose data is the JSON of a
record. -/
def RawMessage.good (s : Backend) (msg : RawMessage) : Option Position := do
  let ref ← s.resolves msg.imei
  let v ← Json.parse msg.data
  let n ← recordOf v
  pure (toPosition ref.1 ref.2 n)

/-- `process` does not throw, and it inserts exactly one position for each such message, in order. -/
def Unspoiled (D : Deployment) (coerce : Coercion) (s : Backend) (batch : List RawMessage) : Prop :=
  ∀ ω : Nat → Outcome, (∀ n, (ω n).isOk = true) → ∃ n s',
    (recording D).exec 0 () ω (process (batch.map (RawMessage.message coerce))) 0 ⟨s, []⟩ =
      some (.ok (), n, s') ∧ s'.inserted = batch.filterMap (RawMessage.good s)

/-- The data of a message for a live device is no JSON at all, or the JSON of a record. -/
def RawMessage.Sound (s : Backend) (msg : RawMessage) : Prop :=
  (s.resolves msg.imei).isSome = true →
    ∀ v, Json.parse msg.data = some v → (recordOf v).isSome = true

section Exact

variable {D : Deployment} {coerce : Coercion} {s : Backend} {msg : RawMessage}
  {rest : List RawMessage} {ps : List Position}

/-- A sound message adds its position, if it is a good one. -/
theorem collect_sound (h : msg.Sound s)
    (hrest : collect s (rest.map (RawMessage.message coerce)) = .ok ps) :
    collect s ((msg :: rest).map (RawMessage.message coerce)) =
      .ok ((msg.good s).toList ++ ps) := by
  rw [List.map_cons, collect]
  simp only [RawMessage.message, payloadOf, RawMessage.good, Option.bind_eq_bind]
  cases hresolves : s.resolves msg.imei with
  | none => exact hrest
  | some ref =>
    cases hparse : Json.parse msg.data with
    | none => exact hrest
    | some v =>
      have hrecord := h (by rw [hresolves]; rfl) v hparse
      obtain ⟨n, hn⟩ := Option.isSome_iff_exists.mp hrecord
      simp only [hn, Option.bind_some]
      rw [hrest]
      rfl

/-- A message that is not sound is no good one; it throws, or it adds a position. -/
theorem collect_unsound (h : ¬ msg.Sound s)
    (hall : collect s ((msg :: rest).map (RawMessage.message coerce)) = .ok ps) :
    msg.good s = none ∧ ∃ pos ps', ps = pos :: ps' ∧
      collect s (rest.map (RawMessage.message coerce)) = .ok ps' := by
  simp only [RawMessage.Sound, not_forall] at h
  obtain ⟨hlive, v, hparse, hodd⟩ := h
  obtain ⟨ref, hresolves⟩ := Option.isSome_iff_exists.mp hlive
  have hrecord : recordOf v = none := Option.not_isSome_iff_eq_none.mp hodd
  -- an unsound message is good for nothing, yet the batch goes through, so it was given a position
  refine ⟨by simp [RawMessage.good, hresolves, hparse, hrecord], ?_⟩
  rw [List.map_cons, collect] at hall
  simp only [RawMessage.message, payloadOf, hresolves, hparse, hrecord] at hall
  -- whatever numbers it is coerced to, its position stands first
  have hadds : ∀ n, (toPosition ref.1 ref.2 n :: ·) <$>
      collect s (rest.map (RawMessage.message coerce)) = .ok ps → ∃ pos ps', ps = pos :: ps' ∧
        collect s (rest.map (RawMessage.message coerce)) = .ok ps' := by
    intro n hn
    cases hrest : collect s (rest.map (RawMessage.message coerce)) with
    | error message =>
      rw [hrest] at hn
      cases hn
    | ok ps' =>
      rw [hrest] at hn
      cases hn
      exact ⟨_, ps', rfl, rfl⟩
  cases hfields : fieldsError v with
  | some message =>
    simp only [hfields] at hall
    cases hall
  | none =>
    simp only [hfields] at hall
    cases hcoerce : coerce v with
    | error message =>
      simp only [hcoerce] at hall
      cases hall
    | ok n =>
      simp only [hcoerce] at hall
      exact hadds n hall

theorem filterMap_good (msg : RawMessage) (rest : List RawMessage) :
    (msg :: rest).filterMap (RawMessage.good s) =
      (msg.good s).toList ++ rest.filterMap (RawMessage.good s) := by
  rw [List.filterMap_cons]
  cases msg.good s with
  | none => rfl
  | some pos => rfl

/-- A batch is collected as far as the batch without its first message is. -/
theorem collect_rest (h : collect s ((msg :: rest).map (RawMessage.message coerce)) = .ok ps) :
    ∃ ps', collect s (rest.map (RawMessage.message coerce)) = .ok ps' := by
  by_cases hsound : msg.Sound s
  · cases hrest : collect s (rest.map (RawMessage.message coerce)) with
    | ok ps' => exact ⟨ps', rfl⟩
    | error message =>
      rw [List.map_cons, collect] at h
      split at h
      · cases hrest.symm.trans h
      · split at h
        · cases hrest.symm.trans h
        · cases h
        · rw [hrest] at h
          cases h
  · obtain ⟨-, pos, ps', -, hrest⟩ := collect_unsound hsound h
    exact ⟨ps', hrest⟩

/-- At least the good positions are collected. -/
theorem length_good_le {batch : List RawMessage}
    (h : collect s (batch.map (RawMessage.message coerce)) = .ok ps) :
    (batch.filterMap (RawMessage.good s)).length ≤ ps.length := by
  induction batch generalizing ps with
  | nil => exact Nat.zero_le _
  | cons msg rest ih =>
    rw [filterMap_good, List.length_append]
    by_cases hsound : msg.Sound s
    · obtain ⟨ps', hrest⟩ := collect_rest h
      obtain rfl := Except.ok.inj ((collect_sound hsound hrest).symm.trans h)
      rw [List.length_append]
      exact Nat.add_le_add_left (ih hrest) _
    · obtain ⟨hnone, pos, ps', rfl, hrest⟩ := collect_unsound hsound h
      rw [hnone, Option.toList_none, List.length_nil, Nat.zero_add, List.length_cons]
      exact Nat.le_succ_of_le (ih hrest)

/-- Exactly the good positions are collected if and only if all messages are sound. -/
theorem collect_good_iff {batch : List RawMessage} :
    collect s (batch.map (RawMessage.message coerce)) = .ok (batch.filterMap (RawMessage.good s)) ↔
      ∀ msg ∈ batch, msg.Sound s := by
  induction batch with
  | nil => simp [collect]
  | cons msg rest ih =>
    rw [filterMap_good, List.forall_mem_cons]
    by_cases hsound : msg.Sound s
    · rw [and_iff_right hsound, ← ih]
      constructor
      · intro h
        obtain ⟨ps', hrest⟩ := collect_rest h
        have hsame := Except.ok.inj ((collect_sound hsound hrest).symm.trans h)
        rw [hrest, List.append_cancel_left hsame]
      · exact fun hrest => collect_sound hsound hrest
    · refine iff_of_false (fun h => ?_) fun h => hsound h.1
      -- one position more is collected than there are good ones
      obtain ⟨hnone, pos, ps', heq, hrest⟩ := collect_unsound hsound h
      rw [hnone, Option.toList_none, List.nil_append] at heq
      have hle := length_good_le hrest
      rw [heq, List.length_cons] at hle
      omega

/-- **Bad messages in a batch**: for every batch of any texts, `process` returns and inserts exactly
one position for each good message if and only if no message for a live device has data that is JSON
but not a record. -/
theorem unspoiled_iff (D : Deployment) (coerce : Coercion) (s : Backend)
    (batch : List RawMessage) :
    Unspoiled D coerce s batch ↔ ∀ msg ∈ batch, msg.Sound s := by
  rw [← @collect_good_iff coerce]
  constructor
  · intro h
    obtain ⟨n, s', hexec, hinserted⟩ := h resolving fun _ => rfl
    have hends := Ends.of_exec (process_ends _) (fun _ => rfl) hexec
    unfold Processes at hends
    split at hends
    case h_1 ps hcollect =>
      rw [hcollect, ← hinserted, hends.2]
      rfl
    case h_2 => cases hends.1
  · intro hcollect ω hω
    obtain ⟨⟨r, n, s'⟩, hexec⟩ := exists_exec (recording D) 0 () ω (fun op x s => ⟨_, rfl⟩)
      (process (batch.map (RawMessage.message coerce))) 0 ⟨s, []⟩
    have hends := Ends.of_exec (process_ends _) hω hexec
    simp only [Processes, hcollect, List.nil_append] at hends
    obtain ⟨rfl, hinserted⟩ := hends
    exact ⟨n, s', hexec, hinserted⟩

/-- The data `null`, and then a position of the sample device. -/
def spoiledBatch : List RawMessage :=
  [⟨"356307042441013", "null"⟩,
    ⟨"356307042441013",
      "\x7b\"imei\":\"356307042441013\",\"ts\":\"2026-07-24T10:00:00.000Z\"," ++
      "\"latitude\":19.3,\"longitude\":-81.38,\"altitude\":12,\"heading\":90," ++
      "\"speedKph\":40,\"satellites\":9,\"fields\":\x7b\"ignition\":1\x7d,\"attrs\":\x7b\x7d\x7d"⟩]

/-- The whole batch is lost: `process` throws, and the good position is not inserted. -/
theorem null_spoils_batch : ∃ n s',
    (recording sampleDeployment).exec 0 () resolving
      (process (spoiledBatch.map (RawMessage.message fun _ => .error ""))) 0 ⟨sampleBackend, []⟩ =
        some (.error (.error "Cannot read properties of null (reading 'fields')"), n, s') ∧
    s'.inserted = [] ∧ (spoiledBatch.filterMap (RawMessage.good sampleBackend)).length = 1 := by
  have hcollect : collect sampleBackend
      (spoiledBatch.map (RawMessage.message fun _ => .error "")) =
        .error "Cannot read properties of null (reading 'fields')" := by
    rfl
  obtain ⟨⟨r, n, s'⟩, hexec⟩ := exists_exec (recording sampleDeployment) 0 () resolving
    (fun op x s => ⟨_, rfl⟩) (process (spoiledBatch.map (RawMessage.message fun _ => .error ""))) 0
    ⟨sampleBackend, []⟩
  have hends := Ends.of_exec (process_ends _) (fun _ => rfl) hexec
  simp only [Processes, hcollect] at hends
  obtain ⟨rfl, hinserted⟩ := hends
  exact ⟨n, s', hexec, hinserted, by decide +kernel⟩

end Exact

end FleetTracking.ControlPlane
