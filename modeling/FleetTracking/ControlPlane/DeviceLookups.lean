import FleetTracking.ControlPlane.HotState

/-!
# How Long a Device Lookup Stays Out of Date

The consumer attaches the positions of a tracker to the device that has its IMEI. It caches the
answer of the device repository, also the answer that there is no such device, and each answer
has its time to live. Between two lookups devices are provisioned, deleted and restored, and the
cached answer may be dropped.

1. `consumer`: batches at their awaits, while the devices change in whatever way.
2. `LookupPhase`, `lookups`: what a batch has looked up, and what it may store and cache.
3. `lookups_settle`: answers that have become wrong are not used by a batch that begins when the
   time to live is over.
4. `deleted_device_final`, `provisioned_device_found`: a deleted device gets no more positions
   after 30 s, a new one gets all of them after 10 s.
-/

namespace FleetTracking.ControlPlane

open Async Transition Typestate

/-! ## Batches while the devices change -/

/-- What happens to the consumer from outside. -/
inductive FleetMove where
  -- Time passes.
  | elapse (ms : Nat)
  -- Devices are created, updated, deleted or restored.
  | alter (devices : DeviceTable)
  -- `forgetImei`, which a delete or a restore calls at its end.
  | forget (imei : String)

def Backend.fleet (s : Backend) : FleetMove → Backend
  | .elapse ms => { s with now := s.now + ms }
  | .alter devices => { s with devices }
  | .forget imei => { s with consumer.imeiCache := s.consumer.imeiCache.delete imei }

/-- The telemetry consumer. -/
def consumer (D : Deployment) :
    System cpSig Nat (List TelemetryMessage) Unit Backend Outcome FleetMove where
  settle i _ op x s := some (s.settle i op x)
  act _ _ a s := s.act D a
  code := process
  env e s := some (s.fleet e)

/-- Tenant and id of a device. -/
def Device.ref (d : Device) : String × String := (d.tenantId, d.id)

/-- What a lookup of the IMEI answers now. -/
def Backend.owner (s : Backend) (imei : String) : Option (String × String) :=
  (s.devices.findByImei imei).map Device.ref

/-! ## What a batch has looked up -/

/-- The lookups of a batch. -/
structure LookupPhase where
  -- When the batch began.
  began : Option Nat := none
  -- The clock, as last read.
  clock : Option Nat := none
  -- What was found in the cache for an IMEI and not yet compared with the clock.
  hit : Option (String × ImeiEntry) := none
  -- What the repository has answered and the cache has not got yet.
  answer : Option (String × Option (String × String)) := none
  -- The IMEIs that were resolved, with the answers that were used.
  resolved : List (String × Option (String × String)) := []
  -- The devices with positions on which the rules engine was run.
  ruled : List (String × String) := []

namespace LookupPhase

/-- The cached answer is used while it lives. -/
def judge (q : LookupPhase) (now : Nat) : List (String × Option (String × String)) :=
  match q.hit with
  | some (imei, e) => if now < e.expiresAt then (imei, e.ref) :: q.resolved else q.resolved
  | none => q.resolved

/-- One more thing has been seen. -/
def next (q : LookupPhase) : Seen cpSig → LookupPhase
  | .did .now t =>
    { q with began := some (q.began.getD t), clock := some t, hit := none, resolved := q.judge t }
  | .did (.imeiCacheGet imei) (some e) => { q with hit := some (imei, e) }
  | .did (.imeiCacheSet _ _) _ => { q with answer := none }
  | .answered (.findByImei imei) (.ok d) =>
    { q with answer := some (imei, d.map Device.ref)
             resolved := (imei, d.map Device.ref) :: q.resolved }
  | .did (.evaluate pos _ _ _) _ => { q with ruled := pos.key :: q.ruled }
  | .did (.update pos) _ => { q with ruled := pos.key :: q.ruled }
  | _ => q

/-- The device is one that an IMEI was resolved to. -/
def Knows (q : LookupPhase) (ref : String × String) : Prop :=
  ∃ imei, (imei, some ref) ∈ q.resolved

/-- What a batch may await: the positions it stores are of devices it knows. -/
def may (q : LookupPhase) : CpOp → Prop
  | .positionsInsertMany ps => ∀ p ∈ ps, q.Knows p.key
  | _ => True

/-- What it may do at once: it caches what the repository has just answered, for the time to
live that goes with the answer, and runs the rules engine for devices it knows. -/
def mayAct (q : LookupPhase) : CpAct → Prop
  | .now => q.began = none → q.hit = none ∧ q.resolved = [] ∧ q.ruled = []
  | .imeiCacheSet imei e => q.answer = some (imei, e.ref) ∧ ∃ t, q.clock = some t ∧
      e.expiresAt = t + if e.ref.isSome then POSITIVE_CACHE_MS else NEGATIVE_CACHE_MS
  | .evaluate pos _ _ _ => q.Knows pos.key
  | .update pos => q.Knows pos.key
  | _ => True

end LookupPhase

/-- The typestate of the batches. -/
def lookups : Typestate cpSig (List TelemetryMessage) Unit where
  Phase := LookupPhase
  init _ := {}
  next := LookupPhase.next
  may := LookupPhase.may
  mayAct := LookupPhase.mayAct
  done _ _ := True

/-! ## A batch follows the typestate -/

section Conformance

variable {began : Nat} {resolved : List (String × Option (String × String))}

/-- A batch that began then and has used these answers, with no cache entry left to judge. -/
structure Using (began : Nat) (resolved : List (String × Option (String × String)))
    (q : LookupPhase) : Prop where
  began : q.began = some began
  hit : q.hit = none
  resolved : q.resolved = resolved

/-- Where a call ends that resolves nothing. -/
def KeepsUsing (began : Nat) (resolved : List (String × Option (String × String))) {α : Type}
    (q : LookupPhase) : Except ApiError α → Prop
  | .ok _ => Using began resolved q
  | .error _ => True

variable {q : LookupPhase}

theorem Using.mayNow (h : Using began resolved q) : q.mayAct .now := by
  intro hnone
  rw [h.began] at hnone
  cases hnone

theorem Using.now (h : Using began resolved q) (t : Nat) :
    Using began resolved (q.next (.did .now t)) where
  began := by simp [LookupPhase.next, h.began]
  hit := rfl
  resolved := by simp [LookupPhase.next, LookupPhase.judge, h.hit, h.resolved]

/-- An IMEI is resolved: the answer is among those used, and those before stay. -/
theorem resolveDevice_lookups (imei : String) (h : Using began resolved q) :
    lookups.Conforms (resolveDevice imei) q fun q' r =>
      match r with
      | .ok ref => ∃ resolved', Using began resolved' q' ∧ resolved ⊆ resolved' ∧
          (imei, ref) ∈ resolved'
      | .error _ => True := by
  refine Conforms.action_bind trivial fun hit => ?_
  refine Conforms.action_bind (fun hnone => ?_) fun now => ?_
  · -- the batch has begun
    cases hit <;> simp [lookups, LookupPhase.next, h.began] at hnone
  dsimp only
  split
  case h_1 e he =>
    obtain ⟨hhit, hlive⟩ := Option.filter_eq_some_iff.mp he
    subst hhit
    refine ⟨(imei, e.ref) :: resolved, ⟨?_, rfl, ?_⟩, List.subset_cons_self _ _, List.mem_cons_self⟩
    · simp [lookups, LookupPhase.next, h.began]
    · simp [lookups, LookupPhase.next, LookupPhase.judge, of_decide_eq_true hlive, h.resolved]
  case h_2 hmiss =>
    -- no entry, or one whose time is over
    have hmid : Using began resolved
        (lookups.next (lookups.next q (.did (.imeiCacheGet imei) hit)) (.did .now now)) := by
      cases hit with
      | none => exact h.now now
      | some e =>
        refine ⟨by simp [lookups, LookupPhase.next, h.began], rfl, ?_⟩
        have hdead : ¬ now < e.expiresAt := fun hlive => by
          simp [Option.filter, hlive] at hmiss
        simp [lookups, LookupPhase.next, LookupPhase.judge, hdead, h.resolved]
    revert hmid
    generalize lookups.next (lookups.next q (.did (.imeiCacheGet imei) hit)) (.did .now now) = q₁
    intro hmid
    refine Conforms.perform_bind trivial (fun device => ?_) fun e => trivial
    refine Conforms.action_bind (fun hnone => ?_) fun now => ?_
    · have hbegan : q₁.began = none := hnone
      rw [hmid.began] at hbegan
      cases hbegan
    refine Conforms.action_bind ⟨rfl, now, rfl, rfl⟩ fun _ => ?_
    refine ⟨(imei, device.map Device.ref) :: resolved, ⟨?_, rfl, ?_⟩, List.subset_cons_self _ _,
      List.mem_cons_self⟩
    · simp [lookups, LookupPhase.next, hmid.began]
    · simp [lookups, LookupPhase.next, LookupPhase.judge, hmid.hit, hmid.resolved]

theorem publishAlerts_lookups (alerts : List AlertEvent) (h : Using began resolved q) :
    lookups.Conforms (publishAlerts alerts) q (KeepsUsing began resolved) := by
  induction alerts with
  | nil => exact h
  | cons a rest ih => exact Conforms.action_bind trivial fun _ => ih

theorem storeAlerts_lookups (alertEvents : List AlertEvent) (h : Using began resolved q) :
    lookups.Conforms (storeAlerts alertEvents) q (KeepsUsing began resolved) := by
  unfold storeAlerts
  split
  case isTrue => exact h
  case isFalse =>
    exact Conforms.perform_bind trivial (fun _ => publishAlerts_lookups alertEvents h) fun e => trivial

theorem storeTrip_lookups (trip : Option Trip) (h : Using began resolved q) :
    lookups.Conforms (storeTrip trip) q (KeepsUsing began resolved) := by
  cases trip with
  | none => exact h
  | some trip => exact Conforms.perform_cases trivial (fun _ => h) fun e => trivial

/-- A part that resolves nothing, and what comes after it. -/
theorem bind_lookups {α β : Type} {x : Cp α} {f : α → Cp β}
    {post : LookupPhase → Except ApiError β → Prop}
    (hx : lookups.Conforms x q (KeepsUsing began resolved))
    (hok : ∀ q' a, Using began resolved q' → lookups.Conforms (f a) q' post)
    (herr : ∀ q' e, post q' (.error e)) : lookups.Conforms (x >>= f) q post :=
  Conforms.bind hx hok fun q' e _ => herr q' e

/-- A look-up through a cache resolves nothing, if its parts do not. -/
theorem throughCache_lookups {α : Type} {get : Cp (Option (Nat × α))} {load : Cp α}
    {set : Nat × α → Cp Unit} (h : Using began resolved q)
    (hget : ∀ q, Using began resolved q → lookups.Conforms get q (KeepsUsing began resolved))
    (hload : ∀ q, Using began resolved q → lookups.Conforms load q (KeepsUsing began resolved))
    (hset : ∀ e q, Using began resolved q →
      lookups.Conforms (set e) q (KeepsUsing began resolved)) :
    lookups.Conforms (throughCache get load set) q (KeepsUsing began resolved) := by
  refine bind_lookups (hget q h) (fun q₁ hit h₁ => ?_) fun _ _ => trivial
  refine Conforms.action_bind h₁.mayNow fun now => ?_
  have h₂ := h₁.now now
  split
  case h_1 => exact h₂
  case h_2 =>
    -- not in the cache, or too old
    refine bind_lookups (hload _ h₂) (fun q₃ value h₃ => ?_) fun _ _ => trivial
    refine Conforms.action_bind h₃.mayNow fun now => ?_
    exact bind_lookups (hset _ _ (h₃.now now)) (fun q₅ _ h₅ => h₅) fun _ _ => trivial

theorem configFor_lookups (tenantId : String) (h : Using began resolved q) :
    lookups.Conforms (configFor tenantId) q (KeepsUsing began resolved) := by
  apply throughCache_lookups h
  · exact fun q hq => conforms_action.mpr ⟨trivial, fun _ => hq⟩
  · exact fun q hq => Conforms.perform_cases trivial (fun _ => hq) fun e => trivial
  · exact fun e q hq => conforms_action.mpr ⟨trivial, fun _ => hq⟩

theorem geofencesFor_lookups (tenantId : String) (h : Using began resolved q) :
    lookups.Conforms (geofencesFor tenantId) q (KeepsUsing began resolved) := by
  apply throughCache_lookups h
  · exact fun q hq => conforms_action.mpr ⟨trivial, fun _ => hq⟩
  · exact fun q hq => Conforms.perform_cases trivial (fun _ => hq) fun e => trivial
  · exact fun e q hq => conforms_action.mpr ⟨trivial, fun _ => hq⟩

theorem runRules_lookups (now : Nat) (pos : Position) (h : Using began resolved q) {imei : String}
    (hpos : (imei, some pos.key) ∈ resolved) :
    lookups.Conforms (runRules now pos) q (KeepsUsing began resolved) := by
  have hknows : ∀ q', Using began resolved q' → q'.Knows pos.key :=
    fun q' h' => ⟨imei, h'.resolved ▸ hpos⟩
  refine bind_lookups (configFor_lookups _ h) (fun q₁ config h₁ => ?_) fun _ _ => trivial
  refine bind_lookups (geofencesFor_lookups _ h₁) (fun q₂ fences h₂ => ?_) fun _ _ => trivial
  refine Conforms.action_bind (hknows q₂ h₂) fun alertEvents => ?_
  have h₃ : Using began resolved (q₂.next (.did (.evaluate pos config fences now) alertEvents)) :=
    ⟨h₂.began, h₂.hit, h₂.resolved⟩
  refine bind_lookups (storeAlerts_lookups _ h₃) (fun q₄ _ h₄ => ?_) fun _ _ => trivial
  refine Conforms.action_bind (hknows q₄ h₄) fun trip => storeTrip_lookups trip ?_
  exact ⟨h₄.began, h₄.hit, h₄.resolved⟩

/-- Every position that is collected is of a device that was resolved. Induction on the messages
still to handle. -/
theorem processMessages_lookups (now : Nat) (msgs : List TelemetryMessage) (b : Batch)
    (h : Using began resolved q)
    (hb : ∀ p ∈ b.toInsert, ∃ imei, (imei, some p.key) ∈ resolved) :
    lookups.Conforms (processMessages now msgs b) q fun q' r =>
      match r with
      | .ok b' => ∃ resolved', Using began resolved' q' ∧
          ∀ p ∈ b'.toInsert, ∃ imei, (imei, some p.key) ∈ resolved'
      | .error _ => True := by
  -- what was resolved before stays resolved while the batch goes on
  induction msgs generalizing b q resolved with
  | nil => exact ⟨resolved, h, hb⟩
  | cons msg rest ih =>
    refine Conforms.bind (resolveDevice_lookups msg.imei h) ?_ fun _ _ _ => trivial
    rintro q₁ ref ⟨resolved₁, h₁, hsub, href⟩
    have hb₁ : ∀ p ∈ b.toInsert, ∃ imei, (imei, some p.key) ∈ resolved₁ := by
      intro p hp
      obtain ⟨imei, himei⟩ := hb p hp
      exact ⟨imei, hsub himei⟩
    rcases ref with _ | ⟨tenantId, deviceId⟩
    · exact ih b h₁ hb₁
    · dsimp only
      cases msg.data with
      | invalid => exact ih b h₁ hb₁
      | malformed message => exact trivial
      | record n =>
        refine bind_lookups (runRules_lookups _ _ h₁ href) (fun q₂ _ h₂ => ?_) fun _ _ => trivial
        refine ih _ h₂ fun p hp => ?_
        rcases List.mem_append.mp hp with hp | hp
        · exact hb₁ p hp
        · rw [List.mem_singleton] at hp
          subst hp
          exact ⟨msg.imei, href⟩

theorem setLatest_lookups (ps : List Position) :
    lookups.Conforms (setLatest ps) q fun _ _ => True := by
  induction ps generalizing q with
  | nil => trivial
  | cons p rest ih =>
    refine Conforms.perform_bind trivial (fun _ => ?_) fun e => trivial
    exact Conforms.action_bind trivial fun _ => ih

theorem process_lookups (batch : List TelemetryMessage) :
    lookups.Conforms (process batch) (lookups.init batch) lookups.done := by
  refine Conforms.action_bind (fun _ => ⟨rfl, rfl, rfl⟩) fun now => ?_
  have hstart : Using now [] (lookups.next (lookups.init batch) (.did .now now)) := ⟨rfl, rfl, rfl⟩
  refine Conforms.bind (processMessages_lookups now batch Batch.empty hstart fun p hp => by cases hp)
    ?_ fun _ _ _ => trivial
  rintro q b ⟨resolved, h, hb⟩
  unfold storePositions
  split
  case isTrue => exact setLatest_lookups _
  case isFalse =>
    refine Conforms.perform_bind (fun p hp => ?_) (fun _ => setLatest_lookups _) fun e => trivial
    obtain ⟨imei, himei⟩ := hb p hp
    exact ⟨imei, h.resolved ▸ himei⟩

end Conformance

/-! ## Answers that have become wrong -/

section Settling

variable {D : Deployment} {s s' : Backend} {i : Nat} {batch : List TelemetryMessage}
  {ph : Nat → Option (List TelemetryMessage × LookupPhase)} {q : LookupPhase}

/-- What is cached lives no longer than an answer of its kind may. -/
structure Cached (s : Backend) (ph : Nat → Option (List TelemetryMessage × LookupPhase)) :
    Prop where
  entries : ∀ imei e, s.consumer.imeiCache.get imei = some e →
    e.expiresAt ≤ s.now + if e.ref.isSome then POSITIVE_CACHE_MS else NEGATIVE_CACHE_MS
  clock : ∀ i batch q, ph i = some (batch, q) → ∀ t ∈ q.clock, t ≤ s.now
  began : ∀ i batch q, ph i = some (batch, q) → ∀ t ∈ q.began, t ≤ s.now

/-- Wrong answers are not given any more, and die out by `deadline`. -/
structure Settling (wrong : String → Option (String × String) → Prop) (deadline : Nat)
    (s : Backend) (ph : Nat → Option (List TelemetryMessage × LookupPhase)) : Prop where
  truth : ∀ imei, ¬ wrong imei (s.owner imei)
  entries : ∀ imei e, s.consumer.imeiCache.get imei = some e → wrong imei e.ref →
    e.expiresAt ≤ deadline
  hits : ∀ i batch q, ph i = some (batch, q) → ∀ x ∈ q.hit, wrong x.1 x.2.ref →
    x.2.expiresAt ≤ deadline
  answers : ∀ i batch q, ph i = some (batch, q) → ∀ x ∈ q.answer, ¬ wrong x.1 x.2
  began : ∀ i batch q, ph i = some (batch, q) → ∀ t ∈ q.began, t ≤ s.now
  resolved : ∀ i batch q, ph i = some (batch, q) → ∀ t ∈ q.began, deadline ≤ t →
    ∀ x ∈ q.resolved, ¬ wrong x.1 x.2
  ruled : ∀ i batch q, ph i = some (batch, q) → ∀ t ∈ q.began, deadline ≤ t →
    ∀ ref ∈ q.ruled, ∃ imei, ¬ wrong imei (some ref)

/-- No request moves the clock. -/
theorem settle_now (s : Backend) (n : Nat) (op : CpOp) (x : Outcome) :
    (s.settle n op x).1.now = s.now := by
  apply settle_part
  · intro s n op
    cases op <;> rfl
  · intro s op
    cases op <;> rfl

theorem owner_settle (s : Backend) (n : Nat) (op : CpOp) (x : Outcome) (imei : String) :
    (s.settle n op x).1.owner imei = s.owner imei := by
  rw [Backend.owner, settle_devices, Backend.owner]

theorem act_now (s : Backend) (a : CpAct) : (s.act D a).1.now = s.now := by
  cases a <;> rfl

theorem owner_act (s : Backend) (a : CpAct) (imei : String) :
    (s.act D a).1.owner imei = s.owner imei := by
  rw [Backend.owner, (act_sameRelay D s a).devices, Backend.owner]

/-- The entries of the cache after an action: those before, and the one that was written. -/
theorem entries_act {a : CpAct} {imei : String} {e : ImeiEntry}
    (h : (s.act D a).1.consumer.imeiCache.get imei = some e) :
    s.consumer.imeiCache.get imei = some e ∨ a = .imeiCacheSet imei e := by
  cases a with
  | imeiCacheSet imei' e' =>
    have hset : (s.consumer.imeiCache.set imei' e').get imei = some e := h
    by_cases himei : imei = imei'
    · rw [himei, JsMap.get_set_self] at hset
      cases hset
      exact Or.inr (himei ▸ rfl)
    · rw [JsMap.get_set_of_ne _ _ himei] at hset
      exact Or.inl hset
  | _ => exact Or.inl h

/-- An answer of the repository is noted; the other answers have nothing to do with lookups. -/
theorem LookupPhase.next_answered (q : LookupPhase) (op : CpOp) (r : Except ApiError op.Res) :
    q.next (.answered op r) = q ∨ ∃ imei d,
      (Seen.answered op r : Seen cpSig) = .answered (.findByImei imei) (.ok d) ∧
      q.next (.answered op r) = { q with
        answer := some (imei, d.map Device.ref)
        resolved := (imei, d.map Device.ref) :: q.resolved } := by
  cases op with
  | findByImei imei =>
    cases r with
    | ok d => exact Or.inr ⟨imei, d, rfl, rfl⟩
    | error e => exact Or.inl rfl
  | _ => exact Or.inl rfl

theorem Cached.settle {op : CpOp} {x : Outcome} (h : Cached s ph) (hi : ph i = some (batch, q)) :
    Cached (s.settle i op x).1 (Function.update ph i
      (some (batch, q.next (.answered op (s.settle i op x).2)))) := by
  have hsame : (q.next (.answered op (s.settle i op x).2)).clock = q.clock ∧
      (q.next (.answered op (s.settle i op x).2)).began = q.began := by
    rcases q.next_answered op (s.settle i op x).2 with he | ⟨imei, d, -, he⟩
    · rw [he]
      exact ⟨rfl, rfl⟩
    · rw [he]
      exact ⟨rfl, rfl⟩
  refine ⟨?_, fun j batch' q' hj => ?_, fun j batch' q' hj => ?_⟩
  · rw [settle_consumer, settle_now]
    exact h.entries
  · rw [settle_now]
    rcases update_some_iff.mp hj with ⟨-, heq⟩ | ⟨-, hj⟩
    · cases heq
      rw [hsame.1]
      exact h.clock i batch q hi
    · exact h.clock j batch' q' hj
  · rw [settle_now]
    rcases update_some_iff.mp hj with ⟨-, heq⟩ | ⟨-, hj⟩
    · cases heq
      rw [hsame.2]
      exact h.began i batch q hi
    · exact h.began j batch' q' hj

/-- After an action the clock of the batch is that of the server, if it is not the old one. -/
theorem clock_did (a : CpAct) (h : ∀ t ∈ q.clock, t ≤ s.now) :
    ∀ t ∈ (q.next (.did a (s.act D a).2)).clock, t ≤ s.now := by
  cases a with
  | now =>
    intro t ht
    cases ht
    exact le_rfl
  | imeiCacheGet imei => cases hget : (s.act D (.imeiCacheGet imei)).2 <;> exact h
  | _ => exact h

/-- A batch began when it did, or has just begun. -/
theorem began_did (a : CpAct) (h : ∀ t ∈ q.began, t ≤ s.now) :
    ∀ t ∈ (q.next (.did a (s.act D a).2)).began, t ≤ s.now := by
  cases a with
  | now =>
    intro t ht
    cases hq : q.began with
    | none =>
      simp only [LookupPhase.next, hq, Backend.act, Option.getD_none, Option.mem_def,
        Option.some.injEq] at ht
      exact ht.ge
    | some b =>
      simp only [LookupPhase.next, hq, Option.getD_some, Option.mem_def, Option.some.injEq] at ht
      rw [← ht]
      exact h b hq
  | imeiCacheGet imei => cases hget : (s.act D (.imeiCacheGet imei)).2 <;> exact h
  | _ => exact h

theorem Cached.act {a : CpAct} (h : Cached s ph) (hi : ph i = some (batch, q))
    (hmay : q.mayAct a) : Cached (s.act D a).1
      (Function.update ph i (some (batch, q.next (.did a (s.act D a).2)))) := by
  have hclock : ∀ t ∈ (q.next (.did a (s.act D a).2)).clock, t ≤ s.now :=
    clock_did a (h.clock i batch q hi)
  have hbegan : ∀ t ∈ (q.next (.did a (s.act D a).2)).began, t ≤ s.now :=
    began_did a (h.began i batch q hi)
  refine ⟨fun imei e he => ?_, fun j batch' q' hj => ?_, fun j batch' q' hj => ?_⟩
  · rw [act_now]
    rcases entries_act he with hold | rfl
    · exact h.entries imei e hold
    · obtain ⟨-, t, ht, hexpires⟩ := hmay
      rw [hexpires]
      have hle := h.clock i batch q hi t ht
      omega
  · rw [act_now]
    rcases update_some_iff.mp hj with ⟨-, heq⟩ | ⟨-, hj⟩
    · cases heq
      exact hclock
    · exact h.clock j batch' q' hj
  · rw [act_now]
    rcases update_some_iff.mp hj with ⟨-, heq⟩ | ⟨-, hj⟩
    · cases heq
      exact hbegan
    · exact h.began j batch' q' hj

theorem cached_preserves :
    Preserves (consumer D) lookups (fun _ _ => True) Cached where
  code := process_lookups
  start cfg i c h hnone hok := by
    refine ⟨h.entries, fun j batch' q' hj t ht => ?_, fun j batch' q' hj t ht => ?_⟩
    · rcases update_some_iff.mp hj with ⟨-, heq⟩ | ⟨-, hj⟩
      · cases heq
        cases ht
      · exact h.clock j batch' q' hj t ht
    · rcases update_some_iff.mp hj with ⟨-, heq⟩ | ⟨-, hj⟩
      · cases heq
        cases ht
      · exact h.began j batch' q' hj t ht
  act s ph i c q a h hi hmay := h.act hi hmay
  settle cfg i th x s' r h hth hmay hok hs := by
    cases hs
    exact h.settle (phases_of_lookup hth)
  finish s ph i c q r h hi hdone :=
    ⟨h.entries, fun j batch' q' hj => h.clock j batch' q' (update_none_iff.mp hj).2,
      fun j batch' q' hj => h.began j batch' q' (update_none_iff.mp hj).2⟩
  env cfg e s' h hok hs := by
    cases hs
    cases e with
    | elapse ms =>
      -- time only goes on, and the bounds are lower bounds on it
      refine ⟨fun imei en hen => (h.entries imei en hen).trans ?_,
        fun i b q hi t ht => (h.clock i b q hi t ht).trans (Nat.le_add_right _ _),
        fun i b q hi t ht => (h.began i b q hi t ht).trans (Nat.le_add_right _ _)⟩
      simp only [Backend.fleet]
      omega
    | alter devices => exact ⟨h.entries, h.clock, h.began⟩
    | forget imei =>
      refine ⟨fun imei' en hen => h.entries imei' en ?_, h.clock, h.began⟩
      by_cases himei : imei' = imei
      · simp [Backend.fleet, himei] at hen
      · simp only [Backend.fleet] at hen
        rwa [JsMap.get_delete_of_ne _ himei] at hen

variable {wrong : String → Option (String × String) → Prop} {deadline : Nat}

/-- A step of one batch. -/
theorem Settling.move {q' : LookupPhase} (h : Settling wrong deadline s ph)
    (hnow : s'.now = s.now) (howner : ∀ imei, s'.owner imei = s.owner imei)
    (hentries : ∀ imei e, s'.consumer.imeiCache.get imei = some e → wrong imei e.ref →
      e.expiresAt ≤ deadline)
    (hhits : ∀ x ∈ q'.hit, wrong x.1 x.2.ref → x.2.expiresAt ≤ deadline)
    (hanswers : ∀ x ∈ q'.answer, ¬ wrong x.1 x.2) (hbegan : ∀ t ∈ q'.began, t ≤ s.now)
    (hresolved : ∀ t ∈ q'.began, deadline ≤ t → ∀ x ∈ q'.resolved, ¬ wrong x.1 x.2)
    (hruled : ∀ t ∈ q'.began, deadline ≤ t → ∀ ref ∈ q'.ruled, ∃ imei, ¬ wrong imei (some ref)) :
    Settling wrong deadline s' (Function.update ph i (some (batch, q'))) where
  -- every other field splits alike: the batch that moved, and the rest
  truth imei := howner imei ▸ h.truth imei
  entries := hentries
  hits j batch' q'' hj := by
    rcases update_some_iff.mp hj with ⟨-, heq⟩ | ⟨-, hj⟩
    · cases heq
      exact hhits
    · exact h.hits j batch' q'' hj
  answers j batch' q'' hj := by
    rcases update_some_iff.mp hj with ⟨-, heq⟩ | ⟨-, hj⟩
    · cases heq
      exact hanswers
    · exact h.answers j batch' q'' hj
  began j batch' q'' hj := by
    rw [hnow]
    rcases update_some_iff.mp hj with ⟨-, heq⟩ | ⟨-, hj⟩
    · cases heq
      exact hbegan
    · exact h.began j batch' q'' hj
  resolved j batch' q'' hj := by
    rcases update_some_iff.mp hj with ⟨-, heq⟩ | ⟨-, hj⟩
    · cases heq
      exact hresolved
    · exact h.resolved j batch' q'' hj
  ruled j batch' q'' hj := by
    rcases update_some_iff.mp hj with ⟨-, heq⟩ | ⟨-, hj⟩
    · cases heq
      exact hruled
    · exact h.ruled j batch' q'' hj

/-- An operation takes effect: the repository does not give wrong answers. -/
theorem Settling.settle {op : CpOp} {x : Outcome} (h : Settling wrong deadline s ph)
    (hi : ph i = some (batch, q)) : Settling wrong deadline (s.settle i op x).1
      (Function.update ph i (some (batch, q.next (.answered op (s.settle i op x).2)))) := by
  have hentries : ∀ imei e, (s.settle i op x).1.consumer.imeiCache.get imei = some e →
      wrong imei e.ref → e.expiresAt ≤ deadline := by
    rw [settle_consumer]
    exact h.entries
  rcases q.next_answered op (s.settle i op x).2 with he | ⟨imei, d, hop, he⟩
  · rw [he]
    exact h.move (settle_now ..) (owner_settle s i op x) hentries (h.hits i batch q hi)
      (h.answers i batch q hi) (h.began i batch q hi) (h.resolved i batch q hi)
      (h.ruled i batch q hi)
  · rw [he]
    -- the answer is that of the table as it stands
    have hright : ¬ wrong imei (d.map Device.ref) := by
      generalize hr : (s.settle i op x).2 = r at hop
      cases hop
      obtain ⟨-, reply, hanswer⟩ := settle_ok hr
      rw [hanswer]
      exact h.truth imei
    refine h.move (settle_now ..) (owner_settle s i op x) hentries (h.hits i batch q hi) ?_
      (h.began i batch q hi) ?_ (h.ruled i batch q hi)
    · intro y hy
      cases hy
      exact hright
    · intro t ht hlate y hy
      rcases List.mem_cons.mp hy with rfl | hy
      · exact hright
      · exact h.resolved i batch q hi t ht hlate y hy

/-- A wrong entry that a batch compares with the clock is not used once the deadline is over. -/
theorem judge_right (h : Settling wrong deadline s ph) (hi : ph i = some (batch, q))
    (hmay : q.began = none → q.hit = none ∧ q.resolved = [] ∧ q.ruled = [])
    (hlate : deadline ≤ q.began.getD s.now) : ∀ x ∈ q.judge s.now, ¬ wrong x.1 x.2 := by
  -- a batch that begins late looks at the cache later still
  have hnow : deadline ≤ s.now := by
    cases hq : q.began with
    | none => simpa [hq] using hlate
    | some b =>
      rw [hq] at hlate
      exact hlate.trans (h.began i batch q hi b hq)
  have hold : ∀ x ∈ q.resolved, ¬ wrong x.1 x.2 := by
    cases hq : q.began with
    | none =>
      rw [(hmay hq).2.1]
      intro x hx
      cases hx
    | some b =>
      rw [hq] at hlate
      exact h.resolved i batch q hi b hq hlate
  intro x hx
  unfold LookupPhase.judge at hx
  split at hx
  case h_1 imei e he =>
    split at hx
    case isTrue hlive =>
      rcases List.mem_cons.mp hx with rfl | hx
      · intro hwrong
        -- a wrong entry has run out by the deadline, and this one is alive
        have hdead : e.expiresAt ≤ deadline := h.hits i batch q hi (imei, e) he hwrong
        omega
      · exact hold x hx
    case isFalse => exact hold x hx
  case h_2 => exact hold x hx

theorem Settling.act {a : CpAct} (h : Settling wrong deadline s ph) (hi : ph i = some (batch, q))
    (hmay : q.mayAct a) : Settling wrong deadline (s.act D a).1
      (Function.update ph i (some (batch, q.next (.did a (s.act D a).2)))) := by
  have hentries : ∀ imei e, (s.act D a).1.consumer.imeiCache.get imei = some e →
      wrong imei e.ref → e.expiresAt ≤ deadline := by
    intro imei e he hwrong
    rcases entries_act he with hold | rfl
    · exact h.entries imei e hold hwrong
    · exact absurd hwrong (h.answers i batch q hi _ hmay.1)
  have hkeep : q.next (.did a (s.act D a).2) = q → Settling wrong deadline (s.act D a).1
      (Function.update ph i (some (batch, q.next (.did a (s.act D a).2)))) := by
    intro he
    rw [he]
    exact h.move (act_now s a) (owner_act s a) hentries (h.hits i batch q hi)
      (h.answers i batch q hi) (h.began i batch q hi) (h.resolved i batch q hi)
      (h.ruled i batch q hi)
  -- a batch that began late only knows devices it was right about
  have hknown : ∀ ref, q.Knows ref → (∀ t ∈ q.began, deadline ≤ t →
      ∀ ref' ∈ ref :: q.ruled, ∃ imei, ¬ wrong imei (some ref')) := by
    intro ref hknows t ht hlate ref' href
    rcases List.mem_cons.mp href with rfl | href
    · obtain ⟨imei, hmem⟩ := hknows
      exact ⟨imei, h.resolved i batch q hi t ht hlate _ hmem⟩
    · exact h.ruled i batch q hi t ht hlate ref' href
  have hbegan : ∀ t ∈ (q.next (.did a (s.act D a).2)).began, t ≤ s.now :=
    began_did a (h.began i batch q hi)
  cases a with
  | now =>
    refine h.move rfl (fun _ => rfl) hentries ?_ (h.answers i batch q hi) hbegan ?_ ?_
    · intro x hx
      cases hx
    · intro t ht hlate
      cases ht
      exact judge_right h hi hmay hlate
    · intro t ht hlate
      cases ht
      cases hq : q.began with
      | none =>
        have hnone : q.ruled = [] := (hmay hq).2.2
        intro ref href
        change ref ∈ q.ruled at href
        rw [hnone] at href
        cases href
      | some b =>
        rw [hq] at hlate
        exact h.ruled i batch q hi b hq hlate
  | imeiCacheGet imei =>
    have hresult : (s.act D (.imeiCacheGet imei)).2 = s.consumer.imeiCache.get imei := rfl
    cases hget : s.consumer.imeiCache.get imei with
    | none => exact hkeep (by rw [hresult, hget]; rfl)
    | some e =>
      rw [hresult, hget]
      refine h.move rfl (fun _ => rfl) hentries ?_ (h.answers i batch q hi) (h.began i batch q hi)
        (h.resolved i batch q hi) (h.ruled i batch q hi)
      intro x hx hwrong
      cases hx
      exact h.entries imei e hget hwrong
  | imeiCacheSet imei e =>
    refine h.move rfl (fun _ => rfl) hentries (h.hits i batch q hi) ?_ (h.began i batch q hi)
      (h.resolved i batch q hi) (h.ruled i batch q hi)
    intro x hx
    cases hx
  | evaluate pos config fences nowMs =>
    exact h.move rfl (fun _ => rfl) hentries (h.hits i batch q hi) (h.answers i batch q hi)
      (h.began i batch q hi) (h.resolved i batch q hi) (hknown pos.key hmay)
  | update pos =>
    exact h.move rfl (fun _ => rfl) hentries (h.hits i batch q hi) (h.answers i batch q hi)
      (h.began i batch q hi) (h.resolved i batch q hi) (hknown pos.key hmay)
  | _ => exact hkeep rfl

/-- Devices only change so that wrong answers stay wrong. -/
def StaysWrong (wrong : String → Option (String × String) → Prop)
    (_ : Config cpSig (List TelemetryMessage) Unit Backend Nat) :
    Event (List TelemetryMessage) Outcome FleetMove Nat → Prop
  | .env (.alter devices) => ∀ imei, ¬ wrong imei ((devices.findByImei imei).map Device.ref)
  | _ => True

theorem settling_preserves : Preserves (consumer D) lookups (StaysWrong wrong)
    (Settling wrong deadline) where
  code := process_lookups
  start cfg i c h hnone hok := by
    refine h.move rfl (fun _ => rfl) h.entries ?_ ?_ ?_ ?_ ?_
    all_goals
      intro x hx
      cases hx
  act s ph i c q a h hi hmay := h.act hi hmay
  settle cfg i th x s' r h hth hmay hok hs := by
    cases hs
    exact h.settle (phases_of_lookup hth)
  finish s ph i c q r h hi hdone :=
    ⟨h.truth, h.entries, fun j batch q hj => h.hits j batch q (update_none_iff.mp hj).2,
      fun j batch q hj => h.answers j batch q (update_none_iff.mp hj).2,
      fun j batch q hj => h.began j batch q (update_none_iff.mp hj).2,
      fun j batch q hj => h.resolved j batch q (update_none_iff.mp hj).2,
      fun j batch q hj => h.ruled j batch q (update_none_iff.mp hj).2⟩
  env cfg e s' h hok hs := by
    cases hs
    cases e with
    | elapse ms =>
      exact ⟨h.truth, h.entries, h.hits, h.answers,
        fun i b q hi t ht => (h.began i b q hi t ht).trans (Nat.le_add_right _ _), h.resolved, h.ruled⟩
    | alter devices => exact ⟨hok, h.entries, h.hits, h.answers, h.began, h.resolved, h.ruled⟩
    | forget imei =>
      refine ⟨h.truth, fun imei' en hen => h.entries imei' en ?_, h.hits, h.answers, h.began,
        h.resolved, h.ruled⟩
      by_cases himei : imei' = imei
      · simp [Backend.fleet, himei] at hen
      · simp only [Backend.fleet] at hen
        rwa [JsMap.get_delete_of_ne _ himei] at hen

end Settling

/-! ## Runs -/

section Runs

variable {D : Deployment} {s₀ : Backend}
  {es₁ es₂ : List (Event (List TelemetryMessage) Outcome FleetMove Nat)}
  {cfg₁ cfg₂ : Config cpSig (List TelemetryMessage) Unit Backend Nat}
  {wrong : String → Option (String × String) → Prop} {deadline : Nat}

/-- No batch is about to use, or to cache, a wrong answer that it has read already. -/
def NoWrongAnswer (wrong : String → Option (String × String) → Prop)
    (cfg : Config cpSig (List TelemetryMessage) Unit Backend Nat) : Prop :=
  ∀ i th, cfg.threads.lookup i = some th →
    (∀ x ∈ (lookups.phaseOf th).hit, ¬ wrong x.1 x.2.ref) ∧
      ∀ x ∈ (lookups.phaseOf th).answer, ¬ wrong x.1 x.2

/-- The time that was read first. -/
def firstClock : List (Seen cpSig) → Option Nat
  | .did .now t :: _ => some t
  | _ => none

/-- When a batch began: its first step is to read the clock. -/
abbrev BeganAt (th : Thread cpSig (List TelemetryMessage) Unit) (t : Nat) : Prop :=
  firstClock th.past = some t

/-- What the phase of a batch says about when it began. -/
theorem began_of_beganAt {th : Thread cpSig (List TelemetryMessage) Unit} {t : Nat}
    (h : BeganAt th t) : (lookups.phaseOf th).began = some t := by
  have hkeep : ∀ (past : List (Seen cpSig)) (q : LookupPhase), q.began = some t →
      (past.foldl LookupPhase.next q).began = some t := by
    intro past
    induction past with
    | nil => exact fun q hq => hq
    | cons e past ih =>
      refine fun q hq => ih _ ?_
      unfold LookupPhase.next
      split
      case h_1 => simp [hq]
      all_goals exact hq
  unfold BeganAt firstClock at h
  split at h
  case h_1 t' rest hpast =>
    cases h
    rw [phaseOf, hpast]
    exact hkeep rest _ rfl
  case h_2 => cases h

/-- The devices with positions on which a batch ran the rules engine. -/
theorem ruled_of_evaluated {th : Thread cpSig (List TelemetryMessage) Unit} {pos : Position}
    (h : (∃ config fences now alerts,
        .did (.evaluate pos config fences now) alerts ∈ th.past) ∨
      ∃ trip, .did (.update pos) trip ∈ th.past) : pos.key ∈ (lookups.phaseOf th).ruled := by
  -- what was ruled stays in the list
  have hgrow : ∀ (past : List (Seen cpSig)) (q : LookupPhase) ref, ref ∈ q.ruled →
      ref ∈ (past.foldl LookupPhase.next q).ruled := by
    intro past
    induction past with
    | nil => exact fun q ref href => href
    | cons e past ih =>
      refine fun q ref href => ih _ ref ?_
      unfold LookupPhase.next
      split
      case h_5 => exact List.mem_cons_of_mem _ href
      case h_6 => exact List.mem_cons_of_mem _ href
      all_goals exact href
  -- and every evaluation of the past put its position there
  have hseen : ∀ (past : List (Seen cpSig)) (q : LookupPhase) e, e ∈ past →
      (∀ q' : LookupPhase, pos.key ∈ (q'.next e).ruled) →
      pos.key ∈ (past.foldl LookupPhase.next q).ruled := by
    intro past
    induction past with
    | nil => exact fun q e he => absurd he List.not_mem_nil
    | cons e' past ih =>
      intro q e he hnext
      rcases List.mem_cons.mp he with rfl | he
      · exact hgrow past _ _ (hnext q)
      · exact ih _ e he hnext
  rcases h with ⟨config, fences, now, alerts, he⟩ | ⟨trip, he⟩
  · exact hseen _ _ _ he fun q' => List.mem_cons_self
  · exact hseen _ _ _ he fun q' => List.mem_cons_self

/-- The cache of a server that started with an empty one. -/
theorem good_cached (hempty : s₀.consumer.imeiCache = JsMap.empty)
    (hrun : Run (consumer D).step (fun _ _ => True) (Config.start s₀) es₁ cfg₁) :
    Good lookups Cached cfg₁ := by
  have hinit : Cached s₀ fun _ => none := by
    refine ⟨fun imei e he => ?_, fun i b q hi => ?_, fun i b q hi => ?_⟩
    · rw [hempty] at he
      cases he
    · cases hi
    · cases hi
  exact hrun.invariant (good_start hinit) fun _ _ _ hg hok hs => step_good cached_preserves hg hok hs

/-- **Wrong answers die out**: whatever the cache holds, a batch that begins when the deadline is
over only uses answers that are right. -/
theorem lookups_settle (hcached : Good lookups Cached cfg₁)
    (htruth : ∀ imei, ¬ wrong imei (cfg₁.shared.owner imei)) (hanswers : NoWrongAnswer wrong cfg₁)
    (hentries : ∀ imei e, cfg₁.shared.consumer.imeiCache.get imei = some e → wrong imei e.ref →
      e.expiresAt ≤ deadline) (hdeadline : cfg₁.shared.now < deadline)
    (hrun : Run (consumer D).step (StaysWrong wrong) cfg₁ es₂ cfg₂) :
    Good lookups (Settling wrong deadline) cfg₂ := by
  have hstart : Settling wrong deadline cfg₁.shared (lookups.phases cfg₁) := by
    refine ⟨htruth, hentries, fun i b q hi x hx hwrong => ?_, fun i b q hi x hx => ?_,
      hcached.1.began, fun i b q hi t ht hlate => ?_, fun i b q hi t ht hlate => ?_⟩
    · obtain ⟨th, hth, heq⟩ := Option.map_eq_some_iff.mp hi
      cases heq
      exact absurd hwrong ((hanswers i th hth).1 x hx)
    · obtain ⟨th, hth, heq⟩ := Option.map_eq_some_iff.mp hi
      cases heq
      exact (hanswers i th hth).2 x hx
    · -- no batch has begun after the deadline yet
      have hle := hcached.1.began i b q hi t ht
      omega
    · have hle := hcached.1.began i b q hi t ht
      omega
  exact hrun.invariant ⟨hstart, hcached.2⟩
    fun _ _ _ hg hok hs => step_good settling_preserves hg hok hs

/-- The devices only change so that the device stays deleted. -/
def StaysDeleted (ref : String × String)
    (_ : Config cpSig (List TelemetryMessage) Unit Backend Nat) :
    Event (List TelemetryMessage) Outcome FleetMove Nat → Prop
  | .env (.alter devices) => ∀ d ∈ devices.rows, d.ref = ref → d.deletedAt ≠ none
  | _ => True

instance (ref : String × String)
    (cfg : Config cpSig (List TelemetryMessage) Unit Backend Nat) :
    (e : Event (List TelemetryMessage) Outcome FleetMove Nat) → Decidable (StaysDeleted ref cfg e)
  | .env (.alter devices) =>
    inferInstanceAs (Decidable (∀ d ∈ devices.rows, d.ref = ref → d.deletedAt ≠ none))
  | .env (.elapse _) | .env (.forget _) | .start _ _ | .settle _ _ | .resume _ => .isTrue trivial

/-- The device is not one that a lookup answers. -/
theorem not_owner_of_deleted {devices : DeviceTable} {ref : String × String}
    (h : ∀ d ∈ devices.rows, d.ref = ref → d.deletedAt ≠ none) (imei : String) :
    (devices.findByImei imei).map Device.ref ≠ some ref := by
  intro heq
  obtain ⟨d, hd, href⟩ := Option.map_eq_some_iff.mp heq
  have hlive : d.imei = imei ∧ d.deletedAt = none := by
    simpa [DeviceTable.findByImei] using List.find?_some hd
  exact h d (List.mem_of_find?_eq_some hd) href hlive.2

/-- **Deleting a device is final after 30 s.** However batches are interleaved with changes of the
devices: from any state on in which the device is deleted and no lookup that found it is under
way, as long as it is not restored, a batch that begins 30 s later neither runs the rules engine
on a position of the device nor stores one. -/
theorem deleted_device_final {ref : String × String}
    (hrun₁ : Run (consumer D).step (fun _ _ => True) (Config.start s₀) es₁ cfg₁)
    (hempty : s₀.consumer.imeiCache = JsMap.empty)
    (hdeleted : ∀ d ∈ cfg₁.shared.devices.rows, d.ref = ref → d.deletedAt ≠ none)
    (hanswers : NoWrongAnswer (fun _ x => x = some ref) cfg₁)
    (hrun₂ : Run (consumer D).step (StaysDeleted ref) cfg₁ es₂ cfg₂) {i : Nat}
    {th : Thread cpSig (List TelemetryMessage) Unit} (hth : cfg₂.threads.lookup i = some th) {t : Nat}
    (hbegan : BeganAt th t) (hlate : cfg₁.shared.now + POSITIVE_CACHE_MS ≤ t) :
    (∀ ps, th.op = .positionsInsertMany ps → th.reply = none → ∀ p ∈ ps, p.key ≠ ref) ∧
      ∀ pos, ((∃ config fences now alerts,
          .did (.evaluate pos config fences now) alerts ∈ th.past) ∨
        ∃ trip, .did (.update pos) trip ∈ th.past) → pos.key ≠ ref := by
  have hcached := good_cached hempty hrun₁
  -- the deletion is the moment from which the entries of this device run out
  have hgood : Good lookups (Settling (fun _ x => x = some ref)
      (cfg₁.shared.now + POSITIVE_CACHE_MS)) cfg₂ := by
    refine lookups_settle hcached (not_owner_of_deleted hdeleted) hanswers ?_ ?_ (hrun₂.mono ?_)
    · intro imei e he href
      have hexpires := hcached.1.entries imei e he
      rwa [href] at hexpires
    · exact Nat.lt_add_of_pos_right (by decide)
    · intro cfg e hstays
      cases e with
      | env m =>
        cases m with
        | alter devices => exact fun imei => not_owner_of_deleted hstays imei
        | elapse ms => trivial
        | forget imei => trivial
      | start i c => trivial
      | settle i x => trivial
      | resume i => trivial
  have hi := phases_of_lookup (T := lookups) hth
  have hb := began_of_beganAt hbegan
  refine ⟨fun ps hop hreply p hp href => ?_, fun pos hpos href => ?_⟩
  · have hthread := hgood.2 i th hth
    simp only [Threaded, hreply, hop] at hthread
    -- an inserted position names the device its imei was resolved to
    obtain ⟨imei, hknown⟩ := hthread.1 p hp
    exact hgood.1.resolved i _ _ hi t hb hlate _ hknown (congrArg some href)
  · obtain ⟨imei, hright⟩ := hgood.1.ruled i _ _ hi t hb hlate _ (ruled_of_evaluated hpos)
    exact hright (congrArg some href)

/-- The sample device, deleted or not, and another one. -/
def twoDevices (deletedAt : Option String) : DeviceTable :=
  ⟨[{ sampleDevice with deletedAt }, { sampleDevice with id := "d2", imei := "350000000000002" }],
    by simp [sampleDevice]⟩

/-- A position is stored; then the device is deleted. -/
def deleting : List (Event (List TelemetryMessage) Outcome FleetMove Nat) :=
  [.start 0 [positionAt "2026-07-24T10:00:00.000Z" 0]] ++ goOn 0 5 ++
    [.env (.alter (twoDevices (some "2026-07-24T10:00:01.000Z")))]

/-- Half a minute later a batch has positions of both devices. -/
def sendingOn : List (Event (List TelemetryMessage) Outcome FleetMove Nat) :=
  [.env (.elapse 30000), .start 1 [positionAt "2026-07-24T10:00:31.000Z" 0,
    messageOf "350000000000002" "2026-07-24T10:00:31.000Z" 0]] ++ goOn 1 4

/-- The server after the delete: no batch is in progress. -/
abbrev Deleted (cfg : Config cpSig (List TelemetryMessage) Unit Backend Nat) : Prop :=
  cfg.threads.keys = [] ∧ cfg.shared.now = 0 ∧
    ∀ d ∈ cfg.shared.devices.rows, d.ref = ("t1", "d1") → d.deletedAt ≠ none

/-- A batch is about to store a position of the other device. -/
abbrev StoresOther (cfg : Config cpSig (List TelemetryMessage) Unit Backend Nat) : Prop :=
  ∃ th ∈ cfg.threads.lookup 1, BeganAt th 30000 ∧ th.reply.isNone = true ∧
    th.op.batch.map Position.key = [("t1", "d2")]

theorem sending_on : ∃ cfg₁ cfg₂,
    Run (consumer sampleDeployment).step (fun _ _ => True)
      (Config.start (Backend.new (twoDevices none))) deleting cfg₁ ∧ Deleted cfg₁ ∧
    Run (consumer sampleDeployment).step (StaysDeleted ("t1", "d1")) cfg₁ sendingOn cfg₂ ∧
    StoresOther cfg₂ := by
  have hruns : (deleting.foldlM (consumer sampleDeployment).step
      (Config.start (Backend.new (twoDevices none)))).any (fun cfg₁ => Deleted cfg₁ ∧
        (sendingOn.foldlM (fun cfg e => if StaysDeleted ("t1", "d1") cfg e then
          (consumer sampleDeployment).step cfg e else none) cfg₁).any (fun cfg₂ => StoresOther cfg₂) =
            true) = true := by
    decide +kernel
  obtain ⟨cfg₁, hfold₁, hcond⟩ := (Option.any_eq_true _ _).mp hruns
  obtain ⟨hdeleted, hrest⟩ := of_decide_eq_true hcond
  obtain ⟨cfg₂, hfold₂, hstores⟩ := (Option.any_eq_true _ _).mp hrest
  have hrun₁ : Run (consumer sampleDeployment).step (fun _ _ => True)
      (Config.start (Backend.new (twoDevices none))) deleting cfg₁ := by
    apply Run.of_foldlM
    simpa using hfold₁
  exact ⟨cfg₁, cfg₂, hrun₁, hdeleted, Run.of_foldlM hfold₂, of_decide_eq_true hstores⟩

theorem sending_on_other : ∃ th : Thread cpSig (List TelemetryMessage) Unit,
    th.op.batch.map Position.key = [("t1", "d2")] ∧
    ∀ ps, th.op = .positionsInsertMany ps → ∀ p ∈ ps, p.key ≠ ("t1", "d1") := by
  obtain ⟨cfg₁, cfg₂, hrun₁, ⟨hidle, hnow, hdeleted⟩, hrun₂, th, hth, hbegan, hreply, hbatch⟩ :=
    sending_on
  have hanswers : NoWrongAnswer (fun _ x => x = some ("t1", "d1")) cfg₁ := by
    intro i th hi
    rw [lookup_of_keys hidle i] at hi
    cases hi
  have hfinal := deleted_device_final hrun₁ rfl hdeleted hanswers hrun₂ hth hbegan
    (by rw [hnow]; decide)
  exact ⟨th, hbatch, fun ps hop => hfinal.1 ps hop (Option.isNone_iff_eq_none.mp hreply)⟩

/-- The devices only change so that the IMEI belongs to the device. -/
def StaysOwner (imei : String) (ref : String × String)
    (_ : Config cpSig (List TelemetryMessage) Unit Backend Nat) :
    Event (List TelemetryMessage) Outcome FleetMove Nat → Prop
  | .env (.alter devices) => (devices.findByImei imei).map Device.ref = some ref
  | _ => True

instance (imei : String) (ref : String × String)
    (cfg : Config cpSig (List TelemetryMessage) Unit Backend Nat) :
    (e : Event (List TelemetryMessage) Outcome FleetMove Nat) → Decidable (StaysOwner imei ref cfg e)
  | .env (.alter devices) =>
    inferInstanceAs (Decidable ((devices.findByImei imei).map Device.ref = some ref))
  | .env (.elapse _) | .env (.forget _) | .start _ _ | .settle _ _ | .resume _ => .isTrue trivial

/-- **A provisioned device is found after 10 s.** From any state on in which the IMEI belongs to a
live device, the cache has no other device for it and no batch is about to use or to cache another
answer, as long as it stays so: a batch that begins 10 s later resolves the IMEI to the device,
although the tracker may have been sending before it was provisioned. -/
theorem provisioned_device_found {imei : String} {ref : String × String}
    (hrun₁ : Run (consumer D).step (fun _ _ => True) (Config.start s₀) es₁ cfg₁)
    (hempty : s₀.consumer.imeiCache = JsMap.empty) (howner : cfg₁.shared.owner imei = some ref)
    (hcache : ∀ e, cfg₁.shared.consumer.imeiCache.get imei = some e →
      e.ref = none ∨ e.ref = some ref)
    (hanswers : NoWrongAnswer (fun imei' x => imei' = imei ∧ x ≠ some ref) cfg₁)
    (hrun₂ : Run (consumer D).step (StaysOwner imei ref) cfg₁ es₂ cfg₂) {i : Nat}
    {th : Thread cpSig (List TelemetryMessage) Unit} (hth : cfg₂.threads.lookup i = some th) {t : Nat}
    (hbegan : BeganAt th t) (hlate : cfg₁.shared.now + NEGATIVE_CACHE_MS ≤ t) :
    ∀ x, (imei, x) ∈ (lookups.phaseOf th).resolved → x = some ref := by
  have hcached := good_cached hempty hrun₁
  have hgood : Good lookups (Settling (fun imei' x => imei' = imei ∧ x ≠ some ref)
      (cfg₁.shared.now + NEGATIVE_CACHE_MS)) cfg₂ := by
    refine lookups_settle hcached ?_ hanswers ?_ ?_ (hrun₂.mono ?_)
    · rintro imei' ⟨rfl, hne⟩
      exact hne howner
    · rintro imei' e he ⟨rfl, hne⟩
      have hexpires := hcached.1.entries _ e he
      -- an entry that is wrong for this imei remembers that there was no device
      have hnone : e.ref = none := (hcache e he).resolve_right hne
      rwa [hnone] at hexpires
    · exact Nat.lt_add_of_pos_right (by decide)
    · intro cfg e hstays
      cases e with
      | env m =>
        cases m with
        | alter devices =>
          rintro imei' ⟨rfl, hne⟩
          exact hne hstays
        | elapse ms => trivial
        | forget imei => trivial
      | start i c => trivial
      | settle i x => trivial
      | resume i => trivial
  have hi := phases_of_lookup (T := lookups) hth
  intro x hx
  by_contra hne
  exact hgood.1.resolved i _ _ hi t (began_of_beganAt hbegan) hlate _ hx ⟨rfl, hne⟩

/-- A tracker sends before its device is provisioned; ten seconds after that it sends again. -/
def provisioning : List (Event (List TelemetryMessage) Outcome FleetMove Nat) :=
  [.start 0 [positionAt "2026-07-24T10:00:00.000Z" 0]] ++ goOn 0 1 ++
    [.env (.alter (twoDevices none))]

def sendingAgain : List (Event (List TelemetryMessage) Outcome FleetMove Nat) :=
  [.env (.elapse 10000), .start 1 [positionAt "2026-07-24T10:00:11.000Z" 0]] ++ goOn 1 1

/-- The server after the device was provisioned: it still has the answer that there is none. -/
abbrev Provisioned (cfg : Config cpSig (List TelemetryMessage) Unit Backend Nat) : Prop :=
  cfg.threads.keys = [] ∧ cfg.shared.now = 0 ∧
    cfg.shared.owner "356307042441013" = some ("t1", "d1") ∧
    (cfg.shared.consumer.imeiCache.get "356307042441013").map ImeiEntry.ref = some none

/-- A batch has resolved the IMEI. -/
abbrev Resolves (cfg : Config cpSig (List TelemetryMessage) Unit Backend Nat) : Prop :=
  ∃ th ∈ cfg.threads.lookup 1, BeganAt th 10000 ∧
    (lookups.phaseOf th).resolved = [("356307042441013", some ("t1", "d1"))]

theorem sending_again : ∃ cfg₁ cfg₂,
    Run (consumer sampleDeployment).step (fun _ _ => True)
      (Config.start (Backend.new Table.empty)) provisioning cfg₁ ∧ Provisioned cfg₁ ∧
    Run (consumer sampleDeployment).step (StaysOwner "356307042441013" ("t1", "d1")) cfg₁
      sendingAgain cfg₂ ∧ Resolves cfg₂ := by
  have hruns : (provisioning.foldlM (consumer sampleDeployment).step
      (Config.start (Backend.new Table.empty))).any (fun cfg₁ => Provisioned cfg₁ ∧
        (sendingAgain.foldlM (fun cfg e =>
          if StaysOwner "356307042441013" ("t1", "d1") cfg e then
            (consumer sampleDeployment).step cfg e else none) cfg₁).any (fun cfg₂ => Resolves cfg₂) =
              true) = true := by
    decide +kernel
  obtain ⟨cfg₁, hfold₁, hcond⟩ := (Option.any_eq_true _ _).mp hruns
  obtain ⟨hprovisioned, hrest⟩ := of_decide_eq_true hcond
  obtain ⟨cfg₂, hfold₂, hresolves⟩ := (Option.any_eq_true _ _).mp hrest
  have hrun₁ : Run (consumer sampleDeployment).step (fun _ _ => True)
      (Config.start (Backend.new Table.empty)) provisioning cfg₁ := by
    apply Run.of_foldlM
    simpa using hfold₁
  exact ⟨cfg₁, cfg₂, hrun₁, hprovisioned, Run.of_foldlM hfold₂, of_decide_eq_true hresolves⟩

theorem sending_again_found : ∃ th : Thread cpSig (List TelemetryMessage) Unit,
    (lookups.phaseOf th).resolved = [("356307042441013", some ("t1", "d1"))] ∧
    ∀ x, ("356307042441013", x) ∈ (lookups.phaseOf th).resolved → x = some ("t1", "d1") := by
  obtain ⟨cfg₁, cfg₂, hrun₁, ⟨hidle, hnow, howner, hcache⟩, hrun₂, th, hth, hbegan, hresolved⟩ :=
    sending_again
  have hanswers : NoWrongAnswer (fun imei x => imei = "356307042441013" ∧ x ≠ some ("t1", "d1")) cfg₁ := by
    intro i th hi
    rw [lookup_of_keys hidle i] at hi
    cases hi
  refine ⟨th, hresolved, provisioned_device_found hrun₁ rfl howner ?_ hanswers hrun₂ hth hbegan
    (by rw [hnow]; decide)⟩
  intro e he
  rw [he] at hcache
  exact Or.inl (Option.some.inj hcache)

end Runs

end FleetTracking.ControlPlane
