import FleetTracking.ControlPlane.CallTypestate

/-!
# The Services Follow Their Typestate

One lemma for each function of the services, from the helpers up: what it may await, and
how far the call has come where it ends. `serve_conforms` puts them together.
-/

namespace FleetTracking.ControlPlane

open Async Async.Typestate

variable {D : Deployment}

/-! ## Calls to the immobilizer -/

section Relay

variable {q : RelayPhase}

theorem scopeFor_relay (user : AuthUser) :
    (controlCalls D).Conforms (scopeFor user) (.relay q) fun q' _ => q' = .relay q := by
  unfold scopeFor
  cases user.departmentId.filter truthy with
  | none => rfl
  | some departmentId =>
    apply Conforms.perform_bind trivial
    · intro units
      rfl
    · intro e
      rfl

/-- A device is returned only if it was found. -/
theorem getScoped_relay :
    (controlCalls D).Conforms (getScoped q.user q.deviceId false) (.relay q) fun q' r =>
      ∃ device, q' = .relay { q with device } ∧ ∀ d, r = .ok d → device = some d := by
  refine Conforms.perform_bind ⟨⟨rfl, rfl⟩, rfl⟩ ?_ ?_
  · intro found
    cases found with
    | none => exact ⟨q.device, rfl, fun d' hd => by cases hd⟩
    | some d =>
      apply Conforms.bind (scopeFor_relay q.user)
      · rintro q' scope rfl
        dsimp only
        split
        · exact ⟨some d, rfl, fun d' hd => by cases hd⟩
        · exact ⟨some d, rfl, fun d' hd => by cases hd; rfl⟩
      · rintro q' e rfl
        exact ⟨some d, rfl, fun d' hd => by cases hd⟩
  · intro e
    exact ⟨q.device, rfl, fun d' hd => by cases hd⟩

theorem nowText_relay :
    (controlCalls D).Conforms nowText (.relay q) fun q' r => q' = .relay q ∧ ∃ t, r = .ok t :=
  ⟨rfl, fun _ => ⟨rfl, _, rfl⟩⟩

theorem createdAtOf_relay (current : Option ImmobilizerConfig) :
    (controlCalls D).Conforms (createdAtOf current) (.relay q) fun q' r =>
      q' = .relay q ∧ ∃ t, r = .ok t := by
  cases current with
  | some c => exact ⟨rfl, _, rfl⟩
  | none => exact nowText_relay

theorem log_relay (user : AuthUser) (deviceId : String) (action : ImmobilizerAction)
    (command reply : Option String) (ok : Bool) :
    (controlCalls D).Conforms (log user deviceId action command reply ok) (.relay q) fun q' r =>
      (r = .ok () ∧ q' = .relay q) ∨ (∃ e, r = .error e) ∧ q' = .relay { q with failed := true } := by
  apply Conforms.bind nowText_relay
  · rintro q' ts ⟨rfl, -⟩
    apply conforms_perform.mpr
    refine ⟨trivial, fun r => ?_⟩
    cases r with
    | ok u => exact Or.inl ⟨rfl, rfl⟩
    | error e => exact Or.inr ⟨⟨e, rfl⟩, rfl⟩
  · rintro q' e ⟨-, t, ht⟩
    cases ht

/-- A call that has sent nothing may end anywhere. -/
theorem RelayPhase.done_of_unconfirmed (h : q.confirmed = false) : q.done := by
  intro hp
  simp [RelayPhase.pending, h] at hp

theorem RelayPhase.done_of_written (h : q.written = true) : q.done := by
  intro hp
  simp [RelayPhase.pending, h] at hp

theorem RelayPhase.done_of_failed (h : q.failed = true) : q.done := fun _ => h

/-- `configure` reads the row and writes it once. -/
theorem configure_conforms {dto : ImmobilizerConfigDto} (hreq : q.request = .configure dto)
    (hc : q.confirmed = false) (hw : q.written = false) (hrow : q.row = none) :
    (controlCalls D).Conforms (configure q.user q.deviceId dto) (.relay q)
      fun q' _ => ∃ q₁, q' = .relay q₁ ∧ q₁.done := by
  apply Conforms.bind getScoped_relay
  · rintro q' d ⟨device, rfl, -⟩
    refine Conforms.perform_bind ⟨⟨rfl, rfl⟩, hw, hrow⟩ ?_ ?_
    · intro current
      apply Conforms.bind (createdAtOf_relay current)
      · rintro q' createdAt ⟨rfl, -⟩
        refine Conforms.perform_bind ⟨hw, dto, current, createdAt, hreq, rfl, rfl⟩ ?_ ?_
        · intro saved
          apply Conforms.bind (log_relay ..)
          · rintro q' u (⟨-, rfl⟩ | ⟨⟨e, he⟩, -⟩)
            · exact ⟨_, rfl, RelayPhase.done_of_written rfl⟩
            · cases he
          · rintro q' e (⟨he, -⟩ | ⟨-, rfl⟩)
            · cases he
            · exact ⟨_, rfl, RelayPhase.done_of_written rfl⟩
        · intro e
          exact ⟨_, rfl, RelayPhase.done_of_written rfl⟩
      · rintro q' e ⟨-, t, ht⟩
        cases ht
    · intro e
      exact ⟨_, rfl, RelayPhase.done_of_unconfirmed hc⟩
  · rintro q' e ⟨device, rfl, -⟩
    exact ⟨_, rfl, RelayPhase.done_of_unconfirmed hc⟩

/-- `requireEnabled` returns the row it has read, and only if it is enabled. -/
theorem requireEnabled_relay (hw : q.written = false) (hrow : q.row = none) :
    (controlCalls D).Conforms (requireEnabled q.user q.deviceId) (.relay q) fun q' r =>
      ∃ device row, q' = .relay { q with device, row } ∧
        ∀ cfg, r = .ok cfg → row = some (some cfg) ∧ cfg.enabled = true := by
  apply Conforms.bind getScoped_relay
  · rintro q' d ⟨device, rfl, -⟩
    refine Conforms.perform_bind ⟨⟨rfl, rfl⟩, hw, hrow⟩ ?_ ?_
    · intro row
      cases row with
      | none => exact ⟨device, some none, rfl, fun _ h => by cases h⟩
      | some cfg =>
        dsimp only
        split
        case isTrue henabled =>
          refine ⟨device, some (some cfg), rfl, fun cfg' hcfg => ?_⟩
          cases hcfg
          exact ⟨rfl, henabled⟩
        case isFalse => exact ⟨device, some (some cfg), rfl, fun _ h => by cases h⟩
    · intro e
      exact ⟨device, q.row, rfl, fun _ h => by cases h⟩
  · rintro q' e ⟨device, rfl, -⟩
    exact ⟨device, q.row, rfl, fun _ h => by cases h⟩

/-- What the guard lets through is safe. -/
theorem le_of_assertSafe {speed : Option ℚ} {limit : Nat}
    (h : assertSafeToImmobilize speed limit = .ok ()) : ∀ v ∈ speed, v ≤ (limit : ℚ) := by
  intro v hv
  cases hv
  simp only [assertSafeToImmobilize] at h
  split at h
  case isTrue => cases h
  case isFalse hle => exact le_of_not_gt hle

/-- The hot state is read first. -/
theorem hotGetLast_relay (hreq : q.request = .immobilize) :
    (controlCalls D).Conforms
      (tryCatch (request (.hotGetLast q.user.tenantId q.deviceId)) fun _ => pure none) (.relay q)
      fun q' r => ∃ p, r = .ok p ∧
        q' = match p with
          | some p => .relay { q with speed := some (some p.speedKph) }
          | none => .relay q := by
  apply conforms_attempt.mpr
  apply conforms_perform.mpr
  refine ⟨⟨⟨rfl, rfl⟩, hreq⟩, fun r => ?_⟩
  cases r with
  | ok p =>
    cases p with
    | some p => exact ⟨some p, rfl, rfl⟩
    | none => exact ⟨none, rfl, rfl⟩
  | error e => exact ⟨none, rfl, rfl⟩

/-- If it has nothing, the durable store is read. -/
theorem positionsLatest_relay (hreq : q.request = .immobilize) :
    (controlCalls D).Conforms
      (tryCatch (request (.positionsLatest q.user.tenantId q.deviceId)) fun _ => pure none)
      (.relay q) fun q' r => ∃ p, r = .ok p ∧
        q' = .relay { q with speed := some (p.map Position.speedKph) } := by
  apply conforms_attempt.mpr
  apply conforms_perform.mpr
  refine ⟨⟨⟨rfl, rfl⟩, hreq⟩, fun r => ?_⟩
  cases r with
  | ok p => exact ⟨p, rfl, rfl⟩
  | error e => exact ⟨none, rfl, rfl⟩

theorem lastKnownSpeed_relay (hreq : q.request = .immobilize) :
    (controlCalls D).Conforms (lastKnownSpeed q.user q.deviceId) (.relay q) fun q' r =>
      ∃ speed, r = .ok speed ∧ q' = .relay { q with speed := some speed } := by
  apply Conforms.bind (hotGetLast_relay hreq)
  · rintro q' last ⟨p, hp, rfl⟩
    cases hp
    cases last with
    | some p => exact ⟨some p.speedKph, rfl, rfl⟩
    | none =>
      apply Conforms.bind (positionsLatest_relay hreq)
      · rintro q' latest ⟨p, hp, rfl⟩
        cases hp
        exact ⟨_, rfl, rfl⟩
      · rintro q' e ⟨p, hp, -⟩
        cases hp
  · rintro q' e ⟨p, hp, -⟩
    cases hp

/-- The guard of an engage ends normally only when the speed read is safe. -/
theorem speedGuard_relay {cfg : ImmobilizerConfig} {immobilize : Bool}
    (hreq : immobilize = true → q.request = .immobilize) :
    (controlCalls D).Conforms (speedGuard q.user q.deviceId immobilize cfg) (.relay q) fun q' r =>
      ∃ speed, q' = .relay { q with speed } ∧
        (r = .ok () → immobilize = true → ({ q with speed } : RelayPhase).Safe cfg) := by
  unfold speedGuard
  split
  case isFalse hrelease => exact ⟨q.speed, rfl, fun _ h => absurd h hrelease⟩
  case isTrue hengage =>
    apply Conforms.bind (lastKnownSpeed_relay (hreq hengage))
    · rintro q' speed ⟨speed', hspeed, rfl⟩
      cases hspeed
      dsimp only
      split
      case h_1 hsafe => exact ⟨some speed, rfl, fun _ _ => ⟨speed, rfl, le_of_assertSafe hsafe⟩⟩
      case h_2 => exact ⟨some speed, rfl, fun h => by cases h⟩
    · rintro q' e ⟨speed, hspeed, -⟩
      cases hspeed

/-- What is known of a call that may send its command now. -/
structure RelayPhase.Ready (q : RelayPhase) (cfg : ImmobilizerConfig) (immobilize : Bool) :
    Prop where
  row : q.row = some (some cfg)
  enabled : cfg.enabled = true
  engages : q.request.engages = some immobilize
  safe : immobilize = true → q.Safe cfg
  confirmed : q.confirmed = false
  written : q.written = false
  failed : q.failed = false

/-- A command that was sent is confirmed and logged, or an error is left behind. -/
theorem sendCommand_relay {cfg : ImmobilizerConfig} {immobilize : Bool}
    (hready : q.Ready cfg immobilize) (hcommander : D.commander = true)
    (action : ImmobilizerAction) :
    (controlCalls D).Conforms (sendCommand q.user q.deviceId (cfg.command immobilize) action)
      (.relay q) fun q' r =>
        (∃ device, q' = .relay { q with device, confirmed := true } ∧ ∃ reply, r = .ok reply) ∨
        (∃ q₁ : RelayPhase, q' = .relay q₁ ∧ q₁.done) ∧ ∃ e, r = .error e := by
  apply Conforms.bind getScoped_relay
  · rintro q' d ⟨device, rfl, hd⟩
    refine Conforms.perform_bind ⟨hcommander, hready.written, hready.confirmed, hready.failed, d, cfg,
      immobilize, hd d rfl, rfl, hready.row, hready.enabled, hready.engages, rfl, hready.safe⟩ ?_ ?_
    · intro reply
      apply Conforms.bind (log_relay ..)
      · rintro q' u (⟨-, rfl⟩ | ⟨⟨e, he⟩, -⟩)
        · exact Or.inl ⟨device, rfl, reply, rfl⟩
        · cases he
      · rintro q' e (⟨he, -⟩ | ⟨-, rfl⟩)
        · cases he
        · exact Or.inr ⟨⟨_, rfl, RelayPhase.done_of_failed rfl⟩, e, rfl⟩
    · intro e
      exact Or.inr ⟨⟨_, rfl, RelayPhase.done_of_unconfirmed hready.confirmed⟩, e, rfl⟩
  · rintro q' e ⟨device, rfl, -⟩
    exact Or.inr ⟨⟨_, rfl, RelayPhase.done_of_unconfirmed hready.confirmed⟩, e, rfl⟩

/-- Logging an error does not change how far the call has come. -/
theorem log_done (hdone : q.done) (user : AuthUser) (deviceId : String)
    (action : ImmobilizerAction) (command reply : Option String) (ok : Bool) :
    (controlCalls D).Conforms (log user deviceId action command reply ok) (.relay q) fun q' _ =>
      ∃ q₁ : RelayPhase, q' = .relay q₁ ∧ q₁.done := by
  apply Conforms.mono (log_relay ..)
  rintro q' r (⟨-, rfl⟩ | ⟨-, rfl⟩)
  · exact ⟨q, rfl, hdone⟩
  · exact ⟨_, rfl, RelayPhase.done_of_failed rfl⟩

theorem relay_relay {cfg : ImmobilizerConfig} {immobilize : Bool}
    (hready : q.Ready cfg immobilize) (action : ImmobilizerAction) :
    (controlCalls D).Conforms (relay D q.user q.deviceId (cfg.command immobilize) action)
      (.relay q) fun q' r =>
        (∃ device, q' = .relay { q with device, confirmed := true } ∧ ∃ reply, r = .ok reply) ∨
        (∃ q₁ : RelayPhase, q' = .relay q₁ ∧ q₁.done) ∧ ∃ e, r = .error e := by
  unfold relay
  split
  case isFalse =>
    exact Or.inr ⟨⟨q, rfl, RelayPhase.done_of_unconfirmed hready.confirmed⟩, _, rfl⟩
  case isTrue hcommander =>
    apply Conforms.attempt (sendCommand_relay hready hcommander action)
    · rintro q' reply (h | ⟨-, e, he⟩)
      · exact Or.inl h
      · cases he
    · rintro q' e (⟨device, -, reply, he⟩ | ⟨⟨q₁, rfl, hdone⟩, -⟩)
      · cases he
      · apply Conforms.bind (log_done hdone ..)
        · rintro q' u h
          exact Or.inr ⟨h, _, rfl⟩
        · rintro q' e' h
          exact Or.inr ⟨h, _, rfl⟩

/-- The row is read again and written once the command is confirmed. -/
theorem patch_relay {patch : ImmobilizerPatch} (hc : q.confirmed = true) (hw : q.written = false)
    (hflag : patch.immobilized = q.request.flag)
    (htest : patch.testedAt.isSome → q.request = .test) :
    (controlCalls D).Conforms (ImmobilizerRepository.patch q.user.tenantId q.deviceId patch)
      (.relay q) fun q' _ => ∃ q₁ : RelayPhase, q' = .relay q₁ ∧ q₁.done := by
  have hget : (controlCalls D).Conforms
      (request (.immobilizerPatchGet q.user.tenantId q.deviceId)) (.relay q) fun q' r =>
        (∃ row, r = .ok (some row) ∧ q' = .relay { q with stored := some row }) ∨
        (∀ row, r ≠ .ok (some row)) ∧ q' = .relay { q with failed := true } := by
    apply conforms_perform.mpr
    refine ⟨⟨⟨rfl, rfl⟩, hc, hw⟩, fun r => ?_⟩
    rcases r with e | _ | row
    · exact Or.inr ⟨fun row h => (by cases h), rfl⟩
    · exact Or.inr ⟨fun row h => (by cases h), rfl⟩
    · exact Or.inl ⟨row, rfl, rfl⟩
  apply Conforms.bind hget
  · rintro q' c (⟨row, hr, rfl⟩ | ⟨hnone, rfl⟩)
    · cases hr
      -- the write of the row that was read
      have hput : (controlCalls D).Conforms (request (.immobilizerPatch q.deviceId row patch))
          (.relay { q with stored := some row })
          fun q' _ => ∃ q₁ : RelayPhase, q' = .relay q₁ ∧ q₁.done := by
        apply conforms_perform.mpr
        refine ⟨⟨rfl, rfl, hc, hw, hflag, htest⟩, fun r => ?_⟩
        cases r with
        | ok next => exact ⟨_, rfl, RelayPhase.done_of_written rfl⟩
        | error e => exact ⟨_, rfl, RelayPhase.done_of_written rfl⟩
      apply Conforms.bind hput
      · intro q' next h
        exact h
      · intro q' e h
        exact h
    · cases c with
      | none => exact ⟨_, rfl, RelayPhase.done_of_failed rfl⟩
      | some row => exact absurd rfl (hnone row)
  · rintro q' e (⟨row, hr, -⟩ | ⟨-, rfl⟩)
    · cases hr
    · exact ⟨_, rfl, RelayPhase.done_of_failed rfl⟩

/-- `immobilize` and `mobilize`: read the row, pass the guard, send, write the row. -/
theorem actuate_conforms {immobilize : Bool} {action : ImmobilizerAction}
    (hreq : immobilize = true → q.request = .immobilize)
    (hengages : q.request.engages = some immobilize) (hflag : q.request.flag = some immobilize)
    (hc : q.confirmed = false) (hw : q.written = false) (hf : q.failed = false)
    (hrow : q.row = none) :
    (controlCalls D).Conforms (actuate D q.user q.deviceId immobilize action) (.relay q)
      fun q' _ => ∃ q₁ : RelayPhase, q' = .relay q₁ ∧ q₁.done := by
  apply Conforms.bind (requireEnabled_relay hw hrow)
  · rintro q' cfg ⟨device, row, rfl, hcfg⟩
    obtain ⟨rfl, henabled⟩ := hcfg cfg rfl
    apply Conforms.bind (speedGuard_relay (q := { q with device, row := some (some cfg) }) hreq)
    · rintro q' u ⟨speed, rfl, hsafe⟩
      have hready : RelayPhase.Ready { q with device, row := some (some cfg), speed } cfg
          immobilize := ⟨rfl, henabled, hengages, hsafe rfl, hc, hw, hf⟩
      rw [setDigout_eq]
      apply Conforms.bind (relay_relay hready action)
      · rintro q' reply (⟨device', rfl, -⟩ | ⟨-, e, he⟩)
        · apply Conforms.bind nowText_relay
          · rintro q' lastAt ⟨rfl, -⟩
            exact patch_relay rfl hw hflag.symm nofun
          · rintro q' e ⟨-, t, ht⟩
            cases ht
        · cases he
      · rintro q' e (⟨device', -, reply, he⟩ | ⟨hdone, -⟩)
        · cases he
        · exact hdone
    · rintro q' e ⟨speed, rfl, -⟩
      exact ⟨_, rfl, RelayPhase.done_of_unconfirmed hc⟩
  · rintro q' e ⟨device, row, rfl, -⟩
    exact ⟨_, rfl, RelayPhase.done_of_unconfirmed hc⟩

/-- `test` sends the release command and leaves the flag of the row alone. -/
theorem test_conforms (hreq : q.request = .test) (hc : q.confirmed = false)
    (hw : q.written = false) (hf : q.failed = false) (hrow : q.row = none) :
    (controlCalls D).Conforms (test D q.user q.deviceId) (.relay q)
      fun q' _ => ∃ q₁ : RelayPhase, q' = .relay q₁ ∧ q₁.done := by
  apply Conforms.bind (requireEnabled_relay hw hrow)
  · rintro q' cfg ⟨device, row, rfl, hcfg⟩
    obtain ⟨rfl, henabled⟩ := hcfg cfg rfl
    have hready : RelayPhase.Ready { q with device, row := some (some cfg) } cfg false :=
      ⟨rfl, henabled, by rw [hreq]; rfl, nofun, hc, hw, hf⟩
    rw [setDigout_eq]
    apply Conforms.bind (relay_relay hready .test)
    · rintro q' reply (⟨device', rfl, -⟩ | ⟨-, e, he⟩)
      · apply Conforms.bind nowText_relay
        · rintro q' testedAt ⟨rfl, -⟩
          apply Conforms.bind nowText_relay
          · rintro q' lastAt ⟨rfl, -⟩
            exact patch_relay rfl hw (by rw [hreq]; rfl) fun _ => hreq
          · rintro q' e ⟨-, t, ht⟩
            cases ht
        · rintro q' e ⟨-, t, ht⟩
          cases ht
      · cases he
    · rintro q' e (⟨device', -, reply, he⟩ | ⟨hdone, -⟩)
      · cases he
      · exact hdone
  · rintro q' e ⟨device, row, rfl, -⟩
    exact ⟨_, rfl, RelayPhase.done_of_unconfirmed hc⟩

end Relay

/-- Every request to the immobilizer follows the typestate. -/
theorem serveImmobilizer_conforms (user : AuthUser) (deviceId : String)
    (req : ImmobilizerRequest) :
    (controlCalls D).Conforms (serveImmobilizer D user deviceId req)
      (.relay { user, deviceId, request := req })
      fun q' _ => ∃ q₁ : RelayPhase, q' = .relay q₁ ∧ q₁.done := by
  cases req with
  | configure dto =>
    exact configure_conforms (q := { user, deviceId, request := .configure dto }) rfl rfl rfl rfl
  | immobilize =>
    exact actuate_conforms (q := { user, deviceId, request := .immobilize }) (fun _ => rfl) rfl rfl
      rfl rfl rfl rfl
  | mobilize =>
    exact actuate_conforms (q := { user, deviceId, request := .mobilize }) nofun rfl rfl rfl rfl
      rfl rfl
  | test => exact test_conforms (q := { user, deviceId, request := .test }) rfl rfl rfl rfl rfl

/-! ## Batches -/

section Ingest

variable {refs : List (String × String)}

/-- Where positions are still collected, with the devices `refs` looked up. -/
abbrev CallPhase.gathering (refs : List (String × String)) : CallPhase := .ingest (.gathering refs)

/-- What a step that looks no device up leaves behind. -/
def Steady (refs : List (String × String)) {α : Type} (q : CallPhase) :
    Except ApiError α → Prop
  | .ok _ => q = .gathering refs
  | .error _ => q = .ingest .over

/-- A device that was resolved is among those looked up. -/
theorem resolveDevice_conforms (imei : String) :
    (controlCalls D).Conforms (resolveDevice imei) (.gathering refs) fun q' r =>
      match r with
      | .ok ref => ∃ refs', q' = .gathering refs' ∧ refs ⊆ refs' ∧ ∀ x ∈ ref, x ∈ refs'
      | .error _ => q' = .ingest .over := by
  refine Conforms.action_bind trivial fun hit => ?_
  -- the devices known after the cache was read
  obtain ⟨refs₁, hq, hsub, hhit⟩ : ∃ refs₁,
      (controlCalls D).next (.gathering refs) (.did (.imeiCacheGet imei) hit) = .gathering refs₁ ∧
        refs ⊆ refs₁ ∧ ∀ e ∈ hit, ∀ x ∈ e.ref, x ∈ refs₁ := by
    rcases hit with _ | ⟨_ | ref, expiresAt⟩
    · exact ⟨refs, rfl, List.Subset.refl _, by simp⟩
    · exact ⟨refs, rfl, List.Subset.refl _, by simp⟩
    · refine ⟨ref :: refs, rfl, List.subset_cons_self _ _, fun e he x hx => ?_⟩
      cases he
      cases hx
      exact List.mem_cons_self
  rw [hq]
  refine Conforms.action_bind trivial fun now => ?_
  dsimp only
  split
  case h_1 e he =>
    exact ⟨refs₁, rfl, hsub, hhit e (Option.filter_eq_some_iff.mp he).1⟩
  case h_2 =>
    refine Conforms.perform_bind ⟨refs₁, rfl⟩ (fun device => ?_) fun e => rfl
    cases device with
    | none =>
      refine Conforms.action_bind trivial fun now => ?_
      refine Conforms.action_bind (fun x hx => by cases hx) fun _ => ?_
      exact ⟨refs₁, rfl, hsub, by simp⟩
    | some d =>
      refine Conforms.action_bind trivial fun now => ?_
      refine Conforms.action_bind (fun x hx => ?_) fun _ => ?_
      · cases hx
        exact List.mem_cons_self
      · refine ⟨(d.tenantId, d.id) :: refs₁, rfl, List.subset_cons_of_subset _ hsub, ?_⟩
        intro x hx
        cases hx
        exact List.mem_cons_self

theorem publishAlerts_conforms (alerts : List AlertEvent) :
    (controlCalls D).Conforms (publishAlerts alerts) (.gathering refs) (Steady refs) := by
  induction alerts with
  | nil => rfl
  | cons a rest ih => exact Conforms.action_bind trivial fun _ => ih

theorem storeAlerts_conforms (alertEvents : List AlertEvent) :
    (controlCalls D).Conforms (storeAlerts alertEvents) (.gathering refs) (Steady refs) := by
  unfold storeAlerts
  split
  case isTrue => rfl
  case isFalse =>
    exact Conforms.perform_bind ⟨refs, rfl⟩ (fun _ => publishAlerts_conforms alertEvents)
      fun e => rfl

theorem storeTrip_conforms (trip : Option Trip) :
    (controlCalls D).Conforms (storeTrip trip) (.gathering refs) (Steady refs) := by
  cases trip with
  | none => rfl
  | some trip => exact Conforms.perform_cases ⟨refs, rfl⟩ (fun _ => rfl) fun e => rfl

/-- A steady step, and what comes after it. -/
theorem Steady.bind {α β : Type} {x : Cp α} {f : α → Cp β}
    {post : CallPhase → Except ApiError β → Prop}
    (hx : (controlCalls D).Conforms x (.gathering refs) (Steady refs))
    (hok : ∀ a, (controlCalls D).Conforms (f a) (.gathering refs) post)
    (herr : ∀ e, post (.ingest .over) (.error e)) :
    (controlCalls D).Conforms (x >>= f) (.gathering refs) post := by
  apply Conforms.bind hx
  · intro q' a hq
    rw [show q' = .gathering refs from hq]
    exact hok a
  · intro q' e hq
    rw [show q' = .ingest .over from hq]
    exact herr e

/-- A look-up through a cache is steady, if its parts are. -/
theorem throughCache_conforms {α : Type} {get : Cp (Option (Nat × α))} {load : Cp α}
    {set : Nat × α → Cp Unit} (hget : (controlCalls D).Conforms get (.gathering refs) (Steady refs))
    (hload : (controlCalls D).Conforms load (.gathering refs) (Steady refs))
    (hset : ∀ e, (controlCalls D).Conforms (set e) (.gathering refs) (Steady refs)) :
    (controlCalls D).Conforms (throughCache get load set) (.gathering refs) (Steady refs) := by
  refine Steady.bind hget (fun hit => ?_) fun e => rfl
  refine Conforms.action_bind trivial fun now => ?_
  split
  case h_1 => rfl
  case h_2 =>
    -- not in the cache, or too old
    refine Steady.bind hload (fun value => ?_) fun e => rfl
    refine Conforms.action_bind trivial fun now => ?_
    exact Steady.bind (hset _) (fun _ => rfl) fun e => rfl

theorem configFor_conforms (tenantId : String) :
    (controlCalls D).Conforms (configFor tenantId) (.gathering refs) (Steady refs) := by
  apply throughCache_conforms
  · exact conforms_action.mpr ⟨trivial, fun _ => rfl⟩
  · exact Conforms.perform_cases ⟨refs, rfl⟩ (fun _ => rfl) fun e => rfl
  · exact fun e => conforms_action.mpr ⟨trivial, fun _ => rfl⟩

theorem geofencesFor_conforms (tenantId : String) :
    (controlCalls D).Conforms (geofencesFor tenantId) (.gathering refs) (Steady refs) := by
  apply throughCache_conforms
  · exact conforms_action.mpr ⟨trivial, fun _ => rfl⟩
  · exact Conforms.perform_cases ⟨refs, rfl⟩ (fun _ => rfl) fun e => rfl
  · exact fun e => conforms_action.mpr ⟨trivial, fun _ => rfl⟩

theorem runRules_conforms (now : Nat) (pos : Position) :
    (controlCalls D).Conforms (runRules now pos) (.gathering refs) (Steady refs) := by
  refine Steady.bind (configFor_conforms _) (fun config => ?_) fun e => rfl
  refine Steady.bind (geofencesFor_conforms _) (fun fences => ?_) fun e => rfl
  refine Conforms.action_bind trivial fun alertEvents => ?_
  refine Steady.bind (storeAlerts_conforms _) (fun _ => ?_) fun e => rfl
  exact Conforms.action_bind trivial fun trip => storeTrip_conforms trip

/-- The newest positions of a batch are those of the positions it has collected. -/
def Batch.Collected (b : Batch) : Prop := b = b.toInsert.foldl Batch.push Batch.empty

theorem Batch.Collected.push {b : Batch} (h : b.Collected) (pos : Position) :
    (b.push pos).Collected := by
  show b.push pos = (b.toInsert ++ [pos]).foldl Batch.push Batch.empty
  rw [List.foldl_append, List.foldl_cons, List.foldl_nil, ← h]

/-- The positions of a batch are of devices that were looked up. Induction on the messages
still to handle. -/
theorem processMessages_conforms (now : Nat) (msgs : List TelemetryMessage) (b : Batch)
    (refs : List (String × String)) (hb : b.Collected)
    (hrefs : ∀ p ∈ b.toInsert, (p.tenantId, p.deviceId) ∈ refs) :
    (controlCalls D).Conforms (processMessages now msgs b) (.gathering refs) fun q' r =>
      match r with
      | .ok b' => b'.Collected ∧ ∃ refs', q' = .gathering refs' ∧
          ∀ p ∈ b'.toInsert, (p.tenantId, p.deviceId) ∈ refs'
      | .error _ => ∃ q₁ : IngestPhase, q' = .ingest q₁ ∧ q₁.done := by
  -- one message after the other; the devices found so far only grow
  induction msgs generalizing b refs with
  | nil => exact ⟨hb, refs, rfl, hrefs⟩
  | cons msg rest ih =>
    apply Conforms.bind (resolveDevice_conforms msg.imei)
    · intro q' ref hq
      obtain ⟨refs', rfl, hsub, href⟩ := hq
      have hrefs' : ∀ p ∈ b.toInsert, (p.tenantId, p.deviceId) ∈ refs' :=
        fun p hp => hsub (hrefs p hp)
      -- an unknown imei and an invalid payload are skipped
      rcases ref with _ | ⟨tenantId, deviceId⟩
      · exact ih b refs' hb hrefs'
      · dsimp only
        cases msg.data with
        | invalid => exact ih b refs' hb hrefs'
        | malformed message => exact ⟨_, rfl, IngestPhase.done_gathering _⟩
        | record n =>
          refine Steady.bind (runRules_conforms _ _) (fun _ => ?_)
            fun e => ⟨_, rfl, IngestPhase.done_over⟩
          refine ih _ refs' (hb.push _) fun p hp => ?_
          rcases List.mem_append.mp hp with hp | hp
          · exact hrefs' p hp
          · rw [List.mem_singleton] at hp
            subst hp
            exact href _ rfl
    · intro q' e hq
      exact ⟨_, hq, IngestPhase.done_over⟩

/-- The hot state is updated position by position. -/
theorem setLatest_conforms (ps : List Position) :
    (controlCalls D).Conforms (setLatest ps) (.ingest (.writing ps)) fun q' _ =>
      ∃ q₁ : IngestPhase, q' = .ingest q₁ ∧ q₁.done := by
  induction ps with
  | nil => exact ⟨_, rfl, IngestPhase.done_written⟩
  | cons p rest ih =>
    refine Conforms.perform_bind ⟨rest, rfl⟩ (fun _ => ?_)
      fun e => ⟨_, rfl, IngestPhase.done_over⟩
    exact Conforms.action_bind trivial fun _ => ih

theorem process_conforms (batch : List TelemetryMessage) :
    (controlCalls D).Conforms (process batch) (.gathering []) fun q' _ =>
      ∃ q₁ : IngestPhase, q' = .ingest q₁ ∧ q₁.done := by
  refine Conforms.action_bind trivial fun now => ?_
  apply Conforms.bind (processMessages_conforms now batch Batch.empty [] rfl fun _ h => by cases h)
  · intro q' b hq
    obtain ⟨hb, refs, rfl, hrefs⟩ := hq
    dsimp only [storePositions]
    split
    case isTrue hempty =>
      -- without positions there is nothing to write to the hot state
      have hnil : b.latestPerDevice.entries.map Prod.snd = [] := by
        rw [hb, List.isEmpty_iff.mp hempty]
        rfl
      show (controlCalls D).Conforms (setLatest _) _ _
      rw [hnil]
      exact ⟨_, rfl, IngestPhase.done_gathering _⟩
    case isFalse =>
      refine Conforms.perform_bind ⟨refs, rfl, hrefs⟩ (fun _ => ?_)
        fun e => ⟨_, rfl, IngestPhase.done_over⟩
      have hnewest : newestPerDevice b.toInsert = b.latestPerDevice.entries.map Prod.snd := by
        rw [newestPerDevice, ← hb]
      show (controlCalls D).Conforms _ (.ingest (.writing (newestPerDevice b.toInsert))) _
      rw [hnewest]
      exact setLatest_conforms _
  · intro q' e hq
    exact hq

end Ingest

/-! ## Reads of the last position -/

section Serve

variable {q : ServePhase}

theorem scopeFor_serve (user : AuthUser) :
    (controlCalls D).Conforms (scopeFor user) (.serve q) fun q' _ => q' = .serve q := by
  unfold scopeFor
  cases user.departmentId.filter truthy with
  | none => rfl
  | some departmentId => exact Conforms.perform_bind trivial (fun _ => rfl) fun _ => rfl

theorem getScoped_serve (user : AuthUser) (id : String) (includeDeleted : Bool) :
    (controlCalls D).Conforms (getScoped user id includeDeleted) (.serve q)
      fun q' _ => q' = .serve q := by
  refine Conforms.perform_bind trivial (fun found => ?_) fun e => rfl
  cases found with
  | none => rfl
  | some d =>
    apply Conforms.bind (scopeFor_serve user)
    · intro q' scope hq
      subst hq
      dsimp only
      split
      · rfl
      · rfl
    · intro q' e hq
      exact hq

theorem latest_conforms (user : AuthUser) (deviceId : String) :
    (controlCalls D).Conforms (latest user deviceId) (.serve { user, deviceId })
      fun q' _ => ∃ q₁, q' = .serve q₁ := by
  apply Conforms.bind (getScoped_serve user deviceId true)
  · intro q' d hq
    subst hq
    refine Conforms.perform_bind trivial (fun pos => ?_) fun e => ⟨_, rfl⟩
    cases pos with
    | some pos => exact ⟨_, rfl⟩
    | none =>
      refine Conforms.perform_bind trivial (fun pos => ?_) fun e => ⟨_, rfl⟩
      cases pos with
      | none => exact ⟨_, rfl⟩
      | some pos =>
        apply conforms_bind.mpr
        apply conforms_attempt.mpr
        apply conforms_perform.mpr
        refine ⟨rfl, fun r => ?_⟩
        cases r with
        | ok u => exact ⟨_, rfl⟩
        | error e => exact ⟨_, rfl⟩
  · intro q' e hq
    exact ⟨_, hq⟩

end Serve

/-! ## All calls -/

/-- What a call returns is wrapped without a further step. -/
theorem conforms_map {α β : Type} {g : α → β} {x : Cp α} {q : CallPhase} {P : CallPhase → Prop}
    (hx : (controlCalls D).Conforms x q fun q' _ => P q') :
    (controlCalls D).Conforms (g <$> x) q fun q' _ => P q' := by
  rw [map_eq_pure_bind]
  apply Conforms.bind hx
  · intro q' a hq
    exact hq
  · intro q' e hq
    exact hq

/-- **Every call follows the typestate.** -/
theorem serve_conforms (c : Call) :
    (controlCalls D).Conforms (serve D c) ((controlCalls D).init c) (controlCalls D).done := by
  cases c with
  | immobilizer user deviceId req =>
    apply Conforms.mono (conforms_map (serveImmobilizer_conforms user deviceId req))
    intro q' r hq
    obtain ⟨q₁, rfl, hdone⟩ := hq
    exact hdone
  | process batch =>
    apply Conforms.mono (conforms_map (process_conforms batch))
    intro q' r hq
    obtain ⟨q₁, rfl, hdone⟩ := hq
    exact hdone
  | latest user deviceId =>
    apply Conforms.mono (conforms_map (latest_conforms user deviceId))
    intro q' r hq
    obtain ⟨q₁, rfl⟩ := hq
    trivial

end FleetTracking.ControlPlane
