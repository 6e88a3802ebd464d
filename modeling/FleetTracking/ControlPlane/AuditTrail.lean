import FleetTracking.ControlPlane.OneDevice
import FleetTracking.Lib.Completion

/-!
# The Audit Trail of the Immobilizer

Every command is logged with its outcome, and so is every configuration. The row of a device says
what was last commanded. Here the calls are complete, one after the other; the repositories answer,
the commander resolves or rejects as it likes, and the reads of the last position too.

1. `Audited`: the server, with a note for each command that was sent and for each configuration.
2. `Relayed`: what a call that sends commands may leave behind.
3. `audit_complete`: in every run the log has one entry for each note, in their order, and the rows
   follow the confirmed commands.
-/

namespace FleetTracking.ControlPlane

open Async Transition

/-! ## Notes -/

/-- A call to the immobilizer service. -/
structure ImmobilizerCall where
  user : AuthUser
  deviceId : String
  request : ImmobilizerRequest

inductive Deed where
  -- A command was given to the commander, which has resolved with a reply or rejected.
  | sent (command : SetDigout) (outcome : Except ApiError String)
  -- A configuration has succeeded.
  | configured (dto : ImmobilizerConfigDto)

/-- What was done, and in which call. -/
structure AuditNote where
  call : ImmobilizerCall
  deed : Deed

/-- The action under which the commands of a request are logged. -/
def ImmobilizerRequest.action : ImmobilizerRequest → ImmobilizerAction
  | .configure dto => if dto.enabled then .enable else .disable
  | .immobilize => .immobilize
  | .mobilize => .mobilize
  | .test => .test

/-- The entry of the event log for a note. -/
def AuditNote.event (n : AuditNote) (ts : String) : ImmobilizerEvent where
  tenantId := n.call.user.tenantId
  deviceId := n.call.deviceId
  action := n.call.request.action
  actorId := n.call.user.userId
  actorEmail := n.call.user.email
  command :=
    match n.deed with
    | .sent command _ => some command.text
    | .configured _ => none
  reply :=
    match n.deed with
    | .sent _ (.ok reply) => some reply
    | .sent _ (.error e) => some e.message
    | .configured _ => none
  ok :=
    match n.deed with
    | .sent _ outcome => outcome.isOk
    | .configured _ => true
  ts := ts

/-- The server, with the notes, newest first. -/
structure Audited where
  backend : Backend
  notes : List AuditNote

/-- The requests that may reject: those to the commander, and the reads of the last position. -/
def CpOp.mayReject : CpOp → Bool
  | .send _ _ | .hotGetLast _ _ | .positionsLatest _ _ => true
  | _ => false

/-- A command that was given to the commander is noted. -/
def sentNote (c : ImmobilizerCall) : (op : CpOp) → Except ApiError op.Res → List AuditNote
  | .send _ command, r => [⟨c, .sent command r⟩]
  | _, _ => []

/-- The server on which repositories do not fail. -/
def auditWorld (D : Deployment) : World cpSig Nat ImmobilizerCall Audited Outcome where
  settle i c op x s :=
    let out := s.backend.settle i op (if op.mayReject then x else .resolves "")
    some (⟨out.1, sentNote c op out.2 ++ s.notes⟩, out.2)
  act _ _ a s :=
    let out := s.backend.act D a
    (⟨out.1, s.notes⟩, out.2)

/-- A configuration that has succeeded is noted. -/
def Audited.conclude (s : Audited) (c : ImmobilizerCall) :
    Except ApiError (Option ImmobilizerConfig) → Audited
  | .ok _ =>
    match c.request with
    | .configure dto => ⟨s.backend, ⟨c, .configured dto⟩ :: s.notes⟩
    | _ => s
  | .error _ => s

inductive AuditEvent where
  -- A call runs from start to end, with these outcomes of its requests.
  | call (c : ImmobilizerCall) (ω : Nat → Outcome)
  -- Something else happens between the calls.
  | env (e : EnvMove)

/-- One call, or what happens in between. -/
def Audited.step (D : Deployment) (s : Audited) : AuditEvent → Option Audited
  | .call c ω =>
    ((auditWorld D).exec 0 c ω (serveImmobilizer D c.user c.deviceId c.request) 0 s).map
      fun out => out.2.2.conclude c out.1
  | .env e => some ⟨s.backend.env e, s.notes⟩

/-! ## The guarantee -/

def ImmobilizerRequest.isTest : ImmobilizerRequest → Bool
  | .test => true
  | _ => false

/-- What a confirmed command makes of the row: an engage or release command is recorded as such,
and a test sets its mark. -/
def ImmobilizerCall.record (c : ImmobilizerCall) (command : SetDigout) (reply now : String)
    (row : ImmobilizerConfig) : ImmobilizerConfig :=
  { row with
    immobilized := if c.request.isTest then row.immobilized else command.engages
    lastCommand := some command.text
    lastReply := some reply
    lastBy := some c.user.userId
    lastAt := some now
    testedAt := if c.request.isTest then some now else row.testedAt }

/-- Outside `configure` a row changes only in a call whose command was confirmed, and then to what
the command and its reply say. -/
def ImmobilizerCall.Follows (c : ImmobilizerCall) (s s' : Audited) : Prop :=
  (∀ dto, c.request ≠ .configure dto) → ∀ tenantId deviceId,
    s'.backend.immobilizer tenantId deviceId = s.backend.immobilizer tenantId deviceId ∨
    tenantId = c.user.tenantId ∧ deviceId = c.deviceId ∧ ∃ command reply row now,
      s'.notes = ⟨c, .sent command (.ok reply)⟩ :: s.notes ∧
      s.backend.immobilizer tenantId deviceId = some row ∧
      s'.backend.immobilizer tenantId deviceId = some (c.record command reply now row)

/-- The log is complete, and in every next call the rows follow it. -/
structure Accountable (D : Deployment) (s₀ : Backend) (s : Audited) : Prop where
  -- Since the start the log has got exactly one entry for each note, in their order.
  complete : ∃ entries, s.backend.events = entries ++ s₀.events ∧
    List.Forall₂ (fun n entry => ∃ ts, entry = AuditNote.event n ts) s.notes entries
  follows : ∀ c ω s', s.step D (.call c ω) = some s' → c.Follows s s'
  -- Every call comes to an end.
  ends : ∀ e, ∃ s', s.step D e = some s'

/-! ## The parts of a call -/

section Parts

variable {D : Deployment} {c : ImmobilizerCall} {s : Audited} {α β : Type}
  {Q : Except ApiError β → Audited → Prop}

/-- Where the rest of a call ends. -/
abbrev Audited.Ends (D : Deployment) (c : ImmobilizerCall) (Q : Except ApiError α → Audited → Prop)
    (x : Cp α) (s : Audited) : Prop :=
  (auditWorld D).Ends 0 c (fun _ => True) Q x s

/-- A request that cannot fail. -/
theorem ends_answered {op : CpOp} {f : op.Res → Cp β} (hop : op.mayReject = false)
    (h : Audited.Ends D c Q (f (s.backend.answer "" op)) ⟨s.backend.effect op, s.notes⟩) :
    Audited.Ends D c Q (request op >>= f) s := by
  refine ends_bind.mpr (ends_perform.mpr fun x _ out hout => ?_)
  cases hout
  have hread : s.backend.noteRead 0 op = s.backend := by
    cases op with
    | hotGetLast tenantId deviceId => cases hop
    | positionsLatest tenantId deviceId => cases hop
    | _ => rfl
  have hnote : ∀ r, sentNote c op r = [] := by
    cases op with
    | send imei command => cases hop
    | _ => exact fun _ => rfl
  have hsettle : s.backend.settle 0 op (if op.mayReject then x else .resolves "") =
      (s.backend.effect op, .ok (s.backend.answer "" op)) := by
    rw [hop, if_neg Bool.false_ne_true, Backend.settle]
    simp only [hread, Outcome.takesEffect, if_true]
  rw [hsettle, hnote]
  exact h

theorem ends_nowText {f : String → Cp β}
    (h : Audited.Ends D c Q (f (JsDate.isoText s.backend.now)) s) :
    Audited.Ends D c Q (nowText >>= f) s := h

theorem ends_createdAtOf {current : Option ImmobilizerConfig} {f : String → Cp β}
    (h : ∀ createdAt, Audited.Ends D c Q (f createdAt) s) :
    Audited.Ends D c Q (createdAtOf current >>= f) s := by
  cases current with
  | none => exact ends_nowText (h _)
  | some row => exact h row.createdAt

/-- The device that the user may access. -/
def Backend.scoped (s : Backend) (user : AuthUser) (id : String) : Option Device :=
  (s.devices.findById user.tenantId id false).filter fun d =>
    ¬ outOfScope (user.scope s.orgUnits) d

theorem ends_scopeFor_audited {user : AuthUser} {f : Option (List String) → Cp β}
    (h : Audited.Ends D c Q (f (user.scope s.backend.orgUnits)) s) :
    Audited.Ends D c Q (scopeFor user >>= f) s := by
  unfold scopeFor
  unfold AuthUser.scope at h
  cases hdep : user.departmentId.filter truthy with
  | none =>
    rw [hdep] at h
    exact h
  | some departmentId =>
    rw [hdep] at h
    simp only [bind_assoc, pure_bind]
    exact ends_answered rfl h

/-- A call goes on with the device, or it fails. -/
theorem ends_getScoped_audited {user : AuthUser} {id : String} {f : Device → Cp β}
    (hok : ∀ d, s.backend.scoped user id = some d → Audited.Ends D c Q (f d) s)
    (hnone : s.backend.scoped user id = none → Q (.error (.notFound "Device not found")) s) :
    Audited.Ends D c Q (getScoped user id false >>= f) s := by
  unfold getScoped
  simp only [bind_assoc]
  apply ends_answered rfl
  simp only [Backend.answer, Backend.effect]
  unfold Backend.scoped at hok hnone
  cases hfound : s.backend.devices.findById user.tenantId id false with
  | none =>
    apply hnone
    rw [hfound]
    rfl
  | some d =>
    simp only [bind_assoc]
    apply ends_scopeFor_audited
    rw [hfound] at hok hnone
    by_cases hout : outOfScope (user.scope s.backend.orgUnits) d = true
    · rw [if_pos hout]
      exact hnone (by simp [Option.filter, hout])
    · rw [if_neg hout]
      exact hok d (by simp [Option.filter, hout])

/-- The entry is appended. -/
theorem ends_log_audited {user : AuthUser} {deviceId : String} {action : ImmobilizerAction}
    {command reply : Option String} {ok : Bool} {f : Unit → Cp β}
    (h : Audited.Ends D c Q (f ()) ⟨{ s.backend with events :=
      { tenantId := user.tenantId, deviceId, action, actorId := user.userId
        actorEmail := user.email, command, reply, ok
        ts := JsDate.isoText s.backend.now } :: s.backend.events }, s.notes⟩) :
    Audited.Ends D c Q (log user deviceId action command reply ok >>= f) s := by
  unfold log
  simp only [bind_assoc]
  exact ends_nowText (ends_answered rfl h)

/-- Only what was read of the last positions may differ. -/
def Audited.withReads (s : Audited) (reads : List (Nat × Option Position)) : Audited :=
  ⟨{ s.backend with speedReads := reads }, s.notes⟩

/-- A read of the last position, where an error counts as no position. -/
theorem ends_position {op : CpOp} (hop : op = .hotGetLast c.user.tenantId c.deviceId ∨
      op = .positionsLatest c.user.tenantId c.deviceId) {handler : ApiError → Cp op.Res}
    {f : op.Res → Cp β} (hhandler : ∀ e, ∃ a, handler e = pure a)
    (h : ∀ p reads, Audited.Ends D c Q (f p) (s.withReads reads)) :
    Audited.Ends D c Q (tryCatch (request op) handler >>= f) s := by
  have hnote : ∀ r, sentNote c op r = [] := by
    rcases hop with rfl | rfl
    · exact fun _ => rfl
    · exact fun _ => rfl
  have hreads : ∀ x, ∃ reads, (s.backend.settle 0 op x).1 = (s.withReads reads).backend := by
    intro x
    rcases hop with rfl | rfl
    · exact ⟨(0, s.backend.positions.latest c.user.tenantId c.deviceId) :: s.backend.speedReads,
        by cases x with | resolves reply => rfl | rejects e applied => cases applied <;> rfl⟩
    · exact ⟨(0, s.backend.positions.latest c.user.tenantId c.deviceId) :: s.backend.speedReads,
        by cases x with | resolves reply => rfl | rejects e applied => cases applied <;> rfl⟩
  refine ends_bind.mpr (ends_attempt.mpr (ends_perform.mpr fun x _ out hout => ?_))
  cases hout
  obtain ⟨reads, hs⟩ := hreads (if op.mayReject then x else .resolves "")
  simp only [hs, hnote, List.nil_append]
  generalize (s.backend.settle 0 op (if op.mayReject then x else .resolves "")).2 = r
  cases r with
  | ok p => exact h p reads
  | error e =>
    obtain ⟨a, ha⟩ := hhandler e
    simp only [World.elseEnds, ha]
    exact h a reads

theorem ends_lastKnownSpeed {f : Option ℚ → Cp β}
    (h : ∀ speed reads, Audited.Ends D c Q (f speed) (s.withReads reads)) :
    Audited.Ends D c Q (lastKnownSpeed c.user c.deviceId >>= f) s := by
  unfold lastKnownSpeed
  simp only [bind_assoc]
  refine ends_position (Or.inl rfl) (fun e => ⟨none, rfl⟩) fun last reads => ?_
  cases last with
  | some p => exact h _ reads
  | none =>
    simp only [bind_assoc]
    exact ends_position (Or.inr rfl) (fun e => ⟨none, rfl⟩) fun latest reads' => h _ reads'

/-- The guard lets the call go on or fails it, and writes nothing. -/
theorem ends_speedGuard {immobilize : Bool} {cfg : ImmobilizerConfig} {f : Unit → Cp β}
    (hok : ∀ reads, Audited.Ends D c Q (f ()) (s.withReads reads))
    (herr : ∀ e reads, Q (.error e) (s.withReads reads)) :
    Audited.Ends D c Q (speedGuard c.user c.deviceId immobilize cfg >>= f) s := by
  unfold speedGuard
  cases immobilize with
  | false => exact hok s.backend.speedReads
  | true =>
    simp only [if_true, bind_assoc]
    refine ends_lastKnownSpeed fun speed reads => ?_
    cases assertSafeToImmobilize speed cfg.maxEngageKph with
    | ok a => exact hok reads
    | error message => exact herr _ reads

/-- The row of a device that is enabled, or a refusal. -/
theorem ends_requireEnabled {f : ImmobilizerConfig → Cp β}
    (hok : ∀ d row, s.backend.scoped c.user c.deviceId = some d →
      s.backend.immobilizer c.user.tenantId c.deviceId = some row → Audited.Ends D c Q (f row) s)
    (herr : ∀ e, Q (.error e) s) :
    Audited.Ends D c Q (requireEnabled c.user c.deviceId >>= f) s := by
  unfold requireEnabled
  simp only [bind_assoc]
  refine ends_getScoped_audited (fun d hd => ?_) fun _ => herr _
  apply ends_answered rfl
  simp only [Backend.answer, Backend.effect]
  cases hrow : s.backend.immobilizer c.user.tenantId c.deviceId with
  | none => exact herr _
  | some row =>
    by_cases henabled : row.enabled = true
    · simp only [henabled, if_true]
      exact hok d row hd hrow
    · simp only [henabled]
      exact herr _

/-- The state after a command was given to the commander. -/
def Audited.sent (s : Audited) (c : ImmobilizerCall) (command : SetDigout)
    (outcome : Except ApiError String) (applied : List (String × SetDigout)) : Audited :=
  let n : AuditNote := ⟨c, .sent command outcome⟩
  ⟨{ s.backend with
      applied
      events := n.event (JsDate.isoText s.backend.now) :: s.backend.events }, n :: s.notes⟩

/-- A command that is relayed is logged once, with its outcome. -/
theorem ends_relay {command : SetDigout} {f : String → Cp β} {d : Device}
    (hd : s.backend.scoped c.user c.deviceId = some d)
    (hoff : ∀ e, Q (.error e) s)
    (hok : ∀ reply applied, Audited.Ends D c Q (f reply) (s.sent c command (.ok reply) applied))
    (herr : ∀ e e' applied, Q (.error e') (s.sent c command (.error e) applied)) :
    Audited.Ends D c Q (relay D c.user c.deviceId command c.request.action >>= f) s := by
  unfold relay
  by_cases hcommander : D.commander = true
  · simp only [hcommander, if_true]
    refine ends_bind.mpr (ends_attempt.mpr ?_)
    unfold sendCommand
    refine ends_getScoped_audited (fun d' hd' => ?_) fun hnone => ?_
    · refine ends_bind.mpr (ends_perform.mpr fun x _ out hout => ?_)
      cases hout
      cases x with
      | resolves reply =>
        show Audited.Ends D c _ (log c.user c.deviceId c.request.action (some command.text)
          (some reply) true >>= fun _ => pure reply) _
        exact ends_log_audited (hok reply ((d'.imei, command) :: s.backend.applied))
      | rejects e applied =>
        -- the error is logged, and another one is thrown
        show Audited.Ends D c _ (log c.user c.deviceId c.request.action (some command.text)
          (some e.message) false >>= fun _ => throw (relayError e)) _
        apply ends_log_audited
        cases applied with
        | false => exact herr e (relayError e) s.backend.applied
        | true => exact herr e (relayError e) ((d'.imei, command) :: s.backend.applied)
    · -- the device was accessible a moment ago
      rw [hd] at hnone
      cases hnone
  · simp only [hcommander]
    exact hoff _

end Parts

/-! ## Complete calls -/

section Calls

variable {D : Deployment} {c : ImmobilizerCall} {s s' : Audited}

/-- The row of the device is written. -/
def Audited.record (s : Audited) (c : ImmobilizerCall) (row : ImmobilizerConfig) : Audited :=
  ⟨{ s.backend with immobilizers := s.backend.immobilizers.set c.deviceId row }, s.notes⟩

/-- What a call that sends commands leaves behind: nothing, or a command that was logged, and
recorded if it was confirmed. -/
inductive Relayed (c : ImmobilizerCall) (s : Audited) : Audited → Prop where
  -- The call was refused.
  | refused (reads : List (Nat × Option Position)) : Relayed c s (s.withReads reads)
  -- The commander has rejected.
  | rejected (reads : List (Nat × Option Position)) (command : SetDigout) (e : ApiError)
      (applied : List (String × SetDigout)) :
      Relayed c s ((s.withReads reads).sent c command (.error e) applied)
  -- The commander has resolved.
  | confirmed (reads : List (Nat × Option Position)) (command : SetDigout) (reply now : String)
      (applied : List (String × SetDigout)) (row : ImmobilizerConfig)
      (hrow : s.backend.immobilizer c.user.tenantId c.deviceId = some row) :
      Relayed c s (((s.withReads reads).sent c command (.ok reply) applied).record c
        (c.record command reply now row))

/-- The row is patched with what the command and its reply say. -/
theorem ends_patch (reads : List (Nat × Option Position)) {command : SetDigout} {reply : String}
    {row : ImmobilizerConfig} {applied : List (String × SetDigout)}
    {patch : ImmobilizerPatch}
    (hrow : s.backend.immobilizer c.user.tenantId c.deviceId = some row)
    (hpatch : patch.apply row = c.record command reply (JsDate.isoText s.backend.now) row) :
    Audited.Ends D c (fun _ s' => Relayed c s s')
      (ImmobilizerRepository.patch c.user.tenantId c.deviceId patch)
      ((s.withReads reads).sent c command (.ok reply) applied) := by
  have hstored : ((s.withReads reads).sent c command (.ok reply) applied).backend.immobilizer
      c.user.tenantId c.deviceId = some row := hrow
  unfold ImmobilizerRepository.patch
  apply ends_answered rfl
  simp only [Backend.answer, hstored]
  apply ends_answered rfl
  simp only [Backend.effect, hpatch]
  exact .confirmed reads command reply _ applied row hrow

theorem actuate_relayed (immobilize : Bool) (haction : c.request =
      if immobilize then .immobilize else .mobilize) :
    Audited.Ends D c (fun _ s' => Relayed c s s')
      (actuate D c.user c.deviceId immobilize c.request.action) s := by
  unfold actuate
  refine ends_requireEnabled (fun d row hd hrow => ?_) fun e => .refused s.backend.speedReads
  refine ends_speedGuard (fun reads => ?_) fun e reads => .refused reads
  rw [setDigout_eq]
  refine ends_relay (d := d) hd (fun e => .refused reads) (fun reply applied => ?_)
    fun e e' applied => .rejected reads _ e applied
  refine ends_nowText (ends_patch reads hrow ?_)
  cases immobilize with
  | true => simp [ImmobilizerPatch.apply, ImmobilizerCall.record, haction,
      ImmobilizerRequest.isTest, command_engages, Audited.sent, Audited.withReads]
  | false => simp [ImmobilizerPatch.apply, ImmobilizerCall.record, haction,
      ImmobilizerRequest.isTest, command_engages, Audited.sent, Audited.withReads]

theorem test_relayed (haction : c.request = .test) :
    Audited.Ends D c (fun _ s' => Relayed c s s') (test D c.user c.deviceId) s := by
  unfold test
  refine ends_requireEnabled (fun d row hd hrow => ?_) fun e => .refused s.backend.speedReads
  rw [setDigout_eq]
  have haction' : ImmobilizerAction.test = c.request.action := by rw [haction]; rfl
  rw [haction']
  refine ends_relay (d := d) hd (fun e => .refused s.backend.speedReads) (fun reply applied => ?_)
    fun e e' applied => .rejected s.backend.speedReads _ e applied
  refine ends_nowText (ends_nowText (ends_patch s.backend.speedReads hrow ?_))
  simp [ImmobilizerPatch.apply, ImmobilizerCall.record, haction, ImmobilizerRequest.isTest,
    Audited.sent]

/-- What a configuration leaves in the log: one entry if it succeeds. -/
def Logged (c : ImmobilizerCall) (dto : ImmobilizerConfigDto) (s : Audited)
    (r : Except ApiError (Option ImmobilizerConfig)) (s' : Audited) : Prop :=
  s'.notes = s.notes ∧ s'.backend.events =
    match r with
    | .ok _ => (AuditNote.mk c (.configured dto)).event (JsDate.isoText s.backend.now) ::
      s.backend.events
    | .error _ => s.backend.events

theorem configure_logged {dto : ImmobilizerConfigDto} (hrequest : c.request = .configure dto) :
    Audited.Ends D c (Logged c dto s) (configure c.user c.deviceId dto) s := by
  unfold configure
  refine ends_getScoped_audited (fun d hd => ?_) fun _ => ⟨rfl, rfl⟩
  apply ends_answered rfl
  refine ends_createdAtOf fun createdAt => ?_
  apply ends_answered rfl
  apply ends_log_audited
  refine ⟨rfl, ?_⟩
  simp [AuditNote.event, hrequest, ImmobilizerRequest.action, Backend.effect]

/-- What one call does, by its request. -/
theorem cases_of_call {ω : Nat → Outcome} (h : s.step D (.call c ω) = some s') :
    (∃ dto r s₁, c.request = .configure dto ∧ Logged c dto s r s₁ ∧ s' = s₁.conclude c r) ∨
      (∀ dto, c.request ≠ .configure dto) ∧ Relayed c s s' := by
  obtain ⟨⟨r, n, s₁⟩, hexec, rfl⟩ := Option.map_eq_some_iff.mp h
  obtain ⟨user, deviceId, req⟩ := c
  -- the controller logs a configuration only; the other three are logged by the relay
  have hsame : (∀ dto, req ≠ .configure dto) → s₁.conclude ⟨user, deviceId, req⟩ r = s₁ := by
    intro hreq
    unfold Audited.conclude
    split
    · cases req with
      | configure dto => exact absurd rfl (hreq dto)
      | _ => rfl
    · rfl
  cases req with
  | configure dto =>
    have hends := configure_logged (D := D) (c := ⟨user, deviceId, .configure dto⟩) (s := s) rfl
    exact Or.inl ⟨dto, r, s₁, rfl, Ends.of_exec hends (fun _ => trivial) hexec, rfl⟩
  | immobilize =>
    have hends := actuate_relayed (D := D) (c := ⟨user, deviceId, .immobilize⟩) (s := s) true rfl
    rw [hsame fun _ he => nomatch he]
    exact Or.inr ⟨fun _ he => (nomatch he), Ends.of_exec hends (fun _ => trivial) hexec⟩
  | mobilize =>
    have hends := actuate_relayed (D := D) (c := ⟨user, deviceId, .mobilize⟩) (s := s) false rfl
    rw [hsame fun _ he => nomatch he]
    exact Or.inr ⟨fun _ he => (nomatch he), Ends.of_exec hends (fun _ => trivial) hexec⟩
  | test =>
    have hends := test_relayed (D := D) (c := ⟨user, deviceId, .test⟩) (s := s) rfl
    rw [hsame fun _ he => nomatch he]
    exact Or.inr ⟨fun _ he => (nomatch he), Ends.of_exec hends (fun _ => trivial) hexec⟩

/-- The row of one device is written, the others stay. -/
theorem immobilizer_record {row : ImmobilizerConfig} (htenant : row.tenantId = c.user.tenantId)
    (hkey : ∀ old, s.backend.immobilizers.get c.deviceId = some old →
      old.tenantId = c.user.tenantId) (tenantId deviceId : String) :
    (s.record c row).backend.immobilizer tenantId deviceId =
      if tenantId = c.user.tenantId ∧ deviceId = c.deviceId then some row
      else s.backend.immobilizer tenantId deviceId := by
  simp only [Audited.record, Backend.immobilizer]
  by_cases hid : deviceId = c.deviceId
  · subst hid
    rw [JsMap.get_set_self]
    by_cases hown : tenantId = c.user.tenantId
    · simp [htenant, hown]
    · have hne : ¬ c.user.tenantId = tenantId := fun heq => hown heq.symm
      cases hold : s.backend.immobilizers.get c.deviceId with
      | none => simp [htenant, hown, hne, Option.filter]
      | some old => simp [htenant, hown, hne, hkey old hold, Option.filter]
  · rw [JsMap.get_set_of_ne _ _ hid]
    simp [hid]

/-- The rows follow the command. -/
theorem Relayed.follows (h : Relayed c s s') : c.Follows s s' := by
  intro _ tenantId deviceId
  cases h with
  | refused reads => exact Or.inl rfl
  | rejected reads command e applied => exact Or.inl rfl
  | confirmed reads command reply now applied row hrow =>
    obtain ⟨hget, htenant⟩ := Option.filter_eq_some_iff.mp hrow
    have htenant' : row.tenantId = c.user.tenantId := of_decide_eq_true htenant
    have hkey : ∀ old, s.backend.immobilizers.get c.deviceId = some old →
        old.tenantId = c.user.tenantId := by
      intro old hold
      obtain rfl : row = old := Option.some.inj (hget.symm.trans hold)
      exact htenant'
    have hafter := immobilizer_record (s := (s.withReads reads).sent c command (.ok reply) applied)
      (show (c.record command reply now row).tenantId = c.user.tenantId from htenant') hkey
      tenantId deviceId
    rw [hafter]
    split
    case isTrue hown =>
      obtain ⟨rfl, rfl⟩ := hown
      exact Or.inr ⟨rfl, rfl, command, reply, row, now, rfl, hrow, rfl⟩
    case isFalse => exact Or.inl rfl

/-- What was logged since the start matches the notes. -/
def Matches (s₀ : Backend) (s : Audited) : Prop :=
  ∃ entries, s.backend.events = entries ++ s₀.events ∧
    List.Forall₂ (fun n entry => ∃ ts, entry = AuditNote.event n ts) s.notes entries

/-- One note, and one entry for it. -/
theorem Matches.snoc {s₀ : Backend} (h : Matches s₀ s) {n : AuditNote} {ts : String}
    (hnotes : s'.notes = n :: s.notes) (hevents : s'.backend.events = n.event ts :: s.backend.events) :
    Matches s₀ s' := by
  obtain ⟨entries, hlog, hmatch⟩ := h
  refine ⟨n.event ts :: entries, by rw [hevents, hlog]; rfl, ?_⟩
  rw [hnotes]
  exact .cons ⟨ts, rfl⟩ hmatch

theorem Matches.same {s₀ : Backend} (h : Matches s₀ s) (hnotes : s'.notes = s.notes)
    (hevents : s'.backend.events = s.backend.events) : Matches s₀ s' := by
  unfold Matches
  rw [hnotes, hevents]
  exact h

/-- Every step of a run keeps the log complete. -/
theorem Matches.step {s₀ : Backend} (h : Matches s₀ s) {e : AuditEvent}
    (hstep : s.step D e = some s') : Matches s₀ s' := by
  cases e with
  | env m =>
    cases hstep
    refine h.same rfl ?_
    cases m with
    | elapse ms => rfl
    | expire tenantId deviceId => rfl
  | call c ω =>
    rcases cases_of_call hstep with ⟨dto, r, s₁, hreq, ⟨hnotes, hevents⟩, rfl⟩ | ⟨-, hrelayed⟩
    · cases r with
      | ok row =>
        have hnoted : s₁.conclude c (.ok row) = ⟨s₁.backend, ⟨c, .configured dto⟩ :: s₁.notes⟩ := by
          simp only [Audited.conclude, hreq]
        rw [hnoted]
        exact h.snoc (congrArg _ hnotes) hevents
      | error e => exact h.same hnotes hevents
    · cases hrelayed with
      | refused reads => exact h.same rfl rfl
      | rejected reads command e applied => exact h.snoc rfl rfl
      | confirmed reads command reply now applied row hrow => exact h.snoc rfl rfl

/-- **The audit trail is complete.** In every run of complete calls to the immobilizer service, on
any devices and by any users, whatever the commander does: since the start the event log has got
exactly one entry for each command that was given to the commander and for each configuration that
has succeeded, in their order, and outside `configure` a row changes only in a call whose command
was confirmed, to what the command and its reply say. -/
theorem audit_complete (D : Deployment) (s₀ : Backend) {es : List AuditEvent}
    (hrun : Run (Audited.step D) (fun _ _ => True) ⟨s₀, []⟩ es s) : Accountable D s₀ s where
  complete := by
    have hinit : Matches s₀ ⟨s₀, []⟩ := ⟨[], rfl, .nil⟩
    show Matches s₀ s
    exact hrun.invariant hinit fun _ _ _ h _ hs => h.step hs
  follows c ω s' hstep := by
    intro hreq
    rcases cases_of_call hstep with ⟨dto, -, -, hconfigure, -⟩ | ⟨-, hrelayed⟩
    · exact absurd hconfigure (hreq dto)
    · exact hrelayed.follows hreq
  ends e := by
    cases e with
    | env m => exact ⟨_, rfl⟩
    | call c ω =>
      obtain ⟨out, hout⟩ := exists_exec (auditWorld D) 0 c ω (fun op x s => ⟨_, rfl⟩)
        (serveImmobilizer D c.user c.deviceId c.request) 0 s
      exact ⟨_, Option.map_eq_some_iff.mpr ⟨out, hout, rfl⟩⟩

/-- Enabled, engaged, and a test that the tracker does not answer. -/
def auditedCalls : List AuditEvent :=
  [.call ⟨sampleAdmin, "d1", switchTo true⟩ resolving,
    .env (.elapse 60000),
    .call ⟨sampleAdmin, "d1", .immobilize⟩ resolving,
    .call ⟨sampleAdmin, "d1", .test⟩ fun _ => .rejects (.error "timeout") true]

theorem sample_audit_complete : ∃ s,
    Run (Audited.step sampleDeployment) (fun _ _ => True) ⟨sampleBackend, []⟩ auditedCalls s ∧
    s.backend.events.map (fun e => (e.action, e.ok)) =
      [(.test, false), (.immobilize, true), (.enable, true)] ∧
    Accountable sampleDeployment sampleBackend s := by
  have hexists : ∃ s, Run (Audited.step sampleDeployment) (fun _ _ => True) ⟨sampleBackend, []⟩
      auditedCalls s ∧ s.backend.events.map (fun e => (e.action, e.ok)) =
        [(.test, false), (.immobilize, true), (.enable, true)] := by
    apply Run.exists_of_any
    decide +kernel
  obtain ⟨s, hrun, hevents⟩ := hexists
  exact ⟨s, hrun, hevents, audit_complete sampleDeployment sampleBackend hrun⟩

end Calls

end FleetTracking.ControlPlane
