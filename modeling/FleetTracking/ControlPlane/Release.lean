import FleetTracking.ControlPlane.OneDevice

/-!
# Release Is Never Blocked

A driver must always be able to regain the engine: while the relay of a device is engaged,
`mobilize` is accepted and drives the engaged output back. Both depend on the stored row,
which says whether the immobilizer is enabled and how the relay is wired, and `configure`
may change that row at any time.

1. `Engaged`, `Releases`: the relay is engaged by the commands applied; `mobilize` works.
2. `KeepsWiring`: no configuration disables or rewires an engaged relay.
3. Under that condition release is never blocked, in any sequence of calls.
-/

namespace FleetTracking.ControlPlane

open Async Transition

/-! ## The guarantee -/

/-- The last engage command drove output `dout` to `level`, and no later command drove it to
the other level. The newest command comes first. -/
def Engaged : List SetDigout → Dout → Bool → Prop
  | [], _, _ => False
  | command :: older, dout, level =>
    if command.engages then command.drives dout = some level
    else Engaged older dout level ∧ command.drives dout ≠ some (!level)

/-- A user who may access the device. -/
structure Grants (s : Backend) (user : AuthUser) (dev : Device) : Prop where
  tenantId : user.tenantId = dev.tenantId
  scope : outOfScope (user.scope s.orgUnits) dev = false

/-- `mobilize`, its requests resolving, is not refused, and the one command it sends drives
the output to the level opposite to `level`. -/
def Releases (D : Deployment) (s : Backend) (user : AuthUser) (dev : Device) (dout : Dout)
    (level : Bool) : Prop :=
  ∀ ω : Nat → Outcome, (∀ n, (ω n).isOk = true) → ∃ row n s',
    (controlPlane D).exec 0 (.immobilizer user dev.id .mobilize) ω
      (serve D (.immobilizer user dev.id .mobilize)) 0 s = some (.ok (.immobilizer row), n, s') ∧
    ∃ command, s'.applied = (dev.imei, command) :: s.applied ∧
      command.drives dout = some (!level)

/-- The configuration leaves an engaged relay enabled and wired as stored. -/
def Keeps (dev : Device) (s : Backend) (dto : ImmobilizerConfigDto) : Prop :=
  ∀ dout level, Engaged (commandsTo s dev.imei) dout level → dto.enabled = true ∧
    ∀ row, s.immobilizer dev.tenantId dev.id = some row →
      (∀ d ∈ dto.dout, d = row.dout) ∧ ∀ a ∈ dto.activeHigh, a = row.activeHigh

/-- A configuration that starts while the relay is engaged keeps it enabled and wired. -/
def KeepsWiring (dev : Device) {ι : Type} (cfg : Config cpSig Call Response Backend ι) :
    Event Call Outcome EnvMove ι → Prop
  | .start _ (.immobilizer _ _ (.configure dto)) => Keeps dev cfg.shared dto
  | _ => True

/-! ## Executing `mobilize` -/

section Execution

variable {D : Deployment} {i : Nat} {c : Call} {ω : Nat → Outcome} {user : AuthUser}
  {dev : Device} {s : Backend}

/-- A request that resolves. -/
theorem exec_request_ok (hω : ∀ n, (ω n).isOk = true) (op : CpOp) (n : Nat) (s : Backend) :
    ∃ reply, (controlPlane D).exec i c ω (request op) n s =
      some (.ok ((s.noteRead i op).answer reply op), n + 1, (s.noteRead i op).effect op) := by
  have hn := hω n
  rw [exec_perform]
  cases hout : ω n with
  | resolves reply => exact ⟨reply, by simp [controlPlane, Backend.settle, Outcome.takesEffect]⟩
  | rejects e applied =>
    rw [hout] at hn
    cases hn

theorem findById_of_mem (hdev : dev ∈ s.devices.rows) (hlive : dev.deletedAt = none) :
    s.devices.findById dev.tenantId dev.id false = some dev := by
  cases hfound : s.devices.findById dev.tenantId dev.id false with
  | none =>
    have hall := List.find?_eq_none.mp hfound dev hdev
    simp [hlive] at hall
  | some d =>
    have hprop := List.find?_some hfound
    simp only [decide_eq_true_eq] at hprop
    rw [Table.eq_of_key (List.mem_of_find?_eq_some hfound) hdev hprop.1]

/-- A user who may access the device gets it. -/
theorem getScoped_exec (hω : ∀ n, (ω n).isOk = true) (hdev : dev ∈ s.devices.rows)
    (hlive : dev.deletedAt = none) (hgrants : Grants s user dev) (n : Nat) :
    ∃ n', (controlPlane D).exec i c ω (getScoped user dev.id false) n s = some (.ok dev, n', s) := by
  obtain ⟨reply, hfind⟩ := exec_request_ok (D := D) (i := i) (c := c) hω
    (.devicesFindById user.tenantId dev.id false) n s
  have hfound : s.devices.findById user.tenantId dev.id false = some dev := by
    rw [hgrants.tenantId]
    exact findById_of_mem hdev hlive
  simp only [Backend.noteRead, Backend.answer, Backend.effect, hfound] at hfind
  have hscope := hgrants.scope
  unfold AuthUser.scope at hscope
  unfold getScoped scopeFor
  rw [exec_bind_of_ok hfind]
  cases hdep : user.departmentId.filter truthy with
  | none =>
    rw [hdep, Option.map_none] at hscope
    exact ⟨n + 1, by simp [hscope]⟩
  | some departmentId =>
    rw [hdep, Option.map_some] at hscope
    obtain ⟨reply', hlist⟩ := exec_request_ok (D := D) (i := i) (c := c) hω
      (.orgUnitsList user.tenantId) (n + 1) s
    simp only [Backend.noteRead, Backend.answer, Backend.effect] at hlist
    refine ⟨n + 2, ?_⟩
    simp only [bind_assoc]
    rw [exec_bind_of_ok hlist]
    simp [hscope]

/-- An enabled row is read. -/
theorem requireEnabled_exec (hω : ∀ n, (ω n).isOk = true) (hdev : dev ∈ s.devices.rows)
    (hlive : dev.deletedAt = none) (hgrants : Grants s user dev) {cfg : ImmobilizerConfig}
    (hrow : s.immobilizer dev.tenantId dev.id = some cfg) (henabled : cfg.enabled = true)
    (n : Nat) :
    ∃ n', (controlPlane D).exec i c ω (requireEnabled user dev.id) n s =
      some (.ok cfg, n', s) := by
  obtain ⟨n₁, hget⟩ := getScoped_exec (D := D) (i := i) (c := c) hω hdev hlive hgrants n
  obtain ⟨reply, hread⟩ := exec_request_ok (D := D) (i := i) (c := c) hω
    (.immobilizerGet user.tenantId dev.id) n₁ s
  simp only [Backend.noteRead, Backend.answer, Backend.effect, hgrants.tenantId, hrow] at hread
  refine ⟨n₁ + 1, ?_⟩
  rw [requireEnabled, exec_bind_of_ok hget, exec_bind_of_ok hread]
  simp [henabled]

theorem nowText_exec (n : Nat) (s : Backend) :
    (controlPlane D).exec i c ω nowText n s = some (.ok (JsDate.isoText s.now), n, s) := rfl

/-- The event log does not touch what was applied. -/
theorem log_exec (hω : ∀ n, (ω n).isOk = true) (user : AuthUser) (deviceId : String)
    (action : ImmobilizerAction) (command reply : Option String) (ok : Bool) (n : Nat) (s : Backend) :
    ∃ s', (controlPlane D).exec i c ω (log user deviceId action command reply ok) n s =
      some (.ok (), n + 1, s') ∧ s'.applied = s.applied := by
  let e : ImmobilizerEvent := ⟨user.tenantId, deviceId, action, user.userId, user.email, command,
    reply, ok, JsDate.isoText s.now⟩
  obtain ⟨r, hadd⟩ := exec_request_ok (D := D) (i := i) (c := c) hω (.addEvent e) n s
  refine ⟨(s.noteRead i (.addEvent e)).effect (.addEvent e), ?_, rfl⟩
  rw [log, exec_bind_of_ok (nowText_exec n s)]
  exact hadd

/-- The command reaches the tracker. -/
theorem relay_exec (hω : ∀ n, (ω n).isOk = true) (hdev : dev ∈ s.devices.rows)
    (hlive : dev.deletedAt = none) (hgrants : Grants s user dev)
    (hcommander : D.commander = true) (command : SetDigout) (action : ImmobilizerAction) (n : Nat) :
    ∃ reply n' s', (controlPlane D).exec i c ω (relay D user dev.id command action) n s =
      some (.ok reply, n', s') ∧ s'.applied = (dev.imei, command) :: s.applied := by
  obtain ⟨n₁, hget⟩ := getScoped_exec (D := D) (i := i) (c := c) hω hdev hlive hgrants n
  obtain ⟨reply, hsend⟩ := exec_request_ok (D := D) (i := i) (c := c) hω
    (.send dev.imei command) n₁ s
  obtain ⟨s', hlog, happlied⟩ := log_exec (D := D) (i := i) (c := c) hω user dev.id action
    (some command.text) (some reply) true (n₁ + 1) ((s.noteRead i (.send dev.imei command)).effect
      (.send dev.imei command))
  have hbody : (controlPlane D).exec i c ω (sendCommand user dev.id command action) n s =
      some (.ok reply, n₁ + 2, s') := by
    rw [sendCommand, exec_bind_of_ok hget, exec_bind_of_ok hsend]
    exact exec_bind_of_ok hlog
  refine ⟨reply, n₁ + 2, s', ?_, happlied⟩
  rw [relay, if_pos hcommander]
  exact exec_attempt_of_ok hbody

/-- The record of a command ends and leaves what was applied alone. -/
theorem patch_exec (hω : ∀ n, (ω n).isOk = true) (tenantId deviceId : String)
    (patch : ImmobilizerPatch) (n : Nat) (s : Backend) :
    ∃ row n' s', (controlPlane D).exec i c ω
      (ImmobilizerRepository.patch tenantId deviceId patch) n s = some (.ok row, n', s') ∧
      s'.applied = s.applied := by
  obtain ⟨r, hget⟩ := exec_request_ok (D := D) (i := i) (c := c) hω
    (.immobilizerPatchGet tenantId deviceId) n s
  rw [ImmobilizerRepository.patch, exec_bind_of_ok hget]
  cases hrow : s.immobilizer tenantId deviceId with
  | none =>
    simp only [Backend.answer, Backend.noteRead, hrow]
    exact ⟨none, n + 1, s, rfl, rfl⟩
  | some cfg =>
    simp only [Backend.answer, Backend.noteRead, hrow]
    obtain ⟨r', hput⟩ := exec_request_ok (D := D) (i := i) (c := c) hω
      (.immobilizerPatch deviceId cfg patch) (n + 1)
      (s.effect (.immobilizerPatchGet tenantId deviceId))
    rw [exec_bind_of_ok hput]
    exact ⟨_, _, _, rfl, rfl⟩

/-- `mobilize` with an enabled row sends the release command of that row. -/
theorem mobilize_exec (hω : ∀ n, (ω n).isOk = true) (hdev : dev ∈ s.devices.rows)
    (hlive : dev.deletedAt = none) (hgrants : Grants s user dev)
    (hcommander : D.commander = true) {cfg : ImmobilizerConfig}
    (hrow : s.immobilizer dev.tenantId dev.id = some cfg) (henabled : cfg.enabled = true) :
    ∃ row n s', (controlPlane D).exec i c ω (mobilize D user dev.id) 0 s =
      some (.ok row, n, s') ∧ s'.applied = (dev.imei, cfg.command false) :: s.applied := by
  obtain ⟨n₁, hread⟩ := requireEnabled_exec (D := D) (i := i) (c := c) hω hdev hlive hgrants hrow
    henabled 0
  obtain ⟨reply, n₂, s₂, hrelay, happlied⟩ := relay_exec (i := i) (c := c) hω hdev hlive hgrants
    hcommander (cfg.command false) .mobilize n₁
  let patch : ImmobilizerPatch :=
    { immobilized := some false, lastCommand := some (cfg.command false).text
      lastReply := some reply, lastBy := some user.userId
      lastAt := some (JsDate.isoText s₂.now) }
  obtain ⟨row, n₃, s₃, hpatch, hkept⟩ := patch_exec (D := D) (i := i) (c := c) hω user.tenantId
    dev.id patch n₂ s₂
  refine ⟨row, n₃, s₃, ?_, hkept.trans happlied⟩
  rw [mobilize, actuate, exec_bind_of_ok hread, setDigout_eq]
  exact (exec_bind_of_ok hrelay).trans hpatch

end Execution

/-! ## The invariant -/

section Invariant

variable {D : Deployment} {dev : Device} {s s' : Backend}

/-- The stored row of an engaged relay is enabled and wired as it was when engaged. -/
def Wired (dev : Device) (s : Backend) : Prop :=
  ∀ dout level, Engaged (commandsTo s dev.imei) dout level →
    ∃ row, s.immobilizer dev.tenantId dev.id = some row ∧ row.enabled = true ∧
      row.dout = dout ∧ levelFor true row.activeHigh = level

/-- A call to the immobilizer knows the stored row until it writes it. -/
structure Current (dev : Device) (s : Backend) (q : RelayPhase) : Prop where
  about : q.About dev
  row : q.written = false → ∀ row, q.row = some row →
    s.immobilizer dev.tenantId dev.id = row
  stored : q.written = false → ∀ row, q.stored = some row →
    s.immobilizer dev.tenantId dev.id = some row
  keeps : q.written = false → ∀ dto, q.request = .configure dto → Keeps dev s dto

theorem Keeps.congr {dto : ImmobilizerConfigDto} (h : SameRelay s s') (hk : Keeps dev s dto) :
    Keeps dev s' dto := by
  intro dout level heng
  rw [h.commandsTo] at heng
  rw [h.immobilizer]
  exact hk dout level heng

theorem Wired.congr (h : SameRelay s s') (hw : Wired dev s) : Wired dev s' := by
  intro dout level heng
  rw [h.commandsTo] at heng
  rw [h.immobilizer]
  exact hw dout level heng

theorem Current.congr {q : RelayPhase} (h : SameRelay s s') (hc : Current dev s q) :
    Current dev s' q where
  about := hc.about
  row hwritten row hrow := by
    rw [h.immobilizer]
    exact hc.row hwritten row hrow
  stored hwritten row hrow := by
    rw [h.immobilizer]
    exact hc.stored hwritten row hrow
  keeps hwritten dto hreq := (hc.keeps hwritten dto hreq).congr h

variable {ι : Type}

/-- The invariant of sequential runs. -/
structure ReleaseInv (D : Deployment) (dev : Device) (s : Backend)
    (ph : ι → Option (Call × CallPhase)) : Prop where
  device : dev ∈ s.devices.rows
  solo : ∀ i j x y, ph i = some x → ph j = some y → i = j
  calls : ∀ i c q, ph i = some (c, .relay q) → Current dev s q
  wired : Wired dev s
  commander : s.applied ≠ [] → D.commander = true

variable [DecidableEq ι] {ph : ι → Option (Call × CallPhase)} {i : ι} {c : Call} {p p' : CallPhase}

/-- A step of the call in progress. -/
theorem ReleaseInv.move (h : ReleaseInv D dev s ph) (hi : ph i = some (c, p))
    (hdevices : s'.devices = s.devices)
    (hcall : ∀ q, p' = .relay q → Current dev s' q) (hwired : Wired dev s')
    (hcommander : s'.applied ≠ [] → D.commander = true) :
    ReleaseInv D dev s' (Function.update ph i (some (c, p'))) where
  device := by
    rw [hdevices]
    exact h.device
  solo j k x y hj hk := by
    have hsolo : ∀ j x, Function.update ph i (some (c, p')) j = some x → j = i := by
      intro j x hj
      by_cases hji : j = i
      · exact hji
      · rw [Function.update_of_ne hji] at hj
        exact h.solo j i _ _ hj hi
    rw [hsolo j x hj, hsolo k y hk]
  calls j c' q hj := by
    by_cases hji : j = i
    · subst hji
      rw [Function.update_self] at hj
      cases hj
      exact hcall q rfl
    · rw [Function.update_of_ne hji] at hj
      exact absurd (h.solo j i _ _ hj hi) hji
  wired := hwired
  commander := hcommander

/-- A step that leaves rows and commands alone. -/
theorem ReleaseInv.move_same (h : ReleaseInv D dev s ph) (hi : ph i = some (c, p))
    (hsame : SameRelay s s') (hcall : ∀ q, p' = .relay q → Current dev s q) :
    ReleaseInv D dev s' (Function.update ph i (some (c, p'))) := by
  refine h.move hi hsame.devices (fun q hq => (hcall q hq).congr hsame) (h.wired.congr hsame) ?_
  rw [hsame.applied]
  exact h.commander

/-- What a call sees that is no command and no write leaves it current. -/
theorem Current.next {q : RelayPhase} {op : CpOp} {x : Outcome} {i : Nat}
    (h : Current dev s q) (hdev : dev ∈ s.devices.rows) (hmay : q.may D op)
    (hkept : (q.next (.answered op (s.settle i op x).2)).written = false → SameRelay s s') :
    Current dev s' (q.next (.answered op (s.settle i op x).2)) where
  about := h.about.settle hdev hmay
  row hwritten row hrow := by
    have hsame := hkept hwritten
    rw [hsame.immobilizer]
    rcases RelayPhase.row_next hrow with hrow | ⟨tenantId, deviceId, he⟩
    · exact h.row (RelayPhase.written_next hwritten) row hrow
    -- the row has just been read
    · generalize hr : (s.settle i op x).2 = r at he
      cases he
      obtain ⟨-, reply, hread⟩ := settle_ok hr
      obtain ⟨⟨rfl, rfl⟩, -⟩ := hmay
      rw [← h.about.tenantId, ← h.about.deviceId]
      exact hread.symm
  stored hwritten row hrow := by
    have hsame := hkept hwritten
    rw [hsame.immobilizer]
    rcases RelayPhase.stored_next hrow with hrow | ⟨tenantId, deviceId, he⟩
    · exact h.stored (RelayPhase.written_next hwritten) row hrow
    -- so has the one to write back
    · generalize hr : (s.settle i op x).2 = r at he
      cases he
      obtain ⟨-, reply, hread⟩ := settle_ok hr
      obtain ⟨⟨rfl, rfl⟩, -⟩ := hmay
      rw [← h.about.tenantId, ← h.about.deviceId]
      exact hread.symm
  keeps hwritten dto hreq := by
    rw [(RelayPhase.next_request _ _).1] at hreq
    exact (h.keeps (RelayPhase.written_next hwritten) dto hreq).congr (hkept hwritten)

/-! ### The requests that write rows and send commands -/

/-- An admitted configuration keeps an engaged relay wired. -/
theorem wired_upsert {q : RelayPhase} {cfg : ImmobilizerConfig} (hcur : Current dev s q)
    (hwired : Wired dev s) (hmay : q.may D (.immobilizerUpsert cfg)) :
    Wired dev (s.effect (.immobilizerUpsert cfg)) := by
  obtain ⟨hwritten, dto, current, createdAt, hreq, hrow, rfl⟩ := hmay
  intro dout level heng
  obtain ⟨row, hstored, henabled, hdout, hlevel⟩ := hwired dout level heng
  obtain ⟨hdto, hkeeps⟩ := hcur.keeps hwritten dto hreq dout level heng
  obtain ⟨hd, ha⟩ := hkeeps row hstored
  have hcurrent : current = some row := (hcur.row hwritten current hrow).symm.trans hstored
  subst hcurrent
  refine ⟨configured q.user q.deviceId dto (some row) createdAt, ?_, hdto, ?_, ?_⟩
  · rw [← hcur.about.tenantId, ← hcur.about.deviceId]
    exact immobilizer_upsert s (configured q.user q.deviceId dto (some row) createdAt)
  · rw [← hdout]
    show dto.dout.getD row.dout = row.dout
    cases hopt : dto.dout with
    | none => rfl
    | some d => exact hd d hopt
  · rw [← hlevel]
    have hactive : dto.activeHigh.getD row.activeHigh = row.activeHigh := by
      cases hopt : dto.activeHigh with
      | none => rfl
      | some a => exact ha a hopt
    show levelFor true (dto.activeHigh.getD row.activeHigh) = levelFor true row.activeHigh
    rw [hactive]

/-- Recording a command does not touch the wiring. -/
theorem wired_patch {q : RelayPhase} {deviceId : String} {read : ImmobilizerConfig}
    {patch : ImmobilizerPatch} (hcur : Current dev s q) (hwired : Wired dev s)
    (hmay : q.may D (.immobilizerPatch deviceId read patch)) :
    Wired dev (s.effect (.immobilizerPatch deviceId read patch)) := by
  obtain ⟨rfl, hread, -, hwritten, -⟩ := hmay
  intro dout level heng
  obtain ⟨row, hstored, henabled, hdout, hlevel⟩ := hwired dout level heng
  -- the row that was read is the one stored
  obtain rfl : read = row :=
    Option.some.inj ((hcur.stored hwritten read hread).symm.trans hstored)
  refine ⟨patch.apply read, ?_, henabled, hdout, hlevel⟩
  rw [hcur.about.deviceId]
  exact immobilizer_patch s patch (hcur.about.stored read hread)

/-- A command built from the stored row: an engage leaves the relay engaged as the row says,
a release leaves it not engaged. -/
theorem wired_send {q : RelayPhase} {imei : String} {command : SetDigout}
    (hcur : Current dev s q) (hwired : Wired dev s) (hmay : q.may D (.send imei command)) :
    Wired dev (s.effect (.send imei command)) := by
  obtain ⟨-, hwritten, -, -, device, cfg, immobilize, hdevice, rfl, hrow, henabled, -, rfl, -⟩ :=
    hmay
  have hdev : device = dev := hcur.about.device device hdevice
  subst hdev
  have hstored := hcur.row hwritten _ hrow
  intro dout level heng
  rw [commandsTo_cons (s := s) rfl, Engaged, command_engages] at heng
  cases immobilize with
  | true =>
    rw [if_pos rfl, command_drives] at heng
    split at heng
    case isTrue hdout =>
      refine ⟨cfg, hstored, henabled, hdout.symm, ?_⟩
      simpa using heng
    case isFalse => cases heng
  | false =>
    rw [if_neg (by simp), command_drives] at heng
    obtain ⟨row, hrow', -, hdout, hlevel⟩ := hwired dout level heng.1
    rw [hstored] at hrow'
    cases hrow'
    -- the row drives the engaged output to the other level
    rw [if_pos hdout.symm, levelFor_release, hlevel] at heng
    exact absurd rfl heng.2

/-- A call that has sent its command still knows the stored row. -/
theorem current_send {q : RelayPhase} {imei : String} {command : SetDigout} {x : Outcome} {i : Nat}
    (hcur : Current dev s q) (hdev : dev ∈ s.devices.rows) (hmay : q.may D (.send imei command)) :
    Current dev (s.effect (.send imei command))
      (q.next (.answered (.send imei command) (s.settle i (.send imei command) x).2)) where
  about := hcur.about.settle hdev hmay
  row hwritten row hrow := by
    rcases RelayPhase.row_next hrow with hrow | ⟨tenantId, deviceId, he⟩
    · exact hcur.row (RelayPhase.written_next hwritten) row hrow
    · cases he
  stored hwritten row hrow := by
    rcases RelayPhase.stored_next hrow with hrow | ⟨tenantId, deviceId, he⟩
    · exact hcur.stored (RelayPhase.written_next hwritten) row hrow
    · cases he
  keeps hwritten dto hreq := by
    rw [(RelayPhase.next_request _ _).1] at hreq
    obtain ⟨-, -, -, -, device, cfg, immobilize, -, -, -, -, hengages, -⟩ := hmay
    rw [hreq] at hengages
    cases hengages

/-- After a write nothing is assumed of the row the call has read. -/
theorem current_written {q : RelayPhase} {op : CpOp} {x : Outcome} {i : Nat}
    (hcur : Current dev s q) (hdev : dev ∈ s.devices.rows) (hmay : q.may D op)
    (hwrites : (∃ cfg, op = .immobilizerUpsert cfg) ∨
      ∃ deviceId row patch, op = .immobilizerPatch deviceId row patch) (s' : Backend) :
    Current dev s' (q.next (.answered op (s.settle i op x).2)) := by
  apply hcur.next hdev hmay
  intro hwritten
  generalize (s.settle i op x).2 = r at hwritten
  obtain ⟨cfg, rfl⟩ | ⟨deviceId, row, patch, rfl⟩ := hwrites
  · cases r with
    | ok a => cases hwritten
    | error e => cases hwritten
  · cases r with
    | ok a => cases hwritten
    | error e => cases hwritten

/-- An operation of a call to the immobilizer takes effect. -/
theorem ReleaseInv.settle_relay {q : RelayPhase} {op : CpOp} {x : Outcome} {n : Nat}
    (h : ReleaseInv D dev s ph) (hi : ph i = some (c, .relay q)) (hmay : q.may D op) :
    ReleaseInv D dev (s.settle n op x).1
      (Function.update ph i (some (c, .relay (q.next (.answered op (s.settle n op x).2))))) := by
  have hcur := h.calls i c q hi
  by_cases hsame : ¬ op.Relays ∨ x.takesEffect = false
  · have hview : SameRelay s (s.settle n op x).1 := settle_sameRelay _ hsame
    refine h.move hi hview.devices (fun q' hq' => ?_) (h.wired.congr hview) ?_
    · cases hq'
      exact hcur.next h.device hmay fun _ => hview
    · rw [hview.applied]
      exact h.commander
  · simp only [not_or, not_not, Bool.not_eq_false] at hsame
    obtain ⟨hop, hx⟩ := hsame
    rw [settle_effect _ hop hx]
    cases op with
    | immobilizerUpsert cfg =>
      refine h.move hi rfl (fun q' hq' => ?_) (wired_upsert hcur h.wired hmay) h.commander
      cases hq'
      exact current_written hcur h.device hmay (Or.inl ⟨cfg, rfl⟩) _
    | immobilizerPatch deviceId row patch =>
      refine h.move hi rfl (fun q' hq' => ?_) (wired_patch hcur h.wired hmay) h.commander
      cases hq'
      exact current_written hcur h.device hmay (Or.inr ⟨_, _, _, rfl⟩) _
    | send imei command =>
      refine h.move hi rfl (fun q' hq' => ?_) (wired_send hcur h.wired hmay) fun _ => hmay.1
      cases hq'
      exact current_send hcur h.device hmay
    | _ => cases hop

end Invariant

/-! ## Release is never blocked -/

section Release

variable {D : Deployment} {dev : Device}

/-- What is asked of the steps of a run: calls one after another, about the device, and no
configuration that disables or rewires an engaged relay. -/
def ReleaseStep (dev : Device) (cfg : Config cpSig Call Response Backend Nat)
    (e : Event Call Outcome EnvMove Nat) : Prop :=
  Sequential cfg e ∧ OnDevice dev cfg e ∧ KeepsWiring dev cfg e

/-- A call starts without knowing anything of the row. -/
theorem current_init {s : Backend} {user : AuthUser} {deviceId : String}
    {req : ImmobilizerRequest} (htenant : user.tenantId = dev.tenantId) (hid : deviceId = dev.id)
    (hkeeps : ∀ dto, req = .configure dto → Keeps dev s dto) :
    Current dev s { user, deviceId, request := req } where
  about := ⟨htenant, hid, fun _ h => (by cases h), fun _ h => (by cases h)⟩
  row _ _ h := by cases h
  stored _ _ h := by cases h
  keeps _ dto hreq := hkeeps dto hreq

theorem releaseInv_preserves :
    Typestate.Preserves (controlPlane D) (controlCalls D) (ReleaseStep dev)
      (ReleaseInv D dev) where
  code c := serve_conforms c
  start cfg i c h hnone hok := by
    have hempty : ∀ j, (controlCalls D).phases cfg j = none := by
      intro j
      simp [Typestate.phases, hok.1 j]
    refine ⟨h.device, ?_, ?_, h.wired, h.commander⟩
    · intro j k x y hj hk
      -- the call that starts is the only one
      have honly : ∀ j x, Function.update ((controlCalls D).phases cfg) i
          (some (c, (controlCalls D).init c)) j = some x → j = i := by
        intro j x hj
        by_contra hji
        rw [Function.update_of_ne hji, hempty j] at hj
        cases hj
      rw [honly j x hj, honly k y hk]
    · intro j c' q hj
      by_cases hji : j = i
      · subst hji
        rw [Function.update_self] at hj
        cases c with
        | immobilizer user deviceId req =>
          cases hj
          obtain ⟨-, ⟨htenant, hid⟩, hkeeps⟩ := hok
          refine current_init htenant hid fun dto hreq => ?_
          subst hreq
          exact hkeeps
        | process batch => cases hj
        | latest user deviceId => cases hj
      · rw [Function.update_of_ne hji, hempty j] at hj
        cases hj
  act s ph i c q a h hi hmay := by
    refine h.move_same hi (act_sameRelay D s a) fun q' hq' => ?_
    cases q with
    | relay q =>
      cases hq'
      rw [show a = .now from hmay]
      exact h.calls i c q hi
    | ingest q => cases hq'
    | serve q => cases hq'
  -- only a request of a relay call can change the settings
  settle cfg i th x s' r h hth hmay hok hs := by
    cases hs
    have hi := Typestate.phases_of_lookup (T := controlCalls D) hth
    revert hmay hi
    generalize (controlCalls D).phaseOf th = p
    intro hmay hi
    cases p with
    | relay q => exact h.settle_relay hi hmay
    | ingest q =>
      have hop : ¬ th.op.Relays := by
        revert hmay
        cases th.op <;> simp [controlCalls, IngestPhase.may, CpOp.Relays]
      exact h.move_same hi (settle_sameRelay _ (Or.inl hop)) fun q' hq' => by cases hq'
    | serve q =>
      have hop : ¬ th.op.Relays := by
        revert hmay
        cases th.op <;> simp [controlCalls, ServePhase.may, CpOp.Relays]
      exact h.move_same hi (settle_sameRelay _ (Or.inl hop)) fun q' hq' => by cases hq'
  -- where a call ends, the calls that are left are among those before
  finish s ph i c q r h hi hdone := by
    have hsub : ∀ j x, Function.update ph i none j = some x → ph j = some x := by
      intro j x hj
      by_cases hji : j = i
      · subst hji
        rw [Function.update_self] at hj
        cases hj
      · rwa [Function.update_of_ne hji] at hj
    exact ⟨h.device, fun j k x y hj hk => h.solo j k x y (hsub j x hj) (hsub k y hk),
      fun j c' q hj => h.calls j c' q (hsub j _ hj), h.wired, h.commander⟩
  env cfg e s' h hok hs := by
    cases hs
    have hsame := env_sameRelay cfg.shared e
    refine ⟨?_, h.solo, fun j c q hj => (h.calls j c q hj).congr hsame, h.wired.congr hsame, ?_⟩
    · rw [hsame.devices]
      exact h.device
    · rw [hsame.applied]
      exact h.commander

/-- An engaged relay was engaged by a command. -/
theorem applied_of_engaged {s : Backend} {imei : String} {dout : Dout} {level : Bool}
    (h : Engaged (commandsTo s imei) dout level) : s.applied ≠ [] := by
  intro hnil
  rw [commandsTo, hnil] at h
  exact h

/-- **Release is never blocked.** In every state reached by calls one after another, none of
which disables or rewires an engaged relay: where the relay is engaged, `mobilize` is not
refused and drives the engaged output to the other level. -/
theorem release_never_blocked {s₀ : Backend} (hdev : dev ∈ s₀.devices.rows)
    (hlive : dev.deletedAt = none) (hfresh : s₀.applied = [])
    {es : List (Event Call Outcome EnvMove Nat)} {cfg : Config cpSig Call Response Backend Nat}
    (hrun : Run (controlPlane D).step (ReleaseStep dev) (Config.start s₀) es cfg)
    {user : AuthUser} (hgrants : Grants cfg.shared user dev) {dout : Dout} {level : Bool}
    (heng : Engaged (commandsTo cfg.shared dev.imei) dout level) :
    Releases D cfg.shared user dev dout level := by
  -- nothing has been applied yet, so nothing is engaged
  have hinit : ReleaseInv D dev s₀ fun _ : Nat => none := by
    refine ⟨hdev, ?_, ?_, ?_, fun h => absurd hfresh h⟩
    · intro i j x y hi
      cases hi
    · intro i c q hi
      cases hi
    · intro dout level heng
      exact absurd hfresh (applied_of_engaged heng)
  have h := releaseInv_preserves.invariant hinit hrun
  -- whatever is engaged is wired as the stored row says, and the row is enabled
  obtain ⟨row, hstored, henabled, hdout, hlevel⟩ := h.wired dout level heng
  intro ω hω
  obtain ⟨response, n, s', hexec, happlied⟩ := mobilize_exec (D := D) (i := 0)
    (c := .immobilizer user dev.id .mobilize) hω h.device hlive hgrants
    (h.commander (applied_of_engaged heng)) hstored henabled
  refine ⟨response, n, s', ?_, row.command false, happlied, ?_⟩
  · show (controlPlane D).exec 0 _ ω (Response.immobilizer <$> mobilize D user dev.id) 0 _ = _
    rw [map_eq_pure_bind, exec_bind_of_ok hexec]
    rfl
  · rw [command_drives, if_pos hdout.symm, levelFor_release, hlevel]

/-- The engage command for the default wiring. -/
def sampleEngage : SetDigout :=
  ⟨[some true, none, none, none], [some 0, none, none, none], [some 5, none, none, none]⟩

/-- Output 1 is high after the sample command. -/
theorem sample_engaged : Engaged [sampleEngage] ⟨1, by decide⟩ true := by
  simp [Engaged, sampleEngage, SetDigout.engages, SetDigout.drives]

/-- The admin of the tenant may access the sample device. -/
theorem sample_grants (s : Backend) : Grants s sampleAdmin sampleDevice := ⟨rfl, rfl⟩

/-- A configuration that keeps enabled and wiring is admitted in every state. -/
theorem keeps_switchOn (dev : Device) (s : Backend) : Keeps dev s ⟨true, none, none, none⟩ := by
  intro dout level _
  simp

/-- Enabled and engaged, the sample device can be released. -/
theorem engaged_sample_releases : ∃ es cfg,
    Run (controlPlane sampleDeployment).step (ReleaseStep sampleDevice)
      (Config.start sampleBackend) es cfg ∧
    Engaged (commandsTo cfg.shared sampleDevice.imei) ⟨1, by decide⟩ true ∧
    Releases sampleDeployment cfg.shared sampleAdmin sampleDevice ⟨1, by decide⟩ true := by
  have hcalls : ((controlPlane sampleDeployment).calls 0
      [sampleCall (switchTo true), sampleCall .immobilize] sampleBackend).any
      (fun s => commandsTo s sampleDevice.imei = [sampleEngage]) = true := by decide +kernel
  obtain ⟨s, hs, hcommands⟩ := (Option.any_eq_true _ _).mp hcalls
  have hsteps : ∃ es, Run (controlPlane sampleDeployment).step (ReleaseStep sampleDevice)
      (Config.start sampleBackend) es (Config.start s) := by
    apply exists_run_of_calls ?_ ?_ hs
    · intro s x hx
      refine ⟨fun _ => rfl, ?_⟩
      simp only [List.mem_cons, List.not_mem_nil, or_false] at hx
      obtain rfl | rfl := hx
      · exact ⟨⟨rfl, rfl⟩, keeps_switchOn _ _⟩
      · exact ⟨⟨rfl, rfl⟩, trivial⟩
    · intro x hx cfg n
      exact ⟨⟨trivial, trivial, trivial⟩, trivial, trivial, trivial⟩
  obtain ⟨es, hrun⟩ := hsteps
  have heng : Engaged (commandsTo s sampleDevice.imei) ⟨1, by decide⟩ true := by
    rw [of_decide_eq_true hcommands]
    exact sample_engaged
  exact ⟨es, _, hrun, heng, release_never_blocked List.mem_cons_self rfl rfl hrun
    (sample_grants s) heng⟩

/-- **A disabled immobilizer cannot be released.** Enabled, engaged, then disabled by an
admin: the relay still cuts the circuit, and `mobilize` is refused. -/
theorem disable_blocks_release :
    ¬ ∀ (D : Deployment) (dev : Device) (s₀ : Backend) (es : List (Event Call Outcome EnvMove Nat))
      (cfg : Config cpSig Call Response Backend Nat) (user : AuthUser) (dout : Dout) (level : Bool),
      dev ∈ s₀.devices.rows → dev.deletedAt = none → s₀.applied = [] →
      Run (controlPlane D).step
        (fun cfg e => Sequential cfg e ∧ OnDevice dev cfg e ∧ Confirmed cfg e)
        (Config.start s₀) es cfg →
      (∀ i, cfg.threads.lookup i = none) → Grants cfg.shared user dev →
      Engaged (commandsTo cfg.shared dev.imei) dout level →
      Releases D cfg.shared user dev dout level := by
  intro hall
  -- `mobilize` after the three calls answers with an error
  have hcalls : ((controlPlane sampleDeployment).calls 0
      [sampleCall (switchTo true), sampleCall .immobilize, sampleCall (switchTo false)]
      sampleBackend).any
      (fun s => commandsTo s sampleDevice.imei = [sampleEngage] ∧
        (((controlPlane sampleDeployment).exec 0
          (.immobilizer sampleAdmin sampleDevice.id .mobilize) resolving
          (serve sampleDeployment (.immobilizer sampleAdmin sampleDevice.id .mobilize)) 0 s).all fun out =>
            out.1.toOption.isNone) = true) = true := by decide +kernel
  obtain ⟨s, hs, hprop⟩ := (Option.any_eq_true _ _).mp hcalls
  obtain ⟨hcommands, hrefused⟩ := of_decide_eq_true hprop
  have hsteps : ∃ es, Run (controlPlane sampleDeployment).step
      (fun cfg e => Sequential cfg e ∧ OnDevice sampleDevice cfg e ∧ Confirmed cfg e)
      (Config.start sampleBackend) es (Config.start s) := by
    apply exists_run_of_calls ?_ ?_ hs
    · intro s x hx
      refine ⟨fun _ => rfl, ?_, trivial⟩
      simp only [List.mem_cons, List.not_mem_nil, or_false] at hx
      obtain rfl | rfl | rfl := hx
      · exact ⟨rfl, rfl⟩
      · exact ⟨rfl, rfl⟩
      · exact ⟨rfl, rfl⟩
    · intro x hx cfg n
      simp only [List.mem_cons, List.not_mem_nil, or_false] at hx
      refine ⟨⟨trivial, trivial, fun th _ _ => ?_⟩, trivial, trivial, trivial⟩
      obtain rfl | rfl | rfl := hx
      · rfl
      · rfl
      · rfl
  obtain ⟨es, hrun⟩ := hsteps
  have heng : Engaged (commandsTo s sampleDevice.imei) ⟨1, by decide⟩ true := by
    rw [hcommands]
    exact sample_engaged
  obtain ⟨row, n, s', hexec, -⟩ := hall _ _ _ _ _ sampleAdmin _ _ List.mem_cons_self rfl rfl hrun
    (fun _ => rfl) (sample_grants s) heng resolving fun _ => rfl
  have hresult : ∀ out, (controlPlane sampleDeployment).exec 0
      (.immobilizer sampleAdmin sampleDevice.id .mobilize) resolving
      (serve sampleDeployment (.immobilizer sampleAdmin sampleDevice.id .mobilize)) 0 s = some out →
      out.1.toOption.isNone = true := fun out hout => Option.all_eq_true _ _ |>.mp hrefused out hout
  cases hresult _ hexec

end Release

end FleetTracking.ControlPlane
