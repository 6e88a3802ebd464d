import FleetTracking.ControlPlane.OneDevice

/-!
# The Mark of a Dry Test

The row of a device says when its wiring was last tested. `test` reads the row, sends the release
command built from it and writes the mark only once the tracker has confirmed, while `configure`
clears the mark when it changes the wiring, on the row that it has read. The record of a command
writes back a whole row too, with the wiring and the mark that it has read.

1. `Tests`: the server, with a log of what the guarantee has to remember of a run.
2. `InForce`: a confirmed test of the wiring, after which the wiring was not changed.
3. `MarksFresh`: no step writes a mark over a wiring that has changed in the meantime.
4. `mark_certifies`: under that condition every mark stored is in force.
-/

namespace FleetTracking.ControlPlane

open Async Transition Typestate

/-! ## What is remembered of a run -/

inductive WiringNote where
  -- Call `i`, a test, has read the row that its command is built from.
  | read (i : Nat) (row : ImmobilizerConfig)
  -- The tracker with this IMEI has confirmed the command of call `i`, a test.
  | confirmed (i : Nat) (imei : String) (command : SetDigout)
  -- The stored wiring was changed.
  | wired
  deriving DecidableEq

/-- The server, and what happened to the wiring of one device, newest first. -/
structure Tests where
  backend : Backend
  log : List WiringNote

/-- The output and the polarity of a row. -/
def ImmobilizerConfig.wiring (row : ImmobilizerConfig) : Dout × Bool := (row.dout, row.activeHigh)

/-- The wiring of the device as stored. -/
def Backend.wiring (s : Backend) (dev : Device) : Option (Dout × Bool) :=
  (s.immobilizer dev.tenantId dev.id).map ImmobilizerConfig.wiring

/-- The stored row says that it was tested. -/
def Backend.marked (s : Backend) (dev : Device) : Bool :=
  (s.immobilizer dev.tenantId dev.id).any fun row => row.testedAt.isSome

/-- What the requests of a test add to the log. -/
def testNotes (s : Backend) (i : Nat) : Call → CpOp → Outcome → List WiringNote
  | .immobilizer _ _ .test, .immobilizerGet tenantId deviceId, .resolves _ =>
    ((s.immobilizer tenantId deviceId).map (WiringNote.read i)).toList
  | .immobilizer _ _ .test, .send imei command, .resolves _ => [.confirmed i imei command]
  | _, _, _ => []

/-- What any request adds to the log. -/
def wiringNotes (dev : Device) (s s' : Backend) : List WiringNote :=
  if s'.wiring dev = s.wiring dev then [] else [.wired]

/-- The calls on a server, with the log for one device. -/
def tests (D : Deployment) (dev : Device) :
    System cpSig Nat Call Response Tests Outcome EnvMove where
  settle i c op x s :=
    let out := s.backend.settle i op x
    some (⟨out.1, testNotes s.backend i c op x ++ (wiringNotes dev s.backend out.1 ++ s.log)⟩, out.2)
  act _ _ a s :=
    let out := s.backend.act D a
    (⟨out.1, s.log⟩, out.2)
  code := serve D
  env e s := some ⟨s.backend.env e, s.log⟩

/-- The commands of a test of this wiring were confirmed by the device, and the wiring was not
changed since the row they are built from was read. -/
def InForce (dev : Device) (wiring : Dout × Bool) (log : List WiringNote) : Prop :=
  ∃ i row later earlier, log = later ++ .read i row :: earlier ∧ .wired ∉ later ∧
    .confirmed i dev.imei (row.command false) ∈ later ∧ row.wiring = wiring

/-- A mark that is stored certifies the stored wiring. -/
def Certified (dev : Device) (s : Tests) : Prop :=
  ∀ row, s.backend.immobilizer dev.tenantId dev.id = some row → row.testedAt.isSome →
    InForce dev row.wiring s.log

/-! ## The condition -/

/-- The wiring was not changed since call `i` has read the row. -/
def unwiredSince (i : Nat) : List WiringNote → Bool
  | [] => false
  | .wired :: _ => false
  | .read j _ :: log => j = i || unwiredSince i log
  | .confirmed _ _ _ :: log => unwiredSince i log

/-- A row that is written with the mark it was read with finds the stored row with a mark and
with the same wiring. -/
def Tests.CarriesMark (dev : Device) (s : Tests) (row : ImmobilizerConfig) : Prop :=
  row.testedAt.isSome = true →
    s.backend.marked dev = true ∧ s.backend.wiring dev = some row.wiring

/-- A configuration, or the record of a command, may carry a mark over; a test that sets the mark
finds the wiring as it was when it has read the row. -/
def CpOp.KeepsMark (dev : Device) (s : Tests) (i : Nat) : CpOp → Prop
  | .immobilizerUpsert row => s.CarriesMark dev row
  | .immobilizerPatch _ row patch =>
    if patch.testedAt.isSome then unwiredSince i s.log = true else s.CarriesMark dev row
  | _ => True

instance (dev : Device) (s : Tests) (row : ImmobilizerConfig) : Decidable (s.CarriesMark dev row) :=
  inferInstanceAs (Decidable (row.testedAt.isSome = true →
    s.backend.marked dev = true ∧ s.backend.wiring dev = some row.wiring))

instance (dev : Device) (s : Tests) (i : Nat) : (op : CpOp) → Decidable (op.KeepsMark dev s i)
  | .immobilizerUpsert row => inferInstanceAs (Decidable (s.CarriesMark dev row))
  | .immobilizerPatch _ row patch => inferInstanceAs (Decidable
      (if patch.testedAt.isSome then unwiredSince i s.log = true else s.CarriesMark dev row))
  | .devicesFindById _ _ _ | .orgUnitsList _ | .findByImei _ | .immobilizerGet _ _
  | .immobilizerPatchGet _ _ | .addEvent _ | .send _ _ | .hotGetLast _ _ | .hotSetLast _
  | .positionsLatest _ _ | .positionsInsertMany _ | .alertConfigGet _ | .geofencesList _
  | .alertsInsertMany _ | .tripsInsert _ => .isTrue trivial

/-- No step writes a mark over a wiring that has changed in the meantime. -/
def MarksFresh (dev : Device) (cfg : Config cpSig Call Response Tests Nat) :
    Event Call Outcome EnvMove Nat → Prop
  | .settle i x => x.takesEffect = true → ∀ th ∈ cfg.threads.lookup i,
      th.op.KeepsMark dev cfg.shared i
  | _ => True

instance (dev : Device) (cfg : Config cpSig Call Response Tests Nat) :
    (e : Event Call Outcome EnvMove Nat) → Decidable (MarksFresh dev cfg e)
  | .settle i x => inferInstanceAs (Decidable (x.takesEffect = true →
      ∀ th ∈ cfg.threads.lookup i, th.op.KeepsMark dev cfg.shared i))
  | .start _ _ | .resume _ | .env _ => .isTrue trivial

/-- The calls are about the device. -/
def AboutDevice (dev : Device) (cfg : Config cpSig Call Response Tests Nat)
    (e : Event Call Outcome EnvMove Nat) : Prop :=
  OnDevice dev ⟨cfg.shared.backend, cfg.threads⟩ e

instance (dev : Device) (cfg : Config cpSig Call Response Tests Nat)
    (e : Event Call Outcome EnvMove Nat) : Decidable (AboutDevice dev cfg e) :=
  inferInstanceAs (Decidable (OnDevice dev ⟨cfg.shared.backend, cfg.threads⟩ e))

/-! ## The log -/

section Log

variable {dev : Device} {log : List WiringNote} {i : Nat} {row : ImmobilizerConfig}

/-- The last row that call `i` has read, and what was noted since. -/
def LastRead (i : Nat) (row : ImmobilizerConfig) (log later : List WiringNote) : Prop :=
  (∃ earlier, log = later ++ .read i row :: earlier) ∧ ∀ row', .read i row' ∉ later

theorem LastRead.cons {later : List WiringNote} (h : LastRead i row log later) {n : WiringNote}
    (hn : ∀ row', n ≠ .read i row') : LastRead i row (n :: log) (n :: later) := by
  obtain ⟨⟨earlier, rfl⟩, hnone⟩ := h
  refine ⟨⟨earlier, rfl⟩, fun row' hmem => ?_⟩
  rcases List.mem_cons.mp hmem with heq | hmem
  · exact hn row' heq.symm
  · exact hnone row' hmem

/-- The wiring was not changed after the last read, if it was not changed since the read. -/
theorem unwired_of_unwiredSince {later : List WiringNote} (h : LastRead i row log later)
    (hsince : unwiredSince i log = true) : .wired ∉ later := by
  obtain ⟨⟨earlier, rfl⟩, hnone⟩ := h
  induction later with
  | nil => exact List.not_mem_nil
  | cons n later ih =>
    have hrest : ∀ row', .read i row' ∉ later := fun row' hmem =>
      hnone row' (List.mem_cons_of_mem _ hmem)
    cases n with
    | read j row' =>
      have hji : j ≠ i := by
        intro hji
        subst hji
        exact hnone row' List.mem_cons_self
      simp only [List.cons_append, unwiredSince, hji, decide_false, Bool.false_or] at hsince
      simpa using ih hrest hsince
    | confirmed j imei command =>
      simp only [List.cons_append, unwiredSince] at hsince
      simpa using ih hrest hsince
    | wired => simp [unwiredSince] at hsince

theorem InForce.cons {wiring : Dout × Bool} (h : InForce dev wiring log) {n : WiringNote}
    (hn : n ≠ .wired) : InForce dev wiring (n :: log) := by
  obtain ⟨i, row, later, earlier, rfl, hunwired, hconfirmed, hrow⟩ := h
  refine ⟨i, row, n :: later, earlier, rfl, ?_, List.mem_cons_of_mem _ hconfirmed, hrow⟩
  simp only [List.mem_cons, not_or]
  exact ⟨hn.symm, hunwired⟩

end Log

/-! ## The invariant -/

section Invariant

variable {D : Deployment} {dev : Device} {s : Tests} {ph : Nat → Option (Call × CallPhase)}
  {i : Nat} {c : Call} {q : RelayPhase}

/-- What the log knows of a call about the device: a test has read the row it works on, its
command was confirmed after that, and the row that it is to write back has the same wiring unless
the wiring was changed in the meantime. -/
structure Tester (dev : Device) (log : List WiringNote) (i : Nat) (c : Call) (q : RelayPhase) :
    Prop where
  about : q.About dev
  call : c = .immobilizer q.user q.deviceId q.request
  row : q.confirmed = true → ∃ row, q.row = some (some row)
  stored : ∀ cfg, q.stored = some cfg → q.confirmed = true
  read : q.request = .test → ∀ row, q.row = some (some row) → ∃ later, LastRead i row log later ∧
    (q.confirmed = true → .confirmed i dev.imei (row.command false) ∈ later) ∧
    (.wired ∉ later → ∀ cfg, q.stored = some cfg → cfg.wiring = row.wiring)

/-- The stored wiring is that of every row read since it was last changed, and a mark is in
force. -/
structure MarkInv (dev : Device) (s : Tests) (ph : Nat → Option (Call × CallPhase)) : Prop where
  device : dev ∈ s.backend.devices.rows
  calls : ∀ i c q, ph i = some (c, .relay q) → Tester dev s.log i c q
  coherent : ∀ i row later earlier, s.log = later ++ .read i row :: earlier → .wired ∉ later →
    s.backend.wiring dev = some row.wiring
  certified : Certified dev s

theorem LastRead.append {row : ImmobilizerConfig} {log later : List WiringNote}
    (h : LastRead i row log later) {notes : List WiringNote}
    (hnotes : ∀ row', .read i row' ∉ notes) : LastRead i row (notes ++ log) (notes ++ later) := by
  induction notes with
  | nil => exact h
  | cons n notes ih =>
    have hrest := ih fun row' hmem => hnotes row' (List.mem_cons_of_mem _ hmem)
    refine hrest.cons fun row' heq => ?_
    subst heq
    exact hnotes row' List.mem_cons_self

theorem InForce.append {wiring : Dout × Bool} {log notes : List WiringNote}
    (h : InForce dev wiring log) (hnotes : .wired ∉ notes) : InForce dev wiring (notes ++ log) := by
  induction notes with
  | nil => exact h
  | cons n notes ih =>
    simp only [List.mem_cons, not_or] at hnotes
    exact (ih hnotes.2).cons fun heq => hnotes.1 heq.symm

theorem Tester.append {log notes : List WiringNote} (h : Tester dev log i c q)
    (hnotes : ∀ row, .read i row ∉ notes) : Tester dev (notes ++ log) i c q where
  about := h.about
  call := h.call
  row := h.row
  stored := h.stored
  read htest row hrow := by
    obtain ⟨later, hlast, hconfirmed, hwiring⟩ := h.read htest row hrow
    exact ⟨notes ++ later, hlast.append hnotes, fun hc => List.mem_append_right _ (hconfirmed hc),
      fun hunwired => hwiring fun hmem => hunwired (List.mem_append_right _ hmem)⟩

/-! ## What a request adds to the log -/

section Notes

variable {b b' : Backend} {op : CpOp} {x : Outcome}

/-- A row is read by a request of a test that resolves. -/
theorem read_mem_testNotes {j : Nat} {row : ImmobilizerConfig}
    (h : .read j row ∈ testNotes b i c op x) :
    j = i ∧ ∃ tenantId deviceId reply, op = .immobilizerGet tenantId deviceId ∧
      x = .resolves reply ∧ b.immobilizer tenantId deviceId = some row := by
  unfold testNotes at h
  split at h
  case h_1 tenantId deviceId reply =>
    simp only [Option.mem_toList, Option.map_eq_some_iff] at h
    obtain ⟨row', hrow, heq⟩ := h
    cases heq
    exact ⟨rfl, tenantId, deviceId, reply, rfl, rfl, hrow⟩
  case h_2 => simp at h
  case h_3 => simp at h

theorem wired_notMem_testNotes : .wired ∉ testNotes b i c op x := by
  unfold testNotes
  split
  case h_1 => simp
  case h_2 => simp
  case h_3 => simp

theorem read_notMem_wiringNotes {j : Nat} {row : ImmobilizerConfig} :
    .read j row ∉ wiringNotes dev b b' := by
  unfold wiringNotes
  split
  · simp
  · simp

theorem wired_mem_wiringNotes : .wired ∈ wiringNotes dev b b' ↔ b'.wiring dev ≠ b.wiring dev := by
  unfold wiringNotes
  split
  case isTrue h => simp [h]
  case isFalse h => simp [h]

/-- Only reads and commands of a test are noted. -/
theorem testNotes_eq_nil (hget : ∀ tenantId deviceId, op ≠ .immobilizerGet tenantId deviceId)
    (hsend : ∀ imei command, op ≠ .send imei command) : testNotes b i c op x = [] := by
  unfold testNotes
  split
  case h_1 => exact absurd rfl (hget _ _)
  case h_2 => exact absurd rfl (hsend _ _)
  case h_3 => rfl

theorem SameRelay.wiring (h : SameRelay b b') : b'.wiring dev = b.wiring dev := by
  rw [Backend.wiring, Backend.wiring, h.immobilizer]

end Notes

/-! ## One operation -/

/-- The state after call `i` had an operation turn out. -/
def Tests.settle (dev : Device) (s : Tests) (i : Nat) (c : Call) (op : CpOp) (x : Outcome) : Tests :=
  ⟨(s.backend.settle i op x).1, testNotes s.backend i c op x ++
    (wiringNotes dev s.backend (s.backend.settle i op x).1 ++ s.log)⟩

section Settle

variable {op : CpOp} {x : Outcome}

/-- A row that was read stays read; no call reads twice. -/
theorem row_next_of_may {row : Option ImmobilizerConfig} {r : Except ApiError op.Res}
    (hmay : q.may D op) (hrow : q.row = some row) : (q.next (.answered op r)).row = some row := by
  generalize he : (Seen.answered op r : Seen cpSig) = e
  unfold RelayPhase.next
  split
  case h_2 =>
    cases he
    have hnone : q.row = none := hmay.2.2
    rw [hrow] at hnone
    cases hnone
  all_goals exact hrow

/-- The notes of a call are about no other call. -/
theorem no_read_of_ne {b b' : Backend} {j : Nat} (hji : j ≠ i) (row : ImmobilizerConfig) :
    .read j row ∉ testNotes b i c op x ++ wiringNotes dev b b' := by
  intro hmem
  rcases List.mem_append.mp hmem with hmem | hmem
  · exact hji (read_mem_testNotes hmem).1
  · exact read_notMem_wiringNotes hmem

/-- A call that has read its row reads no other. -/
theorem no_read_of_row {b b' : Backend} {old : Option ImmobilizerConfig} (hmay : q.may D op)
    (hold : q.row = some old) (row : ImmobilizerConfig) :
    .read i row ∉ testNotes b i c op x ++ wiringNotes dev b b' := by
  intro hmem
  rcases List.mem_append.mp hmem with hmem | hmem
  · obtain ⟨-, tenantId, deviceId, reply, rfl, -, -⟩ := read_mem_testNotes hmem
    have hnone : q.row = none := hmay.2.2
    rw [hold] at hnone
    cases hnone
  · exact read_notMem_wiringNotes hmem

/-- What the log knows of a call, after one more operation of it. -/
theorem Tester.settle (h : Tester dev s.log i c q) (hdev : dev ∈ s.backend.devices.rows)
    (hcoherent : ∀ row later earlier, s.log = later ++ .read i row :: earlier → .wired ∉ later →
      s.backend.wiring dev = some row.wiring) (hmay : q.may D op) :
    Tester dev (s.settle dev i c op x).log i c
      (q.next (.answered op (s.backend.settle i op x).2)) where
  about := h.about.settle hdev hmay
  call := by
    obtain ⟨hrequest, huser, hid⟩ := q.next_request (.answered op (s.backend.settle i op x).2)
    rw [hrequest, huser, hid]
    exact h.call
  row hconfirmed := by
    rcases RelayPhase.confirmed_next hconfirmed with hconfirmed | ⟨imei, command, reply, he⟩
    · obtain ⟨row, hrow⟩ := h.row hconfirmed
      exact ⟨row, row_next_of_may hmay hrow⟩
    · generalize (s.backend.settle i op x).2 = r at he ⊢
      cases he
      obtain ⟨-, -, -, -, device, row, immobilize, -, -, hrow, -⟩ := id hmay
      exact ⟨row, row_next_of_may hmay hrow⟩
  stored cfg hcfg := by
    apply RelayPhase.confirmed_kept
    rcases RelayPhase.stored_next hcfg with hcfg | ⟨tenantId, deviceId, he⟩
    · exact h.stored cfg hcfg
    · generalize (s.backend.settle i op x).2 = r at he
      cases he
      exact hmay.2.1
  read htest row hrow := by
    rw [(q.next_request _).1] at htest
    have hcall := h.call
    rw [htest] at hcall
    rw [Tests.settle, ← List.append_assoc]
    rcases RelayPhase.row_next hrow with hold | ⟨tenantId, deviceId, he⟩
    · -- the row was read before
      obtain ⟨later, hlast, hconfirmed, hwiring⟩ := h.read htest row hold
      refine ⟨_, hlast.append (no_read_of_row hmay hold), fun hc => ?_, fun hunwired cfg hcfg => ?_⟩
      · rcases RelayPhase.confirmed_next hc with hc | ⟨imei, command, reply, he⟩
        · exact List.mem_append_right _ (hconfirmed hc)
        generalize hr : (s.backend.settle i op x).2 = r at he
        cases he
        obtain ⟨-, -, -, -, device, cfg, immobilize, hdevice, rfl, hread, -, hengages, rfl, -⟩ :=
          id hmay
        obtain rfl := h.about.device device hdevice
        obtain rfl : row = cfg := Option.some.inj (Option.some.inj (hold.symm.trans hread))
        obtain rfl : false = immobilize := by
          rw [htest] at hengages
          exact Option.some.inj hengages
        cases x with
        | rejects e applied => cases hr
        | resolves reply' =>
          rw [hcall]
          simp [testNotes]
      · have hlater : .wired ∉ later := fun hmem => hunwired (List.mem_append_right _ hmem)
        rcases RelayPhase.stored_next hcfg with hcfg | ⟨tenantId, deviceId, he⟩
        · exact hwiring hlater cfg hcfg
        -- the row is read again, with the wiring as it was
        generalize hr : (s.backend.settle i op x).2 = r at he
        cases he
        obtain ⟨-, reply, hanswer⟩ := settle_ok hr
        obtain ⟨⟨rfl, rfl⟩, -⟩ := hmay
        have hfound : s.backend.immobilizer dev.tenantId dev.id = some cfg := by
          rw [← h.about.tenantId, ← h.about.deviceId]
          exact hanswer.symm
        obtain ⟨⟨earlier, hlog⟩, -⟩ := hlast
        have hsame := hcoherent row later earlier hlog hlater
        rw [Backend.wiring, hfound] at hsame
        exact Option.some.inj hsame
    · generalize hr : (s.backend.settle i op x).2 = r at he
      cases he
      obtain ⟨⟨rfl, rfl⟩, -, hnone⟩ := id hmay
      cases x with
      | rejects e applied => cases hr
      | resolves reply =>
        have hstored : s.backend.immobilizer q.user.tenantId q.deviceId = some row :=
          Except.ok.inj hr
        have hsame := settle_sameRelay (s := s.backend) (i := i) (x := .resolves reply)
          (.immobilizerGet q.user.tenantId q.deviceId) (Or.inl fun hrelays => hrelays)
        have hnotes : testNotes s.backend i c (.immobilizerGet q.user.tenantId q.deviceId)
            (.resolves reply) ++ (wiringNotes dev s.backend (s.backend.settle i
              (.immobilizerGet q.user.tenantId q.deviceId) (.resolves reply)).1) =
            [.read i row] := by
          rw [hcall, testNotes, hstored, wiringNotes, if_pos hsame.wiring]
          rfl
        rw [hnotes]
        -- a command is only confirmed after the row was read
        have hunconfirmed : q.confirmed ≠ true := by
          intro hc
          obtain ⟨row', hrow'⟩ := h.row hc
          rw [hnone] at hrow'
          cases hrow'
        refine ⟨[], ⟨⟨s.log, rfl⟩, fun row' => List.not_mem_nil⟩, fun hc => ?_, fun _ cfg hcfg => ?_⟩
        · rcases RelayPhase.confirmed_next hc with hc | ⟨imei, command, reply', he⟩
          · exact absurd hc hunconfirmed
          · cases he
        · rcases RelayPhase.stored_next hcfg with hcfg | ⟨tenantId, deviceId, he⟩
          · exact absurd (h.stored cfg hcfg) hunconfirmed
          · cases he

/-- The row that is stored when it is read, and the wiring when nothing was noted. -/
theorem MarkInv.coherent_settle (h : MarkInv dev s ph) (hi : ph i = some (c, .relay q))
    (hmay : q.may D op) (j : Nat) (row : ImmobilizerConfig) (later earlier : List WiringNote)
    (hlog : (s.settle dev i c op x).log = later ++ .read j row :: earlier)
    (hunwired : .wired ∉ later) : (s.settle dev i c op x).backend.wiring dev = some row.wiring := by
  have habout := (h.calls i c q hi).about
  rw [Tests.settle, ← List.append_assoc] at hlog
  -- a read notes the row that is stored at this very moment
  have hread : ∀ row', .read j row' ∈ testNotes s.backend i c op x ++
      wiringNotes dev s.backend (s.backend.settle i op x).1 →
      (s.settle dev i c op x).backend.wiring dev = some row'.wiring := by
    intro row' hmem
    rcases List.mem_append.mp hmem with hmem | hmem
    · obtain ⟨-, tenantId, deviceId, reply, rfl, rfl, hstored⟩ := read_mem_testNotes hmem
      obtain ⟨⟨rfl, rfl⟩, -⟩ := hmay
      have hsame := settle_sameRelay (s := s.backend) (i := i) (x := .resolves reply)
        (.immobilizerGet q.user.tenantId q.deviceId) (Or.inl fun hrelays => hrelays)
      rw [habout.tenantId, habout.deviceId] at hstored
      rw [Tests.settle, hsame.wiring, Backend.wiring, hstored]
      rfl
    · exact absurd hmem read_notMem_wiringNotes
  -- the read is in the old log, or it is one of the notes of this step
  rcases List.append_eq_append_iff.mp hlog with ⟨mid, hlater, hrest⟩ | ⟨mid, hnotes, hrest⟩
  · rw [hlater, List.mem_append, not_or] at hunwired
    have hsame : (s.settle dev i c op x).backend.wiring dev = s.backend.wiring dev := by
      by_contra hne
      exact hunwired.1 (List.mem_append_right _ (wired_mem_wiringNotes.mpr hne))
    rw [hsame]
    exact h.coherent j row mid earlier hrest hunwired.2
  · cases mid with
    | nil =>
      rw [List.append_nil] at hnotes
      rw [List.nil_append] at hrest
      have hsame : (s.settle dev i c op x).backend.wiring dev = s.backend.wiring dev := by
        by_contra hne
        rw [← hnotes] at hunwired
        exact hunwired (List.mem_append_right _ (wired_mem_wiringNotes.mpr hne))
      rw [hsame]
      exact h.coherent j row [] earlier hrest.symm List.not_mem_nil
    | cons n mid =>
      rw [List.cons_append, List.cons.injEq] at hrest
      obtain ⟨rfl, -⟩ := hrest
      apply hread
      rw [hnotes]
      simp

/-- What is in force stays in force while the row stays as it is. -/
theorem MarkInv.certified_same (h : MarkInv dev s ph)
    (hsame : (s.backend.settle i op x).1.immobilizer dev.tenantId dev.id =
      s.backend.immobilizer dev.tenantId dev.id) : Certified dev (s.settle dev i c op x) := by
  intro row hrow hmark
  rw [Tests.settle, hsame] at hrow
  rw [Tests.settle, ← List.append_assoc]
  apply (h.certified row hrow hmark).append
  intro hmem
  rcases List.mem_append.mp hmem with hmem | hmem
  · exact wired_notMem_testNotes hmem
  · refine wired_mem_wiringNotes.mp hmem ?_
    rw [Backend.wiring, Backend.wiring, hsame]

/-- A row that is written with a mark carried over is in force like the one it replaces. -/
theorem MarkInv.carried (h : MarkInv dev s ph) {row : ImmobilizerConfig}
    (hstored : (s.backend.settle i op x).1.immobilizer dev.tenantId dev.id = some row)
    (hnotes : testNotes s.backend i c op x = []) (hmarked : s.backend.marked dev = true)
    (hwiring : s.backend.wiring dev = some row.wiring) :
    InForce dev row.wiring (s.settle dev i c op x).log := by
  have hunchanged : (s.backend.settle i op x).1.wiring dev = s.backend.wiring dev := by
    rw [hwiring, Backend.wiring, hstored]
    rfl
  rw [Tests.settle, hnotes, wiringNotes, if_pos hunchanged]
  obtain ⟨old, hold, holdmark⟩ := (Option.any_eq_true _ _).mp hmarked
  have hsame : old.wiring = row.wiring := by
    rw [Backend.wiring, hold] at hwiring
    exact Option.some.inj hwiring
  rw [← hsame]
  exact h.certified old hold holdmark

/-- A configuration carries a mark over, or clears it. -/
theorem MarkInv.certified_upsert (h : MarkInv dev s ph) (hi : ph i = some (c, .relay q))
    {cfg : ImmobilizerConfig} (hmay : q.may D (.immobilizerUpsert cfg))
    (hx : x.takesEffect = true) (hkeeps : CpOp.KeepsMark dev s i (.immobilizerUpsert cfg)) :
    Certified dev (s.settle dev i c (.immobilizerUpsert cfg) x) := by
  have habout := (h.calls i c q hi).about
  have hstored : (s.backend.settle i (.immobilizerUpsert cfg) x).1.immobilizer
      dev.tenantId dev.id = some cfg := by
    obtain ⟨-, dto, current, createdAt, -, -, rfl⟩ := hmay
    have hstored := immobilizer_upsert s.backend
      (configured q.user q.deviceId dto current createdAt)
    rw [settle_effect (.immobilizerUpsert _) trivial hx]
    simp only [configured, habout.tenantId, habout.deviceId] at hstored ⊢
    exact hstored
  intro row hrow hmark
  obtain rfl : cfg = row := Option.some.inj (hstored.symm.trans hrow)
  obtain ⟨hmarked, hwiring⟩ := hkeeps hmark
  apply h.carried hstored ?_ hmarked hwiring
  apply testNotes_eq_nil
  · intro tenantId deviceId he
    cases he
  · intro imei command he
    cases he

/-- A test sets the mark for the wiring it has tested, or a mark is carried over. -/
theorem MarkInv.certified_patch (h : MarkInv dev s ph) (hi : ph i = some (c, .relay q))
    {deviceId : String} {read : ImmobilizerConfig} {patch : ImmobilizerPatch}
    (hmay : q.may D (.immobilizerPatch deviceId read patch)) (hx : x.takesEffect = true)
    (hkeeps : CpOp.KeepsMark dev s i (.immobilizerPatch deviceId read patch)) :
    Certified dev (s.settle dev i c (.immobilizerPatch deviceId read patch) x) := by
  obtain ⟨rfl, hread, hconfirmed, -, -, htest⟩ := hmay
  have hcall := h.calls i c q hi
  have hstored : (s.backend.settle i (.immobilizerPatch q.deviceId read patch) x).1.immobilizer
      dev.tenantId dev.id = some (patch.apply read) := by
    rw [settle_effect (.immobilizerPatch _ _ _) trivial hx, hcall.about.deviceId]
    exact immobilizer_patch s.backend patch (hcall.about.stored read hread)
  have hnotes : testNotes s.backend i c (.immobilizerPatch q.deviceId read patch) x = [] := by
    apply testNotes_eq_nil
    · intro tenantId deviceId he
      cases he
    · intro imei command he
      cases he
  intro row hrow hmark
  obtain rfl : patch.apply read = row := Option.some.inj (hstored.symm.trans hrow)
  rw [CpOp.KeepsMark] at hkeeps
  split at hkeeps
  case isFalse hset =>
    -- the mark of the row that was read
    have hcarried : read.testedAt.isSome = true := by
      simpa [ImmobilizerPatch.apply, Option.not_isSome_iff_eq_none.mp hset] using hmark
    obtain ⟨hmarked, hwiring⟩ := hkeeps hcarried
    exact h.carried hstored hnotes hmarked hwiring
  case isTrue hset =>
    -- the mark of the test itself: nothing was rewired since it has read its row
    obtain ⟨tested, htested⟩ := hcall.row hconfirmed
    obtain ⟨later, hlast, hsent, hagain⟩ := hcall.read (htest hset) tested htested
    have hunwired := unwired_of_unwiredSince hlast hkeeps
    obtain ⟨⟨earlier, hlog⟩, -⟩ := hlast
    have hwritten : read.wiring = tested.wiring := hagain hunwired read hread
    have hunchanged : (s.backend.settle i (.immobilizerPatch q.deviceId read patch) x).1.wiring dev =
        s.backend.wiring dev := by
      rw [h.coherent i tested later earlier hlog hunwired, Backend.wiring, hstored, ← hwritten]
      rfl
    rw [Tests.settle, hnotes, wiringNotes, if_pos hunchanged]
    exact ⟨i, tested, later, earlier, hlog, hunwired, hsent hconfirmed, hwritten.symm⟩

/-- An operation of a call to the immobilizer keeps the invariant. -/
theorem MarkInv.settle_relay (h : MarkInv dev s ph) (hi : ph i = some (c, .relay q))
    (hmay : q.may D op) (hkeeps : x.takesEffect = true → op.KeepsMark dev s i) :
    MarkInv dev (s.settle dev i c op x) (Function.update ph i
      (some (c, .relay (q.next (.answered op (s.backend.settle i op x).2))))) where
  device := by
    rw [Tests.settle, settle_devices]
    exact h.device
  calls j c' q' hj := by
    rcases update_some_iff.mp hj with ⟨rfl, heq⟩ | ⟨hji, hj⟩
    · cases heq
      exact (h.calls _ c q hi).settle h.device (h.coherent _) hmay
    · rw [Tests.settle, ← List.append_assoc]
      exact (h.calls j c' q' hj).append (no_read_of_ne hji)
  coherent := h.coherent_settle hi hmay
  certified := by
    -- an answer that takes no effect, or an operation of another kind, changes no mark
    by_cases hsame : ¬ op.Relays ∨ x.takesEffect = false
    · exact h.certified_same ((settle_sameRelay op hsame).immobilizer _ _)
    · simp only [not_or, not_not, Bool.not_eq_false] at hsame
      obtain ⟨hop, hx⟩ := hsame
      cases op with
      | immobilizerUpsert cfg => exact h.certified_upsert hi hmay hx (hkeeps hx)
      | immobilizerPatch deviceId row patch =>
        exact h.certified_patch hi hmay hx (hkeeps hx)
      | send imei command =>
        apply h.certified_same
        rw [settle_effect _ hop hx]
        rfl
      | _ => exact hop.elim

/-- A call of another kind does nothing to the row, and notes nothing. -/
theorem MarkInv.settle_other {p' : CallPhase} (h : MarkInv dev s ph)
    (hp' : ∀ q, p' ≠ .relay q) (hop : ¬ op.Relays)
    (hget : ∀ tenantId deviceId, op ≠ .immobilizerGet tenantId deviceId) :
    MarkInv dev (s.settle dev i c op x) (Function.update ph i (some (c, p'))) := by
  have hsame := settle_sameRelay (s := s.backend) (i := i) (x := x) op (Or.inl hop)
  have hlog : (s.settle dev i c op x).log = s.log := by
    have hnotes : testNotes s.backend i c op x = [] := by
      refine testNotes_eq_nil hget fun imei command he => ?_
      subst he
      exact hop trivial
    rw [Tests.settle, hnotes, wiringNotes, if_pos hsame.wiring]
    rfl
  refine ⟨?_, fun j c' q hj => ?_, fun j row later earlier hread hunwired => ?_,
    h.certified_same (hsame.immobilizer _ _)⟩
  · rw [Tests.settle, hsame.devices]
    exact h.device
  · rw [hlog]
    rcases update_some_iff.mp hj with ⟨-, heq⟩ | ⟨-, hj⟩
    · cases heq
      exact absurd rfl (hp' q)
    · exact h.calls j c' q hj
  · rw [hlog] at hread
    rw [Tests.settle, hsame.wiring]
    exact h.coherent j row later earlier hread hunwired

end Settle

/-- What happens elsewhere leaves the wiring as it is. -/
theorem MarkInv.congr {b : Backend} {p' : CallPhase} (h : MarkInv dev s ph)
    (hsame : SameRelay s.backend b) (hcall : ∀ q, p' = .relay q → Tester dev s.log i c q) :
    MarkInv dev ⟨b, s.log⟩ (Function.update ph i (some (c, p'))) where
  device := by
    rw [hsame.devices]
    exact h.device
  calls j c' q hj := by
    rcases update_some_iff.mp hj with ⟨rfl, heq⟩ | ⟨-, hj⟩
    · cases heq
      exact hcall q rfl
    · exact h.calls j c' q hj
  coherent j row later earlier hlog hunwired := by
    rw [hsame.wiring]
    exact h.coherent j row later earlier hlog hunwired
  certified row hrow := by
    rw [hsame.immobilizer] at hrow
    exact h.certified row hrow

end Invariant

/-! ## Runs -/

section Runs

variable {D : Deployment} {dev : Device}

/-- What is asked of the steps of a run: the calls to the immobilizer are about the device, and no
step writes a mark over a wiring that has changed in the meantime. -/
def MarkStep (dev : Device) (cfg : Config cpSig Call Response Tests Nat)
    (e : Event Call Outcome EnvMove Nat) : Prop :=
  AboutDevice dev cfg e ∧ MarksFresh dev cfg e

instance (dev : Device) (cfg : Config cpSig Call Response Tests Nat)
    (e : Event Call Outcome EnvMove Nat) : Decidable (MarkStep dev cfg e) :=
  inferInstanceAs (Decidable (_ ∧ _))

/-- A call starts without having read the row. -/
theorem tester_init {log : List WiringNote} {i : Nat} {user : AuthUser} {deviceId : String}
    {request : ImmobilizerRequest} (htenant : user.tenantId = dev.tenantId)
    (hid : deviceId = dev.id) :
    Tester dev log i (.immobilizer user deviceId request) { user, deviceId, request } where
  about := ⟨htenant, hid, fun _ h => (nomatch h), fun _ h => (nomatch h)⟩
  call := rfl
  row h := nomatch h
  stored _ h := nomatch h
  read _ _ h := nomatch h

theorem mark_preserves :
    Preserves (tests D dev) (controlCalls D) (MarkStep dev) (MarkInv dev) where
  code c := serve_conforms c
  start cfg i c h _ hok := by
    refine h.congr ⟨rfl, rfl, rfl⟩ fun q hq => ?_
    cases c with
    | immobilizer user deviceId req =>
      cases hq
      -- a relay begins with the device it was given and has read nothing
      exact tester_init hok.1.1 hok.1.2
    | process batch => cases hq
    | latest user deviceId => cases hq
  act s ph i c q a h hi hmay := by
    refine h.congr (act_sameRelay D s.backend a) fun q' hq => ?_
    cases q with
    | relay q =>
      obtain rfl : a = .now := hmay
      cases hq
      exact h.calls i c q hi
    | ingest q => cases hq
    | serve q => cases hq
  settle cfg i th x s' r h hth hmay hok hs := by
    cases hs
    have hi := phases_of_lookup (T := controlCalls D) hth
    have hkeeps : x.takesEffect = true → th.op.KeepsMark dev cfg.shared i := fun hx => hok.2 hx th hth
    -- only the relay's operations touch the immobilizer; the other two kinds leave it alone
    revert hmay hi
    generalize (controlCalls D).phaseOf th = p
    intro hmay hi
    cases p with
    | relay q => exact h.settle_relay hi hmay hkeeps
    | ingest q =>
      refine h.settle_other (fun _ he => nomatch he) (fun hop => ?_) fun tenantId deviceId hop => ?_
      · revert hmay hop
        cases th.op <;> simp [controlCalls, IngestPhase.may, CpOp.Relays]
      · rw [hop] at hmay
        exact hmay
    | serve q =>
      refine h.settle_other (fun _ he => nomatch he) (fun hop => ?_) fun tenantId deviceId hop => ?_
      · revert hmay hop
        cases th.op <;> simp [controlCalls, ServePhase.may, CpOp.Relays]
      · rw [hop] at hmay
        exact hmay
  finish s ph i c q r h hi hdone :=
    ⟨h.device, fun j c' q' hj => h.calls j c' q' (update_none_iff.mp hj).2, h.coherent, h.certified⟩
  env cfg e s' h hok hs := by
    cases hs
    -- time and the expiry of a hot entry leave devices and wiring as they are
    have hsame := env_sameRelay cfg.shared.backend e
    refine ⟨?_, h.calls, fun j row later earlier hlog hunwired => ?_, fun row hrow => ?_⟩
    · rw [hsame.devices]
      exact h.device
    · rw [hsame.wiring]
      exact h.coherent j row later earlier hlog hunwired
    · rw [hsame.immobilizer] at hrow
      exact h.certified row hrow

/-- **The mark certifies the wiring.** However the calls to the immobilizer of a device are
interleaved, and whatever becomes of their requests, as long as no step writes a mark over a wiring
that has changed in the meantime: in every state reached in which the stored row is marked as
tested, a test command for exactly the stored output and polarity was confirmed by the device,
and the wiring was not changed since the row that command is built from was read. -/
theorem mark_certifies {s₀ : Backend} (hdev : dev ∈ s₀.devices.rows)
    (hunmarked : s₀.marked dev = false) {es : List (Event Call Outcome EnvMove Nat)}
    {cfg : Config cpSig Call Response Tests Nat}
    (hrun : Run (tests D dev).step (MarkStep dev) (Config.start ⟨s₀, []⟩) es cfg) :
    Certified dev cfg.shared := by
  have hinit : MarkInv dev ⟨s₀, []⟩ fun _ => none := by
    refine ⟨hdev, fun _ _ _ hi => (nomatch hi), fun _ _ later _ hlog => ?_, fun row hrow hmark => ?_⟩
    · exact absurd hlog.symm (List.append_ne_nil_of_right_ne_nil later (List.cons_ne_nil _ _))
    · rw [Backend.marked, hrow] at hunmarked
      simp [hmark] at hunmarked
  exact (mark_preserves.invariant hinit hrun).certified

/-- The operations of a call turn out well, one after the other. -/
def allResolve (i n : Nat) : List (Event Call Outcome EnvMove Nat) :=
  (List.replicate n [.settle i (.resolves "OK"), .resume i]).flatten

/-- The sample device with its immobilizer enabled and not tested yet. -/
def untested : Backend :=
  sampleBackend.effect (.immobilizerUpsert (configured sampleAdmin sampleDevice.id
    ⟨true, none, none, none⟩ none "2026-01-01T00:00:00.000Z"))

/-- The output is changed, and then tested. -/
def configuredThenTested : List (Event Call Outcome EnvMove Nat) :=
  [.start 0 (.immobilizer sampleAdmin "d1" (.configure ⟨true, some ⟨2, by decide⟩, none, none⟩))] ++
    allResolve 0 4 ++ [.start 1 (sampleCall .test).1] ++ allResolve 1 7

theorem sample_mark_certifies : ∃ cfg,
    Run (tests sampleDeployment sampleDevice).step (MarkStep sampleDevice)
      (Config.start ⟨untested, []⟩) configuredThenTested cfg ∧
    cfg.shared.backend.marked sampleDevice = true ∧ Certified sampleDevice cfg.shared := by
  have hexists : ∃ cfg, Run (tests sampleDeployment sampleDevice).step (MarkStep sampleDevice)
      (Config.start ⟨untested, []⟩) configuredThenTested cfg ∧
      cfg.shared.backend.marked sampleDevice = true := by
    apply Run.exists_of_any
    decide +kernel
  obtain ⟨cfg, hrun, hmarked⟩ := hexists
  exact ⟨cfg, hrun, hmarked, mark_certifies List.mem_cons_self (by decide) hrun⟩

/-- A test has read the row; the output is changed before the tracker confirms. -/
def configuredWhileTested : List (Event Call Outcome EnvMove Nat) :=
  ([.start 0 (sampleCall .test).1] : List (Event Call Outcome EnvMove Nat)) ++
    allResolve 0 3 ++
    ([.start 1 (.immobilizer sampleAdmin "d1" (.configure ⟨true, some ⟨2, by decide⟩, none,
      none⟩))] :
      List (Event Call Outcome EnvMove Nat)) ++
    allResolve 1 4 ++
    allResolve 0 4

/-- No command that was confirmed drives the output of the stored row. -/
def Tests.untestedOutput (dev : Device) (s : Tests) : Bool :=
  (s.backend.immobilizer dev.tenantId dev.id).any fun row => s.log.all fun n =>
    match n with
    | .confirmed _ _ command => command.drives row.dout = none
    | _ => true

theorem not_certified_of_untestedOutput {s : Tests} (hmarked : s.backend.marked dev = true)
    (huntested : s.untestedOutput dev = true) : ¬ Certified dev s := by
  intro hcertified
  obtain ⟨row, hrow, hmark⟩ := (Option.any_eq_true _ _).mp hmarked
  obtain ⟨i, tested, later, earlier, hlog, -, hconfirmed, hwiring⟩ := hcertified row hrow hmark
  obtain ⟨row', hrow', hall⟩ := (Option.any_eq_true _ _).mp huntested
  obtain rfl : row = row' := Option.some.inj (hrow.symm.trans hrow')
  have hmem : .confirmed i dev.imei (tested.command false) ∈ s.log := by
    rw [hlog]
    exact List.mem_append_left _ hconfirmed
  have hnone : (tested.command false).drives row.dout = none := by
    simpa using List.all_eq_true.mp hall _ hmem
  have hdout : tested.dout = row.dout := congrArg Prod.fst hwiring
  rw [command_drives, if_pos hdout.symm] at hnone
  cases hnone

/-- **The mark of one wiring stands on another.** Both calls have ended, the row says tested, and
no command that was confirmed drives the output of the row. -/
theorem mark_on_untested_wiring : untested.marked sampleDevice = false ∧ ∃ cfg,
    Run (tests sampleDeployment sampleDevice).step (AboutDevice sampleDevice)
      (Config.start ⟨untested, []⟩) configuredWhileTested cfg ∧
    cfg.threads.keys = [] ∧ cfg.shared.untestedOutput sampleDevice = true ∧
      ¬ Certified sampleDevice cfg.shared := by
  have hexists : ∃ cfg, Run (tests sampleDeployment sampleDevice).step (AboutDevice sampleDevice)
      (Config.start ⟨untested, []⟩) configuredWhileTested cfg ∧
      cfg.threads.keys = [] ∧ cfg.shared.backend.marked sampleDevice = true ∧
        cfg.shared.untestedOutput sampleDevice = true := by
    apply Run.exists_of_any
    decide +kernel
  obtain ⟨cfg, hrun, hended, hmarked, huntested⟩ := hexists
  exact ⟨by decide, cfg, hrun, hended, huntested, not_certified_of_untestedOutput hmarked huntested⟩

end Runs

end FleetTracking.ControlPlane
