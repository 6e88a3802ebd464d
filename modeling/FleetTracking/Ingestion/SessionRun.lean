import FleetTracking.Ingestion.Delivery
import FleetTracking.Ingestion.Session
import FleetTracking.Lib.Transition

/-!
# A Session at Work

The chain of a session, with the handling of its AVL frames down to the single awaits:
chunks arrive at any time, the drains they queue run one after the other, and each stops
where it awaits the allow-list, the deduper or the sink. What the session does is kept in
a log.

1. `runTo`: synchronous code up to its next `await`.
2. `SessionRun.step`: the events of a session.
3. `loop_spec'`, `Logs`: what running on does to the session, and what it adds to the log.
-/

namespace FleetTracking.Ingestion

open FleetTracking.Protocol Async Transition

/-- What happens on a session, in the order it happens. -/
inductive Entry where
  -- A login frame was read, and the allow-list is asked.
  | asked (imei : String)
  -- The allow-list has answered yes; `session.imei` is set.
  | allowed (imei : String)
  -- The session is registered with the server.
  | authenticated (imei : String)
  -- `checkAndSet` is called.
  | checking (key : String)
  -- `sink.write` is called.
  | writing (records : List NormalizedTelemetry)
  -- The write has resolved.
  | wrote (records : List NormalizedTelemetry)
  -- An AVL frame is acknowledged.
  | ack (buf : Buffer)
  -- Other bytes are sent: the answer to the login, a command.
  | sent (buf : Buffer)
  -- The transport is closed.
  | closed

/-- A call is logged when it is made. -/
def called : IngestOp → List Entry
  | .checkAndSet key => [.checking key]
  | .write records => [.writing records]
  | .isAllowed imei => [.asked imei]

/-- What a handler does at once. -/
def acted : IngestAct → Entry
  | .send buf => .ack buf
  | .close => .closed

/-- Run a handler up to its next `await`. -/
def runTo : Async ingestSig Unit → List Entry × Halt ingestSig Unit
  | .pure a => ([], .finished (.ok a))
  | .throw e => ([], .finished (.error e))
  | .await op k => (called op, .awaiting op k)
  | .act a k =>
    let r := runTo (k ())
    (acted a :: r.1, r.2)

/-- What a session does, as far as it is logged: the promises of commands are not. -/
def outputEntry : Output → List Entry
  | .send buf => [.sent buf]
  | .close => [.closed]
  | .authenticated imei => [.authenticated imei]
  | .resolve _ _ => []
  | .reject _ _ => []

/-- A session with the handling of its current AVL frame. -/
structure SessionRun where
  session : Session
  -- What is left of `handleAvl`, in the state `storing`.
  handling : Option (Halt ingestSig Unit)
  -- All bytes that have arrived.
  received : Buffer
  -- How many calls of `checkAndSet` were answered.
  checks : Nat
  log : List Entry

namespace SessionRun

def init : SessionRun := ⟨Session.init, none, [], 0, []⟩

/-- What happens to a session. -/
inductive Ev where
  -- `onData`.
  | data (chunk : Buffer)
  -- The chain comes to the next drain.
  | drain
  -- `isAllowed` settles.
  | allowed (r : Except JsError Bool)
  -- `checkAndSet` settles.
  | checked (r : Except JsError Bool)
  -- `sink.write` settles.
  | written (r : Except JsError Unit)
  -- `handleAvl` is over, and the drain that awaits it runs on.
  | handled
  -- `sendCommand`.
  | command (id now : Nat) (text : String)
  -- The timer of a command fires.
  | commandTimedOut (id : Nat)
  -- The connection is closed.
  | handleClosed

/-- The session has run on and stops: at an AVL frame, whose handling begins, at a login,
for which the allow-list is asked, or because nothing is left to do. -/
def goOn (sha1 : String → String) (r : SessionRun) (before : List Entry)
    (out : Session × List Output) : SessionRun :=
  let log := r.log ++ before ++ out.2.flatMap outputEntry
  match out.1.state with
  | .storing imei frame =>
    let h := runTo (handleAvl sha1 imei frame)
    { r with session := out.1, handling := some h.2, log := log ++ h.1 }
  | .checking imei => { r with session := out.1, handling := none, log := log ++ [.asked imei] }
  | _ => { r with session := out.1, handling := none, log }

/-- The handler runs on. -/
def handlerGoesOn (r : SessionRun) (before : List Entry) (code : Async ingestSig Unit) :
    SessionRun :=
  let h := runTo code
  { r with handling := some h.2, log := r.log ++ before ++ h.1 }

/-- The entry for a login that was accepted. -/
def loginEntry (state : SessionState) (r : Except JsError Bool) : List Entry :=
  match state, r with
  | .checking imei, .ok true => [.allowed imei]
  | _, _ => []

/-- The entry for a write that resolved. -/
def writeEntry (records : List NormalizedTelemetry) : Except JsError Unit → List Entry
  | .ok () => [.wrote records]
  | .error _ => []

/-- One event. -/
def step (sha1 : String → String) (r : SessionRun) : Ev → Option SessionRun
  | .data chunk =>
    some { r with session := r.session.onData chunk, received := r.received ++ chunk }
  | .drain => r.session.drain.map (goOn sha1 r [])
  | .allowed a =>
    (r.session.loginAnswered a).map (goOn sha1 r (loginEntry r.session.state a))
  | .checked a =>
    match r.handling with
    | some (.awaiting (.checkAndSet _) k) =>
      some { handlerGoesOn r [] (k a) with checks := r.checks + 1 }
    | _ => none
  | .written a =>
    match r.handling with
    | some (.awaiting (.write records) k) =>
      some (handlerGoesOn r (writeEntry records a) (k a))
    | _ => none
  | .handled =>
    match r.handling with
    | some (.finished a) => (r.session.stored a).map (goOn sha1 r [])
    | _ => none
  | .command id now text =>
    match r.session.sendCommand id now text with
    | .error _ => some r
    | .ok (session, out) => some { r with session, log := r.log ++ out.flatMap outputEntry }
  | .commandTimedOut id => some { r with session := (r.session.commandTimedOut id).1 }
  | .handleClosed => some { r with session := r.session.handleClosed.1 }

end SessionRun

/-! ## What running on does -/

namespace Session

/-- A Codec 12 frame is handled without an entry in the log. -/
theorem handleCodec12_entries {pending pending' : List PendingCommand} {frame : Buffer}
    {out : List Output} (h : handleCodec12 pending frame = .ok (pending', out)) :
    out.flatMap outputEntry = [] := by
  unfold handleCodec12 at h
  cases hdec : decodeCodec12 frame with
  | error e =>
    rw [hdec] at h
    cases h
  | ok msg =>
    rw [hdec] at h
    by_cases hty : msg.type ≠ TYPE_RESPONSE
    · simp only [bind, Except.bind, hty, ne_eq, not_false_eq_true, if_true] at h
      cases h
      rfl
    · cases pending with
      | nil =>
        simp only [bind, Except.bind, hty, if_false] at h
        cases h
        rfl
      | cons p rest =>
        simp only [bind, Except.bind, hty, if_false] at h
        cases h
        rfl

/-- The frame loop only takes bytes from the front of the buffer, and adds nothing to the log.
Induction on the rounds of the loop. -/
theorem frames_spec (buffer : Buffer) (pending : List PendingCommand) :
    (frames buffer pending).1 <:+ buffer ∧
      (frames buffer pending).2.2.1.flatMap outputEntry = [] := by
  -- every frame taken shortens the buffer
  induction hn : buffer.length using Nat.strong_induction_on generalizing buffer pending with
  | _ n ih =>
    cases h : extractFrame buffer with
    | none =>
      rw [frames_none h]
      exact ⟨List.suffix_refl _, rfl⟩
    | some p =>
      obtain ⟨frame, rest⟩ := p
      have hrest : rest <:+ buffer := extractFrame_suffix h
      rw [frames_some h]
      split
      · cases hc : handleCodec12 pending frame with
        | error e => exact ⟨hrest, rfl⟩
        | ok r =>
          obtain ⟨pending', out⟩ := r
          have hih := ih rest.length (hn ▸ extractFrame_rest h) rest pending' rfl
          refine ⟨hih.1.trans hrest, ?_⟩
          simp only
          rw [List.flatMap_append, handleCodec12_entries hc, hih.2]
          rfl
      · split
        · exact ⟨hrest, rfl⟩
        · exact ⟨hrest, rfl⟩

/-- Where the loop leaves the session. -/
theorem loop_spec' (s : Session) (imei : String) :
    (s.loop imei).1.buffer <:+ s.buffer ∧
      (((s.loop imei).1.state = .ready imei ∧
          ((s.loop imei).2.flatMap outputEntry = [] ∨
            (s.loop imei).2.flatMap outputEntry = [.closed])) ∨
        ∃ frame, (s.loop imei).1.state = .storing imei frame ∧
          (frames s.buffer s.pendingCommands).2.2.2 = .avl frame ∧
          (s.loop imei).2.flatMap outputEntry = []) := by
  have h := frames_spec s.buffer s.pendingCommands
  unfold loop
  split
  case h_1 heq =>
    rw [heq] at h
    exact ⟨h.1, Or.inl ⟨rfl, Or.inl h.2⟩⟩
  case h_2 frame heq =>
    rw [heq] at h
    rw [heq]
    exact ⟨h.1, Or.inr ⟨frame, rfl, rfl, h.2⟩⟩
  case h_3 heq =>
    rw [heq] at h
    refine ⟨h.1, Or.inl ⟨rfl, Or.inr ?_⟩⟩
    simp only
    rw [List.flatMap_append, h.2]
    rfl

/-- The loop stops at an AVL frame. -/
theorem loop_avl {s : Session} (imei : String) {frame : Buffer}
    (h : (frames s.buffer s.pendingCommands).2.2.2 = .avl frame) :
    (s.loop imei).1.state = .storing imei frame ∧
      (s.loop imei).2.flatMap outputEntry = [] := by
  have hspec := frames_spec s.buffer s.pendingCommands
  unfold loop
  split
  case h_1 heq =>
    rw [heq] at h
    cases h
  case h_2 frame' heq =>
    rw [heq] at h hspec
    cases h
    exact ⟨rfl, hspec.2⟩
  case h_3 heq =>
    rw [heq] at h
    cases h

/-- A frame that is handled as AVL data: by its codec byte. -/
def IsAvl (frame : Buffer) : Prop :=
  (frame.getD 8 0).toNat = CODEC_8 ∨ (frame.getD 8 0).toNat = CODEC_8_EXT ∨
    (frame.getD 8 0).toNat = CODEC_16

/-- The first AVL frame of a buffer: before it are only Codec 12 frames that can be decoded. -/
inductive NextAvl : Buffer → Buffer → Prop where
  | here {buffer frame rest : Buffer} (hextract : extractFrame buffer = some (frame, rest))
      (havl : IsAvl frame) : NextAvl buffer frame
  | skip {buffer frame rest next : Buffer} {msg : Codec12Message}
      (hextract : extractFrame buffer = some (frame, rest))
      (hcodec : (frame.getD 8 0).toNat = CODEC_12) (hmsg : decodeCodec12 frame = .ok msg)
      (hrest : NextAvl rest next) : NextAvl buffer next

theorem not_isAvl_of_codec12 {frame : Buffer} (h : (frame.getD 8 0).toNat = CODEC_12) :
    ¬ IsAvl frame := by
  unfold IsAvl
  rw [h]
  decide

/-- A Codec 12 frame is handled if and only if it can be decoded. -/
theorem handleCodec12_ok_iff {pending : List PendingCommand} {frame : Buffer} :
    (∃ r, handleCodec12 pending frame = .ok r) ↔ ∃ msg, decodeCodec12 frame = .ok msg := by
  unfold handleCodec12
  cases hdec : decodeCodec12 frame with
  | error e => simp [bind, Except.bind]
  | ok msg =>
    by_cases hty : msg.type ≠ TYPE_RESPONSE
    · simp [bind, Except.bind, hty, pure, Except.pure]
    · cases pending with
      | nil => simp [bind, Except.bind, hty, pure, Except.pure]
      | cons p rest => simp [bind, Except.bind, hty, pure, Except.pure]

/-- The loop stops at the first AVL frame. Induction on the rounds of the loop. -/
theorem frames_avl_iff (buffer next : Buffer) (pending : List PendingCommand) :
    (frames buffer pending).2.2.2 = .avl next ↔ NextAvl buffer next := by
  -- induction on the length of the buffer: each frame that is taken off makes it shorter
  induction hn : buffer.length using Nat.strong_induction_on generalizing buffer pending with
  | _ n ih =>
    cases h : extractFrame buffer with
    | none =>
      rw [frames_none h]
      refine ⟨fun hnext => (by cases hnext), fun hnext => ?_⟩
      cases hnext with
      | here hextract _ => simp [h] at hextract
      | skip hextract _ _ _ => simp [h] at hextract
    | some p =>
      obtain ⟨frame, rest⟩ := p
      rw [frames_some h]
      by_cases hcodec : (frame.getD 8 0).toNat = CODEC_12
      · rw [if_pos hcodec]
        have hnot := not_isAvl_of_codec12 hcodec
        cases hc : handleCodec12 pending frame with
        -- a command frame that does not decode ends the loop
        | error e =>
          refine ⟨fun hnext => (by cases hnext), fun hnext => ?_⟩
          cases hnext with
          | here hextract havl =>
            rw [h] at hextract
            cases hextract
            exact absurd havl hnot
          | skip hextract _ hmsg _ =>
            rw [h] at hextract
            cases hextract
            obtain ⟨r, hr⟩ := handleCodec12_ok_iff.mpr ⟨_, hmsg⟩
            rw [hc] at hr
            cases hr
        -- a command frame that does is passed over
        | ok r =>
          obtain ⟨msg, hmsg⟩ := handleCodec12_ok_iff.mp ⟨r, hc⟩
          have hih := ih rest.length (hn ▸ extractFrame_rest h) rest r.1 rfl
          refine ⟨fun hnext => .skip h hcodec hmsg (hih.mp hnext), fun hnext => hih.mpr ?_⟩
          cases hnext with
          | here hextract havl =>
            rw [h] at hextract
            cases hextract
            exact absurd havl hnot
          | skip hextract _ _ hrest =>
            rw [h] at hextract
            cases hextract
            exact hrest
      · rw [if_neg hcodec]
        constructor
        · intro hnext
          split at hnext
          case isTrue havl =>
            cases hnext
            exact .here h havl
          case isFalse => cases hnext
        · intro hnext
          cases hnext with
          | here hextract havl =>
            rw [h] at hextract
            cases hextract
            unfold IsAvl at havl
            rw [if_pos havl]
          | skip hextract hcodec' _ _ =>
            rw [h] at hextract
            cases hextract
            exact absurd hcodec' hcodec

/-- A drain of a session that is logged in goes on with the frame loop. -/
theorem drain_ready {s : Session} {imei : String} {out : Session × List Output}
    (hst : s.state = .ready imei) (h : s.drain = some out) : ∃ s' : Session,
      s'.buffer = s.buffer ∧ s'.pendingCommands = s.pendingCommands ∧
        s'.queued + 1 = s.queued ∧ out = s'.loop imei := by
  unfold drain at h
  split at h
  case h_1 hanon =>
    rw [hst] at hanon
    cases hanon
  case h_2 queued imei' hq hready =>
    rw [hst] at hready
    cases hready
    cases h
    exact ⟨{ s with queued }, rfl, rfl, hq.symm, rfl⟩
  case h_3 => cases h

/-- An answer to the login: yes, or no, and the device is told. -/
theorem loginAnswered_entries {s : Session} {b : Bool} {out : Session × List Output}
    (h : s.loginAnswered (.ok b) = some out) : ∃ imei, s.state = .checking imei ∧
      ((b = true ∧ ∃ rest, out.2.flatMap outputEntry =
          .sent ACCEPT :: .authenticated imei :: rest) ∨
        (b = false ∧ out.2.flatMap outputEntry = [.sent REJECT, .closed])) := by
  unfold loginAnswered at h
  split at h
  case h_1 imei hst heq =>
    cases heq
    cases h
    exact ⟨imei, hst, Or.inl ⟨rfl, _, rfl⟩⟩
  case h_2 imei hst heq =>
    cases heq
    cases h
    exact ⟨imei, hst, Or.inr ⟨rfl, rfl⟩⟩
  case h_3 heq => cases heq
  case h_4 => cases h

end Session

namespace SessionRun

section Stops

variable {sha1 : String → String} {r : SessionRun} {imei : String}

/-- The session stops with nothing to handle. -/
theorem goOn_rest {before : List Entry} {out : Session × List Output}
    (hstoring : ∀ imei frame, out.1.state ≠ .storing imei frame)
    (hchecking : ∀ imei, out.1.state ≠ .checking imei) :
    goOn sha1 r before out =
      { r with
        session := out.1, handling := none
        log := r.log ++ before ++ out.2.flatMap outputEntry } := by
  unfold goOn
  cases hst : out.1.state with
  | storing imei frame => exact absurd hst (hstoring imei frame)
  | checking imei => exact absurd hst (hchecking imei)
  | anonymous => rfl
  | ready imei => rfl

/-- The session stops at a login. -/
theorem goOn_checking {before : List Entry} {out : Session × List Output}
    (hst : out.1.state = .checking imei) :
    goOn sha1 r before out =
      { r with
        session := out.1, handling := none
        log := r.log ++ before ++ out.2.flatMap outputEntry ++ [.asked imei] } := by
  unfold goOn
  simp only [hst]

/-- The session stops at an AVL frame. -/
theorem goOn_storing {before : List Entry} {out : Session × List Output} {frame : Buffer}
    (hst : out.1.state = .storing imei frame) :
    goOn sha1 r before out =
      { r with
        session := out.1, handling := some (runTo (handleAvl sha1 imei frame)).2
        log := r.log ++ before ++ out.2.flatMap outputEntry ++
          (runTo (handleAvl sha1 imei frame)).1 } := by
  unfold goOn
  simp only [hst]

end Stops

end SessionRun

/-! ## What handlers do -/

/-- A handler of a session of `imei`: it asks the deduper, writes records of that device only,
and answers. -/
def avlHandler (imei : String) : Typestate ingestSig Unit Unit where
  Phase := Unit
  init _ := ()
  next _ _ := ()
  may
    | _, .checkAndSet _ => True
    | _, .write records => ∀ tel ∈ records, tel.imei = imei
    | _, .isAllowed _ => False
  mayAct
    | _, .send _ => True
    | _, .close => False
  done _ _ := True

/-- An entry that a handler of a session of `imei` may add to the log. -/
def Logs (imei : String) : Entry → Prop
  | .checking _ => True
  | .writing records => ∀ tel ∈ records, tel.imei = imei
  | .ack _ => True
  | _ => False

/-- A handler of a session of `imei` that stands at an `await`, or is over. -/
def HaltsFor (imei : String) : Halt ingestSig Unit → Prop
  | .finished _ => True
  | .awaiting op k => (avlHandler imei).may () op ∧
      ∀ r, (avlHandler imei).Conforms (k r) () (avlHandler imei).done

variable {sha1 : String → String}

theorem normalize_imei {imei : String} {rec : AvlRecord} {tel : NormalizedTelemetry}
    (h : normalize imei rec = .ok tel) : tel.imei = imei := by
  obtain ⟨ms, -, rfl⟩ := normalize_eq_ok h
  rfl

/-- The record loop gives records of the device. Induction on the records. -/
theorem freshRecords_imei (imei : String) (recs : List AvlRecord) :
    (avlHandler imei).Conforms (freshRecords sha1 imei recs) () fun _ r =>
      ∀ fresh, r = .ok fresh → ∀ tel ∈ fresh, tel.imei = imei := by
  -- induction on the records, one deduper check for each
  induction recs with
  | nil =>
    intro fresh hfresh
    cases hfresh
    simp
  | cons rec rest ih =>
    apply Typestate.Conforms.perform_bind trivial
    · intro isNew
      cases isNew with
      -- a duplicate is left out
      | false => exact ih
      | true =>
        show (avlHandler imei).Conforms (check (normalize imei rec) >>= _) _ _
        apply Typestate.conforms_bind.mpr
        apply Typestate.conforms_ofExcept.mpr
        cases hnorm : normalize imei rec with
        | error e =>
          intro fresh hfresh
          cases hfresh
        | ok tel =>
          apply Typestate.Conforms.bind ih
          · intro q fresh hrest fresh' hfresh
            cases hfresh
            simp only [List.mem_cons, forall_eq_or_imp]
            exact ⟨normalize_imei hnorm, hrest fresh rfl⟩
          · intro q e _ fresh hfresh
            cases hfresh
    · intro e fresh hfresh
      cases hfresh

/-- `handleAvl` writes records of its device only. -/
theorem handleAvl_conforms (sha1 : String → String) (imei : String) (frame : Buffer) :
    (avlHandler imei).Conforms (handleAvl sha1 imei frame) () (avlHandler imei).done := by
  apply Typestate.conforms_bind.mpr
  apply Typestate.conforms_ofExcept.mpr
  cases hdec : decodeTcpPacket frame with
  | error e => trivial
  | ok pkt =>
    apply Typestate.Conforms.bind (freshRecords_imei imei pkt.records)
    · intro q fresh hfresh
      apply Typestate.Conforms.perform_bind (hfresh fresh rfl)
      · intro _
        exact ⟨trivial, fun _ => trivial⟩
      · intro e
        trivial
    · intro q e _
      trivial

/-- What a handler that conforms adds to the log, and where it stops. -/
theorem runTo_conforms {imei : String} {code : Async ingestSig Unit}
    (h : (avlHandler imei).Conforms code () (avlHandler imei).done) :
    (∀ e ∈ (runTo code).1, Logs imei e) ∧ HaltsFor imei (runTo code).2 := by
  -- up to the first await only answers are sent
  induction code with
  | pure a => exact ⟨by simp [runTo], trivial⟩
  | throw e => exact ⟨by simp [runTo], trivial⟩
  | await op k ih =>
    refine ⟨?_, h⟩
    intro e he
    cases op with
    | checkAndSet key =>
      rw [List.mem_singleton.mp he]
      trivial
    | write records =>
      rw [List.mem_singleton.mp he]
      exact h.1
    | isAllowed imei' => exact absurd h.1 id
  | act a k ih =>
    cases a with
    | send buf =>
      have hk := ih () (h.2 ())
      refine ⟨?_, hk.2⟩
      intro e he
      rcases List.mem_cons.mp he with rfl | he
      · trivial
      · exact hk.1 e he
    | close => exact absurd h.1 id

namespace SessionRun

/-- The login frame of the test device. -/
def sampleLogin : Buffer := [0x00, 0x0f] ++ Buffer.ofAscii "356307042441013"

end SessionRun

end FleetTracking.Ingestion
