import FleetTracking.Ingestion.SessionLogin

/-!
# A Closed Session is Dead

A session that has closed its transport should do nothing any more. But closing does not
stop the chain of drains, and the buffer stays: a drain that is still queued, or that a
late chunk queues, goes on with whatever lies in the buffer.

1. `Silent`: nothing is written, looked up, sent or logged in after the transport was closed.
2. `StaysDead`: no drain after that finds a login that the allow-list answers, or a frame
   that can be decoded.
3. Under that condition a closed session is dead; `silent_step_iff` shows that the condition
   is exact, and `queued_frame_acts` that it is needed.
-/

namespace FleetTracking.Ingestion

open FleetTracking.Protocol Async Transition EventLog

namespace SessionRun

/-! ## The guarantee -/

/-- An entry by which a session acts: it asks the deduper, writes, logs in, or sends. -/
def Loud : Entry → Prop
  | .checking _ => True
  | .writing _ => True
  | .allowed _ => True
  | .authenticated _ => True
  | .ack _ => True
  | .sent _ => True
  | _ => False

/-- After the transport was closed the session does not act. -/
def Silent (before : List Entry) (e : Entry) : Prop := .closed ∈ before → ¬ Loud e

/-- What a session does after it has closed the transport: it gets no answer to a login, finds
no frame that can be decoded, and is given no command. -/
def StaysDead (r : SessionRun) (e : Ev) : Prop :=
  .closed ∈ r.log →
  match e with
  | .drain => ∀ imei, r.session.state = .ready imei → ∀ frame,
      Session.NextAvl r.session.buffer frame → ∀ pkt, decodeTcpPacket frame ≠ .ok pkt
  | .allowed a => ∀ b, a ≠ .ok b
  | .command _ _ _ => r.session.imei = none
  | _ => True

/-! ## The invariant -/

section Lemmas

variable {r r' : SessionRun} {sha1 : String → String} {log more after : List Entry} {imei : String}

/-- The invariant: the log is silent after a close, no handler awaits anything then, and a
session that stores a frame has a handler. -/
structure DeadInv (r : SessionRun) : Prop where
  silent : Causal Silent r.log
  stopped : .closed ∈ r.log → ∀ h, r.handling = some h → ∃ e, h = .finished (.error e)
  handler : ∀ h, r.handling = some h →
    ∃ imei frame, r.session.state = .storing imei frame ∧ HaltsFor imei h

/-- Entries before the transport is closed, then entries by which the session does not act. -/
theorem silent_append (more after : List Entry) (h : Causal Silent log)
    (hopen : .closed ∉ log ++ more) (hquiet : ∀ e ∈ after, ¬ Loud e) : Causal Silent (log ++ more ++ after) := by
  refine causal_append.mpr ⟨causal_append.mpr ⟨h, ?_⟩, ?_⟩
  · intro before e rest heq hclosed
    refine absurd ?_ hopen
    rw [heq, ← List.append_assoc]
    exact List.mem_append_left _ hclosed
  · exact causal_of_forall fun e he before _ => hquiet e he

/-- Only entries by which the session does not act. -/
theorem silent_quiet (h : Causal Silent log) (hquiet : ∀ e ∈ after, ¬ Loud e) :
    Causal Silent (log ++ after) :=
  causal_append.mpr ⟨h, causal_of_forall fun e he _ _ => hquiet e he⟩

theorem not_closed_of_logs (h : ∀ e ∈ more, Logs imei e) : .closed ∉ more :=
  fun hin => h _ hin

/-- A frame that cannot be decoded: the handler throws at once. -/
theorem handleAvl_error {frame : Buffer} {e : JsError} (h : decodeTcpPacket frame = .error e) :
    runTo (handleAvl sha1 imei frame) = ([], .finished (.error e)) := by
  unfold handleAvl
  rw [h]
  rfl

variable (sha1 imei) in
/-- A frame that can be decoded: the handler acts at once. -/
theorem handleAvl_loud {frame : Buffer} {pkt : DecodedAvl} (h : decodeTcpPacket frame = .ok pkt) :
    ∃ e, (runTo (handleAvl sha1 imei frame)).1 = [e] ∧ Loud e := by
  unfold handleAvl
  rw [h]
  cases hrecords : pkt.records with
  | nil =>
    refine ⟨.writing [], ?_, trivial⟩
    show (runTo (freshRecords sha1 imei pkt.records >>= _)).1 = _
    rw [hrecords]
    rfl
  | cons rec rest =>
    refine ⟨.checking (dedupeKey sha1 imei rec), ?_, trivial⟩
    show (runTo (freshRecords sha1 imei pkt.records >>= _)).1 = _
    rw [hrecords]
    rfl

/-- What is added to the log before the session stops. -/
theorem goOn_log (sha1 : String → String) (r : SessionRun) (before : List Entry)
    (out : Session × List Output) : ∃ tail,
      (goOn sha1 r before out).log = r.log ++ before ++ out.2.flatMap outputEntry ++ tail := by
  unfold goOn
  cases out.1.state with
  | storing imei frame => exact ⟨_, rfl⟩
  | checking imei => exact ⟨_, rfl⟩
  | anonymous => exact ⟨[], (List.append_nil _).symm⟩
  | ready imei => exact ⟨[], (List.append_nil _).symm⟩

/-- The session stops with nothing to handle, having closed the transport or not. -/
theorem DeadInv.rest {session : Session} (h : Causal Silent log) :
    DeadInv { r with session, handling := none, log } where
  silent := h
  stopped _ h' hh' := by cases hh'
  handler h' hh' := by cases hh'

/-- An open session goes on with the frame loop. -/
theorem DeadInv.loop {before : List Entry} (s : Session) (outs : List Output) (h : DeadInv r)
    (hopen : .closed ∉ r.log ++ before ++ outs.flatMap outputEntry) :
    DeadInv (r.goOn sha1 before ((s.loop imei).1, outs ++ (s.loop imei).2)) := by
  obtain ⟨-, ⟨hready, hentries⟩ | ⟨frame, hstoring, -, hentries⟩⟩ := Session.loop_spec' s imei
  -- the loop comes to its end, with `closed` as its last output or with none
  · rw [goOn_rest (by simp [hready]) (by simp [hready])]
    apply DeadInv.rest
    rw [List.flatMap_append, ← List.append_assoc]
    rw [List.append_assoc r.log] at hopen ⊢
    apply silent_append _ _ h.silent hopen
    intro e he
    rcases hentries with hentries | hentries
    · rw [hentries] at he
      cases he
    · rw [hentries, List.mem_singleton] at he
      rw [he]
      exact id
  -- the loop stops at an AVL packet before it has closed anything
  · have hstop : ((s.loop imei).1, outs ++ (s.loop imei).2).1.state = .storing imei frame :=
      hstoring
    rw [goOn_storing hstop, List.flatMap_append, hentries, List.append_nil]
    obtain ⟨hlogs, hhalts⟩ := runTo_conforms (handleAvl_conforms sha1 imei frame)
    have hstill : .closed ∉ r.log ++ before ++ outs.flatMap outputEntry ++
        (runTo (handleAvl sha1 imei frame)).1 := by
      intro hin
      rcases List.mem_append.mp hin with hin | hin
      · exact hopen hin
      · exact not_closed_of_logs hlogs hin
    refine ⟨?_, fun hclosed => absurd hclosed hstill, ?_⟩
    · have hsilent := silent_append
        (before ++ outs.flatMap outputEntry ++ (runTo (handleAvl sha1 imei frame)).1) []
        h.silent (by simpa using hstill) (by simp)
      simpa using hsilent
    · intro h' hh'
      cases hh'
      exact ⟨imei, frame, hstoring, hhalts⟩

/-- A closed session goes on with the frame loop, and finds no frame that can be decoded. -/
theorem DeadInv.loop_closed {s : Session} (h : DeadInv r)
    (hframe : ∀ frame, Session.NextAvl s.buffer frame →
      ∀ pkt, decodeTcpPacket frame ≠ .ok pkt) :
    DeadInv (r.goOn sha1 [] (s.loop imei)) := by
  obtain ⟨-, ⟨hready, hentries⟩ | ⟨frame, hstoring, hframes, hentries⟩⟩ :=
    Session.loop_spec' s imei
  · rw [goOn_rest (by simp [hready]) (by simp [hready])]
    apply DeadInv.rest
    rw [List.append_nil]
    apply silent_quiet h.silent
    intro e he
    rcases hentries with hentries | hentries
    · rw [hentries] at he
      cases he
    · rw [hentries, List.mem_singleton] at he
      rw [he]
      exact id
  · cases hdec : decodeTcpPacket frame with
    | ok pkt => exact absurd hdec (hframe frame ((Session.frames_avl_iff _ _ _).mp hframes) pkt)
    | error e =>
      rw [goOn_storing hstoring, hentries, handleAvl_error hdec]
      refine ⟨by simpa using h.silent, fun _ h' hh' => ?_, fun h' hh' => ?_⟩
      · cases hh'
        exact ⟨e, rfl⟩
      · cases hh'
        exact ⟨imei, frame, hstoring, trivial⟩

/-- The transport is closed, and nothing else happens. -/
theorem DeadInv.close {out : Session × List Output} (h : DeadInv r)
    (hstoring : ∀ imei frame, out.1.state ≠ .storing imei frame)
    (hchecking : ∀ imei, out.1.state ≠ .checking imei) (hout : out.2 = [.close] ∨ out.2 = []) :
    DeadInv (r.goOn sha1 [] out) := by
  rw [goOn_rest hstoring hchecking]
  apply DeadInv.rest
  rw [List.append_nil]
  apply silent_quiet h.silent
  intro e he
  rcases hout with hout | hout
  · rw [hout] at he
    rw [List.mem_singleton.mp he]
    exact id
  · rw [hout] at he
    cases he

/-- A drain runs. -/
theorem DeadInv.drain {out : Session × List Output} (h : DeadInv r)
    (hdead : StaysDead r .drain) (hdrain : r.session.drain = some out) :
    DeadInv (r.goOn sha1 [] out) := by
  unfold Session.drain at hdrain
  split at hdrain
  case h_1 queued hq hst =>
    split at hdrain
    -- a login that is no IMEI closes the socket
    case h_1 =>
      cases hdrain
      exact h.close (by simp [hst]) (by simp [hst]) (Or.inl rfl)
    case h_2 =>
      cases hdrain
      exact h.close (by simp [hst]) (by simp [hst]) (Or.inr rfl)
    -- a login that is one is only asked about
    case h_3 login hparse =>
      cases hdrain
      rw [goOn_checking rfl]
      apply DeadInv.rest
      simp only [List.flatMap_nil, List.append_nil]
      apply silent_quiet h.silent
      intro e he
      rw [List.mem_singleton.mp he]
      exact id
  case h_2 queued imei hq hst =>
    cases hdrain
    -- after `closed` the condition says that the chain has nothing left to read
    by_cases hclosed : .closed ∈ r.log
    · exact h.loop_closed (s := { r.session with queued }) (hdead hclosed imei hst)
    · exact DeadInv.loop { r.session with queued } [] h (by simpa using hclosed)
  case h_3 => cases hdrain

/-- The allow-list answers. -/
theorem DeadInv.allowed {a : Except JsError Bool} {out : Session × List Output} (h : DeadInv r)
    (hdead : StaysDead r (.allowed a)) (hanswer : r.session.loginAnswered a = some out) :
    DeadInv (r.goOn sha1 (loginEntry r.session.state a) out) := by
  unfold Session.loginAnswered at hanswer
  split at hanswer
  case h_1 imei hst =>
    cases hanswer
    have hopen : .closed ∉ r.log := fun hclosed => hdead hclosed true rfl
    rw [hst]
    apply DeadInv.loop _ [.send Session.ACCEPT, .authenticated imei] h
    simp [loginEntry, outputEntry, hopen]
  case h_2 imei hst =>
    cases hanswer
    have hopen : .closed ∉ r.log := fun hclosed => hdead hclosed false rfl
    rw [hst, goOn_rest (by simp) (by simp)]
    apply DeadInv.rest
    have hsilent := silent_append [.sent Session.REJECT] [.closed] h.silent
      (by simpa using hopen) (by simp [Loud])
    simpa [loginEntry, outputEntry] using hsilent
  case h_3 imei e hst =>
    cases hanswer
    rw [hst]
    exact h.close (by simp) (by simp) (Or.inl rfl)
  case h_4 => cases hanswer

/-- A handler is at work: the transport is still open. -/
theorem DeadInv.open_of_awaiting {op : IngestOp} {k : Except JsError op.Res → Async ingestSig Unit}
    (h : DeadInv r) (hhandling : r.handling = some (.awaiting op k)) : .closed ∉ r.log := by
  intro hclosed
  obtain ⟨e, he⟩ := h.stopped hclosed _ hhandling
  cases he

/-- The handler runs on. -/
theorem DeadInv.handlerGoesOn (before : List Entry) {code : Async ingestSig Unit} {frame : Buffer}
    (h : DeadInv r) (hst : r.session.state = .storing imei frame)
    (hopen : .closed ∉ r.log ++ before)
    (hcode : (avlHandler imei).Conforms code () (avlHandler imei).done) :
    DeadInv (handlerGoesOn r before code) := by
  obtain ⟨hlogs, hhalts⟩ := runTo_conforms hcode
  have hstill : .closed ∉ r.log ++ before ++ (runTo code).1 := by
    intro hin
    rcases List.mem_append.mp hin with hin | hin
    · exact hopen hin
    · exact not_closed_of_logs hlogs hin
  refine ⟨?_, fun hclosed => absurd hclosed hstill, fun h' hh' => ?_⟩
  · have hsilent := silent_append (before ++ (runTo code).1) [] h.silent
      (by simpa using hstill) (by simp)
    simpa [SessionRun.handlerGoesOn] using hsilent
  · cases hh'
    exact ⟨imei, frame, hst, hhalts⟩

/-- `handleAvl` is over; after a close only with an error. -/
theorem DeadInv.handled {a : Except JsError Unit} {out : Session × List Output} (h : DeadInv r)
    (hhandling : r.handling = some (.finished a)) (hstored : r.session.stored a = some out) :
    DeadInv (r.goOn sha1 [] out) := by
  unfold Session.stored at hstored
  split at hstored
  case h_1 imei frame hst =>
    cases hstored
    have hopen : .closed ∉ r.log := by
      intro hclosed
      obtain ⟨e, he⟩ := h.stopped hclosed _ hhandling
      cases he
    exact DeadInv.loop _ [] h (by simpa using hopen)
  case h_2 imei frame e hst =>
    cases hstored
    exact h.close (by simp) (by simp) (Or.inl rfl)
  case h_3 => cases hstored

end Lemmas

variable {sha1 : String → String}

theorem deadInv_init : DeadInv init where
  silent := causal_nil
  stopped h := by cases h
  handler h hh := by cases hh

/-- Every step that meets the condition keeps the invariant. -/
theorem deadInv_step {r r' : SessionRun} {e : Ev} (h : DeadInv r) (hdead : StaysDead r e)
    (hs : step sha1 r e = some r') : DeadInv r' := by
  -- nothing follows `closed`: what acts on the socket is excluded by the condition or by the state
  cases e with
  | data chunk =>
    cases hs
    exact ⟨h.silent, h.stopped, h.handler⟩
  | drain =>
    obtain ⟨out, hout, rfl⟩ := Option.map_eq_some_iff.mp hs
    exact h.drain hdead hout
  | allowed a =>
    obtain ⟨out, hout, rfl⟩ := Option.map_eq_some_iff.mp hs
    exact h.allowed hdead hout
  -- the handler awaits, so the socket was open when it started, and it still is
  | checked a =>
    simp only [step] at hs
    split at hs
    case h_1 key k hhandling =>
      cases hs
      obtain ⟨imei, frame, hst, -, hk⟩ := h.handler _ hhandling
      have hgo := DeadInv.handlerGoesOn [] h hst
        (by simpa using h.open_of_awaiting hhandling) (hk a)
      exact ⟨hgo.silent, hgo.stopped, hgo.handler⟩
    case h_2 => cases hs
  | written a =>
    simp only [step] at hs
    split at hs
    case h_1 records k hhandling =>
      cases hs
      obtain ⟨imei, frame, hst, -, hk⟩ := h.handler _ hhandling
      apply DeadInv.handlerGoesOn _ h hst ?_ (hk a)
      have hopen := h.open_of_awaiting hhandling
      cases a with
      | ok u => simpa [writeEntry] using hopen
      | error err => simpa [writeEntry] using hopen
    case h_2 => cases hs
  | handled =>
    simp only [step] at hs
    split at hs
    case h_1 a hhandling =>
      obtain ⟨out, hout, rfl⟩ := Option.map_eq_some_iff.mp hs
      exact h.handled hhandling hout
    case h_2 => cases hs
  | command id now text =>
    simp only [step] at hs
    split at hs
    case h_1 =>
      cases hs
      exact h
    case h_2 session out hcommand =>
      cases hs
      unfold Session.sendCommand at hcommand
      split at hcommand
      case h_1 => cases hcommand
      case h_2 imei himei =>
        cases hcommand
        -- a command is written only when the session has an IMEI
        have hopen : .closed ∉ r.log := by
          intro hclosed
          have hnone : r.session.imei = none := hdead hclosed
          rw [himei] at hnone
          cases hnone
        have hsilent := silent_append [.sent (encodeCommand text)] [] h.silent
          (by simpa using hopen) (by simp)
        refine ⟨by simpa [outputEntry] using hsilent, fun hclosed => ?_, h.handler⟩
        exact absurd hclosed (by simpa [outputEntry] using hopen)
  | commandTimedOut id =>
    cases hs
    exact ⟨h.silent, h.stopped, h.handler⟩
  | handleClosed =>
    cases hs
    exact ⟨h.silent, h.stopped, h.handler⟩

/-- After a close, an entry by which the session acts breaks the silence. -/
theorem not_silent {log : List Entry} (more after : List Entry) {e : Entry}
    (hclosed : .closed ∈ log) (hloud : Loud e) : ¬ Causal Silent (log ++ more ++ e :: after) := by
  intro h
  exact h (log ++ more) e after rfl (List.mem_append_left _ hclosed) hloud

/-- The condition is exact: after a close, a step that does not meet it breaks the silence. -/
theorem silent_step_iff {r r' : SessionRun} {e : Ev} (h : DeadInv r) (hclosed : .closed ∈ r.log)
    (hs : step sha1 r e = some r') : Causal Silent r'.log ↔ StaysDead r e := by
  refine ⟨fun hsilent => ?_, fun hdead => (deadInv_step h hdead hs).silent⟩
  cases e with
  | drain =>
    intro _ imei hready frame hframe pkt hdec
    obtain ⟨out, hout, rfl⟩ := Option.map_eq_some_iff.mp hs
    obtain ⟨s, hbuffer, -, -, rfl⟩ := Session.drain_ready hready hout
    rw [← hbuffer] at hframe
    obtain ⟨hst, hentries⟩ := Session.loop_avl imei
      ((Session.frames_avl_iff s.buffer frame s.pendingCommands).mpr hframe)
    -- the frame is decoded, and the deduper or the sink is called
    obtain ⟨e, he, hloud⟩ := handleAvl_loud sha1 imei hdec
    rw [goOn_storing hst, he, hentries] at hsilent
    exact not_silent [] [] hclosed hloud (by simpa using hsilent)
  | allowed a =>
    intro _ b hb
    subst hb
    obtain ⟨out, hout, rfl⟩ := Option.map_eq_some_iff.mp hs
    obtain ⟨tail, hlog⟩ := goOn_log sha1 r (loginEntry r.session.state (.ok b)) out
    rw [hlog] at hsilent
    obtain ⟨imei, hst, ⟨heq, hentries⟩ | ⟨heq, hentries⟩⟩ := Session.loginAnswered_entries hout
    · cases heq
      have hloud : Loud (.allowed imei) := trivial
      rw [hst] at hsilent
      refine not_silent [] (out.2.flatMap outputEntry ++ tail) hclosed hloud ?_
      simpa [loginEntry] using hsilent
    · cases heq
      have hloud : Loud (.sent Session.REJECT) := trivial
      rw [hst, hentries] at hsilent
      refine not_silent [] (.closed :: tail) hclosed hloud ?_
      simpa [loginEntry] using hsilent
  | command id now text =>
    intro _
    simp only [step] at hs
    split at hs
    case h_1 e hcommand =>
      unfold Session.sendCommand at hcommand
      split at hcommand
      case h_1 hnone => exact hnone
      case h_2 => cases hcommand
    case h_2 session out hcommand =>
      cases hs
      unfold Session.sendCommand at hcommand
      split at hcommand
      case h_1 => cases hcommand
      case h_2 imei himei =>
        cases hcommand
        have hloud : Loud (.sent (encodeCommand text)) := trivial
        refine absurd ?_ (not_silent [] [] hclosed hloud)
        simpa [outputEntry] using hsilent
  | _ => exact fun _ => trivial

/-- **A closed session is dead.** In every run in which no drain after the close finds a login
that is answered or a frame that can be decoded, the session does not act after the close. -/
theorem closed_session_dead {es : List Ev} {r : SessionRun}
    (hrun : Run (step sha1) StaysDead init es r) : Causal Silent r.log :=
  (hrun.invariant deadInv_init fun _ _ _ h hdead hs => deadInv_step h hdead hs).silent

/-! ## Two sessions -/

/-- An event after which the session surely stays dead. -/
def calm (r : SessionRun) : Ev → Bool
  | .drain => match r.session.state with
    | .ready _ => false
    | _ => true
  | .allowed (.ok _) => match r.log with
    | [.asked _] => true
    | _ => false
  | .command _ _ _ => false
  | _ => true

theorem staysDead_of_calm {r : SessionRun} {e : Ev} (h : calm r e = true) : StaysDead r e := by
  intro hclosed
  cases e with
  | drain =>
    intro imei hst
    simp [calm, hst] at h
  | allowed a =>
    intro b hb
    subst hb
    simp only [calm] at h
    split at h
    case h_1 hlog =>
      rw [hlog, List.mem_singleton] at hclosed
      cases hclosed
    case h_2 => cases h
  | command id now text => cases h
  | _ => trivial

/-- A login that is not in the allow-list, and a frame after it. -/
def rejectedEvents : List Ev :=
  [.data sampleLogin, .drain, .allowed (.ok false), .data sampleFrame, .drain]

/-- The log of a session that was rejected, and closed twice. -/
def wasRejected (log : List Entry) : Bool :=
  match log with
  | [.asked _, .sent _, .closed, .closed] => true
  | _ => false

/-- The sample frame with its checksum spoilt. -/
def spoiltFrame : Buffer := sampleFrame.dropLast ++ [0xff]

/-- The rejected session stays dead. -/
theorem rejected_session_dead : ∃ es r, Run (step sampleSha1) StaysDead init es r ∧
    .closed ∈ r.log ∧ Causal Silent r.log := by
  have hfold : (rejectedEvents.foldlM (fun r e => if calm r e then step sampleSha1 r e else none)
      init).any (fun r => wasRejected r.log) = true := by
    decide +kernel
  obtain ⟨r, hr, hrejected⟩ := (Option.any_eq_true _ _).mp hfold
  have hrun := Run.mono (fun _ _ => staysDead_of_calm) (Run.of_foldlM hr)
  refine ⟨_, r, hrun, ?_, closed_session_dead hrun⟩
  unfold wasRejected at hrejected
  split at hrejected
  case h_1 hlog => simp [hlog]
  case h_2 => cases hrejected

/-- A frame that cannot be decoded, and a frame in a chunk of its own behind it. -/
def spoiltEvents : List Ev :=
  [.data sampleLogin, .drain, .allowed (.ok true), .data spoiltFrame, .data sampleFrame, .drain,
    .handled, .drain]

/-- The log of a session that looks up a record after it was closed. -/
def actedClosed (log : List Entry) : Bool :=
  match log with
  | [.asked _, .allowed _, .sent _, .authenticated _, .closed, .checking _] => true
  | _ => false

/-- The frame behind the spoilt one is looked up after the session was closed. -/
theorem queued_frame_acts : ¬ ∀ (sha1 : String → String) (es : List Ev) (r : SessionRun),
    Run (step sha1) (fun _ _ => True) init es r → Causal Silent r.log := by
  intro h
  have hfold : (spoiltEvents.foldlM (fun r e => if True then step sampleSha1 r e else none)
      init).any (fun r => actedClosed r.log) = true := by
    decide +kernel
  obtain ⟨r, hr, hacted⟩ := (Option.any_eq_true _ _).mp hfold
  have hsilent := h sampleSha1 spoiltEvents r (Run.of_foldlM hr)
  unfold actedClosed at hacted
  split at hacted
  case h_1 i₁ i₂ b i₃ key hlog =>
    have hclosed : Entry.closed ∈ [.asked i₁, .allowed i₂, .sent b, .authenticated i₃, .closed] := by
      simp
    have hloud : Loud (.checking key) := trivial
    exact not_silent [] [] hclosed hloud (by simpa [hlog] using hsilent)
  case h_2 => cases hacted

end SessionRun

end FleetTracking.Ingestion
