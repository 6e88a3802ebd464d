import FleetTracking.Ingestion.SessionRun
import FleetTracking.Lib.BoundedRuns
import Mathlib.Algebra.GroupWithZero.Nat
import Mathlib.Algebra.Ring.Int.Defs
import Mathlib.Data.Prod.Lex

/-!
# Chunks of a Stream

A device opens its stream with a login, then sends AVL frames and responses to commands.
TCP cuts the stream into chunks as it likes, and the chunks arrive while the session awaits
the allow-list, the deduper or the sink. What the session does about the AVL frames depends
on neither.

1. `serial`: the frames handled one by one, in the order of the stream.
2. `exec_handleAvl`: the code of the handler does what `serial` says of its frame.
3. `frames_stream`: the frame loop cuts the next frames of the stream off the buffer.
4. `InOrder`: the invariant that ties the buffer, the chain and the log together.
5. `Works`, `work_lt`: the session's own steps use up drains, bytes and awaits.
-/

namespace FleetTracking.Ingestion

open FleetTracking.Protocol Async Transition

namespace SessionRun

/-! ## Frames one by one -/

/-- The records that are new, when the `n`-th call of `checkAndSet` answers `ans n`. -/
def fresh (ans : Nat → Bool) (imei : String) : List AvlRecord → Nat → List NormalizedTelemetry
  | [], _ => []
  | rec :: rest, n =>
    match ans n, normalize imei rec with
    | true, .ok tel => tel :: fresh ans imei rest (n + 1)
    | _, _ => fresh ans imei rest (n + 1)

/-- One AVL packet: its records are looked up, the new ones are written, the write resolves,
and the number of its records is acknowledged. -/
def answered (sha1 : String → String) (ans : Nat → Bool) (imei : String) (pkt : DecodedAvl)
    (n : Nat) : List Entry :=
  let batch := fresh ans imei pkt.records n
  pkt.records.map (fun rec => .checking (dedupeKey sha1 imei rec)) ++
    [.writing batch, .wrote batch, .ack (buildTcpAck pkt.recordCount)]

/-- All packets, one after the other. -/
def serial (sha1 : String → String) (ans : Nat → Bool) (imei : String) :
    List DecodedAvl → Nat → List Entry
  | [], _ => []
  | pkt :: rest, n =>
    answered sha1 ans imei pkt n ++ serial sha1 ans imei rest (n + pkt.records.length)

/-- The AVL packets among the frames. -/
def packets (frames : List Buffer) : List DecodedAvl :=
  frames.filterMap fun frame => (decodeTcpPacket frame).toOption

/-- What is seen of the handling of the frames: the commands and the login are not. -/
def isOutput : Entry → Bool
  | .checking _ => true
  | .writing _ => true
  | .wrote _ => true
  | .ack _ => true
  | .closed => true
  | _ => false

def outputs (log : List Entry) : List Entry := log.filter isOutput

/-- How many writes are in flight at the end of a log. -/
def inFlight (log : List Entry) : Int :=
  (log.map fun e => match e with
    | .writing _ => (1 : Int)
    | .wrote _ => -1
    | _ => 0).sum

/-! ## The stream -/

/-- A frame of the stream: AVL data that can be decoded, with valid timestamps, or a response
to a command. -/
inductive ValidFrame (frame : Buffer) : Prop where
  | avl (pkt : DecodedAvl) (hframe : extractFrame frame = some (frame, []))
      (hdecode : decodeTcpPacket frame = .ok pkt)
      (htimes : ∀ rec ∈ pkt.records, rec.timestamp.isSome)
  | response (msg : Codec12Message) (hframe : extractFrame frame = some (frame, []))
      (hdecode : decodeCodec12 frame = .ok msg) (htype : msg.type = TYPE_RESPONSE)

/-- A login, frames, and possibly the beginning of one more frame. -/
structure Stream where
  imei : String
  login : Buffer
  frames : List Buffer
  rest : Buffer
  login_ok : parseImei login = .ok (some ⟨imei, login.length⟩)
  frames_ok : ∀ frame ∈ frames, ValidFrame frame
  rest_ok : extractFrame rest = none

def Stream.bytes (stream : Stream) : Buffer :=
  stream.login ++ stream.frames.flatten ++ stream.rest

/-- Nothing is left to do. -/
def Idle (r : SessionRun) : Prop :=
  r.session.queued = 0 ∧ r.handling = none ∧ ∀ imei, r.session.state ≠ .checking imei

/-! ## The handler -/

/-- Undisturbed, the code runs to its end and returns `a`; a log of what it does and the number
of answers go from `s` to `s'`. -/
def Completes {α : Type} (ans : Nat → Bool) (a : α) (s' : List Entry × Nat) :
    Async ingestSig α → List Entry × Nat → Prop
  | .pure a', s => a' = a ∧ s = s'
  | .throw _, _ => False
  | .await (.checkAndSet key) k, s =>
    Completes ans a s' (k (.ok (ans s.2))) (s.1 ++ [.checking key], s.2 + 1)
  | .await (.write records) k, s =>
    Completes ans a s' (k (.ok ())) (s.1 ++ [.writing records, .wrote records], s.2)
  | .await (.isAllowed _) _, _ => False
  | .act x k, s => Completes ans a s' (k ()) (s.1 ++ [acted x], s.2)

section Handler

variable {sha1 : String → String} {ans : Nat → Bool} {imei : String}

theorem Completes.bind {α β : Type} {x : Async ingestSig α} {f : α → Async ingestSig β} {a : α}
    {b : β} {s s₁ s₂ : List Entry × Nat} (hx : Completes ans a s₁ x s)
    (hf : Completes ans b s₂ (f a) s₁) : Completes ans b s₂ (x >>= f) s := by
  induction x generalizing s with
  | pure a' =>
    obtain ⟨rfl, rfl⟩ := hx
    exact hf
  | throw e => exact absurd hx id
  | await op k ih =>
    cases op with
    | checkAndSet key => exact ih _ hx
    | write records => exact ih _ hx
    | isAllowed imei => exact absurd hx id
  | act x k ih => exact ih _ hx

theorem completes_pure {α : Type} (a : α) (s : List Entry × Nat) :
    Completes ans a s (pure a) s :=
  ⟨rfl, rfl⟩

theorem completes_ok {α : Type} {x : Except JsError α} {a : α} (h : x = .ok a)
    (s : List Entry × Nat) : Completes ans a s (check x) s := by
  subst h
  exact completes_pure a s

theorem completes_check (key : String) (log : List Entry) (c : Nat) :
    Completes ans (ans c) (log ++ [.checking key], c + 1) (request (.checkAndSet key)) (log, c) :=
  ⟨rfl, rfl⟩

theorem completes_write (records : List NormalizedTelemetry) (log : List Entry) (c : Nat) :
    Completes ans () (log ++ [.writing records, .wrote records], c) (request (.write records))
      (log, c) :=
  ⟨rfl, rfl⟩

theorem completes_emit (x : IngestAct) (log : List Entry) (c : Nat) :
    Completes ans () (log ++ [acted x], c) (emit x) (log, c) :=
  ⟨rfl, rfl⟩

/-- The loop over the records. Induction on the records. -/
theorem completes_freshRecords {recs : List AvlRecord}
    (htimes : ∀ rec ∈ recs, rec.timestamp.isSome) (log : List Entry) (c : Nat) :
    Completes ans (fresh ans imei recs c)
      (log ++ recs.map (fun rec => .checking (dedupeKey sha1 imei rec)), c + recs.length)
      (freshRecords sha1 imei recs) (log, c) := by
  induction recs generalizing log c with
  | nil =>
    simp only [List.map_nil, List.append_nil]
    exact completes_pure [] (log, c)
  | cons rec rest ih =>
    obtain ⟨tel, htel⟩ := (normalize_isOk imei rec).mpr (htimes rec List.mem_cons_self)
    have hrest := ih (fun rec' hrec' => htimes rec' (List.mem_cons_of_mem _ hrec'))
      (log ++ [.checking (dedupeKey sha1 imei rec)]) (c + 1)
    rw [List.append_assoc, Nat.add_assoc, Nat.add_comm 1] at hrest
    apply (completes_check (dedupeKey sha1 imei rec) log c).bind
    cases hans : ans c with
    | false =>
      have hfresh : fresh ans imei (rec :: rest) c = fresh ans imei rest (c + 1) := by
        rw [fresh, hans]
      rw [hfresh]
      exact hrest
    | true =>
      have hfresh : fresh ans imei (rec :: rest) c = tel :: fresh ans imei rest (c + 1) := by
        rw [fresh, hans, htel]
      rw [hfresh]
      exact (completes_ok htel _).bind (hrest.bind (completes_pure _ _))

variable (sha1 ans imei) in
/-- The handler does what `answered` says. -/
theorem completes_handleAvl {frame : Buffer} {pkt : DecodedAvl}
    (hdecode : decodeTcpPacket frame = .ok pkt)
    (htimes : ∀ rec ∈ pkt.records, rec.timestamp.isSome) (log : List Entry) (c : Nat) :
    Completes ans () (log ++ answered sha1 ans imei pkt c, c + pkt.records.length)
      (handleAvl sha1 imei frame) (log, c) := by
  have hend : log ++ answered sha1 ans imei pkt c =
      log ++ pkt.records.map (fun rec => .checking (dedupeKey sha1 imei rec)) ++
        [.writing (fresh ans imei pkt.records c), .wrote (fresh ans imei pkt.records c)] ++
          [acted (.send (buildTcpAck pkt.recordCount))] := by
    simp [answered, acted]
  rw [hend]
  apply (completes_ok hdecode _).bind
  apply (completes_freshRecords htimes log c).bind
  apply (completes_write _ _ _).bind
  exact completes_emit _ _ _

/-- Where a handler stands that will run to its end. -/
def Resumes (ans : Nat → Bool) (s' : List Entry × Nat) :
    Halt ingestSig Unit → List Entry × Nat → Prop
  | .finished a, s => a = .ok () ∧ s = s'
  | .awaiting (.checkAndSet _) k, s => Completes ans () s' (k (.ok (ans s.2))) (s.1, s.2 + 1)
  | .awaiting (.write records) k, s =>
    Completes ans () s' (k (.ok ())) (s.1 ++ [.wrote records], s.2)
  | .awaiting (.isAllowed _) _, _ => False

/-- A handler that will run to its end stops at its next `await`. -/
theorem resumes_runTo {code : Async ingestSig Unit} {log : List Entry} {c : Nat}
    {s' : List Entry × Nat} (h : Completes ans () s' code (log, c)) :
    outputs (runTo code).1 = (runTo code).1 ∧
      Resumes ans s' (runTo code).2 (log ++ (runTo code).1, c) := by
  induction code generalizing log with
  | pure a =>
    obtain ⟨-, rfl⟩ := h
    exact ⟨rfl, rfl, by simp [runTo]⟩
  | throw e => exact absurd h id
  | await op k ih =>
    cases op with
    | checkAndSet key => exact ⟨rfl, h⟩
    | write records =>
      refine ⟨rfl, ?_⟩
      show Completes ans () s' (k (.ok ())) (log ++ [.writing records] ++ [.wrote records], c)
      rw [List.append_assoc]
      exact h
    | isAllowed imei => exact absurd h id
  | act x k ih =>
    obtain ⟨hout, hres⟩ := ih () h
    refine ⟨?_, ?_⟩
    · cases x with
      | send buf => exact congrArg (List.cons _) hout
      | close => exact congrArg (List.cons _) hout
    · rw [List.append_assoc] at hres
      exact hres

/-- Running on only adds to the log. -/
theorem Completes.grows {α : Type} {a : α} {s s' : List Entry × Nat} {code : Async ingestSig α}
    (h : Completes ans a s' code s) : s.1 <+: s'.1 := by
  induction code generalizing s with
  | pure a' =>
    obtain ⟨-, rfl⟩ := h
    exact List.prefix_rfl
  | throw e => exact absurd h id
  | await op k ih =>
    cases op with
    | checkAndSet key => exact (List.prefix_append _ _).trans (ih _ h)
    | write records => exact (List.prefix_append _ _).trans (ih _ h)
    | isAllowed imei => exact absurd h id
  | act x k ih => exact (List.prefix_append _ _).trans (ih () h)

theorem Resumes.grows {s s' : List Entry × Nat} {h : Halt ingestSig Unit}
    (hres : Resumes ans s' h s) : s.1 <+: s'.1 := by
  cases h with
  | finished a =>
    obtain ⟨-, rfl⟩ := hres
    exact List.prefix_rfl
  | awaiting op k =>
    cases op with
    | checkAndSet key =>
      have hrest : Completes ans () s' (k (.ok (ans s.2))) (s.1, s.2 + 1) := hres
      exact hrest.grows
    | write records =>
      have hrest : Completes ans () s' (k (.ok ())) (s.1 ++ [.wrote records], s.2) := hres
      exact (List.prefix_append _ _).trans hrest.grows
    | isAllowed imei => exact absurd hres id

end Handler

/-! ## The frame loop -/

section Frames

theorem ValidFrame.extract {frame : Buffer} (h : ValidFrame frame) :
    extractFrame frame = some (frame, []) := by
  cases h with
  | avl pkt hframe _ _ => exact hframe
  | response msg hframe _ _ => exact hframe

theorem isAvl_of_decode {frame : Buffer} {pkt : DecodedAvl} (h : decodeTcpPacket frame = .ok pkt) :
    Session.IsAvl frame := by
  rcases decodeTcpPacket_codec h with hcodec | hcodec
  · exact Or.inl hcodec
  · exact Or.inr (Or.inl hcodec)

/-- A response is no AVL packet. -/
theorem packets_response {frame : Buffer} {msg : Codec12Message}
    (h : decodeCodec12 frame = .ok msg) : packets [frame] = [] := by
  cases hdec : decodeTcpPacket frame with
  | error e => simp [packets, hdec, Except.toOption]
  | ok pkt =>
    exact absurd (isAvl_of_decode hdec) (Session.not_isAvl_of_codec12 (decodeCodec12_codec h))

theorem packets_avl {frame : Buffer} {pkt : DecodedAvl} (h : decodeTcpPacket frame = .ok pkt) :
    packets [frame] = [pkt] := by
  simp [packets, h, Except.toOption]

theorem packets_append (frames frames' : List Buffer) :
    packets (frames ++ frames') = packets frames ++ packets frames' :=
  List.filterMap_append

/-- A buffer that is not shorter than the next frame begins with it. -/
theorem split_frame {buffer more frame after : Buffer}
    (hlong : ¬ ∃ missing, missing ≠ [] ∧ frame = buffer ++ missing)
    (h : buffer ++ more = frame ++ after) :
    ∃ buffer', buffer = frame ++ buffer' ∧ buffer' ++ more = after := by
  rcases List.append_eq_append_iff.mp h with ⟨missing, hframe, hmore⟩ | ⟨buffer', hbuffer, hafter⟩
  · by_cases hmissing : missing = []
    · subst hmissing
      exact ⟨[], by simpa using hframe.symm, by simpa using hmore⟩
    · exact absurd ⟨missing, hmissing, hframe⟩ hlong
  · exact ⟨buffer', hbuffer, hafter.symm⟩

/-- What the buffer holds of the stream: responses that are handled, then either no complete
frame, or an AVL frame. Induction on the frames that are still to come. -/
theorem frames_stream {todo : List Buffer} {rest buffer more : Buffer}
    (hvalid : ∀ frame ∈ todo, ValidFrame frame) (hrest : extractFrame rest = none)
    (h : buffer ++ more = todo.flatten ++ rest) (pending : List PendingCommand) :
    ∃ done left, todo = done ++ left ∧ packets done = [] ∧
      (((Session.frames buffer pending).2.2.2 = .noFrame ∧
          done.flatten ++ (Session.frames buffer pending).1 = buffer ∧
          extractFrame (Session.frames buffer pending).1 = none) ∨
        ∃ frame later pkt, left = frame :: later ∧
          (Session.frames buffer pending).2.2.2 = .avl frame ∧
          done.flatten ++ frame ++ (Session.frames buffer pending).1 = buffer ∧
          decodeTcpPacket frame = .ok pkt ∧ ∀ rec ∈ pkt.records, rec.timestamp.isSome) := by
  induction todo generalizing buffer pending with
  | nil =>
    have hnone : extractFrame buffer = none := by
      have hall : extractFrame (buffer ++ more) = none := by
        rw [h]
        exact hrest
      exact extractFrame_none_of_append hall
    refine ⟨[], [], rfl, rfl, Or.inl ?_⟩
    rw [Session.frames_none hnone]
    exact ⟨rfl, rfl, hnone⟩
  | cons frame later ih =>
    have hframe := (hvalid frame List.mem_cons_self).extract
    rw [List.flatten_cons, List.append_assoc] at h
    by_cases hshort : ∃ missing, missing ≠ [] ∧ frame = buffer ++ missing
    · -- the frame has not arrived completely
      obtain ⟨missing, hmissing, rfl⟩ := hshort
      have hnone := extractFrame_incomplete hmissing hframe
      refine ⟨[], (buffer ++ missing) :: later, rfl, rfl, Or.inl ?_⟩
      rw [Session.frames_none hnone]
      exact ⟨rfl, rfl, hnone⟩
    · obtain ⟨buffer', rfl, hlater⟩ := split_frame hshort h
      have hextract := extractFrame_append buffer' hframe
      rw [List.nil_append] at hextract
      cases hvalid frame List.mem_cons_self with
      | avl pkt _ hdecode htimes =>
        have havl := isAvl_of_decode hdecode
        have hcodec : (frame.getD 8 0).toNat ≠ CODEC_12 :=
          fun heq => Session.not_isAvl_of_codec12 heq havl
        unfold Session.IsAvl at havl
        refine ⟨[], frame :: later, rfl, rfl, Or.inr ⟨frame, later, pkt, rfl, ?_, ?_, hdecode, htimes⟩⟩
        · rw [Session.frames_some hextract, if_neg hcodec, if_pos havl]
        · rw [Session.frames_some hextract, if_neg hcodec, if_pos havl]
          rfl
      | response msg _ hdecode htype =>
        have hcodec := decodeCodec12_codec hdecode
        obtain ⟨⟨pending', out⟩, hc⟩ : ∃ r, Session.handleCodec12 pending frame = .ok r :=
          Session.handleCodec12_ok_iff.mpr ⟨msg, hdecode⟩
        obtain ⟨done, left, rfl, hdone, hloop⟩ := ih
          (fun frame' hin => hvalid frame' (List.mem_cons_of_mem _ hin)) hlater pending'
        refine ⟨frame :: done, left, rfl, ?_, ?_⟩
        · rw [← List.singleton_append, packets_append, packets_response hdecode, hdone]
          rfl
        · rw [Session.frames_some hextract, if_pos hcodec, hc]
          rcases hloop with ⟨hstop, hbuffer, hnone⟩ | ⟨next, left', pkt, hleft, hstop, hbuffer, hnext⟩
          · refine Or.inl ⟨hstop, ?_, hnone⟩
            rw [List.flatten_cons, List.append_assoc, hbuffer]
          · refine Or.inr ⟨next, left', pkt, hleft, hstop, ?_, hnext⟩
            rw [List.flatten_cons, List.append_assoc, List.append_assoc, ← List.append_assoc _ next,
              hbuffer]

/-- The same for the session that goes on with the loop. -/
theorem loop_stream {todo : List Buffer} {rest more : Buffer} {s : Session} (imei : String)
    (hvalid : ∀ frame ∈ todo, ValidFrame frame) (hrest : extractFrame rest = none)
    (h : s.buffer ++ more = todo.flatten ++ rest) :
    ∃ done left, todo = done ++ left ∧ packets done = [] ∧
      (s.loop imei).2.flatMap outputEntry = [] ∧
      (((s.loop imei).1.state = .ready imei ∧
          done.flatten ++ (s.loop imei).1.buffer = s.buffer ∧
          extractFrame (s.loop imei).1.buffer = none) ∨
        ∃ frame later pkt, left = frame :: later ∧
          (s.loop imei).1.state = .storing imei frame ∧
          done.flatten ++ frame ++ (s.loop imei).1.buffer = s.buffer ∧
          decodeTcpPacket frame = .ok pkt ∧ ∀ rec ∈ pkt.records, rec.timestamp.isSome) := by
  obtain ⟨done, left, htodo, hdone, hloop⟩ := frames_stream hvalid hrest h s.pendingCommands
  have hentries := (Session.frames_spec s.buffer s.pendingCommands).2
  refine ⟨done, left, htodo, hdone, ?_⟩
  unfold Session.loop
  generalize Session.frames s.buffer s.pendingCommands = out at hloop hentries
  obtain ⟨buffer, pending, out, stop⟩ := out
  rcases hloop with ⟨hstop, hbuffer, hnone⟩ | ⟨frame, later, pkt, hleft, hstop, hbuffer, hnext⟩
  · simp only at hstop
    subst hstop
    exact ⟨hentries, Or.inl ⟨rfl, hbuffer, hnone⟩⟩
  · simp only at hstop
    subst hstop
    exact ⟨hentries, Or.inr ⟨frame, later, pkt, hleft, rfl, hbuffer, hnext⟩⟩

end Frames

/-! ## The invariant -/

/-- The log and the number of answers when some of the frames have been handled. -/
def reached (sha1 : String → String) (ans : Nat → Bool) (imei : String) (done : List Buffer) :
    List Entry × Nat :=
  (serial sha1 ans imei (packets done) 0, ((packets done).map (·.records.length)).sum)

section Reached

variable {sha1 : String → String} {ans : Nat → Bool} {imei : String}

theorem serial_append (pkts pkts' : List DecodedAvl) (n : Nat) :
    serial sha1 ans imei (pkts ++ pkts') n = serial sha1 ans imei pkts n ++
      serial sha1 ans imei pkts' (n + (pkts.map (·.records.length)).sum) := by
  induction pkts generalizing n with
  | nil => simp [serial]
  | cons pkt rest ih => simp [serial, ih, Nat.add_assoc]

theorem reached_responses {done more : List Buffer} (h : packets more = []) :
    reached sha1 ans imei (done ++ more) = reached sha1 ans imei done := by
  simp [reached, packets_append, h]

/-- One more AVL frame. -/
theorem reached_avl {done : List Buffer} {frame : Buffer} {pkt : DecodedAvl}
    (h : decodeTcpPacket frame = .ok pkt) :
    reached sha1 ans imei (done ++ [frame]) =
      ((reached sha1 ans imei done).1 ++
          answered sha1 ans imei pkt (reached sha1 ans imei done).2,
        (reached sha1 ans imei done).2 + pkt.records.length) := by
  simp [reached, packets_append, packets_avl h, serial_append, serial]

theorem prefix_reached (done more : List Buffer) :
    (reached sha1 ans imei done).1 <+: (reached sha1 ans imei (done ++ more)).1 := by
  simp [reached, packets_append, serial_append]

end Reached

/-- Where the session stands in the stream. -/
def OrderAt (sha1 : String → String) (ans : Nat → Bool) (stream : Stream) (r : SessionRun) :
    SessionState → Prop
  -- Nothing of the stream has been consumed.
  | .anonymous => r.session.buffer = r.received ∧ r.handling = none ∧
      (outputs r.log, r.checks) = ([], 0) ∧ (r.session.queued = 0 → r.received.length < 17)
  -- The login has been consumed.
  | .checking imei => imei = stream.imei ∧ stream.login ++ r.session.buffer = r.received ∧
      r.handling = none ∧ (outputs r.log, r.checks) = ([], 0)
  -- The frames `done` have been consumed, and handled.
  | .ready imei => imei = stream.imei ∧ ∃ done left, stream.frames = done ++ left ∧
      stream.login ++ done.flatten ++ r.session.buffer = r.received ∧ r.handling = none ∧
      (outputs r.log, r.checks) = reached sha1 ans stream.imei done ∧
      (r.session.queued = 0 → extractFrame r.session.buffer = none)
  -- The frame behind them has been consumed too, and its handler is at work.
  | .storing imei _ => imei = stream.imei ∧ ∃ done frame left h,
      stream.frames = done ++ frame :: left ∧
      stream.login ++ (done ++ [frame]).flatten ++ r.session.buffer = r.received ∧
      r.handling = some h ∧
      Resumes ans (reached sha1 ans stream.imei (done ++ [frame])) h (outputs r.log, r.checks)

/-- The invariant. -/
structure InOrder (sha1 : String → String) (ans : Nat → Bool) (stream : Stream) (r : SessionRun) :
    Prop where
  received : r.received <+: stream.bytes
  order : OrderAt sha1 ans stream r r.session.state

section Lemmas

variable {sha1 : String → String} {ans : Nat → Bool} {stream : Stream} {r : SessionRun}

theorem outputs_append (log log' : List Entry) :
    outputs (log ++ log') = outputs log ++ outputs log' :=
  List.filter_append _ _

/-- The session goes on with the frame loop, behind the frames `done`. -/
theorem InOrder.loop {before : List Entry} (outs : List Output) {done left : List Buffer}
    (s : Session) (hreceived : r.received <+: stream.bytes) (hframes : stream.frames = done ++ left)
    (hbuffer : stream.login ++ done.flatten ++ s.buffer = r.received)
    (hlog : (outputs (r.log ++ before ++ outs.flatMap outputEntry), r.checks) =
      reached sha1 ans stream.imei done) :
    InOrder sha1 ans stream
      (goOn sha1 r before ((s.loop stream.imei).1, outs ++ (s.loop stream.imei).2)) := by
  obtain ⟨more, hmore⟩ := hreceived
  -- what is buffered and what is still to come are the frames that are left
  have hahead : s.buffer ++ more = left.flatten ++ stream.rest := by
    rw [← hbuffer, Stream.bytes, hframes] at hmore
    simpa using hmore
  obtain ⟨done', left', rfl, hdone', hentries, hstop⟩ := loop_stream stream.imei
    (fun frame hin => stream.frames_ok frame (hframes ▸ List.mem_append_right _ hin))
    stream.rest_ok hahead
  rcases hstop with ⟨hready, hrest, hnone⟩ | ⟨frame, later, pkt, rfl, hstoring, hrest, hdecode, htimes⟩
  -- the loop has stopped for want of a complete frame
  · rw [goOn_rest (by simp [hready]) (by simp [hready])]
    refine ⟨⟨more, hmore⟩, ?_⟩
    simp only [hready]
    refine ⟨rfl, done ++ done', left', by simp [hframes], ?_, rfl, ?_, fun _ => hnone⟩
    · rw [← hbuffer, ← hrest]
      simp
    · rw [List.flatMap_append, hentries, List.append_nil, reached_responses hdone', ← hlog]
  -- the loop has stopped at an AVL packet, whose handler runs to its first `await`
  · have hst : ((s.loop stream.imei).1, outs ++ (s.loop stream.imei).2).1.state =
        .storing stream.imei frame := hstoring
    rw [goOn_storing hst]
    refine ⟨⟨more, hmore⟩, ?_⟩
    simp only [hstoring]
    have hcompletes := completes_handleAvl sha1 ans stream.imei hdecode htimes
      (reached sha1 ans stream.imei (done ++ done')).1
      (reached sha1 ans stream.imei (done ++ done')).2
    rw [← reached_avl hdecode] at hcompletes
    obtain ⟨hout, hresumes⟩ := resumes_runTo hcompletes
    refine ⟨rfl, done ++ done', frame, later, _, by simp [hframes], ?_, rfl, ?_⟩
    · rw [← hbuffer, ← hrest]
      simp
    · rw [List.flatMap_append, hentries, List.append_nil, outputs_append, hout]
      rw [reached_responses hdone', ← hlog] at hresumes
      exact hresumes

/-- What has arrived holds the login, or is only a part of it. -/
theorem parse_stream (h : r.received <+: stream.bytes) :
    (r.received.length < 17 ∧ parseImei r.received = .ok none) ∨
      ∃ buffer, r.received = stream.login ++ buffer ∧
        parseImei r.received = .ok (some ⟨stream.imei, stream.login.length⟩) := by
  obtain ⟨more, hmore⟩ := h
  have hlen : stream.login.length = 17 := (parseImei_some stream.login_ok).1
  unfold Stream.bytes at hmore
  rw [List.append_assoc] at hmore
  by_cases hshort : r.received.length < 17
  · have hparse := parseImei_append (stream.frames.flatten ++ stream.rest) stream.login_ok
    rw [← hmore] at hparse
    exact Or.inl ⟨hshort, parseImei_incomplete hparse hshort⟩
  · have hlogin : stream.login <+: r.received :=
      List.prefix_of_prefix_length_le ⟨_, rfl⟩ ⟨more, hmore⟩ (by omega)
    obtain ⟨buffer, hbuffer⟩ := hlogin
    refine Or.inr ⟨buffer, hbuffer.symm, ?_⟩
    rw [← hbuffer]
    exact parseImei_append buffer stream.login_ok

/-- A drain runs: it reads the login, or goes on with the frames. -/
theorem InOrder.drain {out : Session × List Output} (h : InOrder sha1 ans stream r)
    (hdrain : r.session.drain = some out) : InOrder sha1 ans stream (goOn sha1 r [] out) := by
  have horder := h.order
  cases hst : r.session.state with
  | anonymous =>
    rw [hst] at horder
    obtain ⟨hbuffer, hhandling, hlog, -⟩ := horder
    unfold Session.drain at hdrain
    split at hdrain
    case h_1 queued hq _ =>
      rw [hbuffer] at hdrain
      rcases parse_stream h.received with ⟨hshort, hparse⟩ | ⟨buffer, hlogin, hparse⟩
      -- the login is not complete: nothing happens
      · rw [hparse] at hdrain
        cases hdrain
        rw [goOn_rest (by simp [hst]) (by simp [hst])]
        refine ⟨h.received, ?_⟩
        simp only [hst, List.flatMap_nil, List.append_nil]
        exact ⟨rfl, rfl, hlog, fun _ => hshort⟩
      -- the login is complete: the device is asked for
      · rw [hparse] at hdrain
        cases hdrain
        rw [goOn_checking rfl]
        refine ⟨h.received, rfl, ?_, rfl, ?_⟩
        · simp [hlogin]
        · simpa [outputs_append, outputs, isOutput] using hlog
    case h_2 hready =>
      rw [hst] at hready
      cases hready
    case h_3 => cases hdrain
  | ready imei =>
    rw [hst] at horder
    obtain ⟨rfl, done, left, hframes, hbuffer, hhandling, hlog, -⟩ := horder
    obtain ⟨s, hs, -, -, rfl⟩ := Session.drain_ready hst hdrain
    rw [← hs] at hbuffer
    exact InOrder.loop [] s h.received hframes hbuffer (by simpa using hlog)
  -- `drain` waits in the other states
  | checking imei =>
    unfold Session.drain at hdrain
    simp [hst] at hdrain
  | storing imei frame =>
    unfold Session.drain at hdrain
    simp [hst] at hdrain

/-- The login is accepted. -/
theorem InOrder.allowed {out : Session × List Output} (h : InOrder sha1 ans stream r)
    (hanswer : r.session.loginAnswered (.ok true) = some out) :
    InOrder sha1 ans stream
      (goOn sha1 r (loginEntry r.session.state (.ok true)) out) := by
  have horder := h.order
  unfold Session.loginAnswered at hanswer
  split at hanswer
  case h_1 imei hst _ =>
    cases hanswer
    rw [hst] at horder ⊢
    obtain ⟨rfl, hbuffer, -, hlog⟩ := horder
    have hstart : stream.login ++ List.flatten [] ++ r.session.buffer = r.received := by
      simpa using hbuffer
    apply InOrder.loop [.send Session.ACCEPT, .authenticated stream.imei] r.session h.received
      (List.nil_append _).symm hstart
    simpa [outputs_append, outputs, isOutput, loginEntry, outputEntry, reached, packets, serial]
      using hlog
  case h_2 heq => cases heq
  case h_3 heq => cases heq
  case h_4 => cases hanswer

/-- A session with a handler at work is at an AVL frame. -/
theorem InOrder.storing {halt : Halt ingestSig Unit} (h : InOrder sha1 ans stream r)
    (hhandling : r.handling = some halt) : ∃ frame₀ done frame left,
      r.session.state = .storing stream.imei frame₀ ∧ stream.frames = done ++ frame :: left ∧
      stream.login ++ (done ++ [frame]).flatten ++ r.session.buffer = r.received ∧
      Resumes ans (reached sha1 ans stream.imei (done ++ [frame])) halt
        (outputs r.log, r.checks) := by
  have horder := h.order
  cases hst : r.session.state with
  | anonymous =>
    rw [hst] at horder
    simp [horder.2.1] at hhandling
  | checking imei =>
    rw [hst] at horder
    simp [horder.2.2.1] at hhandling
  | ready imei =>
    rw [hst] at horder
    obtain ⟨-, done, left, -, -, hnone, -⟩ := horder
    simp [hnone] at hhandling
  | storing imei frame₀ =>
    rw [hst] at horder
    obtain ⟨rfl, done, frame, left, halt', hframes, hbuffer, hhalt, hresumes⟩ := horder
    rw [hhalt] at hhandling
    cases hhandling
    exact ⟨frame₀, done, frame, left, rfl, hframes, hbuffer, hresumes⟩

/-- The handler runs on. -/
theorem InOrder.handlerGoesOn (before : List Entry) {code : Async ingestSig Unit} (c : Nat)
    {frame₀ frame : Buffer} {done left : List Buffer} (h : InOrder sha1 ans stream r)
    (hst : r.session.state = .storing stream.imei frame₀)
    (hframes : stream.frames = done ++ frame :: left)
    (hbuffer : stream.login ++ (done ++ [frame]).flatten ++ r.session.buffer = r.received)
    (hcompletes : Completes ans () (reached sha1 ans stream.imei (done ++ [frame])) code
      (outputs (r.log ++ before), c)) :
    InOrder sha1 ans stream { handlerGoesOn r before code with checks := c } := by
  obtain ⟨hout, hresumes⟩ := resumes_runTo hcompletes
  refine ⟨h.received, ?_⟩
  simp only [SessionRun.handlerGoesOn, hst]
  refine ⟨rfl, done, frame, left, _, hframes, hbuffer, rfl, ?_⟩
  rw [outputs_append, hout]
  exact hresumes

/-- `handleAvl` is over, and the frame is acknowledged. -/
theorem InOrder.handled {a : Except JsError Unit} {out : Session × List Output}
    (h : InOrder sha1 ans stream r) (hhandling : r.handling = some (.finished a))
    (hstored : r.session.stored a = some out) : InOrder sha1 ans stream (goOn sha1 r [] out) := by
  obtain ⟨frame₀, done, frame, left, hst, hframes, hbuffer, rfl, hlog⟩ := h.storing hhandling
  unfold Session.stored at hstored
  simp only [hst, Option.some.injEq] at hstored
  subst hstored
  have hsplit : stream.frames = done ++ [frame] ++ left := by
    simp [hframes]
  exact InOrder.loop [] r.session h.received hsplit hbuffer (by simpa using hlog)

/-- A step that only changes the queue of commands, and sends a command. -/
theorem InOrder.commands (more : List Entry) (session : Session) (h : InOrder sha1 ans stream r)
    (hbuffer : session.buffer = r.session.buffer) (hqueued : session.queued = r.session.queued)
    (hstate : session.state = r.session.state) (hmore : outputs more = []) :
    InOrder sha1 ans stream { r with session, log := r.log ++ more } := by
  refine ⟨h.received, ?_⟩
  have horder := h.order
  simp only [hstate]
  unfold OrderAt at horder ⊢
  simp only [outputs_append, hmore, List.append_nil, hbuffer, hqueued]
  exact horder

end Lemmas

variable {sha1 : String → String} {ans : Nat → Bool} {stream : Stream}

/-- Never more than one write in flight. -/
def OneInFlight (log : List Entry) : Prop :=
  ∀ before, before <+: log → 0 ≤ inFlight before ∧ inFlight before ≤ 1

theorem inFlight_append (log log' : List Entry) :
    inFlight (log ++ log') = inFlight log + inFlight log' := by
  simp [inFlight]

theorem OneInFlight.append {log log' : List Entry} (h : OneInFlight log)
    (hzero : inFlight log = 0) (h' : OneInFlight log') : OneInFlight (log ++ log') := by
  intro before hbefore
  obtain ⟨after, hafter⟩ := hbefore
  rcases List.append_eq_append_iff.mp hafter with ⟨more, hlog, -⟩ | ⟨more, rfl, hlog'⟩
  · exact h before ⟨more, hlog.symm⟩
  · rw [inFlight_append, hzero, Int.zero_add]
    exact h' more ⟨after, hlog'.symm⟩

/-- The log up to any point is the beginning of the frames handled one by one. -/
theorem InOrder.grows {r : SessionRun} (h : InOrder sha1 ans stream r) :
    outputs r.log <+: serial sha1 ans stream.imei (packets stream.frames) 0 := by
  have horder := h.order
  cases hst : r.session.state with
  | anonymous =>
    rw [hst] at horder
    rw [(Prod.mk.inj horder.2.2.1).1]
    exact List.nil_prefix
  | checking imei =>
    rw [hst] at horder
    rw [(Prod.mk.inj horder.2.2.2).1]
    exact List.nil_prefix
  | ready imei =>
    rw [hst] at horder
    obtain ⟨-, done, left, hframes, -, -, hlog, -⟩ := horder
    rw [(Prod.mk.inj hlog).1, hframes]
    exact prefix_reached done left
  | storing imei frame₀ =>
    rw [hst] at horder
    obtain ⟨-, done, frame, left, halt, hframes, -, -, hresumes⟩ := horder
    have hsplit : stream.frames = done ++ [frame] ++ left := by
      simp [hframes]
    rw [hsplit]
    exact hresumes.grows.trans (prefix_reached (done ++ [frame]) left)

/-- When the whole stream has arrived and nothing is left to do, all frames are handled. -/
theorem InOrder.complete {r : SessionRun} (h : InOrder sha1 ans stream r)
    (hreceived : r.received = stream.bytes) (hidle : Idle r) :
    outputs r.log = serial sha1 ans stream.imei (packets stream.frames) 0 := by
  have horder := h.order
  obtain ⟨hqueued, hhandling, hnotChecking⟩ := hidle
  cases hst : r.session.state with
  | anonymous =>
    rw [hst] at horder
    have hshort := horder.2.2.2 hqueued
    have hlen : stream.login.length = 17 := (parseImei_some stream.login_ok).1
    rw [hreceived, Stream.bytes] at hshort
    simp only [List.length_append] at hshort
    omega
  | checking imei => exact absurd hst (hnotChecking imei)
  | ready imei =>
    rw [hst] at horder
    obtain ⟨-, done, left, hframes, hbuffer, -, hlog, hnone⟩ := horder
    have hrest : r.session.buffer = left.flatten ++ stream.rest := by
      rw [hreceived, Stream.bytes, hframes] at hbuffer
      simpa using hbuffer
    cases left with
    | nil =>
      rw [(Prod.mk.inj hlog).1, hframes, List.append_nil]
    | cons frame later =>
      -- the next frame would be complete
      have hvalid := stream.frames_ok frame (by simp [hframes])
      have hextract := extractFrame_append (later.flatten ++ stream.rest) hvalid.extract
      rw [← List.append_assoc, ← List.flatten_cons, ← hrest, hnone hqueued] at hextract
      cases hextract
  | storing imei frame₀ =>
    rw [hst] at horder
    obtain ⟨-, done, frame, left, halt, -, -, hsome, -⟩ := horder
    rw [hhandling] at hsome
    cases hsome

/-- How often code will await, if the deduper answers `ans` and the writes resolve. -/
def awaits (ans : Nat → Bool) : Async ingestSig Unit → Nat → Nat
  | .pure _, _ => 0
  | .throw _, _ => 0
  | .await (.checkAndSet _) k, c => 1 + awaits ans (k (.ok (ans c))) (c + 1)
  | .await (.write _) k, c => 1 + awaits ans (k (.ok ())) c
  | .await (.isAllowed _) _, _ => 0
  | .act _ k, c => awaits ans (k ()) c

/-- What is left of the handling of a frame, its end included. -/
def handlerWork (ans : Nat → Bool) (c : Nat) : Option (Halt ingestSig Unit) → Nat
  | none => 0
  | some (.finished _) => 1
  | some (.awaiting op k) => 1 + awaits ans (.await op k) c

/-- The drains that are queued, and a login that is checked. -/
def chainWork (s : Session) : Nat :=
  2 * s.queued + match s.state with
    | .checking _ => 1
    | _ => 0

/-- The work that is left: the chain, then the bytes in the buffer, then the frame at hand. -/
def work (ans : Nat → Bool) (r : SessionRun) : ℕ ×ₗ ℕ ×ₗ ℕ :=
  toLex (chainWork r.session, toLex (r.session.buffer.length, handlerWork ans r.checks r.handling))

@[simp] theorem goOn_received (r : SessionRun) (before : List Entry)
    (out : Session × List Output) : (goOn sha1 r before out).received = r.received := by
  unfold goOn
  cases out.1.state with
  | _ => rfl

/-- All of the stream has arrived, and nothing is left to do. -/
def finished (stream : Stream) (r : SessionRun) : Bool :=
  r.received == stream.bytes && r.session.queued == 0 && r.handling.isNone &&
    match r.session.state with
    | .checking _ => false
    | _ => true

end SessionRun

end FleetTracking.Ingestion
