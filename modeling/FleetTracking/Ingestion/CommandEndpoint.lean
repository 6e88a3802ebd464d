import FleetTracking.Ingestion.Downlink
import FleetTracking.Ingestion.TcpServer
import FleetTracking.Lib.JsonText
import FleetTracking.Protocol.ReaderRules
import FleetTracking.Protocol.TeltonikaParams

/-!
# The Command Endpoint

`POST /commands` of the ingestion service hands a command to the session that the registry has
for an IMEI, and answers when the promise of the command is settled.

1. `handleCommand`, `answered`, `failed`: the responses of the endpoint.
2. `TcpServer.sendCommand`, `TcpServer.commandTimedOut`, `TcpServer.acts`: the server as the
   endpoint sees it.
3. `Serves`: what a session does with the commands that it has pending.
-/

namespace FleetTracking.Ingestion

open FleetTracking.Protocol

/-- A response with a JSON body. -/
structure HttpResponse where
  status : Nat
  body : String

/-- `this.json(res, code, body)`. -/
def HttpResponse.json (status : Nat) (members : List (String × Json)) : HttpResponse :=
  ⟨status, Json.stringify (.obj members)⟩

namespace CommandEndpoint

/-- `length` of a string: its UTF-16 code units. -/
def codeUnits (s : String) : Nat := (s.toList.map fun c => if c.toNat < 0x10000 then 1 else 2).sum

/-- `trim`. -/
def trim (s : String) : String :=
  let cs := s.toList.dropWhile TeltonikaParams.isSpace
  String.ofList (cs.reverse.dropWhile TeltonikaParams.isSpace).reverse

/-- `/timed out/i`. -/
def isTimeout (message : String) : Bool :=
  decide ("timed out".toList <:+: message.toList.map Char.toLower)

/-- What a request leads to at once: a response, or a command for a device. -/
inductive Handling where
  | respond (r : HttpResponse)
  | send (imei command : String)

/-- The secret that a request presents. -/
def presented (authorization : Option String) : String :=
  let auth := authorization.getD ""
  if "Bearer ".toList <+: auth.toList then String.ofList (auth.toList.drop 7) else ""

/-- The checks of `handleCommand` on the body. They are `none` for `null`: its properties are read
outside the `try`. -/
def handleBody (isConnected : String → Bool) (body : Json) : Option Handling := do
  let imei := ((← body.property "imei").bind Json.asStr).getD ""
  let command := trim (((← body.property "command").bind Json.asStr).getD "")
  return if ¬ isImei imei then
      .respond (.json 400 [("error", .str "imei must be 15 digits")])
    else if command = "" ∨ 160 < codeUnits command then
      .respond (.json 400 [("error", .str "command must be 1..160 chars")])
    else if ¬ isConnected imei then
      .respond (.json 404 [("error", .str "device not connected"), ("imei", .str imei)])
    else .send imei command

/-- `handleCommand`, up to its `sendCommand`. -/
def handleCommand (secret : String) (isConnected : String → Bool) (authorization : Option String)
    (data : String) : Option Handling :=
  -- without a secret the endpoint does not exist
  if secret = "" then some (.respond (.json 503 [("error", .str "command endpoint disabled")]))
  else if presented authorization ≠ secret then
    some (.respond (.json 401 [("error", .str "unauthorized")]))
  else
    match if 4096 < codeUnits data then none else Json.parse data with
    | none => some (.respond (.json 400 [("error", .str "invalid JSON body")]))
    | some body => handleBody isConnected body

/-- The response when the promise of the command has resolved. -/
def answered (imei command reply : String) : HttpResponse :=
  .json 200 [("imei", .str imei), ("command", .str command), ("reply", .str reply)]

/-- `err.message`. -/
def errorMessage : JsError → String
  | .error m | .rangeError m | .teltonikaDecodeError m | .codec12Error m | .udpDecodeError m => m

/-- The response when `sendCommand` has thrown or its promise was rejected. -/
def failed (imei command message : String) : HttpResponse :=
  .json (if isTimeout message then 504 else 502)
    [("error", .str message), ("imei", .str imei), ("command", .str command)]

end CommandEndpoint

namespace TcpServer

/-- `sendCommand` at time `now`, its promise being `promise`: the session it goes to, and the
server after it. -/
def sendCommand (s : TcpServer) (promise now : Nat) (imei command : String) :
    Except JsError (Nat × TcpServer) :=
  match (s.byImei.get imei).bind fun id => (s.conns id).map fun c => (id, c) with
  | none => .error (.error ("Device " ++ imei ++ " is not currently connected"))
  | some (id, c) => do
    let r ← c.session.sendCommand promise now command
    return (id, sessionActs s id c r)

/-- The timer of a pending command of a session fires. -/
def commandTimedOut (s : TcpServer) (id promise now : Nat) : Option (TcpServer × List Output) :=
  (s.conns id).bind fun c =>
    if c.session.pendingCommands.any fun p => p.id = promise ∧ p.deadline ≤ now then
      let r := c.session.commandTimedOut promise
      some (sessionActs s id c r, r.2)
    else none

/-- What the session of the event's socket does. -/
def acts (s : TcpServer) : Ev → List Output
  | .drain id => ((s.conns id).bind fun c => c.session.drain).elim [] Prod.snd
  | .loginAnswered id r => ((s.conns id).bind fun c => c.session.loginAnswered r).elim [] Prod.snd
  | .stored id r => ((s.conns id).bind fun c => c.session.acked r).elim [] Prod.snd
  | .close id => (s.conns id).elim [] fun c => c.session.handleClosed.2
  | _ => []

end TcpServer

/-! ## What a session does with its commands -/

/-- The promises that are settled. -/
def settledPromises (out : List Output) : List Nat :=
  out.filterMap fun o =>
    match o with
    | .resolve id _ => some id
    | .reject id _ => some id
    | _ => none

@[simp] theorem settledPromises_append (out out' : List Output) :
    settledPromises (out ++ out') = settledPromises out ++ settledPromises out' :=
  List.filterMap_append

/-- A response with this text was cut off somewhere in the stream. -/
def ReadResponse (stream : Buffer) (text : String) : Prop :=
  ∃ tail frame rest, tail <:+ stream ∧ extractFrame tail = some (frame, rest) ∧
    Downlink.responseText frame = some text

theorem ReadResponse.of_suffix {tail stream : Buffer} {text : String} (h : ReadResponse tail text)
    (hsuffix : tail <:+ stream) : ReadResponse stream text := by
  obtain ⟨t, frame, rest, ht, hframe, htext⟩ := h
  exact ⟨t, frame, rest, ht.trans hsuffix, hframe, htext⟩

/-- What was read stays read when more arrives. -/
theorem ReadResponse.append {stream : Buffer} {text : String} (more : Buffer)
    (h : ReadResponse stream text) : ReadResponse (stream ++ more) text := by
  obtain ⟨t, frame, rest, ⟨front, rfl⟩, hframe, htext⟩ := h
  exact ⟨t ++ more, frame, rest ++ more, ⟨front, by simp⟩, extractFrame_append more hframe, htext⟩

/-- What is sent to a device besides commands: the answer to a login, of one byte, and the number
of the records of an AVL packet, of four. -/
def isAnswer (buf : Buffer) : Bool := buf ∈ [Session.ACCEPT, Session.REJECT] ∨ buf.length = 4

/-- Commands are taken from the front of the queue, each is resolved with a response that was read,
and nothing is sent but answers. -/
structure Serves (buffer : Buffer) (pending : List PendingCommand) (buffer' : Buffer)
    (pending' : List PendingCommand) (out : List Output) : Prop where
  order : pending.map PendingCommand.id = settledPromises out ++ pending'.map PendingCommand.id
  sublist : pending'.Sublist pending
  unread : buffer' <:+ buffer
  read : ∀ id text, .resolve id text ∈ out → ReadResponse buffer text
  kept : ∀ id e, .reject id e ∉ out
  plain : ∀ buf, .send buf ∈ out → isAnswer buf = true

namespace Serves

variable {buffer buffer' buffer'' : Buffer} {pending pending' pending'' : List PendingCommand}
  {out out' : List Output}

/-- Nothing is taken. -/
theorem stay (h : buffer' <:+ buffer) : Serves buffer pending buffer' pending [] where
  order := rfl
  sublist := List.Sublist.refl _
  unread := h
  read := by simp
  kept := by simp
  plain := by simp

/-- One part after the other. -/
theorem trans (h : Serves buffer pending buffer' pending' out)
    (h' : Serves buffer' pending' buffer'' pending'' out') :
    Serves buffer pending buffer'' pending'' (out ++ out') where
  order := by rw [h.order, h'.order, settledPromises_append, List.append_assoc]
  sublist := h'.sublist.trans h.sublist
  unread := h'.unread.trans h.unread
  read := by
    intro id text hmem
    rcases List.mem_append.mp hmem with hmem | hmem
    · exact h.read id text hmem
    · exact (h'.read id text hmem).of_suffix h.unread
  kept := by
    intro id e hmem
    rcases List.mem_append.mp hmem with hmem | hmem
    · exact h.kept id e hmem
    · exact h'.kept id e hmem
  plain := by
    intro buf hmem
    rcases List.mem_append.mp hmem with hmem | hmem
    · exact h.plain buf hmem
    · exact h'.plain buf hmem

/-- Something else is done: an answer to a login, a registration, a close. -/
theorem silent {out : List Output} (hsettled : settledPromises out = [])
    (hplain : ∀ buf, .send buf ∈ out → isAnswer buf = true) :
    Serves buffer pending buffer pending out where
  order := by simp [hsettled]
  sublist := List.Sublist.refl _
  unread := List.suffix_refl _
  read := by
    intro id text hmem
    have hid : id ∈ settledPromises out := List.mem_filterMap.mpr ⟨_, hmem, rfl⟩
    simp [hsettled] at hid
  kept := by
    intro id e hmem
    have hid : id ∈ settledPromises out := List.mem_filterMap.mpr ⟨_, hmem, rfl⟩
    simp [hsettled] at hid
  plain := hplain

end Serves

namespace Session

/-- A Codec 12 frame serves the command at the front of the queue, if it is a response. -/
theorem handleCodec12_serves {pending pending' : List PendingCommand} {buffer frame rest : Buffer}
    {out : List Output} (hframe : extractFrame buffer = some (frame, rest))
    (h : handleCodec12 pending frame = .ok (pending', out)) :
    Serves buffer pending rest pending' out := by
  have hrest : rest <:+ buffer := extractFrame_suffix hframe
  cases hdec : decodeCodec12 frame with
  | error e =>
    rw [handleCodec12, hdec] at h
    cases h
  | ok msg =>
    -- a response resolves the oldest pending command; any other type is passed over
    by_cases hty : msg.type = TYPE_RESPONSE
    · have htext : Downlink.responseText frame = some msg.payload := by
        simp [Downlink.responseText, hdec, hty]
      rw [Downlink.responseText_spec htext] at h
      cases pending with
      | nil =>
        cases h
        exact .stay hrest
      | cons p ps =>
        cases h
        refine ⟨rfl, List.sublist_cons_self _ _, hrest, ?_, by simp, by simp⟩
        intro id text hmem
        obtain ⟨-, rfl⟩ : id = p.id ∧ text = msg.payload := by simpa using hmem
        exact ⟨buffer, frame, rest, List.suffix_refl _, hframe, htext⟩
    · simp only [handleCodec12, hdec, bind, Except.bind, hty, ne_eq, not_false_eq_true,
        if_true] at h
      cases h
      exact .stay hrest

/-- The frame loop. Induction on its rounds. -/
theorem frames_serves (buffer : Buffer) (pending : List PendingCommand) :
    Serves buffer pending (frames buffer pending).1 (frames buffer pending).2.1
      (frames buffer pending).2.2.1 := by
  induction hn : buffer.length using Nat.strong_induction_on generalizing buffer pending with
  | _ n ih =>
    cases h : extractFrame buffer with
    | none =>
      rw [frames_none h]
      exact .stay (List.suffix_refl _)
    | some p =>
      obtain ⟨frame, rest⟩ := p
      have hrest : rest <:+ buffer := extractFrame_suffix h
      rw [frames_some h]
      split
      · cases hc : handleCodec12 pending frame with
        | error e => exact .stay hrest
        | ok r =>
          obtain ⟨pending', out⟩ := r
          have hnext := ih rest.length (hn ▸ extractFrame_rest h) rest pending' rfl
          exact (handleCodec12_serves h hc).trans hnext
      · split
        · exact .stay hrest
        · exact .stay hrest

/-- What a step of a session does with its commands. -/
def ServesTo (s : Session) (r : Session × List Output) : Prop :=
  Serves s.buffer s.pendingCommands r.1.buffer r.1.pendingCommands r.2

theorem loop_serves (s : Session) (imei : String) : s.ServesTo (s.loop imei) := by
  have h := frames_serves s.buffer s.pendingCommands
  unfold ServesTo loop
  split
  case h_1 heq =>
    rw [heq] at h
    exact h
  case h_2 heq =>
    rw [heq] at h
    exact h
  case h_3 heq =>
    rw [heq] at h
    exact h.trans (.silent rfl (by simp))

theorem drain_serves {s : Session} {r : Session × List Output} (h : s.drain = some r) :
    s.ServesTo r := by
  unfold drain at h
  split at h
  case h_1 =>
    split at h
    · cases h
      exact .silent rfl (by simp)
    · cases h
      exact .silent rfl (by simp)
    · cases h
      exact .stay (List.drop_suffix _ _)
  case h_2 queued imei _ _ =>
    cases h
    exact loop_serves { s with queued } imei
  case h_3 => cases h

theorem loginAnswered_serves {s : Session} {a : Except JsError Bool} {r : Session × List Output}
    (h : s.loginAnswered a = some r) : s.ServesTo r := by
  unfold loginAnswered at h
  split at h
  case h_1 imei hst =>
    cases h
    have hgreet : Serves s.buffer s.pendingCommands s.buffer s.pendingCommands
        [.send ACCEPT, .authenticated imei] := .silent rfl (by simp [isAnswer])
    exact hgreet.trans (loop_serves s imei)
  case h_2 =>
    cases h
    exact .silent rfl (by simp [isAnswer])
  case h_3 =>
    cases h
    exact .silent rfl (by simp)
  case h_4 => cases h

theorem stored_serves {s : Session} {a : Except JsError Unit} {r : Session × List Output}
    (h : s.stored a = some r) : s.ServesTo r := by
  unfold stored at h
  split at h
  case h_1 imei frame hst =>
    cases h
    exact loop_serves s imei
  case h_2 =>
    cases h
    exact .silent rfl (by simp)
  case h_3 => cases h

theorem acked_serves {s : Session} {a : Except JsError Nat} {r : Session × List Output}
    (h : s.acked a = some r) : s.ServesTo r := by
  cases a with
  | error e => exact stored_serves h
  | ok recordCount =>
    obtain ⟨out, hout, rfl⟩ := Option.map_eq_some_iff.mp h
    have hack : Serves s.buffer s.pendingCommands s.buffer s.pendingCommands
        [.send (buildTcpAck recordCount)] :=
      .silent rfl (by simp [isAnswer, buildTcpAck])
    exact hack.trans (stored_serves hout)

end Session

/-! ## What a step of the server does to its sockets -/

/-- What is sent. -/
def sends (out : List Output) : List Buffer :=
  out.filterMap fun o =>
    match o with
    | .send buf => some buf
    | _ => none

namespace TcpServer

/-- What an event adds to the stream of a socket. -/
def Ev.chunk (j : Nat) : Ev → Buffer
  | .data id chunk => if id = j then chunk else []
  | _ => []

theorem output_conns (id : Nat) (s : TcpServer) (o : Output) {c : Conn} (hc : s.conns id = some c) :
    ∃ c', (output id s o).conns id = some c' ∧ c'.session = c.session ∧
      (∃ sent, sent.Sublist (sends [o]) ∧ c'.written = c.written ++ sent) ∧
      ∀ j, j ≠ id → (output id s o).conns j = s.conns j := by
  cases o with
  | send buf =>
    by_cases hd : c.destroyed = true
    · exact ⟨c, by simp [output, hc, hd], rfl, ⟨[], by simp, by simp⟩,
        fun j hj => by simp [output, hj]⟩
    · exact ⟨{ c with written := c.written ++ [buf] }, by simp [output, hc, hd], rfl,
        ⟨[buf], List.Sublist.refl _, rfl⟩, fun j hj => by simp [output, hj]⟩
  | close =>
    exact ⟨{ c with destroyed := true }, by simp [output, hc], rfl, ⟨[], by simp, by simp⟩,
      fun j hj => by simp [output, hj]⟩
  | authenticated imei => exact ⟨c, hc, rfl, ⟨[], by simp, by simp⟩, fun _ _ => rfl⟩
  | resolve p text => exact ⟨c, hc, rfl, ⟨[], by simp, by simp⟩, fun _ _ => rfl⟩
  | reject p e => exact ⟨c, hc, rfl, ⟨[], by simp, by simp⟩, fun _ _ => rfl⟩

/-- Induction on the outputs. -/
theorem outputs_conns (id : Nat) (out : List Output) (s : TcpServer) {c : Conn}
    (hc : s.conns id = some c) :
    ∃ c', (out.foldl (output id) s).conns id = some c' ∧ c'.session = c.session ∧
      (∃ sent, sent.Sublist (sends out) ∧ c'.written = c.written ++ sent) ∧
      ∀ j, j ≠ id → (out.foldl (output id) s).conns j = s.conns j := by
  induction out generalizing s c with
  | nil => exact ⟨c, hc, rfl, ⟨[], by simp, by simp⟩, fun _ _ => rfl⟩
  | cons o out ih =>
    obtain ⟨c₁, hc₁, hsession₁, ⟨sent₁, hsub₁, hwritten₁⟩, hothers₁⟩ := output_conns id s o hc
    obtain ⟨c₂, hc₂, hsession₂, ⟨sent₂, hsub₂, hwritten₂⟩, hothers₂⟩ := ih (output id s o) hc₁
    refine ⟨c₂, hc₂, hsession₂.trans hsession₁, ⟨sent₁ ++ sent₂, ?_, ?_⟩, ?_⟩
    · have happend : sends (o :: out) = sends [o] ++ sends out := by
        rw [sends, ← List.singleton_append, List.filterMap_append]
        rfl
      rw [happend]
      exact hsub₁.append hsub₂
    · rw [hwritten₂, hwritten₁, List.append_assoc]
    · exact fun j hj => (hothers₂ j hj).trans (hothers₁ j hj)

/-- A session that acts. -/
theorem sessionActs_conns (s : TcpServer) (id : Nat) (c : Conn) (r : Session × List Output) :
    ∃ c', (sessionActs s id c r).conns id = some c' ∧ c'.session = r.1 ∧
      (∃ sent, sent.Sublist (sends r.2) ∧ c'.written = c.written ++ sent) ∧
      ∀ j, j ≠ id → (sessionActs s id c r).conns j = s.conns j := by
  obtain ⟨c', hc', hsession, hwritten, hothers⟩ := outputs_conns id r.2
    { s with conns := Function.update s.conns id (some { c with session := r.1 }) }
    (Function.update_self ..)
  exact ⟨c', hc', hsession, hwritten,
    fun j hj => (hothers j hj).trans (Function.update_of_ne hj ..)⟩

/-- Induction on the outputs. -/
theorem outputs_connections (id : Nat) (out : List Output) (s : TcpServer) :
    (out.foldl (output id) s).connections = s.connections := by
  induction out generalizing s with
  | nil => rfl
  | cons o out ih => rw [List.foldl_cons, ih, (output_spec id s o).1]

theorem sessionActs_connections (s : TcpServer) (id : Nat) (c : Conn) (r : Session × List Output) :
    (sessionActs s id c r).connections = s.connections := outputs_connections ..

/-- All that a step does to the sockets, with what it does to commands in `out`. -/
inductive SocketMove (s : TcpServer) (e : Ev) (s' : TcpServer) : List Output → Prop where
  | still (hconns : s'.conns = s.conns) (hopen : s'.connections = s.connections)
      (hchunk : ∀ j, e.chunk j = []) : SocketMove s e s' []
  | opened {id : Nat} (hnew : s.conns id = none)
      (hconns : s'.conns = Function.update s.conns id (some ⟨Session.init, false, []⟩))
      (hopen : s'.connections = s.connections ++ [id]) (hchunk : ∀ j, e.chunk j = []) :
      SocketMove s e s' []
  | acted {id : Nat} {c c' : Conn} {out : List Output} (hc : s.conns id = some c)
      (hc' : s'.conns id = some c') (hothers : ∀ j, j ≠ id → s'.conns j = s.conns j)
      (hopen : s'.connections = s.connections) (hchunk : ∀ j, j ≠ id → e.chunk j = [])
      (hserves : Serves (c.session.buffer ++ e.chunk id) c.session.pendingCommands
        c'.session.buffer c'.session.pendingCommands out)
      (hwritten : ∃ sent, (∀ buf ∈ sent, isAnswer buf = true) ∧ c'.written = c.written ++ sent) :
      SocketMove s e s' out
  | closed {id : Nat} {c c' : Conn} (hc : s.conns id = some c) (hc' : s'.conns id = some c')
      (hothers : ∀ j, j ≠ id → s'.conns j = s.conns j)
      (hopen : s'.connections = s.connections.filter fun j => j ≠ id)
      (hchunk : ∀ j, e.chunk j = []) (hsession : c'.session = c.session.handleClosed.1)
      (hwritten : c'.written = c.written) : SocketMove s e s' c.session.handleClosed.2

/-- A session that serves its commands. -/
theorem SocketMove.serve {s : TcpServer} {e : Ev} {id : Nat} {c : Conn}
    {r : Session × List Output} (hc : s.conns id = some c) (hserves : c.session.ServesTo r)
    (hchunk : ∀ j, e.chunk j = []) : SocketMove s e (sessionActs s id c r) r.2 := by
  obtain ⟨c', hc', hsession, ⟨sent, hsub, hwritten⟩, hothers⟩ := sessionActs_conns s id c r
  refine .acted hc hc' hothers (sessionActs_connections ..) (fun j _ => hchunk j) ?_
    ⟨sent, ?_, hwritten⟩
  · rw [hchunk, List.append_nil, hsession]
    exact hserves
  · intro buf hbuf
    obtain ⟨o, ho, hsend⟩ := List.mem_filterMap.mp (hsub.subset hbuf)
    cases o with
    | send b =>
      cases hsend
      exact hserves.plain _ ho
    | close => cases hsend
    | authenticated imei => cases hsend
    | resolve p text => cases hsend
    | reject p e => cases hsend

/-- A session that is told its socket closed, in any state `t` with the sockets of `s`. -/
theorem SocketMove.shut {s t : TcpServer} {e : Ev} {id : Nat} {c : Conn} (hc : s.conns id = some c)
    (hconns : t.conns = s.conns) (hopen : t.connections = s.connections.filter fun j => j ≠ id)
    (hchunk : ∀ j, e.chunk j = []) :
    SocketMove s e (sessionActs t id c c.session.handleClosed) c.session.handleClosed.2 := by
  obtain ⟨c', hc', hsession, ⟨sent, hsub, hwritten⟩, hothers⟩ :=
    sessionActs_conns t id c c.session.handleClosed
  rw [hconns] at hothers
  refine .closed hc hc' hothers ((sessionActs_connections ..).trans hopen) hchunk hsession ?_
  have hnone : sends c.session.handleClosed.2 = [] := by
    simp [sends, Session.handleClosed, List.filterMap_map]
  rw [hnone] at hsub
  simpa [List.sublist_nil.mp hsub] using hwritten

/-- **Inversion of a step**, as far as the sockets and their commands are concerned. -/
theorem step_sockets {s s' : TcpServer} {e : Ev} (h : s.step e = some s') :
    SocketMove s e s' (s.acts e) := by
  -- an event concerns one socket, if any
  cases e with
  | connection id =>
    simp only [step] at h
    cases hid : s.conns id with
    | some c =>
      rw [hid] at h
      cases h
    | none =>
      rw [hid] at h
      simp only at h
      split at h
      · cases h
        exact .still rfl rfl fun _ => rfl
      · cases h
        exact .opened hid rfl rfl fun _ => rfl
  | data id chunk =>
    obtain ⟨c, hid, rfl⟩ := Option.map_eq_some_iff.mp h
    obtain ⟨c', hc', hsession, ⟨sent, hsub, hwritten⟩, hothers⟩ :=
      sessionActs_conns s id c (c.session.onData chunk, [])
    refine .acted hid hc' hothers (sessionActs_connections ..) (fun j hj => ?_) ?_
      ⟨sent, ?_, hwritten⟩
    · simp [Ev.chunk, hj.symm]
    · rw [hsession]
      simpa [acts, Ev.chunk, Session.onData] using Serves.stay (List.suffix_refl _)
    · obtain rfl := List.sublist_nil.mp hsub
      simp
  -- the chain, the login answer and the packet answer all serve the session
  | drain id =>
    obtain ⟨c, hid, hr⟩ := Option.bind_eq_some_iff.mp h
    obtain ⟨r, hdrain, rfl⟩ := Option.map_eq_some_iff.mp hr
    have hacts : s.acts (.drain id) = r.2 := by simp [acts, hid, hdrain]
    rw [hacts]
    exact .serve hid (Session.drain_serves hdrain) fun _ => rfl
  | loginAnswered id a =>
    obtain ⟨c, hid, hr⟩ := Option.bind_eq_some_iff.mp h
    obtain ⟨r, hlogin, rfl⟩ := Option.map_eq_some_iff.mp hr
    have hacts : s.acts (.loginAnswered id a) = r.2 := by simp [acts, hid, hlogin]
    rw [hacts]
    exact .serve hid (Session.loginAnswered_serves hlogin) fun _ => rfl
  | stored id a =>
    obtain ⟨c, hid, hr⟩ := Option.bind_eq_some_iff.mp h
    obtain ⟨r, hstored, rfl⟩ := Option.map_eq_some_iff.mp hr
    have hacts : s.acts (.stored id a) = r.2 := by simp [acts, hid, hstored]
    rw [hacts]
    exact .serve hid (Session.acked_serves hstored) fun _ => rfl
  -- the server closes the socket itself; the session is not told yet
  | destroy id =>
    obtain ⟨c, hid, rfl⟩ := Option.map_eq_some_iff.mp h
    obtain ⟨c', hc', hsession, ⟨sent, hsub, hwritten⟩, hothers⟩ := output_conns id s .close hid
    refine .acted hid hc' hothers rfl (fun _ _ => rfl) ?_ ⟨sent, ?_, hwritten⟩
    · rw [hsession]
      simpa [acts, Ev.chunk] using Serves.stay (List.suffix_refl _)
    · obtain rfl := List.sublist_nil.mp hsub
      simp
  -- the socket is gone, and the session rejects what it waits for
  | close id =>
    obtain ⟨c, hid, hr⟩ := Option.bind_eq_some_iff.mp h
    split at hr
    · cases hr
      have hacts : s.acts (.close id) = c.session.handleClosed.2 := by simp [acts, hid]
      rw [hacts]
      exact .shut hid rfl rfl fun _ => rfl
    · cases hr
  | startDraining =>
    cases h
    exact .still rfl rfl fun _ => rfl

/-- An entry of the registry is a session that is logged in with its IMEI. -/
def EntriesLoggedIn (s : TcpServer) : Prop :=
  ∀ imei id, s.byImei.get imei = some id → s.imeiOf id = some imei

/-- Logins stay, and so does the relation of the registry to them, whatever happens. -/
theorem step_logins {s s' : TcpServer} {e : Ev} (h : s.EntriesLoggedIn) (hs : s.step e = some s') :
    s'.EntriesLoggedIn ∧ ∀ j imei, s.imeiOf j = some imei → s'.imeiOf j = some imei := by
  cases step_registry hs with
  | quiet hc hi hb hne =>
    rw [EntriesLoggedIn, hi, hb]
    exact ⟨h, fun _ _ hj => hj⟩
  | connected hnew hc hi hb =>
    rw [EntriesLoggedIn, hi, hb]
    exact ⟨h, fun _ _ hj => hj⟩
  | @loggedIn id imei _ hnone hc hi hb =>
    -- the session had no IMEI before, so no other one is forgotten
    have hkeep : ∀ j imei', s.imeiOf j = some imei' → s'.imeiOf j = some imei' := by
      intro j imei' hj
      have hne : j ≠ id := by
        rintro rfl
        rw [hnone] at hj
        cases hj
      rw [hi, Function.update_of_ne hne, hj]
    refine ⟨fun imei' j hj => ?_, hkeep⟩
    rw [hb] at hj
    by_cases himei : imei' = imei
    · subst himei
      rw [JsMap.get_set_self] at hj
      cases hj
      rw [hi, Function.update_self]
    · rw [JsMap.get_set_of_ne _ _ himei] at hj
      exact hkeep j imei' (h imei' j hj)
  | @closed id _ hopen hc hi hb =>
    rw [EntriesLoggedIn, hi, hb]
    refine ⟨fun imei j hj => ?_, fun _ _ hj => hj⟩
    -- `close` deletes the entry of its IMEI, whoever holds it
    cases himei : s.imeiOf id with
    | none =>
      rw [himei] at hj
      exact h imei j hj
    | some imei' =>
      rw [himei] at hj
      by_cases heq : imei = imei'
      · subst heq
        simp at hj
      · simp only [JsMap.get_delete_of_ne _ heq] at hj
        exact h imei j hj

/-- A command for a connected device goes to the session that is logged in with its IMEI. -/
theorem sendCommand_spec {s : TcpServer} {imei : String} (h : s.EntriesLoggedIn)
    (hconn : s.isConnected imei = true) (promise now : Nat) (command : String) :
    ∃ id c, s.conns id = some c ∧ c.session.imei = some imei ∧
      s.sendCommand promise now imei command = .ok (id, sessionActs s id c
        ({ c.session with
          pendingCommands := c.session.pendingCommands ++ [⟨promise, now + Session.timeoutMs⟩] },
          [.send (encodeCommand command)])) := by
  obtain ⟨id, hid⟩ := Option.isSome_iff_exists.mp
    (show (s.byImei.get imei).isSome = true from hconn)
  obtain ⟨c, hc, himei⟩ := Option.bind_eq_some_iff.mp (h imei id hid)
  refine ⟨id, c, hc, himei, ?_⟩
  simp only [sendCommand, hid, hc, Option.bind_some, Option.map_some, Session.sendCommand, himei]
  rfl

end TcpServer

end FleetTracking.Ingestion
