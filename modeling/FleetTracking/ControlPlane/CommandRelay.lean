import FleetTracking.ControlPlane.Entities
import FleetTracking.Ingestion.CommandEndpoint
import FleetTracking.Ingestion.Registry

/-!
# The Relay of Commands

The control plane asks the ingestion service over HTTP to send a command to a tracker, and the
ingestion service hands it to the session of the tracker. Requests, responses, the sockets of the
trackers and the timers of the commands go on in any order; a request or its response may be lost,
and a response may be cut off after its headers.

1. `HttpDeviceCommander`, `Relay.step`: both services and what is between them.
2. `handleCommand_send`, `handleCommand_respond`: what the endpoint makes of the request.
3. `RelayInv`: the requests, the handed commands and the queues of the sessions.
4. `outcome_truthful`: what the control plane is told is true.
5. `commands_once`: a request makes at most one command, for the device that was asked for.
-/

namespace FleetTracking.ControlPlane

open FleetTracking.Protocol FleetTracking.Ingestion Transition

/-! ## The commander -/

namespace HttpDeviceCommander

/-- The body of the request of `send`. -/
def requestBody (imei command : String) : String :=
  Json.stringify (.obj [("imei", .str imei), ("command", .str command)])

/-- What `send` throws when `fetch` does. -/
def unreachable (message : String) : ApiError :=
  .deviceCommand .unavailable ("ingestion service unreachable: " ++ message)

/-- A response without a reply, by the `error` of its body. It is `none` for an `error` that is no
string. -/
def rejected (status : Nat) (body : Json) : Option ApiError :=
  match body.property "error" with
  | none => some (.error "Cannot read properties of null (reading 'error')")
  | some (some (.str message)) => some (.deviceCommand .rejected message)
  | some (some .null) | some none =>
    some (.deviceCommand .rejected ("ingestion returned " ++ toString status))
  | some (some _) => none

/-- `res.json().catch(() => ({}))`. Of a response that is cut off after its headers, or that the
timeout of the request overtakes, nothing is read. -/
def bodyOf (r : HttpResponse) (whole : Bool) : Json :=
  if whole then (Json.parse r.body).getD (.obj []) else .obj []

/-- What `send` makes of a response, of which the body is there or not. -/
def sendResult (r : HttpResponse) (whole : Bool) : Option (Except ApiError String) :=
  let body := bodyOf r whole
  if 200 ≤ r.status ∧ r.status < 300 then
    match body.property "reply" with
    | none => some (.error (.error "Cannot read properties of null (reading 'reply')"))
    | some (some (.str reply)) => some (.ok reply)
    | some _ => (rejected r.status body).map .error
  else if r.status = 404 then
    some (.error (.deviceCommand .not_connected
      "Device is not currently connected — it must be online to receive settings"))
  else if r.status = 504 then
    some (.error (.deviceCommand .timeout "Device did not answer in time"))
  else if r.status = 503 then
    some (.error (.deviceCommand .disabled
      "Remote configuration is not enabled on the ingestion service"))
  else if r.status = 401 then
    some (.error (.deviceCommand .disabled "Ingestion rejected the command secret"))
  else (rejected r.status body).map .error

end HttpDeviceCommander

/-- A character of several bytes that a chunk of the body has cut into `n` replacement characters,
or not at all. -/
def cut (c : Char) (n : Nat) : List Char := if n = 0 then [c] else List.replicate n '\uFFFD'

/-- The text that `readBody` puts together from the chunks of a body; `cuts` has the cuts of its
characters of several bytes, in their order. -/
def readBody : List Nat → List Char → List Char
  | _, [] => []
  | cuts, c :: cs =>
    if c.toNat < 128 then c :: readBody cuts cs
    else cut c (cuts.headD 0) ++ readBody cuts.tail cs

/-! ## Both services -/

/-- A command that was handed to the session of a socket. -/
structure Handed where
  id : Nat
  imei : String
  command : String
  socket : Nat
  time : Nat

/-- Where a request stands: on its way, waiting for the promise of its command, or answered. -/
inductive Exchange where
  | calling (authorization body : String)
  | waiting (imei command : String)
  | responded (r : HttpResponse)

/-- The settings of both services. `header` is what arrives of a header, if `fetch` accepts it. -/
structure RelayConfig where
  maxConnections : Nat
  commandSecret : String
  secret : String
  header : String → Option String

/-- The state of both services. Calls of `send` are numbered. -/
structure Relay where
  server : TcpServer
  now : Nat
  asked : Nat → Option (String × String)
  exchange : Nat → Option Exchange
  outcome : Nat → Option (Except ApiError String)
  handed : List Handed
  heard : Nat → Buffer

namespace Relay

def init (cfg : RelayConfig) : Relay :=
  ⟨.init cfg.maxConnections, 0, fun _ => none, fun _ => none, fun _ => none, [], fun _ => []⟩

/-- What happens: time passes; `send` is called; its request has arrived; a socket or its session
goes on; the timer of a command fires; the response arrives, whole or without its body; `fetch`
gives up. -/
inductive Ev where
  | tick (ms : Nat)
  | send (i : Nat) (imei command : String)
  | arrive (i : Nat) (cuts : List Nat)
  | tcp (e : TcpServer.Ev)
  | timer (socket i : Nat)
  | delivered (i : Nat) (whole : Bool)
  | lost (i : Nat) (message : String)

/-- A request stands here now. -/
def put (s : Relay) (i : Nat) (x : Exchange) : Relay :=
  { s with exchange := Function.update s.exchange i (some x) }

/-- `this.json(res, …)` on the response of a request. -/
def respond (s : Relay) (i : Nat) (r : HttpResponse) : Relay := s.put i (.responded r)

/-- The promise of `send` is settled. -/
def conclude (s : Relay) (i : Nat) (o : Except ApiError String) : Relay :=
  { s with outcome := Function.update s.outcome i (some o) }

/-- A handler that waits for its command goes on. -/
def goOn (s : Relay) (i : Nat) (answer : String → String → HttpResponse) : Relay :=
  match s.exchange i with
  | some (.waiting imei command) => s.respond i (answer imei command)
  | _ => s

/-- The promise of a command is settled. -/
def settle (s : Relay) : Output → Relay
  | .resolve i reply => s.goOn i fun imei command => CommandEndpoint.answered imei command reply
  | .reject i e => s.goOn i fun imei command =>
      CommandEndpoint.failed imei command (CommandEndpoint.errorMessage e)
  | _ => s

/-- The rest of `handleCommand` after its first response or `sendCommand`. -/
def handle (s : Relay) (i : Nat) : CommandEndpoint.Handling → Relay
  | .respond r => s.respond i r
  | .send imei command =>
    match s.server.sendCommand i s.now imei command with
    | .error e => s.respond i (CommandEndpoint.failed imei command (CommandEndpoint.errorMessage e))
    | .ok (socket, server) =>
      put { s with server, handed := s.handed ++ [⟨i, imei, command, socket, s.now⟩] } i
        (.waiting imei command)

/-- One event. -/
def step (cfg : RelayConfig) (s : Relay) : Ev → Option Relay
  | .tick ms => some { s with now := s.now + ms }
  | .send i imei command =>
    match s.asked i with
    | some _ => none
    | none =>
      let s := { s with asked := Function.update s.asked i (some (imei, command)) }
      match cfg.header ("Bearer " ++ cfg.secret) with
      | none => some (s.conclude i (.error (HttpDeviceCommander.unreachable "invalid header")))
      | some authorization =>
        some (s.put i (.calling authorization (HttpDeviceCommander.requestBody imei command)))
  | .arrive i cuts =>
    match s.exchange i with
    | some (.calling authorization body) =>
      (CommandEndpoint.handleCommand cfg.commandSecret s.server.isConnected (some authorization)
        (String.ofList (readBody cuts body.toList))).map (s.handle i)
    | _ => none
  | .tcp e => (s.server.step e).map fun server =>
      (s.server.acts e).foldl settle
        { s with server, heard := fun j => s.heard j ++ e.chunk j }
  | .timer socket i => (s.server.commandTimedOut socket i s.now).map fun r =>
      r.2.foldl settle { s with server := r.1 }
  | .delivered i whole =>
    match s.exchange i, s.outcome i with
    | some (.responded r), none => (HttpDeviceCommander.sendResult r whole).map (s.conclude i)
    | _, _ => none
  | .lost i message =>
    if s.asked i ≠ none ∧ s.outcome i = none then
      some (s.conclude i (.error (HttpDeviceCommander.unreachable message)))
    else none

/-- No command was handed to a session for this call. -/
def NotHanded (s : Relay) (i : Nat) : Prop := ∀ h ∈ s.handed, h.id ≠ i

/-- The socket was seen to close. -/
def Closed (s : TcpServer) (j : Nat) : Prop := (s.conns j).isSome = true ∧ j ∉ s.connections

/-- What is said of a response with the status 200 whose body was cut off. -/
def cutOff : String := "ingestion returned " ++ toString 200

/-- What the control plane is told about a call is true. A reply is a response that was read from
the socket the command was handed to; a timeout means that it was handed over as long ago as that;
everything else means that it went to no device. A rejection may also mean that the connection of
the device was then closed, or, if it only tells of the status 200, that the device has answered. -/
def Truthful (s : Relay) (i : Nat) : Except ApiError String → Prop
  | .ok reply => ∃ h ∈ s.handed, h.id = i ∧ ReadResponse (s.heard h.socket) reply
  | .error (.deviceCommand .not_connected _) => s.NotHanded i
  | .error (.deviceCommand .disabled _) => s.NotHanded i
  | .error (.deviceCommand .timeout _) =>
    ∃ h ∈ s.handed, h.id = i ∧ h.time + Session.timeoutMs ≤ s.now
  | .error (.deviceCommand .rejected message) =>
    s.NotHanded i ∨ (∃ h ∈ s.handed, h.id = i ∧ Closed s.server h.socket) ∨
      message = cutOff ∧ ∃ h ∈ s.handed, h.id = i ∧ ∃ reply, ReadResponse (s.heard h.socket) reply
  | .error (.deviceCommand .unavailable _) => True
  | .error _ => False

end Relay

/-! ## The body of a request on its way -/

section Body

variable {cuts : List Nat}

theorem readBody_ascii {front : List Char} (h : ∀ c ∈ front, c.toNat < 128) (cuts : List Nat)
    (rest : List Char) : readBody cuts (front ++ rest) = front ++ readBody cuts rest := by
  induction front with
  | nil => rfl
  | cons c cs ih =>
    have hc : c.toNat < 128 := h c List.mem_cons_self
    rw [List.cons_append, readBody, if_pos hc, ih fun d hd => h d (List.mem_cons_of_mem c hd)]
    rfl

theorem not_ascii_of_mem_cut {c d : Char} {n : Nat} (hc : ¬ c.toNat < 128) (h : d ∈ cut c n) :
    ¬ d.toNat < 128 := by
  unfold cut at h
  split_ifs at h
  · rwa [List.mem_singleton.mp h]
  · rw [List.eq_of_mem_replicate h]
    decide

theorem cut_ne_nil (c : Char) (n : Nat) : cut c n ≠ [] := by
  unfold cut
  split_ifs with hn
  · simp
  · simpa using hn

/-- A text of ASCII characters was not cut. -/
theorem readBody_of_ascii {cs : List Char} (h : ∀ c ∈ readBody cuts cs, c.toNat < 128) :
    readBody cuts cs = cs := by
  induction cs generalizing cuts with
  | nil => rfl
  | cons c cs ih =>
    rw [readBody] at h ⊢
    split_ifs at h ⊢ with hc
    · rw [ih fun d hd => h d (List.mem_cons_of_mem c hd)]
    · obtain ⟨d, hd⟩ := List.exists_mem_of_ne_nil _ (cut_ne_nil c (cuts.headD 0))
      exact absurd (h d (List.mem_append_left _ hd)) (not_ascii_of_mem_cut hc hd)

/-- The escapes of JSON are ASCII. -/
theorem escaped_ascii {c : Char} (h : c.toNat < 128) : ∀ d ∈ Json.escaped c, d.toNat < 128 := by
  have hhex : ∀ n < 0x20, (Json.hexChar (n / 16)).toNat < 128 ∧
      (Json.hexChar (n % 16)).toNat < 128 := by decide
  have hletters : ∀ d ∈ ['"', '\\', 'b', 'f', 'n', 'r', 't'], d.toNat < 128 := by simp
  have hwritten := Json.writtenAs_escaped c
  generalize Json.escaped c = text at hwritten ⊢
  cases hwritten with
  | letter hletter => simpa using hletters _ hletter
  | control hcontrol =>
    obtain ⟨hhigh, hlow⟩ := hhex c.toNat hcontrol
    simp [hhigh, hlow]
  | plain => simpa using h

/-- No other character is escaped. -/
theorem escaped_of_not_ascii {c : Char} (h : ¬ c.toNat < 128) : Json.escaped c = [c] := by
  have hne : ∀ d : Char, d.toNat < 128 → c ≠ d := fun d hd heq => h (heq ▸ hd)
  have hcontrol : ¬ c.toNat < 0x20 := by omega
  simp [Json.escaped, hne '"' (by decide), hne '\\' (by decide), hne (Char.ofNat 8) (by decide),
    hne (Char.ofNat 12) (by decide), hne '\n' (by decide), hne '\r' (by decide),
    hne '\t' (by decide), hcontrol]

theorem quoted_append (front cs : List Char) :
    Json.quoted (front ++ cs) = front.flatMap Json.escaped ++ Json.quoted cs := by
  simp [Json.quoted]

/-- Cuts change the characters of a string in a JSON text, and nothing else. -/
theorem readBody_quoted (cuts : List Nat) (t rest : List Char) : ∃ cuts',
    readBody cuts (Json.quoted t ++ rest) =
      Json.quoted (readBody cuts t) ++ readBody cuts' rest := by
  induction t generalizing cuts with
  | nil =>
    have hquote : ∀ c ∈ ['"'], c.toNat < 128 := by simp
    exact ⟨cuts, readBody_ascii hquote cuts rest⟩
  | cons c t ih =>
    rw [← List.singleton_append, quoted_append, List.append_assoc, List.flatMap_singleton]
    by_cases hc : c.toNat < 128
    · obtain ⟨cuts', ih⟩ := ih cuts
      refine ⟨cuts', ?_⟩
      rw [readBody_ascii (escaped_ascii hc), ih, readBody_ascii (by simpa using hc),
        quoted_append, List.append_assoc, List.flatMap_singleton]
    · obtain ⟨cuts', ih⟩ := ih cuts.tail
      refine ⟨cuts', ?_⟩
      have hcut : (cut c (cuts.headD 0)).flatMap Json.escaped = cut c (cuts.headD 0) := by
        have hself : ∀ d ∈ cut c (cuts.headD 0), Json.escaped d = [d] := fun d hd =>
          escaped_of_not_ascii (not_ascii_of_mem_cut hc hd)
        rw [List.flatMap_congr hself, List.flatMap_singleton']
      rw [escaped_of_not_ascii hc, List.singleton_append, readBody, if_neg hc, ih,
        List.singleton_append, readBody, if_neg hc, quoted_append, hcut, List.append_assoc]

/-- A request arrives as a request, with the same IMEI and command up to cuts. -/
theorem readBody_requestBody (cuts : List Nat) (imei command : String) : ∃ cuts',
    String.ofList (readBody cuts (HttpDeviceCommander.requestBody imei command).toList) =
      HttpDeviceCommander.requestBody (String.ofList (readBody cuts imei.toList))
        (String.ofList (readBody cuts' command.toList)) := by
  have htext : ∀ imei command : String,
      (HttpDeviceCommander.requestBody imei command).toList =
        "\x7b\"imei\":\"".toList ++ (Json.quoted imei.toList ++ (",\"command\":\"".toList ++
          (Json.quoted command.toList ++ ['}']))) := by
    intro imei command
    simp [HttpDeviceCommander.requestBody, Json.stringify, Json.chars, Json.membersText,
      Json.quoted, Json.escaped]
  obtain ⟨cuts', himei⟩ := readBody_quoted cuts imei.toList
    (",\"command\":\"".toList ++ (Json.quoted command.toList ++ ['}']))
  obtain ⟨cuts'', hcommand⟩ := readBody_quoted cuts' command.toList ['}']
  refine ⟨cuts', ?_⟩
  rw [← String.toList_inj, htext, String.toList_ofList, htext, readBody_ascii (by simp), himei,
    readBody_ascii (by simp), hcommand]
  have hend : readBody cuts'' ['}'] = ['}'] := by simp [readBody]
  simp only [hend, String.toList_ofList]

end Body

/-! ## What the endpoint makes of a request -/

section Endpoint

open CommandEndpoint HttpDeviceCommander

variable {secret authorization imei command : String} {isConnected : String → Bool}

/-- The header carries the secret. -/
def Presents (authorization secret : String) : Prop :=
  authorization.toList = "Bearer ".toList ++ secret.toList

theorem parse_requestBody (imei command : String) : Json.parse (requestBody imei command) =
    some (.obj [("imei", .str imei), ("command", .str command)]) := by
  simp [requestBody, Json.parse_stringify, Json.printed, Json.printedMembers]

/-- What a handled request can lead to. -/
inductive Handled (secret authorization : String) (isConnected : String → Bool)
    (imei command : String) : Handling → Prop where
  | refused {status : Nat} {message : String} (members : List (String × Json))
      (hstatus : status = 400 ∧ members = [] ∨ status = 401 ∨ status = 404 ∨ status = 503) :
      Handled secret authorization isConnected imei command
        (.respond (.json status (("error", .str message) :: members)))
  | sent (hsecret : secret ≠ "") (hpresents : Presents authorization secret)
      (himei : isImei imei = true) (hcommand : trim command ≠ "")
      (hlength : codeUnits (trim command) ≤ 160) (hconn : isConnected imei = true) :
      Handled secret authorization isConnected imei command (.send imei (trim command))

theorem presents_of_presented (hsecret : secret ≠ "")
    (h : presented (some authorization) = secret) : Presents authorization secret := by
  simp only [presented, Option.getD_some] at h
  split_ifs at h with hbearer
  · obtain ⟨rest, hrest⟩ := hbearer
    have hdrop : authorization.toList.drop 7 = rest := by rw [← hrest]; rfl
    have hsecret' : secret.toList = rest := by rw [← h, hdrop, String.toList_ofList]
    rw [Presents, hsecret', hrest]
  · exact absurd h.symm hsecret

/-- The body of a request is accepted for an IMEI and a command. -/
theorem handleBody_request : handleBody isConnected
      (.obj [("imei", .str imei), ("command", .str command)]) =
    some (if ¬ isImei imei then
        .respond (.json 400 [("error", .str "imei must be 15 digits")])
      else if trim command = "" ∨ 160 < codeUnits (trim command) then
        .respond (.json 400 [("error", .str "command must be 1..160 chars")])
      else if ¬ isConnected imei then
        .respond (.json 404 [("error", .str "device not connected"), ("imei", .str imei)])
      else .send imei (trim command)) := by
  simp [handleBody, Json.property, Json.asStr]
  rfl

/-- **Inversion of `handleCommand`** on a request of the commander. -/
theorem handleCommand_request {r : Handling}
    (h : handleCommand secret isConnected (some authorization) (requestBody imei command) =
      some r) : Handled secret authorization isConnected imei command r := by
  unfold handleCommand at h
  split_ifs at h with hsecret hpresented hlimit
  · cases h
    exact .refused [] (by simp)
  · cases h
    exact .refused [] (by simp)
  · cases h
    exact .refused [] (by simp)
  · rw [parse_requestBody] at h
    simp only [handleBody_request, Option.some.injEq] at h
    subst h
    split_ifs with himei hcommand hconn
    · exact .refused [] (by simp)
    · rw [not_or, not_lt] at hcommand
      exact .sent hsecret (presents_of_presented hsecret (not_not.mp hpresented)) himei hcommand.1
        hcommand.2 hconn
    · exact .refused [("imei", .str imei)] (by simp)
    · exact .refused [] (by simp)

theorem parse_json (status : Nat) (members : List (String × Json)) :
    Json.parse (HttpResponse.json status members).body =
      some (.obj (Json.printedMembers members)) := by
  simp [HttpResponse.json, Json.parse_stringify, Json.printed]

theorem status_json (status : Nat) (members : List (String × Json)) :
    (HttpResponse.json status members).status = status := rfl

/-- A refusal is passed on as one. -/
theorem sendResult_refused {status : Nat} (message : String) {members : List (String × Json)}
    (hstatus : status = 400 ∧ members = [] ∨ status = 401 ∨ status = 404 ∨ status = 503)
    (whole : Bool) :
    ∃ code text, sendResult (.json status (("error", .str message) :: members)) whole =
        some (.error (.deviceCommand code text)) ∧
      (code = .not_connected ∨ code = .disabled ∨ code = .rejected) := by
  rcases hstatus with ⟨rfl, rfl⟩ | rfl | rfl | rfl
  · cases whole with
    | true => exact ⟨.rejected, message, by simp [sendResult, bodyOf, parse_json, status_json,
        rejected, Json.printedMembers, Json.printed, Json.property], by simp⟩
    | false => exact ⟨.rejected, "ingestion returned " ++ toString 400, by simp [sendResult, bodyOf,
        status_json, rejected, Json.property], by simp⟩
  · exact ⟨.disabled, "Ingestion rejected the command secret",
      by simp [sendResult, status_json], Or.inr (Or.inl rfl)⟩
  · exact ⟨.not_connected,
      "Device is not currently connected — it must be online to receive settings",
      by simp [sendResult, status_json], Or.inl rfl⟩
  · exact ⟨.disabled, "Remote configuration is not enabled on the ingestion service",
      by simp [sendResult, status_json], Or.inr (Or.inl rfl)⟩

theorem sendResult_answered (imei command reply : String) :
    sendResult (answered imei command reply) true = some (.ok reply) := by
  simp [sendResult, bodyOf, answered, parse_json, status_json, Json.printedMembers, Json.printed,
    Json.property]

/-- The reply is lost with the body, and the response is taken for a rejection. -/
theorem sendResult_cutOff (imei command reply : String) :
    sendResult (answered imei command reply) false =
      some (.error (.deviceCommand .rejected Relay.cutOff)) := by
  unfold Relay.cutOff
  simp [sendResult, bodyOf, answered, status_json, rejected, Json.property]

theorem sendResult_failed (imei command message : String) (whole : Bool) :
    ∃ text, sendResult (failed imei command message) whole = some (.error
      (.deviceCommand (if isTimeout message then .timeout else .rejected) text)) := by
  by_cases hm : isTimeout message = true
  · exact ⟨"Device did not answer in time", by simp [sendResult, failed, status_json, hm]⟩
  · cases whole with
    | true => exact ⟨message, by simp [sendResult, bodyOf, failed, parse_json, status_json, hm,
        rejected, Json.printedMembers, Json.printed, Json.property]⟩
    | false => exact ⟨"ingestion returned " ++ toString 502, by simp [sendResult, bodyOf, failed, status_json,
        hm, rejected, Json.property]⟩

end Endpoint

namespace Relay

/-! ## Promises that are settled -/

section Settle

variable {s : Relay} {out : List Output} {i : Nat}

theorem goOn_eq (s : Relay) (i : Nat) (answer : String → String → HttpResponse) :
    s.goOn i answer = { s with exchange := (s.goOn i answer).exchange } := by
  unfold goOn
  split <;> rfl

theorem settle_eq (s : Relay) (o : Output) :
    s.settle o = { s with exchange := (s.settle o).exchange } := by
  cases o with
  | resolve i reply => exact goOn_eq ..
  | reject i e => exact goOn_eq ..
  | send buf => rfl
  | close => rfl
  | authenticated imei => rfl

/-- Only the requests are changed. Induction on the outputs. -/
theorem foldl_settle_eq (out : List Output) (s : Relay) :
    out.foldl settle s = { s with exchange := (out.foldl settle s).exchange } := by
  induction out generalizing s with
  | nil => rfl
  | cons o out ih =>
    rw [List.foldl_cons, ih, settle_eq]

/-- Where a request that stood at `x` stands after promises were settled. -/
inductive Settling (out : List Output) (i : Nat) (x : Option Exchange) :
    Option Exchange → Prop where
  | same (h : i ∈ settledPromises out → ∀ imei command, x ≠ some (.waiting imei command)) :
      Settling out i x x
  | resolved {imei command reply : String} (hwaits : x = some (.waiting imei command))
      (hmem : .resolve i reply ∈ out) :
      Settling out i x (some (.responded (CommandEndpoint.answered imei command reply)))
  | rejected {imei command : String} {e : JsError} (hwaits : x = some (.waiting imei command))
      (hmem : .reject i e ∈ out) :
      Settling out i x
        (some (.responded (CommandEndpoint.failed imei command (CommandEndpoint.errorMessage e))))

theorem goOn_exchange (s : Relay) (j i : Nat) (answer : String → String → HttpResponse) :
    ((s.goOn j answer).exchange i = s.exchange i ∧
        (i = j → ∀ imei command, s.exchange i ≠ some (.waiting imei command))) ∨
      i = j ∧ ∃ imei command, s.exchange i = some (.waiting imei command) ∧
        (s.goOn j answer).exchange i = some (.responded (answer imei command)) := by
  unfold goOn
  split
  · rename_i imei command hwaits
    by_cases hi : i = j
    · subst hi
      exact Or.inr ⟨rfl, imei, command, hwaits, Function.update_self ..⟩
    · exact Or.inl ⟨Function.update_of_ne hi .., fun h => absurd h hi⟩
  · rename_i hwaits
    refine Or.inl ⟨rfl, ?_⟩
    rintro rfl imei command hx
    exact hwaits imei command hx

theorem settle_exchange (s : Relay) (o : Output) (i : Nat) :
    Settling [o] i (s.exchange i) ((s.settle o).exchange i) := by
  cases o with
  | resolve j reply =>
    rcases goOn_exchange s j i fun imei command =>
        CommandEndpoint.answered imei command reply with ⟨hx, hi⟩ | ⟨rfl, imei, command, hw, hx⟩
    · rw [settle, hx]
      exact .same fun hmem => hi (by simpa [settledPromises] using hmem)
    · rw [settle, hx]
      exact .resolved hw List.mem_cons_self
  | reject j e =>
    rcases goOn_exchange s j i fun imei command => CommandEndpoint.failed imei command
        (CommandEndpoint.errorMessage e) with ⟨hx, hi⟩ | ⟨rfl, imei, command, hw, hx⟩
    · rw [settle, hx]
      exact .same fun hmem => hi (by simpa [settledPromises] using hmem)
    · rw [settle, hx]
      exact .rejected hw List.mem_cons_self
  | send buf => exact .same (by simp [settledPromises])
  | close => exact .same (by simp [settledPromises])
  | authenticated imei => exact .same (by simp [settledPromises])

/-- The first output for a request counts. Induction on the outputs. -/
theorem foldl_settle_exchange (out : List Output) (s : Relay) (i : Nat) :
    Settling out i (s.exchange i) ((out.foldl settle s).exchange i) := by
  induction out generalizing s with
  | nil => exact .same (by simp [settledPromises])
  | cons o out ih =>
    have hmem : i ∈ settledPromises (o :: out) ↔
        i ∈ settledPromises [o] ∨ i ∈ settledPromises out := by
      rw [← List.singleton_append, settledPromises_append, List.mem_append]
    rw [List.foldl_cons]
    have hfirst := settle_exchange s o i
    have hrest := ih (s.settle o)
    generalize (out.foldl settle (s.settle o)).exchange i = x at hrest
    generalize (s.settle o).exchange i = x₁ at hfirst hrest
    -- a promise settles once: after the first output that settles it the others find it settled
    cases hfirst with
    | same h =>
      cases hrest with
      | same h' => exact .same fun hi => (hmem.mp hi).elim h h'
      | resolved hw hout => exact .resolved hw (List.mem_cons_of_mem _ hout)
      | rejected hw hout => exact .rejected hw (List.mem_cons_of_mem _ hout)
    | resolved hw hout =>
      cases hrest with
      | same h' => exact .resolved hw (by simpa using Or.inl (List.mem_singleton.mp hout))
      | resolved hw' hout' => cases hw'
      | rejected hw' hout' => cases hw'
    | rejected hw hout =>
      cases hrest with
      | same h' => exact .rejected hw (by simpa using Or.inl (List.mem_singleton.mp hout))
      | resolved hw' hout' => cases hw'
      | rejected hw' hout' => cases hw'

namespace Settling

variable {x x' : Option Exchange} {imei command : String}

theorem mem_settled {reply : String} (h : .resolve i reply ∈ out) : i ∈ settledPromises out :=
  List.mem_filterMap.mpr ⟨_, h, rfl⟩

theorem mem_settled_of_reject {e : JsError} (h : .reject i e ∈ out) : i ∈ settledPromises out :=
  List.mem_filterMap.mpr ⟨_, h, rfl⟩

theorem eq_of_not_mem (h : Settling out i x x') (hnot : i ∉ settledPromises out) : x' = x := by
  cases h with
  | same => rfl
  | resolved hw hmem => exact absurd (mem_settled hmem) hnot
  | rejected hw hmem => exact absurd (mem_settled_of_reject hmem) hnot

theorem eq_of_not_waiting (h : Settling out i x x')
    (hnot : ∀ imei command, x ≠ some (.waiting imei command)) : x' = x := by
  cases h with
  | same => rfl
  | resolved hw => exact absurd hw (hnot _ _)
  | rejected hw => exact absurd hw (hnot _ _)

theorem of_waiting (h : Settling out i x (some (.waiting imei command))) :
    x = some (.waiting imei command) ∧ i ∉ settledPromises out := by
  cases h with
  | same hnot => exact ⟨rfl, fun hmem => hnot hmem imei command rfl⟩

theorem of_calling {authorization body : String}
    (h : Settling out i x (some (.calling authorization body))) :
    x = some (.calling authorization body) := by
  cases h with
  | same => rfl

end Settling

end Settle

/-! ## The invariant -/

/-- The commands that were written to a socket: all but the answers. -/
def commandsWritten (c : Conn) : List Buffer := c.written.filter fun buf => ¬ isAnswer buf

/-- The commands that were handed to the session of a socket, as they are written. -/
def commandsHanded (s : Relay) (j : Nat) : List Buffer :=
  (s.handed.filter fun h => h.socket = j).map fun h => encodeCommand h.command

/-- What was handed over was asked for: by a call for this device, with the secret of the
endpoint. -/
structure Requested (cfg : RelayConfig) (s : Relay) (h : Handed) : Prop where
  imei : isImei h.imei = true
  loggedIn : s.server.imeiOf h.socket = some h.imei
  asked : ∃ command cuts, s.asked h.id = some (h.imei, command) ∧
    h.command = CommandEndpoint.trim (String.ofList (readBody cuts command.toList))
  bounds : h.command ≠ "" ∧ CommandEndpoint.codeUnits h.command ≤ 160
  secret : cfg.commandSecret ≠ "" ∧ ∃ authorization,
    cfg.header ("Bearer " ++ cfg.secret) = some authorization ∧
      Presents authorization cfg.commandSecret

/-- The registry, the requests, the handed commands and the queues of the sessions. -/
structure RelayInv (cfg : RelayConfig) (s : Relay) : Prop where
  entry : s.server.EntriesLoggedIn
  requested : ∀ h ∈ s.handed, Requested cfg s h
  distinct : (s.handed.map Handed.id).Nodup
  fresh : ∀ i, s.asked i = none → s.exchange i = none ∧ s.NotHanded i
  calling : ∀ i authorization body, s.exchange i = some (.calling authorization body) →
    s.NotHanded i ∧ cfg.header ("Bearer " ++ cfg.secret) = some authorization ∧
      ∃ imei command, s.asked i = some (imei, command) ∧
        body = HttpDeviceCommander.requestBody imei command
  waiting : ∀ i imei command, s.exchange i = some (.waiting imei command) →
    ∃ h ∈ s.handed, h.id = i ∧ h.imei = imei ∧ h.command = command ∧
      ∃ c, s.server.conns h.socket = some c ∧
        ∃ p ∈ c.session.pendingCommands, p.id = i
  pending : ∀ j c, s.server.conns j = some c → ∀ p ∈ c.session.pendingCommands,
    ∃ h ∈ s.handed, h.id = p.id ∧ h.socket = j ∧ p.deadline = h.time + Session.timeoutMs ∧
      s.exchange p.id = some (.waiting h.imei h.command)
  nodup : ∀ j c, s.server.conns j = some c →
    (c.session.pendingCommands.map PendingCommand.id).Nodup
  unread : ∀ j c, s.server.conns j = some c → c.session.buffer <:+ s.heard j
  written : ∀ j c, s.server.conns j = some c →
    (commandsWritten c).Sublist (s.commandsHanded j)
  responded : ∀ i r, s.exchange i = some (.responded r) →
    ∀ whole, ∃ o, HttpDeviceCommander.sendResult r whole = some o ∧ s.Truthful i o
  concluded : ∀ i o, s.outcome i = some o →
    (∃ message, o = .error (HttpDeviceCommander.unreachable message)) ∨
      ∃ r whole, s.exchange i = some (.responded r) ∧
        HttpDeviceCommander.sendResult r whole = some o

section Inv

variable {cfg : RelayConfig} {s s' : Relay} {i : Nat}

theorem relayInv_init (cfg : RelayConfig) : RelayInv cfg (init cfg) where
  entry := by simp [init, TcpServer.init, TcpServer.EntriesLoggedIn]
  requested := by simp [init]
  distinct := by simp [init]
  fresh := by simp [init, NotHanded]
  calling := by simp [init]
  waiting := by simp [init]
  pending := by simp [init, TcpServer.init]
  nodup := by simp [init, TcpServer.init]
  unread := by simp [init, TcpServer.init]
  written := by simp [init, TcpServer.init]
  responded := by simp [init]
  concluded := by simp [init]

/-- Commands of one number are one command. -/
theorem RelayInv.unique (h : RelayInv cfg s) {a b : Handed} (ha : a ∈ s.handed) (hb : b ∈ s.handed)
    (hid : a.id = b.id) : a = b := List.inj_on_of_nodup_map h.distinct ha hb hid

/-- What a command was asked for stays so. -/
theorem Requested.mono {a : Handed} (h : Requested cfg s a) (hasked : s'.asked a.id = s.asked a.id)
    (hlogins : ∀ imei, s.server.imeiOf a.socket = some imei →
      s'.server.imeiOf a.socket = some imei) : Requested cfg s' a :=
  ⟨h.imei, hlogins _ h.loggedIn, hasked ▸ h.asked, h.bounds, h.secret⟩

/-- What is only ever added to. -/
structure Grows (s s' : Relay) : Prop where
  handed : ∀ h ∈ s.handed, h ∈ s'.handed
  heard : ∀ j, s.heard j <+: s'.heard j
  now : s.now ≤ s'.now
  closed : ∀ j, Closed s.server j → Closed s'.server j

/-- What is true stays true. -/
theorem Truthful.mono {o : Except ApiError String} (h : Grows s s')
    (hnot : s.NotHanded i → s'.NotHanded i) (ht : s.Truthful i o) : s'.Truthful i o := by
  unfold Truthful at ht ⊢
  split at ht
  case h_1 reply =>
    obtain ⟨a, ha, hid, hread⟩ := ht
    obtain ⟨more, hmore⟩ := h.heard a.socket
    exact ⟨a, h.handed a ha, hid, hmore ▸ hread.append more⟩
  case h_2 => exact hnot ht
  case h_3 => exact hnot ht
  case h_4 =>
    obtain ⟨a, ha, hid, htime⟩ := ht
    exact ⟨a, h.handed a ha, hid, htime.trans h.now⟩
  case h_5 =>
    rcases ht with ht | ⟨a, ha, hid, hclosed⟩ | ⟨hcut, a, ha, hid, reply, hread⟩
    · exact Or.inl (hnot ht)
    · exact Or.inr (Or.inl ⟨a, h.handed a ha, hid, h.closed _ hclosed⟩)
    · obtain ⟨more, hmore⟩ := h.heard a.socket
      exact Or.inr (Or.inr ⟨hcut, a, h.handed a ha, hid, reply, hmore ▸ hread.append more⟩)
  case h_6 => trivial
  case h_7 => exact ht

/-- What sockets and sessions did, up to the promises of `out`. -/
structure Served (s : Relay) (server : TcpServer) (heard : Nat → Buffer) (out : List Output) :
    Prop where
  entry : server.EntriesLoggedIn
  loggedIn : ∀ j imei, s.server.imeiOf j = some imei → server.imeiOf j = some imei
  closed : ∀ j, Closed s.server j → Closed server j
  grows : ∀ j, s.heard j <+: heard j
  unread : ∀ j c, server.conns j = some c → c.session.buffer <:+ heard j
  written : ∀ j c, server.conns j = some c → commandsWritten c = [] ∨
    ∃ c₀, s.server.conns j = some c₀ ∧ commandsWritten c = commandsWritten c₀
  kept : ∀ j c, server.conns j = some c → c.session.pendingCommands = [] ∨
    ∃ c₀, s.server.conns j = some c₀ ∧
      c.session.pendingCommands.Sublist c₀.session.pendingCommands ∧
      ∀ p ∈ c.session.pendingCommands, p.id ∉ settledPromises out
  left : ∀ j c₀, s.server.conns j = some c₀ → ∀ p ∈ c₀.session.pendingCommands,
    p.id ∈ settledPromises out ∨ ∃ c, server.conns j = some c ∧ p ∈ c.session.pendingCommands
  resolved : ∀ i text, .resolve i text ∈ out → ∃ j c₀, s.server.conns j = some c₀ ∧
    (∃ p ∈ c₀.session.pendingCommands, p.id = i) ∧ ReadResponse (heard j) text
  rejected : ∀ i e, .reject i e ∈ out → ∃ j c₀, s.server.conns j = some c₀ ∧
    ∃ p ∈ c₀.session.pendingCommands, p.id = i ∧
      if CommandEndpoint.isTimeout (CommandEndpoint.errorMessage e) then p.deadline ≤ s.now
      else Closed server j

/-- What was answered stays answered, and what is told of it stays true. -/
theorem RelayInv.answers (h : RelayInv cfg s) (hgrows : Grows s s')
    (hnot : s.NotHanded i → s'.NotHanded i) {r : HttpResponse}
    (hx : s.exchange i = some (.responded r)) (whole : Bool) :
    ∃ o, HttpDeviceCommander.sendResult r whole = some o ∧ s'.Truthful i o := by
  obtain ⟨o, ho, ht⟩ := h.responded i r hx whole
  exact ⟨o, ho, ht.mono hgrows hnot⟩

/-- A response that is there stays the one of its request. -/
theorem RelayInv.concludes (h : RelayInv cfg s) (houtcome : s'.outcome = s.outcome)
    (hkept : ∀ i r, s.exchange i = some (.responded r) → s'.exchange i = some (.responded r))
    (i : Nat) (o : Except ApiError String) (ho : s'.outcome i = some o) :
    (∃ message, o = .error (HttpDeviceCommander.unreachable message)) ∨
      ∃ r whole, s'.exchange i = some (.responded r) ∧
        HttpDeviceCommander.sendResult r whole = some o := by
  rw [houtcome] at ho
  rcases h.concluded i o ho with hlost | ⟨r, whole, hx, hr⟩
  · exact Or.inl hlost
  · exact Or.inr ⟨r, whole, hkept i r hx, hr⟩

/-- What the promises that a socket has settled make of a request. -/
theorem RelayInv.settled {server : TcpServer} {heard : Nat → Buffer} {out : List Output}
    {exchange : Nat → Option Exchange} (h : RelayInv cfg s)
    (hserved : Served s server heard out) (hsettling : Settling out i (s.exchange i) (exchange i))
    {r : HttpResponse} (hx : exchange i = some (.responded r)) (whole : Bool) :
    ∃ o, HttpDeviceCommander.sendResult r whole = some o ∧
      Truthful { s with server, heard, exchange } i o := by
  have hgrows : Grows s { s with server, heard, exchange } :=
    ⟨fun _ ha => ha, hserved.grows, le_refl _, hserved.closed⟩
  rw [hx] at hsettling
  generalize hx₀ : s.exchange i = x₀ at hsettling
  cases hsettling with
  | same => exact h.answers hgrows id hx₀ whole
  | @resolved imei command reply hw hmem =>
    obtain ⟨j, c₀, hc₀, ⟨p, hp, rfl⟩, hread⟩ := hserved.resolved _ _ hmem
    obtain ⟨a, ha, hid, rfl, -, -⟩ := h.pending j c₀ hc₀ p hp
    cases whole with
    | true => exact ⟨.ok reply, sendResult_answered .., a, ha, hid, hread⟩
    | false =>
      -- the device has answered, but the reply is lost with the body
      exact ⟨_, sendResult_cutOff .., Or.inr (Or.inr ⟨rfl, a, ha, hid, reply, hread⟩)⟩
  | @rejected imei command e hw hmem =>
    obtain ⟨text, htext⟩ :=
      sendResult_failed imei command (CommandEndpoint.errorMessage e) whole
    obtain ⟨j, c₀, hc₀, p, hp, rfl, hwhy⟩ := hserved.rejected _ _ hmem
    obtain ⟨a, ha, hid, rfl, hdeadline, -⟩ := h.pending j c₀ hc₀ p hp
    refine ⟨_, htext, ?_⟩
    -- either its timer has fired or its connection was closed
    by_cases htimeout : CommandEndpoint.isTimeout (CommandEndpoint.errorMessage e) = true
    · rw [if_pos htimeout] at hwhy ⊢
      exact ⟨a, ha, hid, hdeadline ▸ hwhy⟩
    · rw [if_neg htimeout] at hwhy ⊢
      exact Or.inr (Or.inl ⟨a, ha, hid, hwhy⟩)

/-- The sessions have served commands, and the handlers that waited for them have gone on. -/
theorem RelayInv.serve {server : TcpServer} {heard : Nat → Buffer} {out : List Output}
    (h : RelayInv cfg s) (hserved : Served s server heard out) :
    RelayInv cfg (out.foldl settle { s with server, heard }) := by
  have hsettling : ∀ i, Settling out i (s.exchange i)
      ((out.foldl settle { s with server, heard }).exchange i) :=
    fun i => foldl_settle_exchange out { s with server, heard } i
  rw [foldl_settle_eq]
  generalize (out.foldl settle { s with server, heard }).exchange = exchange at hsettling ⊢
  refine
    { entry := hserved.entry
      requested := fun a ha => (h.requested a ha).mono rfl (hserved.loggedIn a.socket)
      distinct := h.distinct
      fresh := ?fresh
      calling := ?calling
      waiting := ?waiting
      pending := ?pending
      nodup := ?nodup
      unread := hserved.unread
      written := ?written
      responded := fun i r hx whole => h.settled hserved (hsettling i) hx whole
      concluded := h.concludes rfl fun i r hx =>
        ((hsettling i).eq_of_not_waiting (by simp [hx])).trans hx }
  case fresh =>
    intro i hi
    obtain ⟨hnone, hnot⟩ := h.fresh i hi
    exact ⟨((hsettling i).eq_of_not_waiting (by simp [hnone])).trans hnone, hnot⟩
  case calling =>
    intro i authorization body hx
    have hx : exchange i = _ := hx
    exact h.calling i authorization body (hx ▸ hsettling i).of_calling
  case waiting =>
    intro i imei command hx
    have hx : exchange i = _ := hx
    -- it has waited before, for a command that is not settled
    obtain ⟨hx, hnot⟩ := (hx ▸ hsettling i).of_waiting
    obtain ⟨a, ha, hid, himei, hcommand, c₀, hc₀, p, hp, hpid⟩ := h.waiting i imei command hx
    refine ⟨a, ha, hid, himei, hcommand, ?_⟩
    rcases hserved.left a.socket c₀ hc₀ p hp with hmem | ⟨c, hc, hpc⟩
    · exact absurd (hpid ▸ hmem) hnot
    · exact ⟨c, hc, p, hpc, hpid⟩
  case pending =>
    intro j c hc p hp
    rcases hserved.kept j c hc with hnil | ⟨c₀, hc₀, hsub, hnot⟩
    · simp [hnil] at hp
    · obtain ⟨a, ha, hid, hsocket, hdeadline, hx⟩ := h.pending j c₀ hc₀ p (hsub.subset hp)
      exact ⟨a, ha, hid, hsocket, hdeadline,
        ((hsettling p.id).eq_of_not_mem (hnot p hp)).trans hx⟩
  case nodup =>
    intro j c hc
    rcases hserved.kept j c hc with hnil | ⟨c₀, hc₀, hsub, hnot⟩
    · simp [hnil]
    · exact (h.nodup j c₀ hc₀).sublist (hsub.map _)
  case written =>
    intro j c hc
    rcases hserved.written j c hc with hnil | ⟨c₀, hc₀, hsame⟩
    · simp [hnil]
    · rw [hsame]
      exact h.written j c₀ hc₀

/-- One socket goes on. -/
theorem RelayInv.served {server : TcpServer} {heard : Nat → Buffer} {out : List Output} {id : Nat}
    {c c' : Conn} (h : RelayInv cfg s) (hc : s.server.conns id = some c)
    (hc' : server.conns id = some c') (hothers : ∀ j, j ≠ id → server.conns j = s.server.conns j)
    (hentry : server.EntriesLoggedIn)
    (hlogins : ∀ j imei, s.server.imeiOf j = some imei → server.imeiOf j = some imei)
    (hclosed : ∀ j, Closed s.server j → Closed server j)
    (hgrows : ∀ j, s.heard j <+: heard j)
    (hheard : ∀ j, j ≠ id → heard j = s.heard j) (hunread : c'.session.buffer <:+ heard id)
    (hwritten : commandsWritten c' = commandsWritten c)
    (horder : (c.session.pendingCommands.map PendingCommand.id).Perm
      (settledPromises out ++ c'.session.pendingCommands.map PendingCommand.id))
    (hsub : c'.session.pendingCommands.Sublist c.session.pendingCommands)
    (hresolved : ∀ i text, .resolve i text ∈ out → ReadResponse (heard id) text)
    (hrejected : ∀ i e, .reject i e ∈ out → ∀ p ∈ c.session.pendingCommands, p.id = i →
      if CommandEndpoint.isTimeout (CommandEndpoint.errorMessage e) then p.deadline ≤ s.now
      else Closed server id) :
    Served s server heard out := by
  have hnodup := h.nodup id c hc
  -- what is settled was pending in this session, and is pending in no other one
  have honly : ∀ i ∈ settledPromises out, ∃ p ∈ c.session.pendingCommands, p.id = i := fun i hi =>
    List.mem_map.mp (horder.mem_iff.mpr (List.mem_append_left _ hi))
  have hdisjoint : ∀ p ∈ c'.session.pendingCommands, p.id ∉ settledPromises out := by
    intro p hp hmem
    exact (List.nodup_append.mp (horder.nodup_iff.mp hnodup)).2.2 _ hmem _
      (List.mem_map_of_mem hp) rfl
  have hother : ∀ j c₀, j ≠ id → s.server.conns j = some c₀ →
      ∀ p ∈ c₀.session.pendingCommands, p.id ∉ settledPromises out := by
    intro j c₀ hj hc₀ p hp hmem
    obtain ⟨q, hq, hid⟩ := honly _ hmem
    obtain ⟨a, ha, haid, hasocket, -⟩ := h.pending j c₀ hc₀ p hp
    obtain ⟨b, hb, hbid, hbsocket, -⟩ := h.pending id c hc q hq
    obtain rfl := h.unique ha hb (by rw [haid, hbid, hid])
    exact hj (hasocket.symm.trans hbsocket)
  refine ⟨hentry, hlogins, hclosed, hgrows, ?_, ?_, ?_, ?_, ?_, ?_⟩
  · intro j d hd
    by_cases hj : j = id
    · subst hj
      obtain rfl := Option.some.inj (hc'.symm.trans hd)
      exact hunread
    · rw [hothers j hj] at hd
      rw [hheard j hj]
      exact h.unread j d hd
  · intro j d hd
    by_cases hj : j = id
    · subst hj
      obtain rfl := Option.some.inj (hc'.symm.trans hd)
      exact Or.inr ⟨c, hc, hwritten⟩
    · rw [hothers j hj] at hd
      exact Or.inr ⟨d, hd, rfl⟩
  · intro j d hd
    by_cases hj : j = id
    · subst hj
      obtain rfl := Option.some.inj (hc'.symm.trans hd)
      exact Or.inr ⟨c, hc, hsub, hdisjoint⟩
    · rw [hothers j hj] at hd
      exact Or.inr ⟨d, hd, List.Sublist.refl _, hother j d hj hd⟩
  · intro j d hd p hp
    by_cases hj : j = id
    · subst hj
      obtain rfl := Option.some.inj (hc.symm.trans hd)
      have hmem : p.id ∈ settledPromises out ++ c'.session.pendingCommands.map PendingCommand.id :=
        horder.mem_iff.mp (List.mem_map_of_mem hp)
      rcases List.mem_append.mp hmem with hmem | hmem
      · exact Or.inl hmem
      · obtain ⟨q, hq, hid⟩ := List.mem_map.mp hmem
        obtain rfl := List.inj_on_of_nodup_map hnodup (hsub.subset hq) hp hid
        exact Or.inr ⟨c', hc', hq⟩
    · exact Or.inr ⟨d, (hothers j hj).trans hd, hp⟩
  · intro i text hmem
    exact ⟨id, c, hc, honly i (Settling.mem_settled hmem), hresolved i text hmem⟩
  · intro i e hmem
    obtain ⟨p, hp, hid⟩ := honly i (Settling.mem_settled_of_reject hmem)
    exact ⟨id, c, hc, p, hp, hid, hrejected i e hmem p hp hid⟩

/-- Nothing is pending in a new session, and what was pending stays so. -/
theorem RelayInv.served_still {server : TcpServer} {heard : Nat → Buffer} (h : RelayInv cfg s)
    (hentry : server.EntriesLoggedIn)
    (hlogins : ∀ j imei, s.server.imeiOf j = some imei → server.imeiOf j = some imei)
    (hclosed : ∀ j, Closed s.server j → Closed server j) (hheard : ∀ j, heard j = s.heard j)
    (hconns : ∀ j, server.conns j = s.server.conns j ∨
      s.server.conns j = none ∧ server.conns j = some ⟨Session.init, false, []⟩) :
    Served s server heard [] := by
  -- a connection is as before, or it is new and has done nothing
  have hcases : ∀ j c, server.conns j = some c →
      s.server.conns j = some c ∨ c = ⟨Session.init, false, []⟩ := by
    intro j c hc
    rcases hconns j with hsame | ⟨-, hnew⟩
    · exact Or.inl (hsame ▸ hc)
    · exact Or.inr (Option.some.inj (hc.symm.trans hnew))
  refine ⟨hentry, hlogins, hclosed, fun j => hheard j ▸ List.prefix_refl _, ?_, ?_, ?_, ?_, ?_, ?_⟩
  · intro j c hc
    rcases hcases j c hc with hold | rfl
    · exact hheard j ▸ h.unread j c hold
    · exact List.nil_suffix
  · intro j c hc
    rcases hcases j c hc with hold | rfl
    · exact Or.inr ⟨c, hold, rfl⟩
    · exact Or.inl rfl
  · intro j c hc
    rcases hcases j c hc with hold | rfl
    · exact Or.inr ⟨c, hold, List.Sublist.refl _, by simp [settledPromises]⟩
    · exact Or.inl rfl
  · intro j c hc p hp
    rcases hconns j with hsame | ⟨hnone, -⟩
    · exact Or.inr ⟨c, hsame.trans hc, hp⟩
    · rw [hnone] at hc
      cases hc
  · intro i text hmem
    cases hmem
  · intro i e hmem
    cases hmem

/-- A closed socket is never opened again. -/
theorem Closed.of_move {t t' : TcpServer} {e : TcpServer.Ev} {out : List Output} {j : Nat}
    (h : TcpServer.SocketMove t e t' out) (hj : Closed t j) : Closed t' j := by
  have hkeep : ∀ {id : Nat} {c' : Conn}, t'.conns id = some c' →
      (∀ k, k ≠ id → t'.conns k = t.conns k) → (t'.conns j).isSome = true := by
    intro id c' hc' hothers
    by_cases hid : j = id
    · simp [hid, hc']
    · rw [hothers j hid]
      exact hj.1
  cases h with
  | still hconns hopen => exact ⟨hconns ▸ hj.1, hopen ▸ hj.2⟩
  | @opened id hnew hconns hopen =>
    have hne : j ≠ id := by
      rintro rfl
      simp [Closed, hnew] at hj
    refine ⟨by rw [hconns, Function.update_of_ne hne]; exact hj.1, ?_⟩
    rw [hopen, List.mem_append, List.mem_singleton]
    exact fun hmem => hmem.elim hj.2 hne
  | acted hc hc' hothers hopen => exact ⟨hkeep hc' hothers, hopen ▸ hj.2⟩
  | closed hc hc' hothers hopen =>
    refine ⟨hkeep hc' hothers, ?_⟩
    rw [hopen]
    exact fun hmem => hj.2 (List.mem_of_mem_filter hmem)

theorem settledPromises_handleClosed (session : Session) : settledPromises session.handleClosed.2 =
    session.pendingCommands.map PendingCommand.id := by
  simp only [settledPromises, Session.handleClosed, List.filterMap_map, Function.comp_def]
  exact congrFun List.filterMap_eq_map' _

theorem isTimeout_closed : CommandEndpoint.isTimeout "connection closed" = false := by decide

/-- A step of the server. -/
theorem RelayInv.served_tcp {e : TcpServer.Ev} {server : TcpServer} (h : RelayInv cfg s)
    (hs : s.server.step e = some server) :
    Served s server (fun j => s.heard j ++ e.chunk j) (s.server.acts e) := by
  obtain ⟨hentry, hlogins⟩ := TcpServer.step_logins h.entry hs
  have hmove := TcpServer.step_sockets hs
  have hclosed : ∀ j, Closed s.server j → Closed server j := fun j => Closed.of_move hmove
  generalize s.server.acts e = out at hmove ⊢
  cases hmove with
  | still hconns hopen hchunk =>
    exact h.served_still hentry hlogins hclosed (by simp [hchunk]) fun j => Or.inl (by rw [hconns])
  | @opened id hnew hconns hopen hchunk =>
    refine h.served_still hentry hlogins hclosed (by simp [hchunk]) fun j => ?_
    by_cases hj : j = id
    · subst hj
      exact Or.inr ⟨hnew, by rw [hconns, Function.update_self]⟩
    · exact Or.inl (by rw [hconns, Function.update_of_ne hj])
  -- a session goes on with what it has buffered and what has come in
  | @acted id c c' out hc hc' hothers hopen hchunk hserves hwritten =>
    obtain ⟨sent, hlogin, hwritten⟩ := hwritten
    have hsuffix : c.session.buffer ++ e.chunk id <:+ s.heard id ++ e.chunk id := by
      obtain ⟨front, hfront⟩ := h.unread id c hc
      exact ⟨front, by rw [← List.append_assoc, hfront]⟩
    have hnone : sent.filter (fun buf => ¬ isAnswer buf) = [] :=
      List.filter_eq_nil_iff.mpr fun buf hbuf => by simp [hlogin buf hbuf]
    refine h.served hc hc' hothers hentry hlogins hclosed (fun j => List.prefix_append _ _)
      (fun j hj => by simp [hchunk j hj]) (hserves.unread.trans hsuffix) ?_
      (by rw [hserves.order]) hserves.sublist ?_ ?_
    · rw [commandsWritten, hwritten, List.filter_append, hnone, List.append_nil, commandsWritten]
    · exact fun i text hmem => (hserves.read i text hmem).of_suffix hsuffix
    · exact fun i e hmem => absurd hmem (hserves.kept i e)
  -- the socket closes, and every command that it still waits for is rejected
  | @closed id c c' hc hc' hothers hopen hchunk hsession hwritten =>
    have hnil : c'.session.pendingCommands = [] := by rw [hsession]; rfl
    have hbuffer : c'.session.buffer = c.session.buffer := by rw [hsession]; rfl
    refine h.served hc hc' hothers hentry hlogins hclosed (fun j => List.prefix_append _ _)
      (fun j _ => by simp [hchunk]) ?_ (by rw [commandsWritten, hwritten, commandsWritten]) ?_
      (by simp [hnil]) ?_ ?_
    · rw [hbuffer, hchunk, List.append_nil]
      exact h.unread id c hc
    · rw [settledPromises_handleClosed, hnil, List.map_nil, List.append_nil]
    · intro i text hmem
      simp [Session.handleClosed] at hmem
    · intro i e' hmem p hp hid
      obtain ⟨q, -, heq⟩ := List.mem_map.mp hmem
      obtain ⟨-, rfl⟩ := Output.reject.inj heq
      rw [if_neg (by simp [CommandEndpoint.errorMessage, isTimeout_closed])]
      refine ⟨by simp [hc'], ?_⟩
      rw [hopen]
      simp

/-- The timer of a command. -/
theorem RelayInv.served_timer {socket : Nat} {server : TcpServer} {out : List Output}
    (h : RelayInv cfg s)
    (hs : s.server.commandTimedOut socket i s.now = some (server, out)) :
    Served s server s.heard out := by
  obtain ⟨c, hc, hr⟩ := Option.bind_eq_some_iff.mp hs
  split at hr
  case isFalse => cases hr
  case isTrue hdue =>
  cases hr
  obtain ⟨c', hc', hsession, ⟨sent, hsub, hwritten⟩, hothers⟩ :=
    TcpServer.sessionActs_conns s.server socket c (c.session.commandTimedOut i)
  -- the timer writes nothing and settles one promise
  have hquiet : Ingestion.Quiet (c.session.commandTimedOut i).2 := by
    simp [Ingestion.Quiet, Session.commandTimedOut]
  obtain ⟨hopen, hlogins, hregistry⟩ := TcpServer.sessionActs_quiet s.server socket c hquiet
  have hlogins : (TcpServer.sessionActs s.server socket c (c.session.commandTimedOut i)).imeiOf =
      s.server.imeiOf := hlogins.trans (TcpServer.imeiOf_update hc rfl)
  obtain rfl := List.sublist_nil.mp (show sent.Sublist [] from hsub)
  have hmem : i ∈ c.session.pendingCommands.map PendingCommand.id := by
    obtain ⟨p, hp, hid⟩ := List.any_eq_true.mp hdue
    exact List.mem_map.mpr ⟨p, hp, (of_decide_eq_true hid).1⟩
  refine h.served hc hc' hothers ?_ (by simp [hlogins]) ?_ (fun _ => List.prefix_refl _)
    (fun _ _ => rfl) ?_ ?_ ?_ ?_ ?_ ?_
  · rw [TcpServer.EntriesLoggedIn, hlogins, hregistry]
    exact h.entry
  · intro j hj
    refine ⟨?_, by rw [hopen]; exact hj.2⟩
    by_cases hid : j = socket
    · simp [hid, hc']
    · rw [hothers j hid]
      exact hj.1
  · rw [hsession]
    exact h.unread socket c hc
  · rw [commandsWritten, hwritten, List.append_nil, commandsWritten]
  -- the command of the timer is taken off the list
  · rw [hsession]
    have hfilter : (c.session.pendingCommands.filter fun p => p.id ≠ i).map PendingCommand.id =
        (c.session.pendingCommands.map PendingCommand.id).erase i := by
      rw [(h.nodup socket c hc).erase_eq_filter, List.filter_map]
      exact congrArg _ (List.filter_congr fun p _ => by by_cases hp : p.id = i <;> simp [hp])
    simp only [Session.commandTimedOut]
    rw [hfilter]
    exact List.perm_cons_erase hmem
  · rw [hsession]
    exact List.filter_sublist
  · intro j text hmem
    simp [Session.commandTimedOut] at hmem
  -- its promise is rejected with the text of a timeout, and its time has come
  · intro j e hmem p hp hid
    obtain ⟨rfl, rfl⟩ : j = i ∧ e = .error ("Codec12 command timed out after " ++
        toString Session.timeoutMs ++ "ms") := by simpa [Session.commandTimedOut] using hmem
    have hsays : CommandEndpoint.isTimeout (CommandEndpoint.errorMessage
        (.error ("Codec12 command timed out after " ++ toString Session.timeoutMs ++ "ms"))) =
        true := by decide +kernel
    rw [if_pos hsays]
    obtain ⟨q, hq, hdue⟩ := List.any_eq_true.mp hdue
    obtain ⟨hqid, hdue⟩ := of_decide_eq_true hdue
    obtain rfl := List.inj_on_of_nodup_map (h.nodup socket c hc) hp hq (hid.trans hqid.symm)
    exact hdue

/-! ### The other events -/

/-- A request that has made no command is on its way or answered now. -/
theorem RelayInv.put {x : Exchange} (h : RelayInv cfg s) (hasked : s.asked i ≠ none)
    (hold : ∀ imei command, s.exchange i ≠ some (.waiting imei command))
    (hopen : ∀ r, s.exchange i ≠ some (.responded r))
    (hwait : ∀ imei command, x ≠ .waiting imei command)
    (hcalling : ∀ authorization body, x = .calling authorization body →
      s.NotHanded i ∧ cfg.header ("Bearer " ++ cfg.secret) = some authorization ∧
        ∃ imei command, s.asked i = some (imei, command) ∧
          body = HttpDeviceCommander.requestBody imei command)
    (hresponded : ∀ r, x = .responded r →
      ∀ whole, ∃ o, HttpDeviceCommander.sendResult r whole = some o ∧ s.Truthful i o) :
    RelayInv cfg (s.put i x) := by
  have hother : ∀ j, j ≠ i → (s.put i x).exchange j = s.exchange j := fun j hj =>
    Function.update_of_ne hj ..
  have hself : (s.put i x).exchange i = some x := Function.update_self ..
  have hgrows : Grows s (s.put i x) :=
    ⟨fun _ ha => ha, fun _ => List.prefix_refl _, le_refl _, fun _ hj => hj⟩
  -- only exchange `i` changes, and the server not at all
  refine
    { entry := h.entry
      requested := fun a ha => (h.requested a ha).mono rfl fun _ => id
      distinct := h.distinct
      fresh := ?fresh
      calling := ?calling
      waiting := ?waiting
      pending := ?pending
      nodup := h.nodup
      unread := h.unread
      written := h.written
      responded := ?responded
      concluded := h.concludes rfl ?concluded }
  case fresh =>
    intro j hj
    have hne : j ≠ i := by
      rintro rfl
      exact hasked hj
    rw [hother j hne]
    exact h.fresh j hj
  case calling =>
    intro j authorization body hx
    by_cases hj : j = i
    · subst hj
      rw [hself] at hx
      exact hcalling authorization body (Option.some.inj hx)
    · rw [hother j hj] at hx
      exact h.calling j authorization body hx
  case waiting =>
    intro j imei command hx
    by_cases hj : j = i
    · subst hj
      rw [hself] at hx
      exact absurd (Option.some.inj hx) (hwait imei command)
    · rw [hother j hj] at hx
      exact h.waiting j imei command hx
  -- a pending command belongs to an exchange that waits, so not to this one
  case pending =>
    intro j c hc p hp
    obtain ⟨a, ha, hid, hsocket, hdeadline, hx⟩ := h.pending j c hc p hp
    have hne : p.id ≠ i := by
      rintro rfl
      exact hold _ _ hx
    exact ⟨a, ha, hid, hsocket, hdeadline, (hother p.id hne).trans hx⟩
  case responded =>
    intro j r hx whole
    by_cases hj : j = i
    · subst hj
      rw [hself] at hx
      obtain ⟨o, ho, ht⟩ := hresponded r (Option.some.inj hx) whole
      exact ⟨o, ho, ht.mono hgrows id⟩
    · rw [hother j hj] at hx
      exact h.answers hgrows id hx whole
  case concluded =>
    intro j r hx
    have hne : j ≠ i := by
      rintro rfl
      exact hopen r hx
    exact (hother j hne).trans hx

/-- `send` is called. -/
theorem RelayInv.ask (h : RelayInv cfg s) (hi : s.asked i = none) (imei command : String) :
    RelayInv cfg { s with asked := Function.update s.asked i (some (imei, command)) } := by
  obtain ⟨hnone, hnot⟩ := h.fresh i hi
  have hgrows : Grows s { s with asked := Function.update s.asked i (some (imei, command)) } :=
    ⟨fun _ ha => ha, fun _ => List.prefix_refl _, le_refl _, fun _ hj => hj⟩
  refine
    { h with
      requested := fun a ha =>
        (h.requested a ha).mono (Function.update_of_ne (hnot a ha) ..) fun _ => id
      fresh := ?fresh
      calling := ?calling
      responded := fun j r hx whole => h.answers hgrows id hx whole }
  case fresh =>
    intro j hj
    have hne : j ≠ i := by
      rintro rfl
      simp at hj
    simp only [Function.update_of_ne hne] at hj
    exact h.fresh j hj
  case calling =>
    intro j authorization body hx
    have hne : j ≠ i := by
      rintro rfl
      exact absurd (hnone.symm.trans hx) (by simp)
    simp only [Function.update_of_ne hne]
    exact h.calling j authorization body hx

/-- `send` is over. -/
theorem RelayInv.conclude {o : Except ApiError String} (h : RelayInv cfg s)
    (ho : (∃ message, o = .error (HttpDeviceCommander.unreachable message)) ∨
      ∃ r whole, s.exchange i = some (.responded r) ∧
        HttpDeviceCommander.sendResult r whole = some o) :
    RelayInv cfg (s.conclude i o) := by
  have hgrows : Grows s (s.conclude i o) :=
    ⟨fun _ ha => ha, fun _ => List.prefix_refl _, le_refl _, fun _ hj => hj⟩
  refine
    { h with
      requested := fun a ha => (h.requested a ha).mono rfl fun _ => id
      responded := fun j r hx whole => h.answers hgrows id hx whole
      concluded := ?concluded }
  case concluded =>
    intro j o' ho'
    by_cases hj : j = i
    · subst hj
      obtain rfl : o = o' := by simpa [Relay.conclude] using ho'
      exact ho
    · simp only [Relay.conclude, Function.update_of_ne hj] at ho'
      exact h.concluded j o' ho'

theorem RelayInv.tick (h : RelayInv cfg s) (ms : Nat) :
    RelayInv cfg { s with now := s.now + ms } := by
  have hgrows : Grows s { s with now := s.now + ms } :=
    ⟨fun _ ha => ha, fun _ => List.prefix_refl _, Nat.le_add_right .., fun _ hj => hj⟩
  exact
    { h with
      requested := fun a ha => (h.requested a ha).mono rfl fun _ => id
      responded := fun j r hx whole => h.answers hgrows id hx whole }

/-! ### A command that is handed over -/

/-- The command is handed to the session of its socket, and its request waits for it. -/
def handOver (s : Relay) (a : Handed) (server : TcpServer) : Relay :=
  put { s with server, handed := s.handed ++ [a] } a.id (.waiting a.imei a.command)

/-- What `sendCommand` does to the server: the promise is behind those of the session, and the
command is written, unless the socket is destroyed. -/
structure Queued (s : Relay) (a : Handed) (server : TcpServer) (c c' : Conn) : Prop where
  found : s.server.conns a.socket = some c
  conn : server.conns a.socket = some c'
  others : ∀ j, j ≠ a.socket → server.conns j = s.server.conns j
  loggedIn : s.server.imeiOf a.socket = some a.imei
  logins : server.imeiOf = s.server.imeiOf
  registry : server.byImei = s.server.byImei
  sockets : server.connections = s.server.connections
  pending : c'.session.pendingCommands =
    c.session.pendingCommands ++ [⟨a.id, a.time + Session.timeoutMs⟩]
  buffer : c'.session.buffer = c.session.buffer
  written : ∃ sent, sent.Sublist [encodeCommand a.command] ∧ c'.written = c.written ++ sent

/-- `sendCommand` for a device that is connected. -/
theorem RelayInv.exists_queued {imei command : String} (h : RelayInv cfg s)
    (hconn : s.server.isConnected imei = true) : ∃ socket server c c',
      Queued s ⟨i, imei, command, socket, s.now⟩ server c c' ∧
        s.handle i (.send imei command) = s.handOver ⟨i, imei, command, socket, s.now⟩ server := by
  obtain ⟨id, c, hc, hlogin, hsend⟩ := TcpServer.sendCommand_spec h.entry hconn i s.now command
  have hquiet : Ingestion.Quiet [Output.send (encodeCommand command)] := by simp [Ingestion.Quiet]
  obtain ⟨hopen, hlogins, hregistry⟩ := TcpServer.sessionActs_quiet s.server id c
    (r := ({ c.session with
      pendingCommands := c.session.pendingCommands ++ [⟨i, s.now + Session.timeoutMs⟩] }, _)) hquiet
  obtain ⟨c', hc', hsession, hwritten, hothers⟩ :=
    TcpServer.sessionActs_conns s.server id c ({ c.session with
      pendingCommands := c.session.pendingCommands ++ [⟨i, s.now + Session.timeoutMs⟩] },
      [.send (encodeCommand command)])
  refine ⟨id, _, c, c', ⟨hc, hc', hothers, ?_, ?_, hregistry, hopen, ?_, ?_, hwritten⟩, ?_⟩
  · rw [TcpServer.imeiOf, hc]
    exact hlogin
  · exact hlogins.trans (TcpServer.imeiOf_update hc rfl)
  · rw [hsession]
  · rw [hsession]
  · simp only [handle, hsend, handOver]

namespace Queued

variable {a : Handed} {server : TcpServer} {c c' : Conn} {authorization body : String}

/-- The sockets afterwards: the one that has a command more, and the others. -/
theorem cases_conn (q : Queued s a server c c') {j : Nat} {d : Conn}
    (hd : server.conns j = some d) :
    (j = a.socket ∧ d = c') ∨ (j ≠ a.socket ∧ s.server.conns j = some d) := by
  by_cases hj : j = a.socket
  · subst hj
    exact Or.inl ⟨rfl, Option.some.inj (hd.symm.trans q.conn)⟩
  · exact Or.inr ⟨hj, q.others j hj ▸ hd⟩

theorem exchange_of_ne {j : Nat} (hj : j ≠ a.id) :
    (s.handOver a server).exchange j = s.exchange j := Function.update_of_ne hj ..

theorem exchange_self : (s.handOver a server).exchange a.id = some (.waiting a.imei a.command) :=
  Function.update_self ..

/-- No command is pending under a number whose request is on its way. -/
theorem not_pending (h : RelayInv cfg s)
    (hx : s.exchange a.id = some (.calling authorization body)) {j : Nat} {d : Conn}
    (hd : s.server.conns j = some d) {p : PendingCommand} (hp : p ∈ d.session.pendingCommands) :
    p.id ≠ a.id := by
  intro hid
  obtain ⟨b, -, -, -, -, hwaits⟩ := h.pending j d hd p hp
  rw [hid, hx] at hwaits
  cases hwaits

theorem grows (q : Queued s a server c c') : Grows s (s.handOver a server) where
  handed b hb := List.mem_append_left _ hb
  heard j := List.prefix_refl _
  now := le_refl _
  closed j hj := by
    refine ⟨?_, fun hmem => hj.2 (q.sockets ▸ hmem)⟩
    by_cases hid : j = a.socket
    · simp [handOver, Relay.put, hid, q.conn]
    · simp [handOver, Relay.put, q.others j hid, hj.1]

/-- Nothing else was handed over. -/
theorem notHanded {j : Nat} (hj : j ≠ a.id) (hnot : s.NotHanded j) :
    (s.handOver a server).NotHanded j := by
  intro b hb
  rcases List.mem_append.mp hb with hb | hb
  · exact hnot b hb
  · rw [List.mem_singleton.mp hb]
    exact hj.symm

theorem waiting (h : RelayInv cfg s) (q : Queued s a server c c') {j : Nat}
    {imei command : String}
    (hj : (s.handOver a server).exchange j = some (.waiting imei command)) :
    ∃ b ∈ s.handed ++ [a], b.id = j ∧ b.imei = imei ∧ b.command = command ∧
      ∃ d, server.conns b.socket = some d ∧ ∃ p ∈ d.session.pendingCommands, p.id = j := by
  by_cases hji : j = a.id
  · subst hji
    rw [exchange_self] at hj
    cases hj
    exact ⟨a, List.mem_append_right _ List.mem_cons_self, rfl, rfl, rfl, c', q.conn,
      ⟨a.id, a.time + Session.timeoutMs⟩, by simp [q.pending], rfl⟩
  · obtain ⟨b, hb, hid, himei, hcommand, d, hd, p, hp, hpid⟩ :=
      h.waiting j imei command ((exchange_of_ne hji).symm.trans hj)
    refine ⟨b, List.mem_append_left _ hb, hid, himei, hcommand, ?_⟩
    -- its command is where it was, possibly with one more behind it
    by_cases hsocket : b.socket = a.socket
    · rw [hsocket] at hd ⊢
      obtain rfl := Option.some.inj (q.found.symm.trans hd)
      exact ⟨c', q.conn, p, by rw [q.pending]; exact List.mem_append_left _ hp, hpid⟩
    · exact ⟨d, (q.others _ hsocket).trans hd, p, hp, hpid⟩

theorem pendingCommands (h : RelayInv cfg s) (q : Queued s a server c c')
    (hx : s.exchange a.id = some (.calling authorization body)) {j : Nat} {d : Conn}
    (hd : server.conns j = some d) {p : PendingCommand} (hp : p ∈ d.session.pendingCommands) :
    ∃ b ∈ s.handed ++ [a], b.id = p.id ∧ b.socket = j ∧
      p.deadline = b.time + Session.timeoutMs ∧
        (s.handOver a server).exchange p.id = some (.waiting b.imei b.command) := by
  have hold : ∀ d₀, s.server.conns j = some d₀ → p ∈ d₀.session.pendingCommands →
      ∃ b ∈ s.handed ++ [a], b.id = p.id ∧ b.socket = j ∧
        p.deadline = b.time + Session.timeoutMs ∧
          (s.handOver a server).exchange p.id = some (.waiting b.imei b.command) := by
    intro d₀ hd₀ hp
    obtain ⟨b, hb, hid, hsocket, hdeadline, hwaits⟩ := h.pending j d₀ hd₀ p hp
    exact ⟨b, List.mem_append_left _ hb, hid, hsocket, hdeadline,
      (exchange_of_ne (not_pending h hx hd₀ hp)).trans hwaits⟩
  rcases q.cases_conn hd with ⟨rfl, rfl⟩ | ⟨-, hd⟩
  · rw [q.pending] at hp
    rcases List.mem_append.mp hp with hp | hp
    · exact hold c q.found hp
    · obtain rfl := List.mem_singleton.mp hp
      exact ⟨a, List.mem_append_right _ List.mem_cons_self, rfl, rfl, rfl, exchange_self⟩
  · exact hold d hd hp

theorem nodup (h : RelayInv cfg s) (q : Queued s a server c c')
    (hx : s.exchange a.id = some (.calling authorization body)) {j : Nat} {d : Conn}
    (hd : server.conns j = some d) : (d.session.pendingCommands.map PendingCommand.id).Nodup := by
  rcases q.cases_conn hd with ⟨rfl, rfl⟩ | ⟨-, hd⟩
  · rw [q.pending, List.map_append]
    refine List.nodup_append.mpr ⟨h.nodup _ c q.found, List.nodup_singleton _, ?_⟩
    intro k hk l hl
    obtain ⟨p, hp, rfl⟩ := List.mem_map.mp hk
    obtain rfl : l = a.id := by simpa using hl
    exact not_pending h hx q.found hp
  · exact h.nodup j d hd

theorem commandsWritten (h : RelayInv cfg s) (q : Queued s a server c c') {j : Nat} {d : Conn}
    (hd : server.conns j = some d) :
    (Relay.commandsWritten d).Sublist ((s.handOver a server).commandsHanded j) := by
  have happend : (s.handOver a server).commandsHanded j =
      s.commandsHanded j ++ if a.socket = j then [encodeCommand a.command] else [] := by
    by_cases hj : a.socket = j <;>
      simp [commandsHanded, handOver, Relay.put, List.filter_append, hj]
  rcases q.cases_conn hd with ⟨rfl, rfl⟩ | ⟨hj, hd⟩
  · obtain ⟨sent, hsub, hwritten⟩ := q.written
    rw [happend, if_pos rfl, Relay.commandsWritten, hwritten, List.filter_append]
    exact (h.written _ c q.found).append (List.filter_sublist.trans hsub)
  · rw [happend, if_neg (Ne.symm hj), List.append_nil]
    exact h.written j d hd

/-- The request is on its way no more, and no other one is concerned. -/
theorem ne_of_exchange {j : Nat} {x : Exchange} (hkind : ∀ imei command, x ≠ .waiting imei command)
    (hj : (s.handOver a server).exchange j = some x) : j ≠ a.id := by
  rintro rfl
  rw [exchange_self] at hj
  exact hkind _ _ (Option.some.inj hj).symm

end Queued

/-- A command is handed to a session. -/
theorem RelayInv.hand {a : Handed} {server : TcpServer} {c c' : Conn} {authorization body : String}
    (h : RelayInv cfg s) (q : Queued s a server c c')
    (hx : s.exchange a.id = some (.calling authorization body))
    (hrequested : Requested cfg s a) : RelayInv cfg (s.handOver a server) := by
  obtain ⟨hnot, -, -⟩ := h.calling a.id authorization body hx
  refine
    { entry := ?entry
      requested := ?requested
      distinct := ?distinct
      fresh := ?fresh
      calling := ?calling
      waiting := fun j imei command hj => q.waiting h hj
      pending := fun j d hd p hp => q.pendingCommands h hx hd hp
      nodup := fun j d hd => q.nodup h hx hd
      unread := ?unread
      written := fun j d hd => q.commandsWritten h hd
      responded := ?responded
      concluded := h.concludes rfl ?concluded }
  case entry =>
    change server.EntriesLoggedIn
    rw [TcpServer.EntriesLoggedIn, q.logins, q.registry]
    exact h.entry
  case requested =>
    have hlogins : ∀ j imei, s.server.imeiOf j = some imei → server.imeiOf j = some imei :=
      fun j imei hj => q.logins ▸ hj
    intro b hb
    rcases List.mem_append.mp hb with hb | hb
    · exact (h.requested b hb).mono rfl (hlogins b.socket)
    · rw [List.mem_singleton.mp hb]
      exact hrequested.mono rfl (hlogins a.socket)
  case distinct =>
    -- the request was on its way, so that it had made no command yet
    change ((s.handed ++ [a]).map Handed.id).Nodup
    rw [List.map_append]
    refine List.nodup_append.mpr ⟨h.distinct, List.nodup_singleton _, ?_⟩
    intro j hj k hk
    obtain ⟨b, hb, rfl⟩ := List.mem_map.mp hj
    obtain rfl : k = a.id := by simpa using hk
    exact hnot b hb
  case fresh =>
    intro j hj
    obtain ⟨hnone, hnotj⟩ := h.fresh j hj
    have hne : j ≠ a.id := by
      rintro rfl
      rw [hx] at hnone
      cases hnone
    exact ⟨(Queued.exchange_of_ne hne).trans hnone, Queued.notHanded hne hnotj⟩
  case calling =>
    intro j authorization' body' hj
    have hne := Queued.ne_of_exchange (by simp) hj
    obtain ⟨hnotj, hrest⟩ :=
      h.calling j authorization' body' ((Queued.exchange_of_ne hne).symm.trans hj)
    exact ⟨Queued.notHanded hne hnotj, hrest⟩
  case unread =>
    intro j d hd
    rcases q.cases_conn hd with ⟨rfl, rfl⟩ | ⟨-, hd⟩
    · rw [q.buffer]
      exact h.unread _ c q.found
    · exact h.unread j d hd
  case responded =>
    intro j r hj whole
    have hne := Queued.ne_of_exchange (by simp) hj
    exact h.answers q.grows (Queued.notHanded hne) ((Queued.exchange_of_ne hne).symm.trans hj) whole
  case concluded =>
    intro j r hj
    have hne : j ≠ a.id := by
      rintro rfl
      rw [hx] at hj
      cases hj
    exact (Queued.exchange_of_ne hne).trans hj

/-- `handleCommand` on a request. -/
theorem RelayInv.arrive {authorization body : String} {cuts : List Nat}
    {r : CommandEndpoint.Handling} (h : RelayInv cfg s)
    (hx : s.exchange i = some (.calling authorization body))
    (hr : CommandEndpoint.handleCommand cfg.commandSecret s.server.isConnected
      (some authorization) (String.ofList (readBody cuts body.toList)) = some r) :
    RelayInv cfg (s.handle i r) := by
  obtain ⟨hnot, hheader, imei, command, hasked, rfl⟩ := h.calling i authorization body hx
  obtain ⟨cuts', hbody⟩ := readBody_requestBody cuts imei command
  rw [hbody] at hr
  cases handleCommand_request hr with
  -- an answer other than 200: nothing was handed over
  | @refused status message members hstatus =>
    refine h.put (by simp [hasked]) (by simp [hx]) (by simp [hx]) (by simp) (by simp) ?_
    intro r hr whole
    obtain rfl := (Exchange.responded.inj hr).symm
    obtain ⟨code, text, hresult, hcode⟩ := sendResult_refused message hstatus whole
    refine ⟨_, hresult, ?_⟩
    rcases hcode with rfl | rfl | rfl
    · exact hnot
    · exact hnot
    · exact Or.inl hnot
  | sent hsecret hpresents himei hcommand hlength hconn =>
    -- the IMEI is all digits, so a cut between two chunks does not alter it
    have hdigits : ∀ c ∈ readBody cuts imei.toList, c.toNat < 128 := by
      intro c hc
      simp only [isImei, String.toList_ofList, Bool.and_eq_true, List.all_eq_true] at himei
      have hdigit := himei.2 c hc
      simp only [Char.isDigit, Bool.and_eq_true, decide_eq_true_eq, ge_iff_le,
        UInt32.le_iff_toNat_le] at hdigit
      exact lt_of_le_of_lt hdigit.2 (by decide)
    have hsame : String.ofList (readBody cuts imei.toList) = imei := by
      rw [readBody_of_ascii hdigits, String.ofList_toList]
    rw [hsame] at himei hconn ⊢
    obtain ⟨socket, server, c, c', hqueued, hstate⟩ := h.exists_queued hconn
    rw [hstate]
    exact h.hand hqueued hx ⟨himei, hqueued.loggedIn, ⟨command, _, hasked, rfl⟩,
      ⟨hcommand, hlength⟩, hsecret, authorization, hheader, hpresents⟩

/-- **One event keeps the invariant.** -/
theorem relayInv_step {e : Ev} (h : RelayInv cfg s) (hs : s.step cfg e = some s') :
    RelayInv cfg s' := by
  -- one case for each event, by the lemma for it
  cases e with
  | tick ms =>
    cases hs
    exact h.tick ms
  | send i imei command =>
    simp only [step] at hs
    split at hs
    case h_1 => cases hs
    case h_2 hi =>
    have hasked := h.ask hi imei command
    split at hs
    -- the header cannot be sent, and the call fails at once
    case h_1 hheader =>
      cases hs
      exact hasked.conclude (Or.inl ⟨_, rfl⟩)
    case h_2 authorization hheader =>
      cases hs
      obtain ⟨hnone, hnot⟩ := h.fresh i hi
      refine hasked.put (by simp) (by simp [hnone]) (by simp [hnone]) (by simp) ?_ (by simp)
      intro authorization' body hx
      obtain ⟨rfl, rfl⟩ := Exchange.calling.inj hx
      exact ⟨hnot, hheader, imei, command, by simp, rfl⟩
  | arrive i cuts =>
    simp only [step] at hs
    split at hs
    case h_1 authorization body hx =>
      obtain ⟨r, hr, rfl⟩ := Option.map_eq_some_iff.mp hs
      exact h.arrive hx hr
    case h_2 => cases hs
  | tcp e =>
    obtain ⟨server, hserver, rfl⟩ := Option.map_eq_some_iff.mp hs
    exact h.serve (h.served_tcp hserver)
  | timer socket i =>
    obtain ⟨⟨server, out⟩, hserver, rfl⟩ := Option.map_eq_some_iff.mp hs
    exact h.serve (h.served_timer hserver)
  -- the response is read, whole or cut off
  | delivered i whole =>
    simp only [step] at hs
    split at hs
    case h_1 r hx ho =>
      obtain ⟨o, hr, rfl⟩ := Option.map_eq_some_iff.mp hs
      exact h.conclude (Or.inr ⟨r, whole, hx, hr⟩)
    case h_2 => cases hs
  -- or the connection breaks before it is there
  | lost i message =>
    simp only [step] at hs
    split at hs
    · cases hs
      exact h.conclude (Or.inl ⟨message, rfl⟩)
    · cases hs

theorem relayInv_of_run {es : List Ev}
    (hrun : Run (step cfg) (fun _ _ => True) (init cfg) es s) : RelayInv cfg s :=
  hrun.invariant (relayInv_init cfg) fun _ _ _ h _ hs => relayInv_step h hs

/-! ## What the control plane is told -/

/-- **What the control plane is told about a command is true**, in whatever order the services, the
sockets and the timers go on: a reply is a response that was read from the socket which the command
was handed to, a timeout is one of thirty seconds, and everything else but a lost response means
that no device has got the command, unless its connection was closed or the response was cut off
after its headers. -/
theorem outcome_truthful {es : List Ev}
    (hrun : Run (step cfg) (fun _ _ => True) (init cfg) es s)
    {o : Except ApiError String} (ho : s.outcome i = some o) : s.Truthful i o := by
  have h := relayInv_of_run hrun
  rcases h.concluded i o ho with ⟨message, rfl⟩ | ⟨r, whole, hx, hr⟩
  · trivial
  · obtain ⟨o', ho', ht⟩ := h.responded i r hx whole
    obtain rfl := Option.some.inj (hr.symm.trans ho')
    exact ht

/-- **A call makes at most one command**, for the device that it was for: the commands that were
written to a socket are among those handed to its session, in their order; each of these was asked
for by a call of its own, for the device that is logged in on the socket, with the secret of the
endpoint; and a request that is not answered yet waits for a command that is pending there, whose
timer will end it. -/
theorem commands_once {es : List Ev}
    (hrun : Run (step cfg) (fun _ _ => True) (init cfg) es s) :
    (∀ j c, s.server.conns j = some c → (commandsWritten c).Sublist (s.commandsHanded j)) ∧
      (s.handed.map Handed.id).Nodup ∧ (∀ a ∈ s.handed, Requested cfg s a) ∧
      ∀ i imei command, s.exchange i = some (.waiting imei command) →
        ∃ a ∈ s.handed, a.id = i ∧ ∀ ms, a.time + Session.timeoutMs ≤ s.now + ms →
          ∃ s', Run (step cfg) (fun _ _ => True) s
            [.tick ms, .timer a.socket i] s' ∧ ∃ r, s'.exchange i = some (.responded r) := by
  have h := relayInv_of_run hrun
  refine ⟨h.written, h.distinct, h.requested, ?_⟩
  intro i imei command hx
  -- a call that waits has handed its command over, and the session still holds it as pending
  obtain ⟨a, ha, rfl, rfl, rfl, c, hc, p, hp, hid⟩ := h.waiting i imei command hx
  refine ⟨a, ha, rfl, fun ms hms => ?_⟩
  obtain ⟨b, hb, hbid, -, hdeadline, -⟩ := h.pending a.socket c hc p hp
  obtain rfl := h.unique ha hb (hid.symm.trans hbid.symm)
  have hdue : (c.session.pendingCommands.any fun p => p.id = a.id ∧ p.deadline ≤ s.now + ms) =
      true := List.any_eq_true.mpr ⟨p, hp, decide_eq_true ⟨hid, hdeadline ▸ hms⟩⟩
  -- its timer is due, so the step is enabled
  have htimer : Relay.step cfg { s with now := s.now + ms } (.timer a.socket a.id) =
      some ((c.session.commandTimedOut a.id).2.foldl settle
        { s with
          now := s.now + ms
          server := s.server.sessionActs a.socket c (c.session.commandTimedOut a.id) }) := by
    simp only [Relay.step, TcpServer.commandTimedOut, hc, Option.bind_some, hdue, if_true,
      Option.map_some]
  refine ⟨_, .snoc (.single trivial rfl) trivial htimer, ?_⟩
  simp only [Session.commandTimedOut, List.foldl_cons, List.foldl_nil, settle, goOn, hx]
  exact ⟨_, Function.update_self ..⟩

end Inv

/-! ## A command and its reply -/

def sampleConfig : RelayConfig := ⟨10, "secret", "secret", some⟩

/-- The body arrives as it was sent, if no chunk cuts a character. -/
theorem readBody_nil (cs : List Char) : readBody [] cs = cs := by
  induction cs with
  | nil => rfl
  | cons c cs ih =>
    rw [readBody, List.headD_nil, List.tail_nil, ih]
    split_ifs <;> rfl

theorem sample_handled (isConnected : String → Bool)
    (h : isConnected "356307042441013" = true) :
    CommandEndpoint.handleCommand "secret" isConnected (some "Bearer secret")
        (HttpDeviceCommander.requestBody "356307042441013" "getinfo") =
      some (.send "356307042441013" "getinfo") := by
  have hpresented : CommandEndpoint.presented (some "Bearer secret") = "secret" := by
    decide +kernel
  have hlimit : ¬ 4096 < CommandEndpoint.codeUnits
      (HttpDeviceCommander.requestBody "356307042441013" "getinfo") := by decide +kernel
  have himei : isImei "356307042441013" = true := by decide +kernel
  have htrim : CommandEndpoint.trim "getinfo" = "getinfo" := by decide +kernel
  have hlength : ¬ 160 < CommandEndpoint.codeUnits "getinfo" := by decide +kernel
  simp [CommandEndpoint.handleCommand, hpresented, hlimit, parse_requestBody, handleBody_request,
    himei, htrim, hlength, h]

/-- The response is cut off and resolves the command. -/
theorem frames_sampleResponse (p : PendingCommand) :
    Session.frames Downlink.sampleResponse [p] =
      ([], [], [.resolve p.id "DOUT1:1 Timeout:INFINITY"], .noFrame) := by
  have hframe : extractFrame Downlink.sampleResponse = some (Downlink.sampleResponse, []) := by
    decide +kernel
  have hcodec : (Downlink.sampleResponse.getD 8 0).toNat = CODEC_12 := by decide +kernel
  rw [Session.frames_some hframe, if_pos hcodec,
    Downlink.responseText_spec Downlink.sampleResponse_text]
  simp [TcpServer.frames_empty]

theorem sample_answered : ∃ es s, Run (step sampleConfig) (fun _ _ => True)
    (init sampleConfig) es s ∧ s.outcome 7 = some (.ok "DOUT1:1 Timeout:INFINITY") ∧
      s.Truthful 7 (.ok "DOUT1:1 Timeout:INFINITY") := by
  classical
  obtain ⟨s, hrun, ho⟩ : ∃ s, Run (step sampleConfig) (fun _ _ => True)
      (init sampleConfig)
      [.tcp (.connection 0), .tcp (.data 0 TcpServer.sampleLogin), .tcp (.drain 0),
        .tcp (.loginAnswered 0 (.ok true)), .send 7 "356307042441013" "getinfo", .arrive 7 [],
        .tcp (.data 0 Downlink.sampleResponse), .tcp (.drain 0), .delivered 7 true] s ∧
      s.outcome 7 = some (.ok "DOUT1:1 Timeout:INFINITY") := by
    apply Run.exists_of_foldl
    have hdrop : TcpServer.sampleLogin.drop 17 = [] := rfl
    simp [step, init, sampleConfig, TcpServer.step, TcpServer.init, Session.init, Session.onData,
      Session.drain, Session.loginAnswered, TcpServer.acts, TcpServer.sessionActs,
      TcpServer.parse_sampleLogin, hdrop, Session.loop, TcpServer.frames_empty, TcpServer.output,
      TcpServer.Ev.chunk, settle, goOn, put, respond, conclude, handle, readBody_nil,
      sample_handled, TcpServer.isConnected, JsMap.has, TcpServer.sendCommand, Session.sendCommand,
      Session.imei, frames_sampleResponse, sendResult_answered, bind, Except.bind, pure,
      Except.pure]
  exact ⟨_, s, hrun, ho, outcome_truthful hrun ho⟩

/-- A command that waits for its response. -/
theorem sample_handed : ∃ es s, Run (step sampleConfig) (fun _ _ => True) (init sampleConfig) es s ∧
    s.exchange 7 = some (.waiting "356307042441013" "getinfo") ∧
      ∃ a ∈ s.handed, a.id = 7 ∧ Requested sampleConfig s a := by
  classical
  obtain ⟨s, hrun, hx⟩ : ∃ s, Run (step sampleConfig) (fun _ _ => True) (init sampleConfig)
      [.tcp (.connection 0), .tcp (.data 0 TcpServer.sampleLogin), .tcp (.drain 0),
        .tcp (.loginAnswered 0 (.ok true)), .send 7 "356307042441013" "getinfo", .arrive 7 []] s ∧
      s.exchange 7 = some (.waiting "356307042441013" "getinfo") := by
    apply Run.exists_of_foldl
    have hdrop : TcpServer.sampleLogin.drop 17 = [] := rfl
    simp [step, init, sampleConfig, TcpServer.step, TcpServer.init, Session.init, Session.onData,
      Session.drain, Session.loginAnswered, TcpServer.acts, TcpServer.sessionActs,
      TcpServer.parse_sampleLogin, hdrop, Session.loop, TcpServer.frames_empty, TcpServer.output,
      TcpServer.Ev.chunk, settle, put, handle, readBody_nil, sample_handled, TcpServer.isConnected,
      JsMap.has, TcpServer.sendCommand, Session.sendCommand, Session.imei, bind, Except.bind, pure,
      Except.pure]
  obtain ⟨-, -, hrequested, hwaits⟩ := commands_once hrun
  obtain ⟨a, ha, hid, -⟩ := hwaits 7 _ _ hx
  exact ⟨_, s, hrun, hx, a, ha, hid, hrequested a ha⟩

end Relay

end FleetTracking.ControlPlane
