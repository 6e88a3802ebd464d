import FleetTracking.Protocol.Codec12
import FleetTracking.Protocol.Udp

/-!
# TCP Sessions

One session per connection: the IMEI login, then framed packets, which are AVL data or
responses to downlink commands. Work is serialised: each chunk of data queues one `drain`,
which runs when the one before it is over and stops where it awaits the allow-list or the
handling of an AVL frame. Every function returns the new session and what it does to the
transport, the server and the promises of the commands.
-/

namespace FleetTracking.Ingestion

open FleetTracking.Protocol

/-- Where the session's chain of work stands: before the login, awaiting the allow-list,
at rest after the login, or awaiting the handling of an AVL frame. -/
inductive SessionState where
  | anonymous
  | checking (imei : String)
  | ready (imei : String)
  | storing (imei : String) (frame : Buffer)

/-- A command whose response is still awaited; `id` stands for its promise. -/
structure PendingCommand where
  id : Nat
  deadline : Nat
  deriving DecidableEq

/-- What a session does to the world around it. -/
inductive Output where
  | send (buf : Buffer)
  | close
  | authenticated (imei : String)
  | resolve (id : Nat) (text : String)
  | reject (id : Nat) (e : JsError)

structure Session where
  state : SessionState
  buffer : Buffer
  -- the drains chained behind the one in progress
  queued : Nat
  pendingCommands : List PendingCommand

namespace Session

/-- A new connection. -/
def init : Session := ⟨.anonymous, [], 0, []⟩

/-- `session.imei`: set once the allow-list has accepted it. -/
def imei (s : Session) : Option String :=
  match s.state with
  | .anonymous => none
  | .checking _ => none
  | .ready imei => some imei
  | .storing imei _ => some imei

/-- `ACCEPT` and `REJECT`, the answers to a login. -/
def ACCEPT : Buffer := [0x01]
def REJECT : Buffer := [0x00]

/-- How long a command waits for its response. -/
def timeoutMs : Nat := 30000

/-- `sendCommand` at time `now`, its promise being `id`. -/
def sendCommand (s : Session) (id now : Nat) (command : String) :
    Except JsError (Session × List Output) :=
  match s.imei with
  | none => .error (.error "Cannot send command before IMEI login")
  | some _ => .ok
    ({ s with pendingCommands := s.pendingCommands ++ [⟨id, now + timeoutMs⟩] },
      [.send (encodeCommand command)])

/-- The timer of a pending command fires: its entry is taken out of the queue. -/
def commandTimedOut (s : Session) (id : Nat) : Session × List Output :=
  ({ s with pendingCommands := s.pendingCommands.filter fun p => p.id ≠ id },
    [.reject id (.error ("Codec12 command timed out after " ++ toString timeoutMs ++ "ms"))])

/-- `handleCodec12`: a response goes to the command at the front of the queue. -/
def handleCodec12 (pending : List PendingCommand) (frame : Buffer) :
    Except JsError (List PendingCommand × List Output) := do
  let msg ← decodeCodec12 frame
  if msg.type ≠ TYPE_RESPONSE then return (pending, [])
  match pending with
  | [] => return ([], [])
  | p :: rest => return (rest, [.resolve p.id msg.payload])

/-- `handleClosed`: all pending commands are rejected. -/
def handleClosed (s : Session) : Session × List Output :=
  ({ s with pendingCommands := [] },
    s.pendingCommands.map fun p => .reject p.id (.error "connection closed"))

end Session

/-- What is left after a frame was cut off is the end of the buffer. -/
theorem extractFrame_suffix {buf frame rest : Buffer} (h : extractFrame buf = some (frame, rest)) :
    rest <:+ buf := by
  unfold extractFrame at h
  split at h
  · cases h
  · simp only at h
    split at h
    · cases h
    · cases h
      exact List.drop_suffix _ _

namespace Session

/-- Where the frame loop of `drain` stops: with no complete frame left, at an AVL frame,
which is handled asynchronously, or at an error. -/
inductive LoopEnd where
  | noFrame
  | avl (frame : Buffer)
  | failed
  deriving DecidableEq

/-- The frame loop of `drain`. -/
def frames (buffer : Buffer) (pending : List PendingCommand) :
    Buffer × List PendingCommand × List Output × LoopEnd :=
  match h : extractFrame buffer with
  | none => (buffer, pending, [], .noFrame)
  | some (frame, rest) =>
    have := extractFrame_rest h
    let codecId := (frame.getD 8 0).toNat
    if codecId = CODEC_12 then
      match handleCodec12 pending frame with
      | .error _ => (rest, pending, [], .failed)
      | .ok (pending', out) =>
        let (buffer', pending'', out', stop) := frames rest pending'
        (buffer', pending'', out ++ out', stop)
    else if codecId = CODEC_8 ∨ codecId = CODEC_8_EXT ∨ codecId = CODEC_16 then
      (rest, pending, [], .avl frame)
    else (rest, pending, [], .failed)
termination_by buffer.length

theorem frames_none {buffer : Buffer} {pending : List PendingCommand}
    (h : extractFrame buffer = none) : frames buffer pending = (buffer, pending, [], .noFrame) := by
  rw [frames]
  split
  · rfl
  · rename_i h'
    rw [h] at h'
    cases h'

/-- One round of the loop. -/
theorem frames_some {buffer frame rest : Buffer} {pending : List PendingCommand}
    (h : extractFrame buffer = some (frame, rest)) :
    frames buffer pending =
      if (frame.getD 8 0).toNat = CODEC_12 then
        match handleCodec12 pending frame with
        | .error _ => (rest, pending, [], .failed)
        | .ok (pending', out) =>
          let r := frames rest pending'
          (r.1, r.2.1, out ++ r.2.2.1, r.2.2.2)
      else if (frame.getD 8 0).toNat = CODEC_8 ∨ (frame.getD 8 0).toNat = CODEC_8_EXT ∨
          (frame.getD 8 0).toNat = CODEC_16 then
        (rest, pending, [], .avl frame)
      else (rest, pending, [], .failed) := by
  rw [frames]
  split
  · rename_i h'
    rw [h] at h'
    cases h'
  · rename_i frame' rest' h'
    rw [h] at h'
    cases h'
    rfl

/-- Go on with the frame loop, on a session logged in as `imei`. A failure closes the
connection: `fail`. -/
def loop (s : Session) (imei : String) : Session × List Output :=
  match frames s.buffer s.pendingCommands with
  | (buffer, pending, out, .noFrame) =>
    ({ s with buffer, pendingCommands := pending, state := .ready imei }, out)
  | (buffer, pending, out, .avl frame) =>
    ({ s with buffer, pendingCommands := pending, state := .storing imei frame }, out)
  | (buffer, pending, out, .failed) =>
    ({ s with buffer, pendingCommands := pending, state := .ready imei }, out ++ [.close])

/-- `onData`: the bytes are appended at once, the work on them is chained. -/
def onData (s : Session) (chunk : Buffer) : Session :=
  { s with buffer := s.buffer ++ chunk, queued := s.queued + 1 }

/-- `drain`, when the chain comes to it. -/
def drain (s : Session) : Option (Session × List Output) :=
  match s.queued, s.state with
  | queued + 1, .anonymous =>
    match parseImei s.buffer with
    | .error _ => some ({ s with queued }, [.close])
    | .ok none => some ({ s with queued }, [])
    | .ok (some login) => some
      ({ s with queued, buffer := s.buffer.drop login.bytesConsumed, state := .checking login.imei },
        [])
  | queued + 1, .ready imei => some (loop { s with queued } imei)
  | _, _ => none

/-- The allow-list has answered the login. -/
def loginAnswered (s : Session) (r : Except JsError Bool) : Option (Session × List Output) :=
  match s.state, r with
  | .checking imei, .ok true =>
    let (s', out) := loop s imei
    some (s', [.send ACCEPT, .authenticated imei] ++ out)
  | .checking _, .ok false => some ({ s with state := .anonymous }, [.send REJECT, .close])
  | .checking _, .error _ => some ({ s with state := .anonymous }, [.close])
  | _, _ => none

/-- `handleAvl` is over. -/
def stored (s : Session) (r : Except JsError Unit) : Option (Session × List Output) :=
  match s.state, r with
  | .storing imei _, .ok () => some (loop s imei)
  | .storing imei _, .error _ => some ({ s with state := .ready imei }, [.close])
  | _, _ => none

end Session

end FleetTracking.Ingestion
