import FleetTracking.Ingestion.Session
import FleetTracking.Lib.JsMap
import FleetTracking.Lib.Transition
import Mathlib.Logic.Function.Basic

/-!
# The TCP Server and its Downlink Registry

The server owns the sockets, gives each a session, and keeps the registry `byImei` through
which commands are routed to connected devices. A session enters itself under its IMEI when
its login is accepted; the `close` event of a socket removes the entry of its IMEI.

1. `TcpServer.step`: the events of sockets and sessions.
2. `step_registry`: all that a step can do to the open sockets, their logins and `byImei`.
-/

namespace FleetTracking.Ingestion

open FleetTracking.Protocol Transition

/-- A socket with its session. -/
structure Conn where
  session : Session
  destroyed : Bool
  written : List Buffer

/-- The server's state. Sockets are numbered; a socket is open while it is in `connections`,
that is until its `close` event. -/
structure TcpServer where
  maxConnections : Nat
  draining : Bool
  conns : Nat → Option Conn
  connections : List Nat
  byImei : JsMap String Nat

/-- `handleAvl` is over: the number of its records is acknowledged, then the frame loop goes on. -/
def Session.acked (s : Session) : Except JsError Nat → Option (Session × List Output)
  | .ok recordCount => (s.stored (.ok ())).map fun out =>
      (out.1, .send (buildTcpAck recordCount) :: out.2)
  | .error e => s.stored (.error e)

namespace TcpServer

/-- A server that has just started to listen. -/
def init (maxConnections : Nat) : TcpServer := ⟨maxConnections, false, fun _ => none, [], JsMap.empty⟩

/-- What happens at the server: a client connects, a chunk arrives, a session works on,
a socket is destroyed (idle timeout, end of a drain) or reported closed, or the server
starts to drain. -/
inductive Ev where
  | connection (id : Nat)
  | data (id : Nat) (chunk : Buffer)
  | drain (id : Nat)
  | loginAnswered (id : Nat) (r : Except JsError Bool)
  | stored (id : Nat) (r : Except JsError Nat)
  | destroy (id : Nat)
  | close (id : Nat)
  | startDraining

/-- One thing a session does. Nothing is written to a destroyed socket; the promises of
commands are outside the server. -/
def output (id : Nat) (s : TcpServer) : Output → TcpServer
  | .send buf => { s with conns := fun j => if j = id then (s.conns j).map fun c =>
      if c.destroyed then c else { c with written := c.written ++ [buf] } else s.conns j }
  | .close => { s with conns := fun j => if j = id then (s.conns j).map fun c =>
      { c with destroyed := true } else s.conns j }
  | .authenticated imei => { s with byImei := s.byImei.set imei id }
  | .resolve _ _ => s
  | .reject _ _ => s

/-- A session has changed and acted. -/
def sessionActs (s : TcpServer) (id : Nat) (c : Conn) (r : Session × List Output) : TcpServer :=
  r.2.foldl (output id) { s with conns := Function.update s.conns id (some { c with session := r.1 }) }

/-- One event. -/
def step (s : TcpServer) : Ev → Option TcpServer
  | .connection id =>
    match s.conns id with
    | some _ => none
    | none =>
      -- a refused socket is destroyed at once and gets no session
      if s.draining ∨ s.maxConnections ≤ s.connections.length then some s
      else some { s with
        conns := Function.update s.conns id (some ⟨Session.init, false, []⟩)
        connections := s.connections ++ [id] }
  | .data id chunk => (s.conns id).map fun c => sessionActs s id c (c.session.onData chunk, [])
  | .drain id => (s.conns id).bind fun c => c.session.drain.map (sessionActs s id c)
  | .loginAnswered id r =>
    (s.conns id).bind fun c => (c.session.loginAnswered r).map (sessionActs s id c)
  | .stored id r => (s.conns id).bind fun c => (c.session.acked r).map (sessionActs s id c)
  | .destroy id => (s.conns id).map fun _ => output id s .close
  | .close id =>
    (s.conns id).bind fun c =>
      if id ∈ s.connections then
        let s' := { s with
          connections := s.connections.filter fun j => j ≠ id
          byImei := match c.session.imei with
            | some imei => s.byImei.delete imei
            | none => s.byImei }
        some (sessionActs s' id c c.session.handleClosed)
      else none
  | .startDraining => some { s with draining := true }

/-- `session.imei` of the session of a socket. -/
def imeiOf (s : TcpServer) (id : Nat) : Option String := (s.conns id).bind fun c => c.session.imei

/-- `isConnected`. -/
def isConnected (s : TcpServer) (imei : String) : Bool := s.byImei.has imei

end TcpServer

/-! ## What sessions do to the registry -/

/-- Outputs that do not concern the registry. -/
def Quiet (out : List Output) : Prop := ∀ imei, Output.authenticated imei ∉ out

namespace Session

theorem handleCodec12_quiet {pending pending' : List PendingCommand} {frame : Buffer}
    {out : List Output} (h : handleCodec12 pending frame = .ok (pending', out)) : Quiet out := by
  unfold handleCodec12 at h
  cases hdec : decodeCodec12 frame with
  | error e =>
    rw [hdec] at h
    cases h
  | ok msg =>
    rw [hdec] at h
    intro imei hmem
    by_cases hty : msg.type ≠ TYPE_RESPONSE
    · simp only [bind, Except.bind, hty, ne_eq, not_false_eq_true, if_true] at h
      cases h
      cases hmem
    · cases pending with
      | nil =>
        simp only [bind, Except.bind, hty, if_false] at h
        cases h
        cases hmem
      | cons p rest =>
        simp only [bind, Except.bind, hty, if_false] at h
        cases h
        simp at hmem

/-- The frame loop only resolves commands. Induction on the rounds of the loop. -/
theorem frames_quiet (buffer : Buffer) (pending : List PendingCommand) :
    Quiet (frames buffer pending).2.2.1 := by
  induction hn : buffer.length using Nat.strong_induction_on generalizing buffer pending with
  | _ n ih =>
    cases h : extractFrame buffer with
    | none =>
      rw [frames_none h]
      exact fun _ => List.not_mem_nil
    | some p =>
      obtain ⟨frame, rest⟩ := p
      rw [frames_some h]
      split
      · cases hc : handleCodec12 pending frame with
        | error e => exact fun _ => List.not_mem_nil
        | ok r =>
          obtain ⟨pending', out⟩ := r
          have hrest := ih rest.length (hn ▸ extractFrame_rest h) rest pending' rfl
          intro imei hmem
          rcases List.mem_append.mp hmem with hmem | hmem
          · exact handleCodec12_quiet hc imei hmem
          · exact hrest imei hmem
      · split
        · exact fun _ => List.not_mem_nil
        · exact fun _ => List.not_mem_nil

/-- What going on with the loop does: nothing to the registry, and the session stays
logged in. -/
theorem loop_spec (s : Session) (imei : String) :
    Quiet (s.loop imei).2 ∧ (s.loop imei).1.imei = some imei := by
  have hq := frames_quiet s.buffer s.pendingCommands
  unfold loop
  split
  · rename_i heq
    rw [heq] at hq
    exact ⟨hq, rfl⟩
  · rename_i heq
    rw [heq] at hq
    exact ⟨hq, rfl⟩
  · rename_i heq
    rw [heq] at hq
    refine ⟨?_, rfl⟩
    intro i hmem
    rcases List.mem_append.mp hmem with hmem | hmem
    · exact hq i hmem
    · simp at hmem

theorem drain_spec {s : Session} {r : Session × List Output} (h : s.drain = some r) :
    Quiet r.2 ∧ r.1.imei = s.imei := by
  unfold drain at h
  split at h
  case h_1 queued hq hst =>
    have himei : s.imei = none := by
      simp only [Session.imei, hst]
    split at h
    · cases h
      exact ⟨by simp [Quiet], by simp [Session.imei, hst]⟩
    · cases h
      exact ⟨by simp [Quiet], by simp [Session.imei, hst]⟩
    · cases h
      exact ⟨by simp [Quiet], by simp [Session.imei, hst]⟩
  case h_2 queued imei hq hst =>
    cases h
    have himei : s.imei = some imei := by
      simp only [Session.imei, hst]
    rw [himei]
    exact loop_spec _ imei
  case h_3 => cases h

theorem stored_spec {s : Session} {r : Except JsError Unit} {r' : Session × List Output}
    (h : s.stored r = some r') : Quiet r'.2 ∧ r'.1.imei = s.imei := by
  unfold stored at h
  split at h
  case h_1 imei frame hst =>
    cases h
    have himei : s.imei = some imei := by
      simp only [Session.imei, hst]
    rw [himei]
    exact loop_spec _ imei
  case h_2 imei frame e hst =>
    cases h
    exact ⟨by simp [Quiet], by simp [Session.imei, hst]⟩
  case h_3 => cases h

theorem acked_spec {s : Session} {r : Except JsError Nat} {r' : Session × List Output}
    (h : s.acked r = some r') : Quiet r'.2 ∧ r'.1.imei = s.imei := by
  cases r with
  | error e => exact stored_spec h
  | ok recordCount =>
    obtain ⟨out, hout, rfl⟩ := Option.map_eq_some_iff.mp h
    obtain ⟨hq, him⟩ := stored_spec hout
    exact ⟨fun imei hmem => hq imei (by simpa using hmem), him⟩

/-- A login answer either logs the session in and registers it, or changes nothing. -/
theorem loginAnswered_spec {s : Session} {r : Except JsError Bool} {r' : Session × List Output}
    (h : s.loginAnswered r = some r') : s.imei = none ∧
      ((r ≠ .ok true ∧ Quiet r'.2 ∧ r'.1.imei = none) ∨
        (r = .ok true ∧ ∃ imei out, r'.2 = .send ACCEPT :: .authenticated imei :: out ∧ Quiet out ∧
          r'.1.imei = some imei)) := by
  unfold loginAnswered at h
  split at h
  case h_1 imei hst =>
    cases h
    obtain ⟨hq, him⟩ := loop_spec s imei
    exact ⟨by simp [Session.imei, hst], Or.inr ⟨rfl, imei, (s.loop imei).2, rfl, hq, him⟩⟩
  case h_2 imei hst =>
    cases h
    exact ⟨by simp [Session.imei, hst], Or.inl ⟨by simp, by simp [Quiet], rfl⟩⟩
  case h_3 imei e hst =>
    cases h
    exact ⟨by simp [Session.imei, hst], Or.inl ⟨by simp, by simp [Quiet], rfl⟩⟩
  case h_4 => cases h

theorem handleClosed_quiet (s : Session) : Quiet s.handleClosed.2 := by
  intro imei hmem
  simp [handleClosed] at hmem

end Session

namespace TcpServer

/-! ## What a step can do to the registry -/

theorem output_spec (id : Nat) (s : TcpServer) (o : Output) :
    (output id s o).connections = s.connections ∧
      (∀ j, (output id s o).imeiOf j = s.imeiOf j) ∧
      (output id s o).byImei =
        match o with
        | .authenticated imei => s.byImei.set imei id
        | _ => s.byImei := by
  -- only the login names a connection; what is sent or closed changes no name
  cases o with
  | send buf =>
    refine ⟨rfl, fun j => ?_, rfl⟩
    simp only [output, imeiOf]
    by_cases hj : j = id
    · rw [if_pos hj]
      cases s.conns j with
      | none => rfl
      | some c =>
        simp only [Option.map_some, Option.bind_some]
        split <;> rfl
    · rw [if_neg hj]
  | close =>
    refine ⟨rfl, fun j => ?_, rfl⟩
    simp only [output, imeiOf]
    by_cases hj : j = id
    · rw [if_pos hj]
      cases s.conns j with
      | none => rfl
      | some c => rfl
    · rw [if_neg hj]
  | authenticated imei => exact ⟨rfl, fun _ => rfl, rfl⟩
  | resolve p text => exact ⟨rfl, fun _ => rfl, rfl⟩
  | reject p e => exact ⟨rfl, fun _ => rfl, rfl⟩

/-- Quiet outputs leave the registry alone. Induction on the outputs. -/
theorem outputs_quiet (id : Nat) (out : List Output) (s : TcpServer) (hq : Quiet out) :
    (out.foldl (output id) s).connections = s.connections ∧
      (∀ j, (out.foldl (output id) s).imeiOf j = s.imeiOf j) ∧
      (out.foldl (output id) s).byImei = s.byImei := by
  induction out generalizing s with
  | nil => exact ⟨rfl, fun _ => rfl, rfl⟩
  | cons o out ih =>
    obtain ⟨hc, hi, hb⟩ := output_spec id s o
    obtain ⟨hc', hi', hb'⟩ := ih (output id s o) fun imei hmem => hq imei (List.mem_cons_of_mem _ hmem)
    have hsame : (output id s o).byImei = s.byImei := by
      rw [hb]
      cases o with
      | authenticated imei => exact absurd List.mem_cons_self (hq imei)
      | send buf => rfl
      | close => rfl
      | resolve p text => rfl
      | reject p e => rfl
    exact ⟨hc'.trans hc, fun j => (hi' j).trans (hi j), hb'.trans hsame⟩

/-- A session that acts quietly. -/
theorem sessionActs_quiet (s : TcpServer) (id : Nat) (c : Conn) {r : Session × List Output}
    (hq : Quiet r.2) :
    (sessionActs s id c r).connections = s.connections ∧
      (sessionActs s id c r).imeiOf = Function.update s.imeiOf id r.1.imei ∧
      (sessionActs s id c r).byImei = s.byImei := by
  obtain ⟨hc, hi, hb⟩ := outputs_quiet id r.2
    { s with conns := Function.update s.conns id (some { c with session := r.1 }) } hq
  refine ⟨hc, ?_, hb⟩
  funext j
  rw [sessionActs, hi j]
  by_cases hj : j = id
  · subst hj
    simp [imeiOf]
  · simp [imeiOf, Function.update_of_ne hj]

/-- All that a step can do to the open sockets, the logins and the registry. -/
inductive RegistryMove (s : TcpServer) : Ev → TcpServer → Prop where
  | quiet {e : Ev} {s' : TcpServer} (hc : s'.connections = s.connections)
      (hi : s'.imeiOf = s.imeiOf) (hb : s'.byImei = s.byImei)
      (hne : ∀ id, e ≠ .close id ∧ e ≠ .loginAnswered id (.ok true)) : RegistryMove s e s'
  | connected {id : Nat} {s' : TcpServer} (hnew : s.imeiOf id = none)
      (hc : s'.connections = s.connections ++ [id]) (hi : s'.imeiOf = s.imeiOf)
      (hb : s'.byImei = s.byImei) : RegistryMove s (.connection id) s'
  | loggedIn {id : Nat} {imei : String} {s' : TcpServer} (hnone : s.imeiOf id = none)
      (hc : s'.connections = s.connections)
      (hi : s'.imeiOf = Function.update s.imeiOf id (some imei))
      (hb : s'.byImei = s.byImei.set imei id) : RegistryMove s (.loginAnswered id (.ok true)) s'
  | closed {id : Nat} {s' : TcpServer} (hopen : id ∈ s.connections)
      (hc : s'.connections = s.connections.filter fun j => j ≠ id) (hi : s'.imeiOf = s.imeiOf)
      (hb : s'.byImei = match s.imeiOf id with
        | some imei => s.byImei.delete imei
        | none => s.byImei) : RegistryMove s (.close id) s'

theorem imeiOf_update {s : TcpServer} {id : Nat} {c : Conn} (hid : s.conns id = some c)
    {imei : Option String} (h : imei = c.session.imei) :
    Function.update s.imeiOf id imei = s.imeiOf := by
  rw [Function.update_eq_self_iff, h]
  simp [imeiOf, hid]

/-- A session that acts quietly and stays logged in as it was. -/
theorem quiet_move {s : TcpServer} {id : Nat} {c : Conn} (hid : s.conns id = some c)
    {r : Session × List Output} (hq : Quiet r.2) (him : r.1.imei = c.session.imei) {e : Ev}
    (hne : ∀ id, e ≠ .close id ∧ e ≠ .loginAnswered id (.ok true)) :
    RegistryMove s e (sessionActs s id c r) := by
  obtain ⟨hc, hi, hb⟩ := sessionActs_quiet s id c hq
  exact .quiet hc (hi.trans (imeiOf_update hid him)) hb hne

/-- **Inversion of a step**, as far as the registry is concerned. -/
theorem step_registry {s s' : TcpServer} {e : Ev} (h : s.step e = some s') :
    RegistryMove s e s' := by
  cases e with
  | connection id =>
    simp only [step] at h
    cases hid : s.conns id with
    | some c =>
      rw [hid] at h
      cases h
    | none =>
      rw [hid] at h
      simp only at h
      split at h
      · cases h
        exact .quiet rfl rfl rfl fun _ => ⟨by simp, by simp⟩
      · cases h
        have hnone : s.imeiOf id = none := by simp [imeiOf, hid]
        refine .connected hnone rfl ?_ rfl
        funext j
        by_cases hj : j = id
        · subst hj
          rw [hnone]
          simp [imeiOf, Session.imei, Session.init]
        · simp [imeiOf, Function.update_of_ne hj]
  | data id chunk =>
    obtain ⟨c, hid, rfl⟩ := Option.map_eq_some_iff.mp h
    exact quiet_move hid (fun _ => List.not_mem_nil) rfl fun _ => ⟨by simp, by simp⟩
  | drain id =>
    obtain ⟨c, hid, hr⟩ := Option.bind_eq_some_iff.mp h
    obtain ⟨r, hdrain, rfl⟩ := Option.map_eq_some_iff.mp hr
    obtain ⟨hq, him⟩ := Session.drain_spec hdrain
    exact quiet_move hid hq him fun _ => ⟨by simp, by simp⟩
  | stored id r =>
    obtain ⟨c, hid, hr⟩ := Option.bind_eq_some_iff.mp h
    obtain ⟨r', hst, rfl⟩ := Option.map_eq_some_iff.mp hr
    obtain ⟨hq, him⟩ := Session.acked_spec hst
    exact quiet_move hid hq him fun _ => ⟨by simp, by simp⟩
  | destroy id =>
    obtain ⟨c, hid, rfl⟩ := Option.map_eq_some_iff.mp h
    obtain ⟨hc, hi, hb⟩ := output_spec id s .close
    exact .quiet hc (funext hi) hb fun _ => ⟨by simp, by simp⟩
  | startDraining =>
    cases h
    exact .quiet rfl rfl rfl fun _ => ⟨by simp, by simp⟩
  | loginAnswered id r =>
    obtain ⟨c, hid, hr⟩ := Option.bind_eq_some_iff.mp h
    obtain ⟨r', hlog, rfl⟩ := Option.map_eq_some_iff.mp hr
    obtain ⟨hnone, ⟨hr, hq, him⟩ | ⟨rfl, imei, out, hout, hq, him⟩⟩ :=
      Session.loginAnswered_spec hlog
    · refine quiet_move hid hq (him.trans hnone.symm) fun j => ⟨by simp, ?_⟩
      intro heq
      cases heq
      exact hr rfl
    · -- the answer to the login is followed by the registration
      have hacts : sessionActs s id c r' = sessionActs
          { s with byImei := s.byImei.set imei id } id
          { c with written := if c.destroyed then c.written else c.written ++ [Session.ACCEPT] }
          (r'.1, out) := by
        rw [sessionActs, hout, List.foldl_cons, List.foldl_cons, sessionActs]
        congr 1
        simp only [output, TcpServer.mk.injEq, true_and, and_true]
        funext j
        by_cases hj : j = id
        · subst hj
          simp only [if_true, Function.update_self, Option.map_some]
          split <;> rfl
        · simp only [if_neg hj, Function.update_of_ne hj]
      obtain ⟨hc, hi, hb⟩ := sessionActs_quiet { s with byImei := s.byImei.set imei id } id
        { c with written := if c.destroyed then c.written else c.written ++ [Session.ACCEPT] }
        (r := (r'.1, out)) hq
      rw [him] at hi
      rw [hacts]
      exact .loggedIn (by simp [imeiOf, hid, hnone]) hc hi hb
  | close id =>
    obtain ⟨c, hid, hr⟩ := Option.bind_eq_some_iff.mp h
    split at hr
    case isFalse => cases hr
    case isTrue hopen =>
      cases hr
      obtain ⟨hc, hi, hb⟩ := sessionActs_quiet
        { s with
          connections := s.connections.filter fun j => j ≠ id
          byImei := match c.session.imei with
            | some imei => s.byImei.delete imei
            | none => s.byImei } id c (Session.handleClosed_quiet c.session)
      refine .closed hopen hc (hi.trans ?_) (hb.trans ?_)
      · exact imeiOf_update hid rfl
      · simp only [imeiOf, hid, Option.bind_some]

end TcpServer

end FleetTracking.Ingestion
