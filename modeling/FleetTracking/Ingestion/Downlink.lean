import FleetTracking.Ingestion.Session
import FleetTracking.Lib.Transition
import Mathlib.Data.List.Sort

/-!
# Downlink Commands and their Responses

A session matches responses to commands by their order alone: a response resolves the
command at the front of the queue. A command that times out leaves the queue, while the
device may still answer it. The device answers the commands it received in order, one
response each, possibly very late, and a response that has arrived waits on the chain of the
session, behind the handling of AVL frames, while timers fire and commands are sent.

1. `Downlink.step`: commands, responses, timers and the end of the connection.
2. `NotCrossed`: a promise resolves with the response to its own command.
3. `NoLateResponse`: no response to a timed-out command is handled while another command is
   waiting; `notCrossed_step_iff` shows that this is the exact condition.
-/

namespace FleetTracking.Ingestion

open FleetTracking.Protocol Transition

/-- A promise that was resolved, and the command whose response it was resolved with. -/
structure Resolution where
  promise : Nat
  answered : Nat
  text : String

/-- A session and its device. Commands are numbered in the order of `sendCommand`. -/
structure Downlink where
  session : Session
  isOpen : Bool
  now : Nat
  nextId : Nat
  -- the commands the device has received and not yet answered, oldest first
  unanswered : List Nat
  -- the responses that wait on the chain, each with the command it answers, oldest first
  arrived : List (Nat × Buffer)
  resolved : List Resolution

namespace Downlink

/-- A device logged in as `imei`, with no command sent yet. -/
def init (imei : String) : Downlink := ⟨⟨.ready imei, [], 0, []⟩, true, 0, 0, [], [], []⟩

/-- What happens: time passes, a command is sent, the device's next response arrives in
`frame`, the chain comes to the next response and handles it, the timer of a command fires, the
connection ends. -/
inductive Ev where
  | tick (ms : Nat)
  | command (text : String)
  | response (frame : Buffer)
  | handle
  | timeout (id : Nat)
  | close

/-- The promises resolved by a response to command `id`. -/
def resolutions (id : Nat) (out : List Output) : List Resolution :=
  out.filterMap fun o =>
    match o with
    | .resolve promise text => some ⟨promise, id, text⟩
    | _ => none

/-- The text of a response frame. -/
def responseText (frame : Buffer) : Option String :=
  match decodeCodec12 frame with
  | .ok msg => if msg.type = TYPE_RESPONSE then some msg.payload else none
  | .error _ => none

/-- One event. -/
def step (s : Downlink) : Ev → Option Downlink
  | .tick ms => some { s with now := s.now + ms }
  | .command text =>
    match s.session.sendCommand s.nextId s.now text with
    | .error _ => some s
    | .ok (session, _) => some
      { s with
        session
        nextId := s.nextId + 1
        unanswered := if s.isOpen then s.unanswered ++ [s.nextId] else s.unanswered }
  | .response frame =>
    match s.isOpen, s.unanswered, responseText frame with
    | true, id :: rest, some _ =>
      some { s with unanswered := rest, arrived := s.arrived ++ [(id, frame)] }
    | _, _, _ => none
  | .handle =>
    match s.arrived with
    | [] => none
    | (id, frame) :: later =>
      match Session.handleCodec12 s.session.pendingCommands frame with
      | .error _ => none
      | .ok (pendingCommands, out) => some
        { s with
          session := { s.session with pendingCommands }
          arrived := later
          resolved := s.resolved ++ resolutions id out }
  | .timeout id =>
    if s.session.pendingCommands.any fun p => p.id = id ∧ p.deadline ≤ s.now then
      some { s with session := (s.session.commandTimedOut id).1 }
    else none
  | .close => some { s with session := s.session.handleClosed.1, isOpen := false }

/-- The commands whose promises are waiting, oldest first. -/
def pending (s : Downlink) : List Nat := s.session.pendingCommands.map fun p => p.id

/-- Every promise that has resolved did so with the response to its own command. -/
def NotCrossed (s : Downlink) : Prop := ∀ r ∈ s.resolved, r.promise = r.answered

/-- The commands whose responses are still to be handled, oldest first. -/
def awaited (s : Downlink) : List Nat := s.arrived.map Prod.fst ++ s.unanswered

/-- When the response to a command is handled that has timed out, no command is pending. -/
def NoLateResponse (s : Downlink) : Ev → Prop
  | .handle => ∀ id frame later, s.arrived = (id, frame) :: later → id ∉ s.pending → s.pending = []
  | _ => True

/-- The pending commands are among the awaited ones, both in the order of sending. After the end
of the connection none of them is awaited. -/
structure DownlinkInv (s : Downlink) : Prop where
  notCrossed : s.NotCrossed
  responses : ∀ r ∈ s.arrived, (responseText r.2).isSome = true
  ordered : s.awaited.Pairwise (· < ·)
  sent : ∀ id ∈ s.awaited, id < s.nextId
  sublist : s.isOpen = true → s.pending.Sublist s.awaited
  ended : s.isOpen = false → ∀ id ∈ s.awaited, id ∉ s.pending

theorem downlinkInv_init (imei : String) : DownlinkInv (init imei) where
  notCrossed := by simp [NotCrossed, init]
  responses := by simp [init]
  ordered := by simp [awaited, init]
  sent := by simp [awaited, init]
  sublist := by simp [pending, init]
  ended := by simp [init]

/-! ## What a response does -/

theorem responseText_spec {frame : Buffer} {text : String} (h : responseText frame = some text) :
    ∀ pending, Session.handleCodec12 pending frame = .ok
      (match pending with
      | [] => ([], [])
      | p :: rest => (rest, [.resolve p.id text])) := by
  intro pending
  unfold responseText at h
  cases hdec : decodeCodec12 frame with
  | error e =>
    rw [hdec] at h
    cases h
  | ok msg =>
    rw [hdec] at h
    simp only at h
    by_cases hty : msg.type = TYPE_RESPONSE
    · rw [if_pos hty] at h
      cases h
      rw [Session.handleCodec12, hdec]
      cases pending with
      | nil => simp [bind, Except.bind, hty, pure, Except.pure]
      | cons p rest => simp [bind, Except.bind, hty, pure, Except.pure]
    · rw [if_neg hty] at h
      cases h

/-- **Inversion of a step that handles a response**: the front of the queue is resolved, if there
is one. -/
theorem step_handle {s s' : Downlink} (h : DownlinkInv s) (hs : s.step .handle = some s') :
    ∃ id frame later, s.arrived = (id, frame) :: later ∧ s'.arrived = later ∧
      s'.unanswered = s.unanswered ∧ s'.isOpen = s.isOpen ∧ s'.nextId = s.nextId ∧
      ((s.pending = [] ∧ s'.pending = [] ∧ s'.resolved = s.resolved) ∨
        ∃ p ps text, s.pending = p :: ps ∧ s'.pending = ps ∧
          s'.resolved = s.resolved ++ [⟨p, id, text⟩]) := by
  simp only [step] at hs
  split at hs
  case h_1 => cases hs
  case h_2 id frame later harrived =>
    obtain ⟨text, htext⟩ := Option.isSome_iff_exists.mp
      (h.responses (id, frame) (harrived ▸ List.mem_cons_self))
    rw [responseText_spec htext] at hs
    refine ⟨id, frame, later, harrived, ?_⟩
    -- the oldest pending command takes the text; with none it is dropped
    cases hp : s.session.pendingCommands with
    | nil =>
      rw [hp] at hs
      cases hs
      refine ⟨rfl, rfl, rfl, rfl, Or.inl ⟨?_, rfl, ?_⟩⟩
      · simp [pending, hp]
      · simp [resolutions]
    | cons p ps =>
      rw [hp] at hs
      cases hs
      refine ⟨rfl, rfl, rfl, rfl, Or.inr ⟨p.id, ps.map fun p => p.id, text, ?_, rfl, ?_⟩⟩
      · simp [pending, hp]
      · simp [resolutions]

/-- In a queue of awaited commands, the oldest one is pending only at the front. -/
theorem front_of_mem {awaited pending : List Nat} (hord : awaited.Pairwise (· < ·))
    (hsub : pending.Sublist awaited) {id p : Nat} {rest ps : List Nat} (hid : awaited = id :: rest)
    (hp : pending = p :: ps) (hmem : id ∈ pending) : p = id := by
  subst hid hp
  rcases List.mem_cons.mp hmem with rfl | hid
  · rfl
  · -- otherwise the front is older than the oldest
    have hlt : p < id := (List.pairwise_cons.mp (hord.sublist hsub)).1 id hid
    rcases List.mem_cons.mp (hsub.subset List.mem_cons_self) with rfl | hmem
    · rfl
    · have := (List.pairwise_cons.mp hord).1 p hmem
      omega

/-! ## Main results -/

/-- A command is sent: it is awaited if the device receives it. -/
theorem DownlinkInv.command {s : Downlink} (h : DownlinkInv s) {text : String} {session : Session}
    {out : List Output} (hsend : s.session.sendCommand s.nextId s.now text = .ok (session, out)) :
    DownlinkInv { s with
      session
      nextId := s.nextId + 1
      unanswered := if s.isOpen then s.unanswered ++ [s.nextId] else s.unanswered } := by
  have hpending : session.pendingCommands.map (fun p => p.id) = s.pending ++ [s.nextId] := by
    unfold Session.sendCommand at hsend
    split at hsend
    · cases hsend
    · cases hsend
      simp [pending]
  cases hopen : s.isOpen with
  | true =>
    have hawaited : s.arrived.map Prod.fst ++ (s.unanswered ++ [s.nextId]) =
        s.awaited ++ [s.nextId] := by simp [awaited]
    refine ⟨h.notCrossed, h.responses, ?_, ?_, fun _ => ?_, fun hclosed => ?_⟩
    · change (s.arrived.map Prod.fst ++ (s.unanswered ++ [s.nextId])).Pairwise (· < ·)
      rw [hawaited]
      refine List.pairwise_append.mpr ⟨h.ordered, List.pairwise_singleton _ _, ?_⟩
      intro a ha b hb
      rw [List.mem_singleton.mp hb]
      exact h.sent a ha
    · change ∀ id ∈ s.arrived.map Prod.fst ++ (s.unanswered ++ [s.nextId]), id < s.nextId + 1
      rw [hawaited]
      intro id hid
      rcases List.mem_append.mp hid with hid | hid
      · exact Nat.lt_succ_of_lt (h.sent id hid)
      · rw [List.mem_singleton.mp hid]
        exact Nat.lt_succ_self _
    · change (session.pendingCommands.map fun p => p.id).Sublist
        (s.arrived.map Prod.fst ++ (s.unanswered ++ [s.nextId]))
      rw [hpending, hawaited]
      exact (h.sublist hopen).append (List.Sublist.refl _)
    · cases hclosed
  | false =>
    -- the device does not receive it, and its number is a new one
    refine ⟨h.notCrossed, h.responses, h.ordered, ?_, fun hopen => ?_, fun _ id hid => ?_⟩
    · exact fun id hid => Nat.lt_succ_of_lt (h.sent id hid)
    · cases hopen
    · change id ∉ session.pendingCommands.map fun p => p.id
      rw [hpending, List.mem_append, List.mem_singleton, not_or]
      exact ⟨h.ended hopen id hid, Nat.ne_of_lt (h.sent id hid)⟩

/-- A response arrives: the command is awaited as before. -/
theorem DownlinkInv.response {s s' : Downlink} (h : DownlinkInv s) {frame : Buffer}
    (hs : s.step (.response frame) = some s') : DownlinkInv s' := by
  simp only [step] at hs
  split at hs
  case h_1 id rest text hopen hun htext =>
    cases hs
    have hawaited : (s.arrived ++ [(id, frame)]).map Prod.fst ++ rest = s.awaited := by
      simp [awaited, hun]
    refine ⟨h.notCrossed, ?_, ?_, ?_, ?_, ?_⟩
    · intro r hr
      rcases List.mem_append.mp hr with hr | hr
      · exact h.responses r hr
      · rw [List.mem_singleton.mp hr, htext]
        rfl
    all_goals simp only [awaited, hawaited]
    · exact h.ordered
    · exact h.sent
    · exact h.sublist
    · exact h.ended
  case h_2 => cases hs

/-- A response is handled while its command is pending, or while no command is. -/
theorem DownlinkInv.handle {s s' : Downlink} (h : DownlinkInv s) (hok : s.NoLateResponse .handle)
    (hs : s.step .handle = some s') : DownlinkInv s' := by
  obtain ⟨id, frame, later, harrived, hlater, hun, hopen, hnext, hcase⟩ := step_handle h hs
  have hawaited : s.awaited = id :: s'.awaited := by simp [awaited, harrived, hlater, hun]
  have hord := h.ordered
  have hsent := h.sent
  have hsub := h.sublist
  have hended := h.ended
  rw [hawaited] at hord hsent hsub hended
  have hresponses : ∀ r ∈ s'.arrived, (responseText r.2).isSome = true := fun r hr =>
    h.responses r (harrived ▸ List.mem_cons_of_mem _ (hlater ▸ hr))
  have hsent' : ∀ j ∈ s'.awaited, j < s'.nextId := fun j hj =>
    hnext ▸ hsent j (List.mem_cons_of_mem _ hj)
  rcases hcase with ⟨-, hp', hres⟩ | ⟨p, ps, text, hp, hp', hres⟩
  · refine ⟨?_, hresponses, (List.pairwise_cons.mp hord).2, hsent', ?_, ?_⟩
    · rw [NotCrossed, hres]
      exact h.notCrossed
    · simp [hp']
    · simp [hp']
  · -- the command is still pending, so that the connection goes on and it is the one at the front
    have hmem : id ∈ s.pending := by
      by_contra hnot
      have hnone := hok id frame later harrived hnot
      rw [hp] at hnone
      cases hnone
    have hgoing : s.isOpen = true := by
      by_contra hclosed
      exact hended (Bool.eq_false_of_not_eq_true hclosed) id List.mem_cons_self hmem
    obtain rfl := front_of_mem hord (hsub hgoing) rfl hp hmem
    refine ⟨?_, hresponses, (List.pairwise_cons.mp hord).2, hsent', fun _ => ?_, fun hclosed => ?_⟩
    · intro r hr
      rw [hres] at hr
      rcases List.mem_append.mp hr with hr | hr
      · exact h.notCrossed r hr
      · rw [List.mem_singleton.mp hr]
    · have hfront := hsub hgoing
      rw [hp] at hfront
      rw [hp']
      exact List.cons_sublist_cons.mp hfront
    · rw [hopen, hgoing] at hclosed
      cases hclosed

/-- A step that meets the condition keeps the responses uncrossed. -/
theorem downlinkInv_step {s s' : Downlink} {e : Ev} (h : DownlinkInv s) (hok : s.NoLateResponse e)
    (hs : s.step e = some s') : DownlinkInv s' := by
  cases e with
  | tick ms =>
    cases hs
    exact ⟨h.notCrossed, h.responses, h.ordered, h.sent, h.sublist, h.ended⟩
  | command text =>
    simp only [step] at hs
    split at hs
    case h_1 =>
      cases hs
      exact h
    case h_2 session out hsend =>
      cases hs
      exact h.command hsend
  | response frame => exact h.response hs
  | handle => exact h.handle hok hs
  | timeout id =>
    simp only [step] at hs
    split at hs
    case isTrue =>
      cases hs
      have hsub : (pending { s with session := (s.session.commandTimedOut id).1 }).Sublist
          s.pending := List.Sublist.map _ List.filter_sublist
      exact ⟨h.notCrossed, h.responses, h.ordered, h.sent, fun hopen => hsub.trans (h.sublist hopen),
        fun hclosed j hj hmem => h.ended hclosed j hj (hsub.subset hmem)⟩
    case isFalse => cases hs
  | close =>
    cases hs
    exact ⟨h.notCrossed, h.responses, h.ordered, h.sent, fun _ => List.nil_sublist _,
      fun _ _ _ => List.not_mem_nil⟩

/-- **The condition is exact**: a response is resolved to its own command if and only if it
is not a late one that finds another command waiting. -/
theorem notCrossed_step_iff {s s' : Downlink} {e : Ev} (h : DownlinkInv s)
    (hs : s.step e = some s') : s'.NotCrossed ↔ s.NoLateResponse e := by
  refine ⟨fun hnc => ?_, fun hok => (downlinkInv_step h hok hs).notCrossed⟩
  cases e with
  | tick ms => trivial
  | command text => trivial
  | response frame => trivial
  | timeout id => trivial
  | close => trivial
  | handle =>
    obtain ⟨id, frame, later, harrived, -, -, -, -, hcase⟩ := step_handle h hs
    intro id' frame' later' harrived' hnot
    rw [harrived] at harrived'
    cases harrived'
    rcases hcase with ⟨hp, -, -⟩ | ⟨p, ps, text, hp, -, hres⟩
    · exact hp
    · have hpid : p = id := by
        refine hnc ⟨p, id, text⟩ ?_
        rw [hres]
        exact List.mem_append_right _ (List.mem_singleton_self _)
      rw [hp, hpid] at hnot
      exact absurd List.mem_cons_self hnot

/-- **Downlink replies are not crossed**, if no response to a timed-out command is handled
while another command is pending. -/
theorem notCrossed_of_run {imei : String} {es : List Ev} {s : Downlink}
    (hrun : Run step NoLateResponse (init imei) es s) : s.NotCrossed :=
  (hrun.invariant (downlinkInv_init imei)
    fun _ _ _ h hok hs => downlinkInv_step h hok hs).notCrossed

/-- The reply of a device to `setdigout 1`. -/
def sampleResponse : Buffer := encodeResponse "DOUT1:1 Timeout:INFINITY"

theorem sampleResponse_text : responseText sampleResponse = some "DOUT1:1 Timeout:INFINITY" := by
  decide +kernel

/-- A response that is handled after its timeout, with no other command pending, is dropped, and
the next command gets its own response. -/
theorem late_response_dropped : ∃ (es : List Ev) (s : Downlink),
    Run step NoLateResponse (init "356307042441013") es s ∧
      s.resolved = [⟨1, 1, "DOUT1:1 Timeout:INFINITY"⟩] ∧ s.NotCrossed := by
  classical
  obtain ⟨s, hrun, hres⟩ : ∃ s, Run step NoLateResponse (init "356307042441013")
      [.command "setdigout 1", .tick 30000, .response sampleResponse, .timeout 0, .handle,
        .command "setdigout 1", .response sampleResponse, .handle] s ∧
      s.resolved = [⟨1, 1, "DOUT1:1 Timeout:INFINITY"⟩] := by
    apply Run.exists_of_foldl
    simp [step, init, Session.sendCommand, Session.imei, Session.commandTimedOut,
      Session.timeoutMs, sampleResponse_text, responseText_spec sampleResponse_text, resolutions,
      NoLateResponse, pending]
    intro id _ _ hid _ _
    exact hid.symm
  exact ⟨_, s, hrun, hres, notCrossed_of_run hrun⟩

/-- The late response to a timed-out `setdigout 1` resolves the `getinfo` sent after it; it makes no
difference that it arrived before the timer fired, as long as the chain came to it later. -/
theorem late_response_crossed : ¬ ∀ (imei : String) (es : List Ev) (s : Downlink),
    Run step (fun _ _ => True) (init imei) es s → s.NotCrossed := by
  intro hclaim
  classical
  obtain ⟨s, hrun, hres⟩ : ∃ s, Run step (fun _ _ => True) (init "356307042441013")
      [.command "setdigout 1", .tick 30000, .response sampleResponse, .timeout 0,
        .command "getinfo", .handle] s ∧
      s.resolved = [⟨1, 0, "DOUT1:1 Timeout:INFINITY"⟩] := by
    apply Run.exists_of_foldl
    simp [step, init, Session.sendCommand, Session.imei, Session.commandTimedOut,
      Session.timeoutMs, sampleResponse_text, responseText_spec sampleResponse_text, resolutions]
  have hbad := hclaim _ _ s hrun ⟨1, 0, "DOUT1:1 Timeout:INFINITY"⟩ (by rw [hres]; simp)
  cases hbad

end Downlink

end FleetTracking.Ingestion
