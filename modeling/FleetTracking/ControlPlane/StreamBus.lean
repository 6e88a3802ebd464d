import FleetTracking.Lib.ConsumerGroup
import FleetTracking.Lib.JsMap
import FleetTracking.Lib.Transition

/-!
# The Telemetry Stream

`RedisStreamBus` reads the stream that ingestion writes to, as a consumer group, hands each batch to
its handler and acknowledges it when the handler has resolved. The handler may resolve or reject at
any time, replies may get lost, and the process may crash and be started again.

1. `Loop`: where a loop stands; `BusEvent`, `Bus.step`: what can happen to the bus.
2. `moves_of_step`: the entries that a step moves. `BusInv`: every entry that was delivered is
   handled, in a handler or given up, and only one of these.
3. `not_willReturn`: a delivered entry never comes back. `AtLeastOnce`; `at_least_once_iff`.
4. `at_least_once_of_quiet`: with one loop at a time, as long as no batch is given up.
-/

namespace FleetTracking.ControlPlane

open Transition ConsumerGroup

/-! ## The bus -/

/-- A message as the stream has it; a missing field is `undefined`. -/
structure StreamMessage where
  imei : Option String
  ts : Option String
  data : Option String

/-- `fieldsToObject`: names and values alternate. -/
def fieldsToObject (o : JsMap String String) : List String → JsMap String String
  | name :: value :: rest => fieldsToObject (o.set name value) rest
  | _ => o

/-- The message of an entry. -/
def streamMessage (fields : List String) : StreamMessage :=
  let obj := fieldsToObject JsMap.empty fields
  ⟨obj.get "imei", obj.get "ts", obj.get "data"⟩

/-- Where a call of `start`, or the loop that it has begun, stands. -/
inductive Loop where
  -- `start` awaits the reply to `XGROUP CREATE`.
  | creating
  -- The loop is about to look at `running`.
  | checking
  -- It awaits the reply to `XREADGROUP`.
  | reading
  -- It awaits the handler.
  | handling (ids : List Nat) (batch : List StreamMessage)
  -- It awaits the reply to `XACK`.
  | acking (ids : List Nat)
  -- A read that was sent by a process which has crashed since.
  | orphaned

/-- The ids of the entries that a loop has in the handler. -/
def Loop.inHandler : Loop → List Nat
  | .handling ids _ => ids
  | _ => []

/-- A loop or call of the present process. -/
def Loop.live : Loop → Bool
  | .orphaned => false
  | _ => true

/-- What a crash leaves of a loop. -/
def Loop.crash : Loop → Option Loop
  | .reading => some .orphaned
  | .orphaned => some .orphaned
  | _ => none

/-- The stream, the process, and two lists that are kept for the proofs: the entries whose batch was
handled, and those whose batch was given up. -/
structure Bus where
  stream : Stream (List String)
  running : Bool
  loops : List Loop
  handled : List Nat
  lost : List Nat

namespace Bus

/-- The ids of all entries in handlers. -/
def inHandlers (s : Bus) : List Nat := s.loops.flatMap Loop.inHandler

/-- Nothing has happened. -/
def init : Bus := ⟨Stream.empty, false, [], [], []⟩

end Bus

/-- What can happen; the loops and calls of `start` are counted from 0. -/
inductive BusEvent where
  -- Ingestion adds an entry.
  | added (fields : List String)
  -- `start` is called.
  | startCalled
  -- `XGROUP CREATE` is executed.
  | groupCreated (i : Nat)
  -- The reply is there: OK, or an error with `BUSYGROUP`. The loop sends its first read.
  | started (i : Nat)
  -- Another error; `start` throws.
  | startFailed (i : Nat)
  -- The loop looks at `running`, and sends a read or ends.
  | checked (i : Nat)
  -- The read returns entries, or nothing after the time it blocks for.
  | replied (i : Nat)
  | timedOut (i : Nat)
  -- The read is executed, and its reply gets lost; or it is not executed. The loop ends.
  | replyLost (i : Nat)
  | readFailed (i : Nat)
  -- The handler resolves or rejects. When it rejects, the loop ends.
  | resolved (i : Nat)
  | rejected (i : Nat)
  -- The reply to `XACK` is there, or an error, whether it was executed or not.
  | acked (i : Nat)
  | ackFailed (i : Nat) (executed : Bool)
  -- `stop` is called.
  | stopped
  -- The process crashes.
  | crashed

namespace Bus

/-- `COUNT`. -/
def count : Nat := 200

/-- The loop is replaced. -/
def setLoop (s : Bus) (i : Nat) (l : Loop) : Bus := { s with loops := s.loops.set i l }

/-- The loop is gone. -/
def endLoop (s : Bus) (i : Nat) : Bus := { s with loops := s.loops.eraseIdx i }

/-- One step of the bus. -/
def step (s : Bus) : BusEvent → Option Bus
  | .added fields => some { s with stream := s.stream.add fields }
  | .startCalled => some { s with loops := s.loops ++ [.creating] }
  | .groupCreated i =>
    match s.loops[i]? with
    | some .creating => some { s with stream := s.stream.create }
    | _ => none
  | .started i =>
    match s.loops[i]? with
    | some .creating =>
      if s.stream.group.isSome then some { s.setLoop i .reading with running := true } else none
    | _ => none
  | .startFailed i =>
    match s.loops[i]? with
    | some .creating => some (s.endLoop i)
    | _ => none
  | .checked i =>
    match s.loops[i]? with
    | some .checking => if s.running then some (s.setLoop i .reading) else some (s.endLoop i)
    | _ => none
  | .replied i =>
    match s.loops[i]? with
    | some .reading =>
      let entries := s.stream.unread count
      if entries.isEmpty then none
      else
        let batch := entries.map fun e => streamMessage e.2
        some { s.setLoop i (.handling (entries.map Prod.fst) batch) with
          stream := s.stream.readNew count }
    | _ => none
  | .timedOut i =>
    match s.loops[i]? with
    | some .reading =>
      if (s.stream.unread count).isEmpty then some (s.setLoop i .checking) else none
    | _ => none
  | .replyLost i =>
    match s.loops[i]? with
    | some .reading | some .orphaned =>
      some { s.endLoop i with
        stream := s.stream.readNew count
        lost := s.lost ++ (s.stream.unread count).map Prod.fst }
    | _ => none
  | .readFailed i =>
    match s.loops[i]? with
    | some .reading | some .orphaned => some (s.endLoop i)
    | _ => none
  | .resolved i =>
    match s.loops[i]? with
    | some (.handling ids _) => some { s.setLoop i (.acking ids) with handled := s.handled ++ ids }
    | _ => none
  | .rejected i =>
    match s.loops[i]? with
    | some (.handling ids _) => some { s.endLoop i with lost := s.lost ++ ids }
    | _ => none
  | .acked i =>
    match s.loops[i]? with
    | some (.acking ids) => some { s.setLoop i .checking with stream := s.stream.acknowledge ids }
    | _ => none
  | .ackFailed i executed =>
    match s.loops[i]? with
    | some (.acking ids) =>
      some { s.endLoop i with
        stream := if executed then s.stream.acknowledge ids else s.stream }
    | _ => none
  | .stopped => some { s with running := false }
  | .crashed => some { s with
      running := false, loops := s.loops.filterMap Loop.crash, lost := s.lost ++ s.inHandlers }

/-! ## What a step does -/

variable {s s' : Bus} {ev : BusEvent} {i : Nat} {l : Loop}

/-- A loop, and those before and after it. -/
private theorem exists_around {loops : List Loop} (h : loops[i]? = some l) :
    ∃ before after, loops = before ++ l :: after ∧
      (∀ l', loops.set i l' = before ++ l' :: after) ∧ loops.eraseIdx i = before ++ after := by
  obtain ⟨hi, rfl⟩ := List.getElem?_eq_some_iff.mp h
  refine ⟨loops.take i, loops.drop (i + 1), ?_, fun l' => ?_, ?_⟩
  · rw [← List.drop_eq_getElem_cons hi, List.take_append_drop]
  · rw [List.set_eq_take_append_cons_drop, if_pos hi]
  · exact List.eraseIdx_eq_take_drop_succ ..

/-- Replacing a loop changes what is in handlers by what the two have in theirs. -/
theorem count_setLoop (h : s.loops[i]? = some l) (l' : Loop) (id : Nat) :
    (s.setLoop i l').inHandlers.count id + l.inHandler.count id =
      s.inHandlers.count id + l'.inHandler.count id := by
  obtain ⟨before, after, hloops, hset, -⟩ := exists_around h
  simp only [inHandlers, setLoop, hset]
  rw [hloops]
  simp only [List.flatMap_append, List.flatMap_cons, List.count_append]
  omega

theorem count_endLoop (h : s.loops[i]? = some l) (id : Nat) :
    (s.endLoop i).inHandlers.count id + l.inHandler.count id = s.inHandlers.count id := by
  obtain ⟨before, after, hloops, -, herase⟩ := exists_around h
  simp only [inHandlers, endLoop, herase]
  rw [hloops]
  simp only [List.flatMap_append, List.flatMap_cons, List.count_append]
  omega

/-- What a crash leaves has nothing in a handler. -/
theorem inHandler_crash {loops : List Loop} :
    (loops.filterMap Loop.crash).flatMap Loop.inHandler = [] := by
  induction loops with
  | nil => rfl
  | cons l loops ih =>
    cases l <;> simpa [List.filterMap_cons, Loop.crash, Loop.inHandler] using ih

/-- The ids of the entries that a read returns in this step. -/
def returned (s : Bus) : BusEvent → List Nat
  | .replied _ | .replyLost _ => (s.stream.unread count).map Prod.fst
  | _ => []

/-- The ids of the entries whose handler resolves. -/
def settled (s : Bus) : BusEvent → List Nat
  | .resolved i => (s.loops[i]?).elim [] Loop.inHandler
  | _ => []

/-- The ids of the entries that are given up: the handler rejects, the reply with them gets lost, or
the process crashes while it handles them. -/
def givenUp (s : Bus) : BusEvent → List Nat
  | .rejected i => (s.loops[i]?).elim [] Loop.inHandler
  | .replyLost _ => (s.stream.unread count).map Prod.fst
  | .crashed => s.inHandlers
  | _ => []

/-- What a step moves: entries `new` are delivered, `done` handled and `gone` given up; the others
stay where they are. -/
structure Moves (s s' : Bus) (new done gone : List Nat) : Prop where
  delivered : s'.stream.delivered = s.stream.delivered ++ new
  next : s.stream.next ≤ s'.stream.next
  handled : s'.handled = s.handled ++ done
  lost : s'.lost = s.lost ++ gone
  inHandlers : ∀ id, s'.inHandlers.count id + done.count id + gone.count id =
    s.inHandlers.count id + new.count id

/-- A step that moves no entry. -/
theorem Moves.still (hdelivered : s'.stream.delivered = s.stream.delivered)
    (hnext : s.stream.next ≤ s'.stream.next) (hhandled : s'.handled = s.handled)
    (hlost : s'.lost = s.lost)
    (hin : ∀ id, s'.inHandlers.count id = s.inHandlers.count id) : Moves s s' [] [] [] where
  delivered := by rw [hdelivered, List.append_nil]
  next := hnext
  handled := by rw [hhandled, List.append_nil]
  lost := by rw [hlost, List.append_nil]
  inHandlers id := by simpa using hin id

theorem moves_of_step (h : s.step ev = some s') :
    Moves s s' (s.returned ev) (s.settled ev) (s.givenUp ev) := by
  unfold step at h
  -- one case for each event; what an event leaves alone is closed by `Moves.still`
  cases ev with
  | added fields =>
    obtain rfl := Option.some.inj h
    exact .still rfl (Nat.le_refl _) rfl rfl fun _ => rfl
  | startCalled =>
    obtain rfl := Option.some.inj h
    refine .still rfl (Nat.le_refl _) rfl rfl fun id => ?_
    simp [inHandlers, Loop.inHandler]
  -- creating the group changes no entry and no loop
  | groupCreated i =>
    simp only at h
    split at h
    case h_1 hi =>
      obtain rfl := Option.some.inj h
      exact .still (Stream.delivered_create _) (Stream.next_le_create _) rfl rfl fun _ => rfl
    case h_2 => cases h
  | started i =>
    simp only at h
    split at h
    case h_1 hi =>
      obtain ⟨-, hs⟩ := Option.ite_none_right_eq_some.mp h
      obtain rfl := Option.some.inj hs
      refine .still rfl (Nat.le_refl _) rfl rfl fun id => ?_
      exact count_setLoop hi .reading id
    case h_2 => cases h
  -- the loop that did not start had nothing in its handler
  | startFailed i =>
    simp only at h
    split at h
    case h_1 hi =>
      obtain rfl := Option.some.inj h
      exact .still rfl (Nat.le_refl _) rfl rfl (count_endLoop hi)
    case h_2 => cases h
  -- the loop reads again, or ends because it was stopped
  | checked i =>
    simp only at h
    split at h
    case h_1 hi =>
      split at h
      case isTrue =>
        obtain rfl := Option.some.inj h
        exact .still rfl (Nat.le_refl _) rfl rfl (count_setLoop hi .reading)
      case isFalse =>
        obtain rfl := Option.some.inj h
        exact .still rfl (Nat.le_refl _) rfl rfl (count_endLoop hi)
    case h_2 => cases h
  -- a reply with entries: they are delivered, and the handler gets the batch
  | replied i =>
    simp only at h
    split at h
    case h_1 hi =>
      obtain ⟨-, hs⟩ := Option.ite_none_left_eq_some.mp h
      obtain rfl := Option.some.inj hs
      let batch := (s.stream.unread count).map fun e => streamMessage e.2
      exact ⟨Stream.delivered_readNew _ _, Stream.next_le_readNew _ _, (List.append_nil _).symm,
        (List.append_nil _).symm,
        count_setLoop hi (.handling ((s.stream.unread count).map Prod.fst) batch)⟩
    case h_2 => cases h
  | timedOut i =>
    simp only at h
    split at h
    case h_1 hi =>
      obtain ⟨-, hs⟩ := Option.ite_none_right_eq_some.mp h
      obtain rfl := Option.some.inj hs
      exact .still rfl (Nat.le_refl _) rfl rfl (count_setLoop hi .checking)
    case h_2 => cases h
  | replyLost i =>
    -- the entries count as delivered, but the loop has ended without having seen them
    have hlost : ∀ {l : Loop}, s.loops[i]? = some l → l.inHandler = [] →
        Moves s { s.endLoop i with
          stream := s.stream.readNew count
          lost := s.lost ++ (s.stream.unread count).map Prod.fst }
          ((s.stream.unread count).map Prod.fst) [] ((s.stream.unread count).map Prod.fst) := by
      intro l hi hnone
      refine ⟨Stream.delivered_readNew _ _, Stream.next_le_readNew _ _, by simp [endLoop], rfl,
        fun id => ?_⟩
      have hcount := count_endLoop hi id
      rw [hnone] at hcount
      simpa [inHandlers] using hcount
    simp only at h
    split at h
    case h_1 hi =>
      obtain rfl := Option.some.inj h
      exact hlost hi rfl
    case h_2 hi =>
      obtain rfl := Option.some.inj h
      exact hlost hi rfl
    case h_3 => cases h
  -- the read fails with nothing delivered
  | readFailed i =>
    simp only at h
    split at h
    case h_1 hi =>
      obtain rfl := Option.some.inj h
      exact .still rfl (Nat.le_refl _) rfl rfl (count_endLoop hi)
    case h_2 hi =>
      obtain rfl := Option.some.inj h
      exact .still rfl (Nat.le_refl _) rfl rfl (count_endLoop hi)
    case h_3 => cases h
  -- the handler has resolved: the batch is settled and still to be acknowledged
  | resolved i =>
    simp only at h
    split at h
    case h_1 ids batch hi =>
      obtain rfl := Option.some.inj h
      have hids : s.settled (.resolved i) = ids := by rw [settled, hi]; rfl
      rw [hids]
      exact ⟨(List.append_nil _).symm, Nat.le_refl _, rfl, (List.append_nil _).symm,
        count_setLoop hi (.acking ids)⟩
    case h_2 => cases h
  -- the handler has rejected: the loop ends, and nobody reads the batch again
  | rejected i =>
    simp only at h
    split at h
    case h_1 ids batch hi =>
      obtain rfl := Option.some.inj h
      have hids : s.givenUp (.rejected i) = ids := by rw [givenUp, hi]; rfl
      rw [hids]
      exact ⟨(List.append_nil _).symm, Nat.le_refl _, (List.append_nil _).symm, rfl,
        count_endLoop hi⟩
    case h_2 => cases h
  | acked i =>
    simp only at h
    split at h
    case h_1 ids hi =>
      obtain rfl := Option.some.inj h
      exact .still (Stream.delivered_acknowledge _ _) (Stream.next_acknowledge _ _).ge rfl rfl
        (count_setLoop hi .checking)
    case h_2 => cases h
  | ackFailed i executed =>
    simp only at h
    split at h
    case h_1 ids hi =>
      obtain rfl := Option.some.inj h
      refine .still ?_ ?_ rfl rfl (count_endLoop hi)
      -- an acknowledgement that fails may have been executed all the same
      · cases executed with
        | true => exact Stream.delivered_acknowledge _ _
        | false => rfl
      · cases executed with
        | true => exact (Stream.next_acknowledge _ _).ge
        | false => exact Nat.le_refl _
    case h_2 => cases h
  | stopped =>
    obtain rfl := Option.some.inj h
    exact .still rfl (Nat.le_refl _) rfl rfl fun _ => rfl
  -- all loops are gone, with what their handlers held
  | crashed =>
    obtain rfl := Option.some.inj h
    refine ⟨(List.append_nil _).symm, Nat.le_refl _, (List.append_nil _).symm, rfl, fun id => ?_⟩
    simp [inHandlers, inHandler_crash, settled, returned, givenUp]

/-! ## Where a delivered entry is -/

/-- An entry that was delivered is handled, in a handler or given up, and only one of these. -/
def BusInv (s : Bus) : Prop :=
  ∀ id, s.stream.delivered.count id =
    s.handled.count id + s.inHandlers.count id + s.lost.count id

theorem BusInv.init : BusInv init := fun _ => rfl

theorem BusInv.step (hinv : BusInv s) (h : s.step ev = some s') : BusInv s' := by
  have hmoves := moves_of_step h
  intro id
  have hbefore := hinv id
  have hin := hmoves.inHandlers id
  rw [hmoves.delivered, hmoves.handled, hmoves.lost]
  simp only [List.count_append]
  omega

/-- An entry is in one place. -/
theorem BusInv.count_le_one (hinv : BusInv s) (id : Nat) :
    s.handled.count id + s.inHandlers.count id + s.lost.count id ≤ 1 := by
  rw [← hinv id]
  exact List.nodup_iff_count_le_one.mp s.stream.nodup_delivered id

/-! ## What comes back -/

/-- The loop sends a read. -/
def issues (s : Bus) : BusEvent → Prop
  | .started _ => True
  | .checked _ => s.running = true
  | _ => False

/-- A later read returns the entry, in some continuation. -/
def WillReturn (s : Bus) (id : Nat) : Prop :=
  ∃ es s₁ ev, Run step (fun _ _ => True) s es s₁ ∧ (step s₁ ev).isSome ∧ id ∈ returned s₁ ev

/-- **What is delivered never comes back.** -/
theorem not_willReturn {id : Nat} (h : id ∈ s.stream.delivered) : ¬ WillReturn s id := by
  rintro ⟨es, s₁, ev, hrun, -, hid⟩
  have hnext : id < s₁.stream.next := by
    refine hrun.invariant (I := fun t => id < t.stream.next)
      (Stream.lt_next_of_delivered h) fun t ev t' hlt _ hs => ?_
    exact lt_of_lt_of_le hlt (moves_of_step hs).next
  have hunread := Stream.notMem_unread hnext count
  cases ev with
  | replied i => exact hunread hid
  | replyLost i => exact hunread hid
  | _ => cases hid

/-! ## At least once -/

/-- When a read is sent, every entry that was delivered is handled or will be returned again. -/
def AtLeastOnce (s : Bus) (ev : BusEvent) : Prop :=
  s.issues ev → ∀ id ∈ s.stream.delivered, id ∈ s.handled ∨ s.WillReturn id

/-- When a read is sent, no batch has been given up and none is in a handler. -/
def Undisturbed (s : Bus) (ev : BusEvent) : Prop :=
  s.issues ev → s.lost = [] ∧ s.inHandlers = []

theorem BusInv.atLeastOnce_iff (hinv : BusInv s) : s.AtLeastOnce ev ↔ s.Undisturbed ev := by
  refine forall_congr' fun _ => ⟨fun h => ?_, fun ⟨hlost, hin⟩ id hid => Or.inl ?_⟩
  · -- An entry in another place would be in two.
    have hnone : ∀ id, s.lost.count id = 0 ∧ s.inHandlers.count id = 0 := by
      intro id
      have hone := hinv.count_le_one id
      by_cases hid : id ∈ s.stream.delivered
      · have hhandled := (h id hid).resolve_right (not_willReturn hid)
        have hpos := List.count_pos_iff.mpr hhandled
        omega
      · have hzero := hinv id
        rw [List.count_eq_zero.mpr hid] at hzero
        omega
    exact ⟨List.eq_nil_iff_forall_not_mem.mpr fun id => List.count_eq_zero.mp (hnone id).1,
      List.eq_nil_iff_forall_not_mem.mpr fun id => List.count_eq_zero.mp (hnone id).2⟩
  · have hcount := hinv id
    have hpos := List.count_pos_iff.mpr hid
    rw [hlost, hin, List.count_nil] at hcount
    exact List.count_pos_iff.mp (by omega)

/-- **When every entry is handled at least once.** -/
theorem at_least_once_iff {es : List BusEvent} :
    Run step AtLeastOnce init es s ↔ Run step Undisturbed init es s :=
  have hstep : ∀ {ok : Bus → BusEvent → Prop} (s : Bus) (ev : BusEvent) (s' : Bus),
      BusInv s → ok s ev → s.step ev = some s' → BusInv s' := fun _ _ _ hinv _ hs => hinv.step hs
  ⟨Run.mono_of_invariant .init hstep fun _ _ _ hinv h _ => hinv.atLeastOnce_iff.mp h,
    Run.mono_of_invariant .init hstep fun _ _ _ hinv h _ => hinv.atLeastOnce_iff.mpr h⟩

/-- **A rejected batch is given up**: it stays pending, and the restarted loop reads on. -/
theorem rejected_batch_is_lost :
    ∃ es s ev, Run step (fun _ _ => True) init es s ∧ (s.step ev).isSome ∧ ¬ AtLeastOnce s ev := by
  refine ⟨[.startCalled, .groupCreated 0, .started 0, .added ["imei", "356307042441013"],
    .replied 0, .rejected 0, .crashed, .startCalled, .groupCreated 0], _, .started 0,
    Run.of_foldlM rfl, rfl, fun h => ?_⟩
  have hdelivered : 0 ∈ [0] := List.mem_singleton.mpr rfl
  rcases h trivial 0 hdelivered with hhandled | hreturn
  · cases hhandled
  · exact not_willReturn hdelivered hreturn

/-! ## One loop at a time -/

/-- How many loops and calls of `start` the process has. -/
def live (s : Bus) : Nat := s.loops.countP Loop.live

theorem live_setLoop (h : s.loops[i]? = some l) (hl : l.live = true) (l' : Loop) :
    (s.setLoop i l').live ≤ s.live := by
  obtain ⟨before, after, hloops, hset, -⟩ := exists_around h
  simp only [live, setLoop, hset]
  rw [hloops]
  simp only [List.countP_append, List.countP_cons, if_pos hl]
  split
  · exact Nat.le_refl _
  · omega

theorem live_endLoop : (s.endLoop i).live ≤ s.live :=
  (List.eraseIdx_sublist _ _).countP_le

/-- A crash leaves none. -/
theorem live_crash {loops : List Loop} : (loops.filterMap Loop.crash).countP Loop.live = 0 := by
  induction loops with
  | nil => rfl
  | cons l loops ih =>
    cases l <;> simpa [List.filterMap_cons, Loop.crash, Loop.live] using ih

/-- Only a call of `start` adds one. -/
theorem live_of_step (h : s.step ev = some s') (hev : ev ≠ .startCalled) : s'.live ≤ s.live := by
  unfold step at h
  -- only `start` adds a loop; the other events change one or end one
  cases ev with
  | startCalled => exact absurd rfl hev
  | added fields | stopped =>
    obtain rfl := Option.some.inj h
    exact Nat.le_refl _
  | groupCreated i =>
    simp only at h
    split at h
    case h_1 hi =>
      obtain rfl := Option.some.inj h
      exact Nat.le_refl _
    case h_2 => cases h
  | started i =>
    simp only at h
    split at h
    case h_1 hi =>
      obtain ⟨-, hs⟩ := Option.ite_none_right_eq_some.mp h
      obtain rfl := Option.some.inj hs
      exact live_setLoop hi rfl .reading
    case h_2 => cases h
  -- the loop reads again, or ends because it was stopped
  | checked i =>
    simp only at h
    split at h
    case h_1 hi =>
      split at h
      case isTrue =>
        obtain rfl := Option.some.inj h
        exact live_setLoop hi rfl .reading
      case isFalse =>
        obtain rfl := Option.some.inj h
        exact live_endLoop
    case h_2 => cases h
  | replied i =>
    simp only at h
    split at h
    case h_1 hi =>
      obtain ⟨-, hs⟩ := Option.ite_none_left_eq_some.mp h
      obtain rfl := Option.some.inj hs
      exact live_setLoop hi rfl _
    case h_2 => cases h
  | timedOut i =>
    simp only at h
    split at h
    case h_1 hi =>
      obtain ⟨-, hs⟩ := Option.ite_none_right_eq_some.mp h
      obtain rfl := Option.some.inj hs
      exact live_setLoop hi rfl .checking
    case h_2 => cases h
  -- a read that throws ends the loop
  | replyLost i | readFailed i =>
    simp only at h
    split at h
    case h_3 => cases h
    all_goals
      obtain rfl := Option.some.inj h
      exact live_endLoop
  | resolved i | acked i =>
    simp only at h
    split at h
    case h_1 hi =>
      obtain rfl := Option.some.inj h
      exact live_setLoop hi rfl _
    case h_2 => cases h
  -- so do the other errors
  | startFailed i | rejected i | ackFailed i executed =>
    simp only at h
    split at h
    case h_1 hi =>
      obtain rfl := Option.some.inj h
      exact live_endLoop
    case h_2 => cases h
  | crashed =>
    obtain rfl := Option.some.inj h
    exact (live_crash).le.trans (Nat.zero_le _)

/-- The loop that sends a read has nothing in the handler, and where it is the only one nothing is
in handlers. -/
theorem inHandlers_of_issues (hlive : s.live ≤ 1) (h : s.step ev = some s')
    (hissues : s.issues ev) : s.inHandlers = [] := by
  have hloop : ∃ (i : Nat) (l : Loop), s.loops[i]? = some l ∧ l.live = true ∧
      l.inHandler = [] := by
    unfold step at h
    cases ev with
    | started j | checked j =>
      simp only at h
      split at h
      case h_1 hj => exact ⟨j, _, hj, rfl, rfl⟩
      case h_2 => cases h
    | _ => cases hissues
  obtain ⟨i, l, hi, hl, hnone⟩ := hloop
  obtain ⟨before, after, hloops, -, -⟩ := exists_around hi
  rw [live, hloops] at hlive
  simp only [List.countP_append, List.countP_cons, if_pos hl] at hlive
  have hothers : ∀ loops : List Loop, loops.countP Loop.live = 0 →
      loops.flatMap Loop.inHandler = [] := by
    refine fun loops hzero => List.flatMap_eq_nil_iff.mpr fun l' hl' => ?_
    have hdead := List.countP_eq_zero.mp hzero l' hl'
    cases l' with
    | handling ids batch => exact absurd rfl hdead
    | _ => rfl
  rw [inHandlers, hloops, List.flatMap_append, List.flatMap_cons, hnone,
    hothers before (by omega), hothers after (by omega)]
  rfl

/-- `start` is called only where the process has no loop, and no batch is given up. -/
def Quiet (s : Bus) (ev : BusEvent) : Prop :=
  (ev = .startCalled → s.live = 0) ∧ s.givenUp ev = []

/-- **At least once, while all goes well.** -/
theorem at_least_once_of_quiet {es : List BusEvent} (h : Run step Quiet init es s) :
    Run step AtLeastOnce init es s := by
  refine at_least_once_iff.mpr ?_
  refine h.mono_of_invariant (I := fun t => t.live ≤ 1 ∧ t.lost = []) ⟨Nat.zero_le _, rfl⟩
    (fun t ev t' ht hquiet hs => ⟨?_, ?_⟩) fun t ev t' ht _ hs hissues =>
      ⟨ht.2, inHandlers_of_issues ht.1 hs hissues⟩
  · by_cases hstart : ev = .startCalled
    · have hnone := hquiet.1 hstart
      subst hstart
      obtain rfl := Option.some.inj hs
      rw [live, List.countP_append, ← live, hnone]
      exact Nat.le_refl _
    · exact (live_of_step hs hstart).trans ht.1
  · rw [(moves_of_step hs).lost, ht.2, hquiet.2, List.append_nil]

end Bus

end FleetTracking.ControlPlane
