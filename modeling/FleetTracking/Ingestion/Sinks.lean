import FleetTracking.Ingestion.AvlMap

/-!
# The Durable Sinks

A packet is acknowledged when the write of its records has resolved. The records are written to an
append-only log and, over a pipeline of Redis commands, to the stream that the control plane reads.

1. `WalSink`, `StreamBusSink`, `CompositeSink`, and the producer that `main.ts` wires.
2. `OnEveryTarget`: a write that resolves has reached both targets.
3. `onEveryTarget_iff`: when it does.
-/

namespace FleetTracking.Ingestion

/-! ## The sinks -/

/-- What one call of `write` does: how its promise settles, the text that it adds to the file of the
log, and the commands that Redis has executed. -/
structure Write where
  result : Except String Unit
  logged : List String
  executed : List (List String)

/-- How the calls that a write makes turn out. -/
structure Fate where
  -- The error that the callback of the log's stream gets.
  err : Option String
  -- How much of its text a write that fails has left in the file.
  left : Nat
  -- The error that `exec` of the pipeline rejects with.
  down : Option String
  -- The error of the command with that number.
  command : Nat → Option String

/-- A sink; of a write, what it does with the records. -/
abbrev Sink := List NormalizedTelemetry → Write

/-- A promise that rejects with an error, if there is one. -/
def settled : Option String → Except String Unit
  | none => .ok ()
  | some message => .error message

namespace WalSink

/-- The lines of the records, as one text. -/
def payload (stringify : NormalizedTelemetry → String) (records : List NormalizedTelemetry) :
    String := "\n".intercalate (records.map stringify) ++ "\n"

def write (stringify : NormalizedTelemetry → String) (fate : Fate) : Sink
  | [] => ⟨.ok (), [], []⟩
  | records =>
    let text := payload stringify records
    ⟨settled fate.err,
      [if fate.err.isNone then text else String.ofList (text.toList.take fate.left)], []⟩

end WalSink

namespace StreamProducer

/-- `XADD` of an entry, with its arguments. -/
def xadd (stream : String) (entry : List (String × String)) : List String :=
  stream :: "*" :: entry.flatMap fun field => [field.1, field.2]

/-- The `[error, result]` pairs that `exec` resolves with, one for each command. -/
def exec (fate : Fate) (commands : List (List String)) :
    Except String (List (Option String × List String)) :=
  match fate.down with
  | some message => .error message
  | none => .ok (commands.zipIdx.map fun c => (fate.command c.2, c.1))

/-- `append` of `main.ts`: the pairs are not looked at. -/
def append (fate : Fate) (stream : String) (entries : List (List (String × String))) : Write :=
  let commands := entries.map (xadd stream)
  { result := do
      let _ ← exec fate commands
      pure ()
    logged := []
    executed := (commands.zipIdx.filter fun c => (fate.command c.2).isNone).map Prod.fst }

end StreamProducer

namespace StreamBusSink

/-- The entry of a record. -/
def entryOf (stringify : NormalizedTelemetry → String) (r : NormalizedTelemetry) :
    List (String × String) :=
  [("imei", r.imei), ("ts", r.ts), ("data", stringify r)]

def write (stringify : NormalizedTelemetry → String) (fate : Fate) (stream : String) : Sink
  | [] => ⟨.ok (), [], []⟩
  | records => StreamProducer.append fate stream (records.map (entryOf stringify))

end StreamBusSink

namespace CompositeSink

/-- `Promise.all`: it resolves when all promises do. Of several that reject, the first one in the
list stands for the first one in time. -/
def all : List (Except String Unit) → Except String Unit
  | [] => .ok ()
  | .ok () :: rest => all rest
  | .error message :: _ => .error message

def write (sinks : List Sink) : Sink := fun records =>
  let writes := sinks.map fun s => s records
  ⟨all (writes.map Write.result), writes.flatMap Write.logged, writes.flatMap Write.executed⟩

theorem all_eq_ok_iff {results : List (Except String Unit)} :
    all results = .ok () ↔ ∀ r ∈ results, r = .ok () := by
  induction results with
  | nil => simp [all]
  | cons r rest ih =>
    cases r with
    | ok u => simp [all, ih]
    | error message => simp [all]

end CompositeSink

/-- The sink of the service: the log, and the stream. -/
def sink (stringify : NormalizedTelemetry → String) (fate : Fate) : Sink :=
  CompositeSink.write [WalSink.write stringify fate, StreamBusSink.write stringify fate "telemetry"]

/-! ## What a resolved write means -/

section Resolved

variable {stringify : NormalizedTelemetry → String} {fate : Fate}
  {records : List NormalizedTelemetry}

/-- The line of a record is in the text that was added to the log. -/
def Write.Logs (w : Write) (line : String) : Prop :=
  ∃ text ∈ w.logged, ∃ before after, text = before ++ (line ++ "\n") ++ after

/-- If the write resolves, every line was accepted by the log and every `XADD` succeeded. -/
def OnEveryTarget (stringify : NormalizedTelemetry → String) (fate : Fate)
    (records : List NormalizedTelemetry) : Prop :=
  (sink stringify fate records).result = .ok () →
    (∀ r ∈ records, (sink stringify fate records).Logs (stringify r)) ∧
      (sink stringify fate records).executed = records.map fun r =>
        StreamProducer.xadd "telemetry" (StreamBusSink.entryOf stringify r)

theorem settled_eq_ok_iff {err : Option String} : settled err = .ok () ↔ err = none := by
  cases err with
  | none => simp [settled]
  | some message => simp [settled]

/-- Each line is in the payload. -/
theorem payload_line {r : NormalizedTelemetry} (h : r ∈ records) :
    ∃ before after, WalSink.payload stringify records = before ++ (stringify r ++ "\n") ++ after := by
  induction records with
  | nil => cases h
  | cons r' rest ih =>
    cases rest with
    | nil =>
      obtain rfl := List.mem_singleton.mp h
      exact ⟨"", "", by simp [WalSink.payload]⟩
    | cons r'' rest =>
      have hpayload : WalSink.payload stringify (r' :: r'' :: rest) =
          stringify r' ++ "\n" ++ WalSink.payload stringify (r'' :: rest) := by
        simp only [WalSink.payload, List.map_cons, String.intercalate_cons_cons,
          String.append_assoc]
      rcases List.mem_cons.mp h with rfl | h
      · exact ⟨"", WalSink.payload stringify (r'' :: rest), by rw [hpayload, String.empty_append]⟩
      · obtain ⟨before, after, heq⟩ := ih h
        exact ⟨stringify r' ++ "\n" ++ before, after, by
          rw [hpayload, heq]
          simp only [String.append_assoc]⟩

/-- The commands of the records. -/
def commandsOf (stringify : NormalizedTelemetry → String) (records : List NormalizedTelemetry) :
    List (List String) :=
  records.map fun r => StreamProducer.xadd "telemetry" (StreamBusSink.entryOf stringify r)

/-- What the service's sink does with records. -/
theorem sink_of_ne_nil (h : records ≠ []) :
    ((sink stringify fate records).result = .ok () ↔ fate.err = none ∧ fate.down = none) ∧
      (fate.err = none → (sink stringify fate records).logged =
        [WalSink.payload stringify records]) ∧
      (sink stringify fate records).executed =
        ((commandsOf stringify records).zipIdx.filter fun c => (fate.command c.2).isNone).map
          Prod.fst := by
  obtain ⟨r, rest, rfl⟩ := List.exists_cons_of_ne_nil h
  refine ⟨?_, fun herr => ?_, ?_⟩
  · have hexec : ∀ commands, (do
        let _ ← StreamProducer.exec fate commands
        pure () : Except String Unit) = settled fate.down := by
      intro commands
      unfold StreamProducer.exec
      cases fate.down with
      | none => rfl
      | some message => rfl
    simp only [sink, CompositeSink.write, WalSink.write, StreamBusSink.write, StreamProducer.append,
      CompositeSink.all_eq_ok_iff, List.map_cons, List.map_nil, List.forall_mem_cons, hexec,
      settled_eq_ok_iff]
    simp
  · simp [sink, CompositeSink.write, WalSink.write, StreamBusSink.write, StreamProducer.append,
      herr]
  · simp [sink, CompositeSink.write, WalSink.write, StreamBusSink.write, StreamProducer.append,
      commandsOf, Function.comp_def]

/-- All commands were executed exactly if none has an error. -/
theorem executed_all_iff {commands : List (List String)} :
    (commands.zipIdx.filter fun c => (fate.command c.2).isNone).map Prod.fst = commands ↔
      ∀ k < commands.length, fate.command k = none := by
  constructor
  · intro h k hk
    have hlength := congrArg List.length h
    rw [List.length_map, ← @List.length_zipIdx _ commands 0] at hlength
    have hall := List.filter_eq_self.mp (List.filter_sublist.eq_of_length hlength)
    have hmem : (commands[k], k) ∈ commands.zipIdx := by
      simp [List.mk_mem_zipIdx_iff_getElem?, hk]
    simpa using hall _ hmem
  · intro h
    have hall : commands.zipIdx.filter (fun c => (fate.command c.2).isNone) = commands.zipIdx := by
      refine List.filter_eq_self.mpr fun c hc => ?_
      have hk := List.snd_lt_of_mem_zipIdx hc
      rw [Nat.add_zero] at hk
      simp [h c.2 hk]
    rw [hall, List.zipIdx_map_fst]

/-- **When a resolved write is on every target**: the write of the log or the whole pipeline fails,
so that the write does not resolve, or no command fails. -/
theorem onEveryTarget_iff (stringify : NormalizedTelemetry → String) (fate : Fate)
    (records : List NormalizedTelemetry) :
    OnEveryTarget stringify fate records ↔
      fate.err ≠ none ∨ fate.down ≠ none ∨ ∀ k < records.length, fate.command k = none := by
  -- nothing to write: every target holds all of it
  by_cases hrecords : records = []
  · subst hrecords
    simp [OnEveryTarget, sink, CompositeSink.write, WalSink.write, StreamBusSink.write]
  obtain ⟨hresult, hlogged, hexecuted⟩ :=
    @sink_of_ne_nil stringify fate records hrecords
  -- the commands executed are all of them when none has answered an error
  have hall := @executed_all_iff fate (commandsOf stringify records)
  rw [commandsOf, List.length_map] at hall
  unfold OnEveryTarget
  rw [hresult, hexecuted, commandsOf, hall]
  constructor
  · intro h
    by_cases herr : fate.err = none
    · by_cases hdown : fate.down = none
      · exact Or.inr (Or.inr (h ⟨herr, hdown⟩).2)
      · exact Or.inr (Or.inl hdown)
    · exact Or.inl herr
  · rintro h ⟨herr, hdown⟩
    refine ⟨fun r hr => ?_, ?_⟩
    · obtain ⟨before, after, heq⟩ := @payload_line stringify records r hr
      exact ⟨WalSink.payload stringify records, by simp [hlogged herr], before, after, heq⟩
    · rcases h with h | h | h
      · exact absurd herr h
      · exact absurd hdown h
      · exact h

/-- **A failed command is not noticed**: the pipeline resolves, and so does the write. -/
theorem failed_command_resolves : ∃ stringify fate records,
    (∀ k, fate.command k = some "OOM command not allowed when used memory > 'maxmemory'.") ∧
      records ≠ [] ∧ (sink stringify fate records).result = .ok () ∧
      (sink stringify fate records).executed = [] ∧ ¬ OnEveryTarget stringify fate records := by
  let record : NormalizedTelemetry := ⟨"356307042441013", "2025-01-01T00:00:00.000Z", 0, 0, 0, 0, 0,
    0, 0, 0, JsMap.empty, JsRecord.empty⟩
  let fate : Fate :=
    ⟨none, 0, none, fun _ => some "OOM command not allowed when used memory > 'maxmemory'."⟩
  refine ⟨fun _ => "{}", fate, [record], fun _ => rfl, List.cons_ne_nil _ _, rfl, rfl, fun h => ?_⟩
  have hexecuted := (h rfl).2
  exact List.cons_ne_nil _ _ hexecuted.symm

end Resolved

end FleetTracking.Ingestion
