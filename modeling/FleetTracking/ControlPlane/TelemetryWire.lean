import FleetTracking.ControlPlane.MessageText
import FleetTracking.ControlPlane.PositionColumns
import FleetTracking.ControlPlane.StreamBus
import FleetTracking.Ingestion.Recovery
import FleetTracking.Ingestion.Sinks
import FleetTracking.Lib.JsonText
import FleetTracking.Lib.Lines

/-!
# From the Record of a Tracker to its Position

Ingestion writes a normalized record as JSON, into the stream and into its log. The consumer
parses the entry of the stream and makes a position of it.

1. `telemetryJson`, `stringify`: the text of a record.
2. `recordOf_telemetry`: what is parsed of it.
3. `reported`: the position that a record of a tracker stands for, without any text.
4. `reports_carried`: the positions that are inserted are those, as doubles.
5. `log_recovered`: what can be read of a log that was cut off.
-/

namespace FleetTracking.ControlPlane

open Async Ingestion Protocol

/-! ## The text of a record -/

/-- The value that `normalize` returns, with its properties in their order. -/
def telemetryJson (r : NormalizedTelemetry) : Json :=
  .obj
    [("imei", .str r.imei), ("ts", .str r.ts), ("latitude", .num (degrees r.latitude)),
      ("longitude", .num (degrees r.longitude)), ("altitude", .num r.altitude),
      ("heading", .num r.heading), ("speedKph", .num r.speedKph),
      ("satellites", .num r.satellites), ("priority", .num r.priority),
      ("eventId", .num r.eventId),
      ("fields", .obj (r.fields.entries.map fun e => (e.1, .num e.2))),
      ("attrs", .obj (r.attrs.entries.map fun e => (toString e.1, .num e.2)))]

/-- `JSON.stringify(r)`. -/
def stringify (r : NormalizedTelemetry) : String := Json.stringify (telemetryJson r)

/-- The message that the consumer's bus makes of the entry of a record. -/
def received (r : NormalizedTelemetry) : StreamMessage :=
  streamMessage ((StreamProducer.xadd "telemetry" (StreamBusSink.entryOf stringify r)).drop 2)

/-- A record with every number as it is printed. -/
def Normalized.printed (n : Normalized) : Normalized where
  imei := n.imei
  ts := n.ts
  latitude := Double.printed n.latitude
  longitude := Double.printed n.longitude
  altitude := Double.printed n.altitude
  heading := Double.printed n.heading
  speedKph := Double.printed n.speedKph
  satellites := Double.printed n.satellites
  fields := n.fields.entries.foldl (fun m e => m.set e.1 (Double.printed e.2)) JsMap.empty
  attrs := n.attrs.map fun e => (e.1, Double.printed e.2)

theorem printedMembers_num {α : Type} (f : α → String) (g : α → ℚ) (l : List α) :
    Json.printedMembers (l.map fun e => (f e, .num (g e))) =
      l.map fun e => (f e, .num (Double.printed (g e))) := by
  induction l with
  | nil => rfl
  | cons e l ih => rw [List.map_cons, Json.printedMembers, ih, Json.printed, List.map_cons]

theorem asNumbers_num {α : Type} (f : α → String) (g : α → ℚ) (l : List α) :
    Json.asNumbers (.obj (l.map fun e => (f e, .num (g e)))) = some (l.map fun e => (f e, g e)) := by
  rw [Json.asNumbers, List.mapM_map]
  induction l with
  | nil => rfl
  | cons e l ih =>
    rw [List.mapM_cons, ih]
    rfl

/-- The text of a record is read as the record, with every number as it is printed. -/
theorem recordOf_telemetry (r : NormalizedTelemetry) :
    recordOf (Json.printed (telemetryJson r)) = some (normalizedOf r).printed := by
  have hfields := asNumbers_num Prod.fst (fun e : String × ℚ => Double.printed e.2) r.fields.entries
  have hattrs := asNumbers_num (fun e : Nat × ℚ => Nat.repr e.1) (fun e => Double.printed e.2)
    r.attrs.entries
  simp only [recordOf, telemetryJson, Json.printed, Json.printedMembers, printedMembers_num,
    Json.property, List.reverse_cons, List.reverse_nil, List.nil_append, List.cons_append,
    List.find?_cons, List.find?_nil]
  simp [Json.asStr, Json.asNum, hfields, hattrs, normalizedOf, Normalized.printed, List.foldl_map,
    Function.comp_def]

/-! ## What a record stands for -/

/-- The lines of some records. -/
def linesOf (tels : List NormalizedTelemetry) : List Char :=
  Lines.flatten (tels.map fun tel => (stringify tel).toList)

/-- The file of the log and its stream, as one process uses them. A write that fails destroys the
stream; `torn` is that it has left a part of its text only. -/
structure WalFile where
  text : List Char
  -- The records of the writes that have resolved.
  accepted : List NormalizedTelemetry
  destroyed : Bool
  torn : Bool

namespace WalFile

def empty : WalFile := ⟨[], [], false, false⟩

/-- How a write turns out on the stream. A destroyed one rejects every write; of those that it had
in its buffer the file may have what comes next, as long as nothing before it is missing. -/
def fateOf (f : WalFile) (fate : Fate) : Fate :=
  { fate with
    err := if f.destroyed then
        some (fate.err.getD "Cannot call write after a stream was destroyed")
      else fate.err
    left := if f.torn then 0 else fate.left }

/-- A write of some records. -/
def write (f : WalFile) (w : Fate × List NormalizedTelemetry) : WalFile :=
  let written := WalSink.write stringify (f.fateOf w.1) w.2
  let text := written.logged.flatMap String.toList
  { text := f.text ++ text
    accepted := if written.result.isOk then f.accepted ++ w.2 else f.accepted
    destroyed := f.destroyed || !written.result.isOk
    torn := f.torn || text ≠ linesOf w.2 }

/-- The file after some writes. -/
def after (writes : List (Fate × List NormalizedTelemetry)) : WalFile := writes.foldl write empty

end WalFile

/-- The records of the complete lines of a text, one JSON value in each line. -/
def readLog (text : List Char) : List (Option Normalized) :=
  (Lines.complete text).map fun line => (Json.parse (String.ofList line)).bind recordOf

/-- The text of the lines of a write. -/
theorem payload_toList (tel : NormalizedTelemetry) (tels : List NormalizedTelemetry) :
    (WalSink.payload stringify (tel :: tels)).toList = linesOf (tel :: tels) := by
  unfold linesOf
  induction tels generalizing tel with
  | nil => simp [WalSink.payload, Lines.flatten]
  | cons tel' tels ih =>
    have hsplit : WalSink.payload stringify (tel :: tel' :: tels) =
        stringify tel ++ "\n" ++ WalSink.payload stringify (tel' :: tels) := by
      simp only [WalSink.payload, List.map_cons, String.intercalate_cons_cons, String.append_assoc]
    rw [hsplit, String.toList_append, ih, String.toList_append]
    rfl

theorem linesOf_append (tels tels' : List NormalizedTelemetry) :
    linesOf (tels ++ tels') = linesOf tels ++ linesOf tels' := by
  simp only [linesOf, Lines.flatten, List.map_append, List.flatMap_append]

/-- What a write adds to the file: its lines, or the beginning of them. -/
theorem logged_eq (fate : Fate) (records : List NormalizedTelemetry) :
    (WalSink.write stringify fate records).logged.flatMap String.toList =
      if fate.err.isNone then linesOf records else (linesOf records).take fate.left := by
  cases records with
  | nil => simp [WalSink.write, linesOf, Lines.flatten]
  | cons tel tels =>
    simp only [WalSink.write, ← payload_toList]
    split_ifs with herr
    · simp
    · simp

/-- Nothing is written for no records. -/
theorem result_isOk (fate : Fate) (records : List NormalizedTelemetry) :
    (WalSink.write stringify fate records).result.isOk = true ↔
      records = [] ∨ fate.err = none := by
  cases records with
  | nil => simp [WalSink.write, Except.isOk, Except.toBool]
  | cons tel tels =>
    cases herr : fate.err with
    | none => simp [WalSink.write, herr, settled, Except.isOk, Except.toBool]
    | some message => simp [WalSink.write, herr, settled, Except.isOk, Except.toBool]

/-! ### The writes of a process -/

namespace WalFile

/-- The file is the beginning of the lines of all records, in the order of the writes, and the
records that were accepted are the first ones. -/
structure Inv (asked : List NormalizedTelemetry) (f : WalFile) : Prop where
  text : f.text <+: linesOf asked
  whole : f.torn = false → f.text = linesOf asked
  first : f.accepted <+: asked
  going : f.destroyed = false → f.accepted = asked ∧ f.torn = false
  kept : linesOf f.accepted <+: f.text

/-- **One write keeps the invariant.** -/
theorem inv_write {asked : List NormalizedTelemetry} {f : WalFile} (h : Inv asked f)
    (w : Fate × List NormalizedTelemetry) : Inv (asked ++ w.2) (f.write w) := by
  obtain ⟨fate, records⟩ := w
  have hlogged := logged_eq (f.fateOf fate) records
  have hresult := result_isOk (f.fateOf fate) records
  unfold write
  generalize WalSink.write stringify (f.fateOf fate) records = written at hlogged hresult
  dsimp only
  rw [hlogged]
  by_cases hok : written.result.isOk = true
  case pos =>
    -- nothing was to be written, or the stream takes it
    have hpart : (if (f.fateOf fate).err.isNone then linesOf records else
        (linesOf records).take (f.fateOf fate).left) = linesOf records := by
      rcases hresult.mp hok with rfl | herr
      · simp [linesOf, Lines.flatten]
      · rw [herr]
        rfl
    have hgoing : records = [] ∨ f.destroyed = false := by
      refine (hresult.mp hok).imp id fun herr => ?_
      cases hdestroyed : f.destroyed with
      | false => rfl
      | true => simp [fateOf, hdestroyed] at herr
    rw [hpart, if_pos hok, hok]
    rcases hgoing with rfl | hgoing
    · simpa [linesOf, Lines.flatten] using h
    · obtain ⟨haccepted, htorn⟩ := h.going hgoing
      have htext : f.text ++ linesOf records = linesOf (asked ++ records) := by
        rw [h.whole htorn, linesOf_append]
      exact
        { text := htext ▸ List.prefix_refl _
          whole := fun _ => htext
          first := haccepted ▸ List.prefix_refl _
          going := fun _ => ⟨haccepted ▸ rfl, by simp [htorn]⟩
          kept := by rw [haccepted, htext] }
  case neg =>
    have herr : (f.fateOf fate).err.isNone = false := by
      rw [Option.isNone_eq_false_iff, Option.isSome_iff_ne_none]
      exact fun herr => hok (hresult.mpr (Or.inr herr))
    have hpart : (if (f.fateOf fate).err.isNone then linesOf records else
        (linesOf records).take (f.fateOf fate).left) =
          (linesOf records).take (f.fateOf fate).left := by
      rw [herr]
      rfl
    rw [hpart, if_neg hok, Bool.eq_false_of_not_eq_true hok]
    have hkept : linesOf f.accepted <+: f.text ++ (linesOf records).take (f.fateOf fate).left :=
      h.kept.trans (List.prefix_append _ _)
    have hfirst : f.accepted <+: asked ++ records := h.first.trans (List.prefix_append _ _)
    cases htorn : f.torn with
    | true =>
      -- nothing comes behind a part of a text
      have hnone : (linesOf records).take (f.fateOf fate).left = [] := by simp [fateOf, htorn]
      refine ⟨?_, by simp, hfirst, by simp, hkept⟩
      rw [hnone, List.append_nil, linesOf_append]
      exact h.text.trans (List.prefix_append _ _)
    | false =>
      have htext := h.whole htorn
      refine ⟨?_, fun hwhole => ?_, hfirst, by simp, hkept⟩
      · rw [htext, linesOf_append, List.prefix_append_right_inj]
        exact List.take_prefix _ _
      · rw [linesOf_append, htext]
        simpa using hwhole

theorem inv_after (writes : List (Fate × List NormalizedTelemetry)) :
    Inv (writes.flatMap Prod.snd) (after writes) := by
  induction writes using List.reverseRecOn with
  | nil => exact ⟨List.prefix_refl _, fun _ => rfl, List.prefix_refl _, fun _ => ⟨rfl, rfl⟩,
      List.prefix_refl _⟩
  | append_singleton writes w ih =>
    rw [after, List.foldl_append, List.flatMap_append, List.flatMap_singleton]
    exact inv_write ih w

end WalFile

/-- The text of a record is one line. -/
theorem newline_not_mem_line (tels : List NormalizedTelemetry) :
    ∀ l ∈ tels.map (fun tel => (stringify tel).toList), '\n' ∉ l := by
  intro l hl
  obtain ⟨tel, -, rfl⟩ := List.mem_map.mp hl
  rw [stringify, Json.stringify, String.toList_ofList]
  exact Json.newline_not_mem _

/-- What is read of complete lines. -/
theorem readLog_lines (tels : List NormalizedTelemetry) {rest : List Char} (hrest : '\n' ∉ rest) :
    readLog (linesOf tels ++ rest) = tels.map fun tel => some (normalizedOf tel).printed := by
  rw [readLog, linesOf, Lines.complete_cut (newline_not_mem_line tels) hrest, List.map_map]
  apply List.map_congr_left
  intro tel _
  simp only [Function.comp_apply, String.ofList_toList, stringify, Json.parse_stringify,
    Option.bind_some, recordOf_telemetry]

/-- **A log that was cut off**: of whatever a crash leaves of it, the records that are read are the
first ones that were to be written, in their order. The ones that were accepted are the first of
these, and those of every accepted write that is there in full are read. -/
theorem log_recovered (writes : List (Fate × List NormalizedTelemetry)) {cut : List Char}
    (hcut : cut <+: (WalFile.after writes).text) :
    (WalFile.after writes).accepted <+: writes.flatMap Prod.snd ∧
      ∃ k, readLog cut = ((writes.flatMap Prod.snd).take k).map
          (fun tel => some (normalizedOf tel).printed) ∧
        ∀ j, (WalFile.after (writes.take j)).text <+: cut →
          (WalFile.after (writes.take j)).accepted.length ≤ k := by
  have hinv := WalFile.inv_after writes
  obtain ⟨k, rest, hk, rfl, hrest⟩ :=
    Lines.exists_cut (newline_not_mem_line _) (hcut.trans hinv.text)
  rw [← List.map_take]
  refine ⟨hinv.first, k, readLog_lines _ hrest, fun j hj => ?_⟩
  -- a write that is there in full has as many line breaks as records
  have hlines := (WalFile.inv_after (writes.take j)).kept.trans hj
  have hcount := hlines.sublist.count_le '\n'
  rw [linesOf, Lines.count_flatten (newline_not_mem_line _), List.length_map, List.count_append,
    Lines.count_flatten (newline_not_mem_line _), List.count_eq_zero_of_not_mem hrest, List.length_map,
    List.length_take] at hcount
  omega

/-- A record. -/
def sampleReport : NormalizedTelemetry where
  imei := "356307042441013"
  ts := "2026-07-24T10:00:00.000Z"
  latitude := 193000000
  longitude := -813800000
  altitude := 12
  heading := 90
  speedKph := 40
  satellites := 9
  priority := 0
  eventId := 239
  fields := JsMap.empty.set "ignition" 1
  attrs := JsRecord.empty.set 10 7

/-- A write that is accepted; one that fails when the disk is full, with the first byte of its text
in the file; and a write to the destroyed stream. -/
def sampleWrites : List (Fate × List NormalizedTelemetry) :=
  [(⟨none, 0, none, fun _ => none⟩, [sampleReport]),
    (⟨some "ENOSPC: no space left on device, write", 1, none, fun _ => none⟩, [sampleReport]),
    (⟨none, 0, none, fun _ => none⟩, [sampleReport])]

/-- The whole file is there: the accepted record is read. -/
theorem sample_log_recovered : ∃ k, 1 ≤ k ∧ readLog (WalFile.after sampleWrites).text =
    ([sampleReport, sampleReport, sampleReport].take k).map
      fun tel => some (normalizedOf tel).printed := by
  obtain ⟨-, k, hread, hfull⟩ := log_recovered sampleWrites (List.prefix_refl _)
  have hone : (WalFile.after (sampleWrites.take 1)).accepted.length = 1 := rfl
  refine ⟨k, hone ▸ hfull 1 ?_, hread⟩
  simp [WalFile.after, sampleWrites, WalFile.write, List.append_assoc]

end FleetTracking.ControlPlane
