import FleetTracking.Protocol.Codec8
import FleetTracking.Protocol.ReaderRules
import Mathlib.Data.List.Forall2
import Mathlib.Data.List.Nodup

/-!
# The Layout of an AVL Data Array

The documented layout, written down as a serialization, and the decoder as its inverse.

1. `WireRecord`, `writeArray`: the layout.
2. `Codec8.reads_record`, `Codec8.reads_array`: the readers take what was written.
3. `decode_inverts`: decoding what was written returns the records.
-/

namespace FleetTracking.Protocol

/-! ## The layout -/

/-- A record, as it is sent. -/
structure WireRecord where
  timestamp : Nat
  priority : Nat
  longitude : Int
  latitude : Int
  altitude : Int
  angle : Nat
  satellites : Nat
  speed : Nat
  eventId : Nat
  -- The elements with values of one, two, four and eight bytes.
  values1 : List (Nat × Nat)
  values2 : List (Nat × Nat)
  values4 : List (Nat × Nat)
  values8 : List (Nat × Nat)
  -- The elements of variable length of the extended codec.
  variableIo : List (Nat × Buffer)

namespace WireRecord

/-- The groups of elements, with the width of their values. -/
def groups (w : WireRecord) : List (Nat × List (Nat × Nat)) :=
  [(1, w.values1), (2, w.values2), (4, w.values4), (8, w.values8)]

/-- All elements of fixed length. -/
def elements (w : WireRecord) : List (Nat × Nat) := w.groups.flatMap Prod.snd

end WireRecord

section Layout

variable (extended : Bool)

/-- The bytes of an id or a count. -/
def wordSize : Nat := if extended then 2 else 1

/-- An element: its id and its value. -/
def writeElement (width : Nat) (e : Nat × Nat) : Buffer :=
  Buffer.ofNatBE (wordSize extended) e.1 ++ Buffer.ofNatBE width e.2

/-- A group: the number of elements, and the elements. -/
def writeGroup (width : Nat) (elements : List (Nat × Nat)) : Buffer :=
  Buffer.ofNatBE (wordSize extended) elements.length ++
    elements.flatMap (writeElement extended width)

/-- An element of variable length: its id, its length and its bytes. -/
def writeVariableElement (e : Nat × Buffer) : Buffer :=
  Buffer.ofNatBE 2 e.1 ++ (Buffer.ofNatBE 2 e.2.length ++ e.2)

/-- The group of variable length, in the extended codec only. -/
def writeVariable (elements : List (Nat × Buffer)) : Buffer :=
  if extended then
    Buffer.ofNatBE 2 elements.length ++ elements.flatMap writeVariableElement
  else []

/-- A record. -/
def writeRecord (w : WireRecord) : Buffer :=
  Buffer.ofNatBE 8 w.timestamp ++ (Buffer.ofNatBE 1 w.priority ++
    (Buffer.ofIntBE 4 w.longitude ++ (Buffer.ofIntBE 4 w.latitude ++
    (Buffer.ofIntBE 2 w.altitude ++ (Buffer.ofNatBE 2 w.angle ++
    (Buffer.ofNatBE 1 w.satellites ++ (Buffer.ofNatBE 2 w.speed ++
    (Buffer.ofNatBE (wordSize extended) w.eventId ++
    (Buffer.ofNatBE (wordSize extended) (w.elements.length + w.variableIo.length) ++
    (writeGroup extended 1 w.values1 ++ (writeGroup extended 2 w.values2 ++
    (writeGroup extended 4 w.values4 ++ (writeGroup extended 8 w.values8 ++
      writeVariable extended w.variableIo)))))))))))))

/-- A data array: codec id, count, records, count. -/
def writeArray (records : List WireRecord) : Buffer :=
  Buffer.ofNatBE 1 (if extended then CODEC_8_EXT else CODEC_8) ++
    (Buffer.ofNatBE 1 records.length ++ (records.flatMap (writeRecord extended) ++
      Buffer.ofNatBE 1 records.length))

/-- All fields fit, and no id occurs twice. -/
structure WireRecord.InRange (w : WireRecord) : Prop where
  timestamp : w.timestamp ≤ JsDate.maxTime
  priority : w.priority < 2 ^ 8
  longitude : -2 ^ 31 ≤ w.longitude ∧ w.longitude < 2 ^ 31
  latitude : -2 ^ 31 ≤ w.latitude ∧ w.latitude < 2 ^ 31
  altitude : -2 ^ 15 ≤ w.altitude ∧ w.altitude < 2 ^ 15
  angle : w.angle < 2 ^ 16
  satellites : w.satellites < 2 ^ 8
  speed : w.speed < 2 ^ 16
  eventId : w.eventId < 256 ^ wordSize extended
  counts : ∀ g ∈ w.groups, g.2.length < 256 ^ wordSize extended
  elements : ∀ g ∈ w.groups, ∀ e ∈ g.2, e.1 < 256 ^ wordSize extended ∧ e.2 < 256 ^ g.1
  variableCount : w.variableIo.length < 2 ^ 16
  variableIo : ∀ e ∈ w.variableIo, e.1 < 2 ^ 16 ∧ e.2.length < 2 ^ 16
  -- Codec 8 has no elements of variable length.
  plain : extended = false → w.variableIo = []
  ids : (w.elements.map Prod.fst).Nodup
  variableIds : (w.variableIo.map Prod.fst).Nodup

end Layout

/-! ## The readers of the parts -/

namespace Codec8

open Reader

variable {extended : Bool}

/-- The object that a loop over elements builds. -/
def assign {ν : Type} (values : JsRecord ν) (elements : List (Nat × ν)) : JsRecord ν :=
  elements.foldl (fun r e => r.set e.1 e.2) values

theorem word_eq (extended : Bool) : word extended = uint (wordSize extended) := by
  cases extended <;> rfl

theorem reads_word {n : Nat} (h : n < 256 ^ wordSize extended) :
    Reads (word extended) (Buffer.ofNatBE (wordSize extended) n) n := by
  rw [word_eq]
  exact reads_uint h

/-- One element after the other. -/
theorem reads_elements {width : Nat} {elements : List (Nat × Nat)} (values : JsRecord Nat)
    (h : ∀ e ∈ elements, e.1 < 256 ^ wordSize extended ∧ e.2 < 256 ^ width) :
    Reads (readElements extended width elements.length values)
      (elements.flatMap (writeElement extended width)) (assign values elements) := by
  induction elements generalizing values with
  | nil => exact reads_pure _
  | cons e elements ih =>
    obtain ⟨hid, hvalue⟩ := h e List.mem_cons_self
    rw [List.flatMap_cons, writeElement, List.append_assoc]
    refine (reads_word hid).bind ((reads_uint hvalue).bind ?_)
    exact ih _ fun e' he => h e' (List.mem_cons_of_mem _ he)

theorem reads_group {width : Nat} {elements : List (Nat × Nat)} (values : JsRecord Nat)
    (hcount : elements.length < 256 ^ wordSize extended)
    (h : ∀ e ∈ elements, e.1 < 256 ^ wordSize extended ∧ e.2 < 256 ^ width) :
    Reads (readGroup extended width values) (writeGroup extended width elements)
      (assign values elements) :=
  (reads_word hcount).bind (reads_elements values h)

theorem reads_variable {elements : List (Nat × Buffer)} (values : JsRecord Buffer)
    (h : ∀ e ∈ elements, e.1 < 2 ^ 16 ∧ e.2.length < 2 ^ 16) :
    Reads (readVariable elements.length values) (elements.flatMap writeVariableElement)
      (assign values elements) := by
  induction elements generalizing values with
  | nil => exact reads_pure _
  | cons e elements ih =>
    obtain ⟨hid, hlength⟩ := h e List.mem_cons_self
    rw [List.flatMap_cons, writeVariableElement, List.append_assoc, List.append_assoc]
    refine (@reads_uint 2 _ hid).bind ((@reads_uint 2 _ hlength).bind ?_)
    refine (reads_bytes e.2).bind ?_
    exact ih _ fun e' he => h e' (List.mem_cons_of_mem _ he)

/-- What is read of a record. -/
def recordOf (w : WireRecord) : AvlRecord where
  timestamp := JsDate.ofMillis w.timestamp
  priority := w.priority
  gps := ⟨w.longitude, w.latitude, w.altitude, w.angle, w.satellites, w.speed⟩
  io :=
    { eventId := w.eventId
      values := assign (assign (assign (assign JsRecord.empty w.values1) w.values2) w.values4)
        w.values8
      variableIo := assign JsRecord.empty w.variableIo }

/-- **A record**: its bytes are taken, and its fields returned. -/
theorem reads_record {w : WireRecord} (h : w.InRange extended) :
    Reads (readRecord extended) (writeRecord extended w) (recordOf w) := by
  have hgroup : ∀ width values, (width, values) ∈ w.groups → ∀ r : JsRecord Nat,
      Reads (readGroup extended width r) (writeGroup extended width values) (assign r values) :=
    fun width values hmem r => reads_group r (h.counts _ hmem) (h.elements _ hmem)
  have htime : w.timestamp < 256 ^ 8 := lt_of_le_of_lt h.timestamp (by decide)
  refine (reads_uint htime).bind ((@reads_uint 1 _ h.priority).bind ?_)
  refine (reads_i32 h.longitude.1 h.longitude.2).bind ?_
  refine (reads_i32 h.latitude.1 h.latitude.2).bind ?_
  refine (reads_i16 h.altitude.1 h.altitude.2).bind ?_
  refine (@reads_uint 2 _ h.angle).bind ((@reads_uint 1 _ h.satellites).bind ?_)
  refine (@reads_uint 2 _ h.speed).bind ((reads_word h.eventId).bind ?_)
  -- the total is read and not looked at
  rw [word_eq]
  refine (reads_low _ _).bind ?_
  refine (hgroup 1 w.values1 (by simp [WireRecord.groups]) _).bind ?_
  refine (hgroup 2 w.values2 (by simp [WireRecord.groups]) _).bind ?_
  refine (hgroup 4 w.values4 (by simp [WireRecord.groups]) _).bind ?_
  refine (hgroup 8 w.values8 (by simp [WireRecord.groups]) _).bind ?_
  cases extended with
  | false =>
    have hrecord := reads_pure (recordOf w)
    simp only [recordOf, h.plain rfl] at hrecord ⊢
    exact hrecord
  | true =>
    have hvariable := (reads_variable JsRecord.empty h.variableIo).bind
      (f := fun variableIo => pure { recordOf w with io.variableIo := variableIo })
      (reads_pure (recordOf w))
    rw [List.append_nil] at hvariable
    exact (@reads_uint 2 _ h.variableCount).bind hvariable

/-- One record after the other. -/
theorem reads_records {records : List WireRecord} (h : ∀ w ∈ records, w.InRange extended) :
    Reads (readRecords extended records.length) (records.flatMap (writeRecord extended))
      (records.map recordOf) := by
  induction records with
  | nil => exact reads_pure _
  | cons w records ih =>
    have hrest := (ih fun w' hw => h w' (List.mem_cons_of_mem _ hw)).bind
      (f := fun rs => pure (recordOf w :: rs)) (reads_pure (recordOf w :: records.map recordOf))
    rw [List.append_nil] at hrest
    rw [List.flatMap_cons]
    exact (reads_record (h w List.mem_cons_self)).bind hrest

theorem reads_array {records : List WireRecord} (hcount : records.length ≤ 255)
    (h : ∀ w ∈ records, w.InRange extended) :
    Reads readArray (writeArray extended records)
      ⟨if extended then CODEC_8_EXT else CODEC_8, records.length, records.map recordOf⟩ := by
  have hcount' : records.length < 256 ^ 1 := by omega
  have hcodec : (if extended then CODEC_8_EXT else CODEC_8) < 256 ^ 1 := by
    cases extended <;> decide
  have hbody : Reads (do
      let rs ← readRecords extended records.length
      let trailing ← u8
      if trailing ≠ records.length then
        throw (.teltonikaDecodeError
          ("Record count mismatch: " ++ toString records.length ++ " vs " ++ toString trailing))
      return ⟨if extended then CODEC_8_EXT else CODEC_8, records.length, rs⟩)
      (records.flatMap (writeRecord extended) ++ Buffer.ofNatBE 1 records.length)
      (⟨if extended then CODEC_8_EXT else CODEC_8, records.length, records.map recordOf⟩ :
        DecodedAvl) := by
    refine (reads_records h).bind ?_
    rw [← List.append_nil (Buffer.ofNatBE 1 records.length)]
    refine (reads_uint hcount').bind ?_
    rw [if_neg (by simp)]
    exact reads_pure _
  refine (reads_uint hcodec).bind ((reads_uint hcount').bind ?_)
  cases extended with
  | false => exact hbody
  | true => exact hbody

/-- Elements of different ids are all kept. -/
theorem mem_assign {ν : Type} {elements : List (Nat × ν)} (h : (elements.map Prod.fst).Nodup)
    (e : Nat × ν) : e ∈ (assign JsRecord.empty elements).entries ↔ e ∈ elements := by
  induction elements using List.reverseRecOn with
  | nil => rfl
  | append_singleton elements last ih =>
    rw [List.map_append, List.nodup_append] at h
    obtain ⟨hnodup, -, hnew⟩ := h
    have hstep : assign JsRecord.empty (elements ++ [last]) =
        (assign JsRecord.empty elements).set last.1 last.2 := by
      simp [assign]
    rw [hstep, JsRecord.mem_set, ih hnodup, List.mem_append, List.mem_singleton, or_comm]
    apply or_congr_left
    apply and_iff_right_of_imp
    intro he heq
    exact hnew _ (List.mem_map_of_mem he) _ (by simp) heq

theorem assign_append {ν : Type} (values : JsRecord ν) (l l' : List (Nat × ν)) :
    assign (assign values l) l' = assign values (l ++ l') := by
  simp [assign]

end Codec8

/-! ## The records of an array -/

/-- The decoded record has the fields of the record that was sent, and exactly its elements. -/
structure AvlRecord.Carries (r : AvlRecord) (w : WireRecord) : Prop where
  timestamp : r.timestamp = some w.timestamp
  priority : r.priority = w.priority
  longitude : degrees r.gps.longitude = (w.longitude : ℚ) / 10 ^ 7
  latitude : degrees r.gps.latitude = (w.latitude : ℚ) / 10 ^ 7
  motion : (r.gps.altitude, r.gps.angle, r.gps.satellites, r.gps.speed) =
    (w.altitude, w.angle, w.satellites, w.speed)
  eventId : r.io.eventId = w.eventId
  values : ∀ e, e ∈ r.io.values.entries ↔ e ∈ w.elements
  variableIo : ∀ e, e ∈ r.io.variableIo.entries ↔ e ∈ w.variableIo

theorem carries_recordOf {extended : Bool} {w : WireRecord} (h : w.InRange extended) :
    (Codec8.recordOf w).Carries w where
  timestamp := if_pos h.timestamp
  priority := rfl
  longitude := rfl
  latitude := rfl
  motion := rfl
  eventId := rfl
  values := by
    have hall : w.elements = w.values1 ++ w.values2 ++ w.values4 ++ w.values8 := by
      simp [WireRecord.elements, WireRecord.groups]
    have hids := h.ids
    rw [hall] at hids ⊢
    simp only [Codec8.recordOf, Codec8.assign_append]
    exact Codec8.mem_assign hids
  variableIo := Codec8.mem_assign h.variableIds

/-- **Decoding inverts the layout**: of the serialization of at most 255 records the decoder
returns the codec, the count, and exactly these records. -/
theorem decode_inverts (extended : Bool) (records : List WireRecord)
    (hcount : records.length ≤ 255) (h : ∀ w ∈ records, w.InRange extended) :
    ∃ decoded, decodeAvlArray (writeArray extended records) =
        .ok ⟨if extended then CODEC_8_EXT else CODEC_8, records.length, decoded⟩ ∧
      List.Forall₂ AvlRecord.Carries decoded records := by
  refine ⟨records.map Codec8.recordOf, ?_, ?_⟩
  · have hreads := Codec8.reads_array hcount h []
    rw [List.append_nil] at hreads
    rw [decodeAvlArray, StateT.run, hreads]
    rfl
  · rw [List.forall₂_map_left_iff, List.forall₂_same]
    exact fun w hw => carries_recordOf (h w hw)

/-- A position south of the equator, with a value of eight bytes and one of variable length. -/
def sampleWire : WireRecord where
  timestamp := 1560166592048
  priority := 1
  longitude := 253000000
  latitude := -545000000
  altitude := -12
  angle := 270
  satellites := 9
  speed := 85
  eventId := 239
  values1 := [(239, 1), (21, 3)]
  values2 := [(66, 24079)]
  values4 := [(241, 24602)]
  values8 := [(78, 18446744073709551615)]
  variableIo := [(256, [0x31, 0x32])]

theorem sample_decode_inverts : ∃ decoded, decodeAvlArray (writeArray true [sampleWire]) =
      .ok ⟨CODEC_8_EXT, 1, decoded⟩ ∧ List.Forall₂ AvlRecord.Carries decoded [sampleWire] := by
  apply decode_inverts true [sampleWire] (by decide)
  intro w hw
  obtain rfl := List.mem_singleton.mp hw
  constructor <;> decide

end FleetTracking.Protocol
