import FleetTracking.Lib.JsDate
import FleetTracking.Lib.JsRecord
import FleetTracking.Protocol.Reader
import Mathlib.Data.Rat.Defs

/-!
# AVL Records: Codec 8 and Codec 8 Extended

The AVL data array shared by TCP and UDP, the TCP framing around it, and the TCP
acknowledgement.
-/

namespace FleetTracking.Protocol

def CODEC_8 : Nat := 0x08
def CODEC_8_EXT : Nat := 0x8e
def CODEC_16 : Nat := 0x10

/-- Position and motion of one record. Coordinates are kept as the transmitted integers;
in degrees they are `longitude / 1e7` and `latitude / 1e7`. -/
structure GpsElement where
  longitude : Int
  latitude : Int
  altitude : Int
  angle : Nat
  satellites : Nat
  speed : Nat

/-- A coordinate in degrees. -/
def degrees (raw : Int) : ℚ := (raw : ℚ) / 10 ^ 7

/-- The IO elements of one record: 1, 2 and 4 byte values are numbers, 8 byte values are
bigints, all of them non-negative integers. -/
structure IoElement where
  eventId : Nat
  values : JsRecord Nat
  variableIo : JsRecord Buffer

structure AvlRecord where
  timestamp : JsDate
  priority : Nat
  gps : GpsElement
  io : IoElement

structure DecodedAvl where
  codecId : Nat
  recordCount : Nat
  records : List AvlRecord

namespace Codec8

/-- A count or an id: two bytes in the extended codec, one otherwise. -/
def word (extended : Bool) : Reader Nat := if extended then Reader.u16 else Reader.u8

/-- The loop of `readGroup`: `n` elements with values of `width` bytes. -/
def readElements (extended : Bool) (width : Nat) : Nat → JsRecord Nat → Reader (JsRecord Nat)
  | 0, values => pure values
  | n + 1, values => do
    let id ← word extended
    let v ← Reader.uint width
    readElements extended width n (values.set id v)

/-- One group of IO elements of equal width. -/
def readGroup (extended : Bool) (width : Nat) (values : JsRecord Nat) :
    Reader (JsRecord Nat) := do
  let n ← word extended
  readElements extended width n values

/-- The elements of variable length of the extended codec. -/
def readVariable : Nat → JsRecord Buffer → Reader (JsRecord Buffer)
  | 0, variableIo => pure variableIo
  | n + 1, variableIo => do
    let id ← Reader.u16
    let len ← Reader.u16
    let v ← Reader.bytes len
    readVariable n (variableIo.set id v)

/-- One AVL record. -/
def readRecord (extended : Bool) : Reader AvlRecord := do
  let timestamp := JsDate.ofMillis (← Reader.u64)
  let priority ← Reader.u8
  let longitude ← Reader.i32
  let latitude ← Reader.i32
  let altitude ← Reader.i16
  let angle ← Reader.u16
  let satellites ← Reader.u8
  let speed ← Reader.u16
  let gps := { longitude, latitude, altitude, angle, satellites, speed }
  let eventId ← word extended
  -- the total IO count is informational
  let _ ← word extended
  let values ← readGroup extended 1 JsRecord.empty
  let values ← readGroup extended 2 values
  let values ← readGroup extended 4 values
  let values ← readGroup extended 8 values
  if extended then
    let nx ← Reader.u16
    let variableIo ← readVariable nx JsRecord.empty
    return { timestamp, priority, gps, io := { eventId, values, variableIo } }
  else
    return { timestamp, priority, gps, io := { eventId, values, variableIo := JsRecord.empty } }

/-- The record loop. -/
def readRecords (extended : Bool) : Nat → Reader (List AvlRecord)
  | 0 => pure []
  | n + 1 => do
    let r ← readRecord extended
    let rs ← readRecords extended n
    return r :: rs

/-- The data array, codec id to second count. -/
def readArray : Reader DecodedAvl := do
  let codecId ← Reader.u8
  let recordCount ← Reader.u8
  if codecId = CODEC_16 then
    throw (.teltonikaDecodeError "Codec 16 not supported (FMB630/FM63XY only, not FTC927)")
  if codecId ≠ CODEC_8 ∧ codecId ≠ CODEC_8_EXT then
    throw (.teltonikaDecodeError ("Unsupported codec 0x" ++ hex codecId))
  let records ← readRecords (codecId == CODEC_8_EXT) recordCount
  let trailing ← Reader.u8
  if trailing ≠ recordCount then
    throw (.teltonikaDecodeError
      ("Record count mismatch: " ++ toString recordCount ++ " vs " ++ toString trailing))
  return { codecId, recordCount, records }

end Codec8

/-- Decode an AVL data array. Bytes after the second count are not looked at. -/
def decodeAvlArray (dataField : Buffer) : Except JsError DecodedAvl :=
  Prod.fst <$> Codec8.readArray.run dataField

/-- Decode a full TCP frame, preamble to CRC. -/
def decodeTcpPacket (frame : Buffer) : Except JsError DecodedAvl := do
  if frame.length < 12 then throw (.teltonikaDecodeError "Frame too short")
  if (← frame.readUIntBE 0 4) ≠ 0 then throw (.teltonikaDecodeError "Bad preamble")
  let dataLen ← frame.readUIntBE 4 4
  let dataField := frame.subarray 8 (8 + dataLen)
  if dataField.length ≠ dataLen then
    throw (.teltonikaDecodeError "Incomplete data field")
  let crcExpected := (← frame.readUIntBE (8 + dataLen) 4) % 2 ^ 16
  let crcActual := crc16IBM dataField
  if crcActual ≠ crcExpected then
    throw (.teltonikaDecodeError
      ("CRC mismatch: computed 0x" ++ hex crcActual ++ " expected 0x" ++ hex crcExpected))
  decodeAvlArray dataField

/-- The codec of a data array that can be read. -/
theorem Codec8.readArray_codec {buf rest : Buffer} {pkt : DecodedAvl}
    (h : readArray.run buf = .ok (pkt, rest)) : ∃ b bytes, buf = b :: bytes ∧
      (b.toNat = CODEC_8 ∨ b.toNat = CODEC_8_EXT) := by
  unfold readArray at h
  simp only [StateT.run, bind, StateT.bind, Except.bind] at h
  split at h
  · cases h
  · rename_i p hp
    obtain ⟨b, hb, hn⟩ := Reader.u8_ok hp
    refine ⟨b, p.2, hb, ?_⟩
    split at h
    · cases h
    · split at h
      · cases h
      · split at h
        · cases h
        · rename_i hcodec
          rw [hn] at hcodec
          tauto

theorem decodeAvlArray_codec {dataField : Buffer} {pkt : DecodedAvl}
    (h : decodeAvlArray dataField = .ok pkt) : ∃ b bytes, dataField = b :: bytes ∧
      (b.toNat = CODEC_8 ∨ b.toNat = CODEC_8_EXT) := by
  unfold decodeAvlArray at h
  cases hread : Codec8.readArray.run dataField with
  | error e =>
    rw [hread] at h
    cases h
  | ok p =>
    obtain ⟨pkt', rest⟩ := p
    rw [hread] at h
    cases h
    exact Codec8.readArray_codec hread

/-- A frame that can be decoded is a frame of Codec 8 or Codec 8 Extended. -/
theorem decodeTcpPacket_codec {frame : Buffer} {pkt : DecodedAvl}
    (h : decodeTcpPacket frame = .ok pkt) :
    (frame.getD 8 0).toNat = CODEC_8 ∨ (frame.getD 8 0).toNat = CODEC_8_EXT := by
  have hread : ∃ stop, decodeAvlArray (frame.subarray 8 stop) = .ok pkt := by
    unfold decodeTcpPacket at h
    simp only [bind, Except.bind, throw, throwThe, MonadExceptOf.throw] at h
    split at h
    · cases h
    · split at h
      · cases h
      · split at h
        · cases h
        · split at h
          · cases h
          · split at h
            · cases h
            · split at h
              · cases h
              · split at h
                · cases h
                · exact ⟨_, h⟩
  obtain ⟨stop, hstop⟩ := hread
  obtain ⟨b, bytes, hdata, hcodec⟩ := decodeAvlArray_codec hstop
  rw [Buffer.getD_of_subarray hdata]
  exact hcodec

/-- The TCP acknowledgement: the number of accepted records in four bytes. -/
def buildTcpAck (recordCount : Nat) : Buffer := Buffer.ofNatBE 4 recordCount

/-- The first complete frame of a stream and the bytes after it. -/
def extractFrame (buf : Buffer) : Option (Buffer × Buffer) :=
  if buf.length < 8 then none
  else
    let dataLen := Buffer.toNatBE (buf.subarray 4 8)
    let total := 8 + dataLen + 4
    if buf.length < total then none else some (buf.take total, buf.drop total)

/-- The bytes after a frame are fewer than the bytes with it. -/
theorem extractFrame_rest {buf frame rest : Buffer} (h : extractFrame buf = some (frame, rest)) :
    rest.length < buf.length := by
  unfold extractFrame at h
  by_cases hshort : buf.length < 8
  · rw [if_pos hshort] at h
    cases h
  · rw [if_neg hshort] at h
    simp only at h
    split at h
    · cases h
    · cases h
      rw [List.length_drop]
      omega

/-- More bytes behind a complete frame stay behind it. -/
theorem extractFrame_append {buf frame rest : Buffer} (more : Buffer)
    (h : extractFrame buf = some (frame, rest)) :
    extractFrame (buf ++ more) = some (frame, rest ++ more) := by
  unfold extractFrame at h ⊢
  split at h
  · cases h
  · rename_i hlong
    have h8 : 8 ≤ buf.length := by omega
    have hsub := Buffer.subarray_append 4 more h8
    simp only [hsub] at h ⊢
    split at h
    · cases h
    · rename_i htotal
      cases h
      have hle : 8 + Buffer.toNatBE (buf.subarray 4 8) + 4 ≤ buf.length := by omega
      rw [if_neg (by rw [List.length_append]; omega), if_neg (by rw [List.length_append]; omega),
        List.take_append_of_le_length hle, List.drop_append_of_le_length hle]

/-- A part of a buffer without a complete frame has none either. -/
theorem extractFrame_none_of_append {buf more : Buffer} (h : extractFrame (buf ++ more) = none) :
    extractFrame buf = none := by
  cases hbuf : extractFrame buf with
  | none => rfl
  | some p =>
    rw [extractFrame_append more hbuf] at h
    cases h

/-- While bytes of a frame are missing there is no complete frame. -/
theorem extractFrame_incomplete {buf more : Buffer} (hmore : more ≠ [])
    (h : extractFrame (buf ++ more) = some (buf ++ more, [])) : extractFrame buf = none := by
  cases hbuf : extractFrame buf with
  | none => rfl
  | some p =>
    rw [extractFrame_append more hbuf] at h
    simp only [Option.some.injEq, Prod.mk.injEq, List.append_eq_nil_iff] at h
    exact absurd h.2.2 hmore

/-- Wrap an AVL data array in a TCP frame, as a tracker does. -/
def encodeTcpPacket (dataArray : Buffer) : Buffer :=
  Buffer.ofNatBE 4 0 ++ Buffer.ofNatBE 4 dataArray.length ++ dataArray ++
    Buffer.ofNatBE 4 (crc16IBM dataArray)

end FleetTracking.Protocol
