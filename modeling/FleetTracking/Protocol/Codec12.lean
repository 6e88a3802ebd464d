import FleetTracking.Protocol.Reader

/-!
# Commands: Codec 12

The GPRS command channel to the tracker, over the socket that carries its AVL data.
-/

namespace FleetTracking.Protocol

def CODEC_12 : Nat := 0x0c
def TYPE_COMMAND : Nat := 0x05
def TYPE_RESPONSE : Nat := 0x06

/-- A Codec 12 frame of the given type around a text. -/
def encodeCodec12 (type : Nat) (text : String) : Buffer :=
  let body := Buffer.ofAscii text
  let dataField := Buffer.ofNatBE 1 CODEC_12 ++ [0x01] ++ Buffer.ofNatBE 1 type ++
    Buffer.ofNatBE 4 body.length ++ body ++ [0x01]
  Buffer.ofNatBE 4 0 ++ Buffer.ofNatBE 4 dataField.length ++ dataField ++
    Buffer.ofNatBE 4 (crc16IBM dataField)

/-- Encode a command for the tracker. -/
def encodeCommand (command : String) : Buffer := encodeCodec12 TYPE_COMMAND command

/-- Encode a tracker's response. -/
def encodeResponse (text : String) : Buffer := encodeCodec12 TYPE_RESPONSE text

structure Codec12Message where
  type : Nat
  payload : String
  deriving DecidableEq

/-- The data field of a Codec 12 frame. The quantity byte before the type is ignored, the
one after the payload is not read. -/
def readCodec12 : Reader Codec12Message := do
  let codecId ← Reader.u8
  if codecId ≠ CODEC_12 then
    throw (.codec12Error ("Not Codec 12 (0x" ++ hex codecId ++ ")"))
  let _ ← Reader.u8
  let type ← Reader.u8
  let size ← Reader.u32
  let payload ← Buffer.toAscii <$> Reader.bytes size
  return { type, payload }

/-- Decode a Codec 12 frame, command or response. -/
def decodeCodec12 (frame : Buffer) : Except JsError Codec12Message := do
  if frame.length < 12 then throw (.codec12Error "Frame too short")
  if (← frame.readUIntBE 0 4) ≠ 0 then throw (.codec12Error "Bad preamble")
  let dataSize ← frame.readUIntBE 4 4
  let dataField := frame.subarray 8 (8 + dataSize)
  if dataField.length ≠ dataSize then throw (.codec12Error "Incomplete data field")
  let crcExpected := (← frame.readUIntBE (8 + dataSize) 4) % 2 ^ 16
  let crcActual := crc16IBM dataField
  if crcActual ≠ crcExpected then
    throw (.codec12Error ("CRC mismatch: 0x" ++ hex crcActual ++ " vs 0x" ++ hex crcExpected))
  Prod.fst <$> readCodec12.run dataField

/-- The first complete frame of a stream and the bytes after it: `extractFrame` once more. -/
def extractCodec12Frame (buf : Buffer) : Option (Buffer × Buffer) :=
  if buf.length < 8 then none
  else
    let dataSize := Buffer.toNatBE (buf.subarray 4 8)
    let total := 8 + dataSize + 4
    if buf.length < total then none else some (buf.take total, buf.drop total)

theorem readCodec12_codec {buf rest : Buffer} {msg : Codec12Message}
    (h : readCodec12.run buf = .ok (msg, rest)) : ∃ b bytes, buf = b :: bytes ∧
      b.toNat = CODEC_12 := by
  unfold readCodec12 at h
  simp only [StateT.run, bind, StateT.bind, Except.bind] at h
  split at h
  · cases h
  · rename_i p hp
    obtain ⟨b, hb, hn⟩ := Reader.u8_ok hp
    refine ⟨b, p.2, hb, ?_⟩
    split at h
    · cases h
    · rename_i hcodec
      rw [hn] at hcodec
      exact not_not.mp hcodec

/-- A message that can be decoded is in a frame of Codec 12. -/
theorem decodeCodec12_codec {frame : Buffer} {msg : Codec12Message}
    (h : decodeCodec12 frame = .ok msg) : (frame.getD 8 0).toNat = CODEC_12 := by
  -- every check of the envelope throws; past the last of them the reader runs
  have hread : ∃ stop, Prod.fst <$> readCodec12.run (frame.subarray 8 stop) = .ok msg := by
    unfold decodeCodec12 at h
    simp only [bind, Except.bind, throw, throwThe, MonadExceptOf.throw] at h
    split at h
    · cases h
    · split at h
      · cases h
      · split at h
        · cases h
        · split at h
          · cases h
          · split at h
            · cases h
            · split at h
              · cases h
              · split at h
                · cases h
                · exact ⟨_, h⟩
  obtain ⟨stop, hstop⟩ := hread
  cases hread : readCodec12.run (frame.subarray 8 stop) with
  | error e =>
    rw [hread] at hstop
    cases hstop
  | ok p =>
    obtain ⟨msg', rest⟩ := p
    obtain ⟨b, bytes, hdata, hcodec⟩ := readCodec12_codec hread
    rw [Buffer.getD_of_subarray hdata]
    exact hcodec

example : (decodeCodec12 (encodeResponse "DOUT1:1 Timeout:INFINITY")).toOption =
    some ⟨TYPE_RESPONSE, "DOUT1:1 Timeout:INFINITY"⟩ := by decide +kernel

end FleetTracking.Protocol
