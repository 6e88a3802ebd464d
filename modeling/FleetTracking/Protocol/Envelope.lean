import FleetTracking.Protocol.Codec12
import FleetTracking.Protocol.Codec8
import FleetTracking.Protocol.ReaderRules

/-!
# The Envelope of a Frame

Preamble, length, data field and checksum are the same for AVL data and for commands, and both
decoders check them in the same way.

1. `dataLength`, `dataField`, `sentCrc`: the parts of a frame.
2. `openFrame`: the checks, and `decodeFrame_eq`, for `decodeTcpPacket` and `decodeCodec12`.
3. `framed`: the frame of a data field, which both encoders build, is intact.
-/

namespace FleetTracking.Protocol

/-! ## The parts of a frame -/

/-- The length that the header of a frame declares. -/
def dataLength (frame : Buffer) : Nat := Buffer.toNatBE (frame.subarray 4 8)

/-- The data field, as far as it is there. -/
def dataField (frame : Buffer) : Buffer := frame.subarray 8 (8 + dataLength frame)

/-- The checksum behind the data field. -/
def sentCrc (frame : Buffer) : Nat :=
  Buffer.toNatBE (frame.subarray (8 + dataLength frame) (8 + dataLength frame + 4)) % 2 ^ 16

theorem length_dataField (frame : Buffer) :
    (dataField frame).length = min (dataLength frame) (frame.length - 8) := by
  simp only [dataField, Buffer.subarray, List.length_drop, List.length_take]
  omega

/-! ## Opening a frame -/

/-- The checks of the envelope, in the order in which both decoders make them; `fail` makes an
error of their class, `mismatch` the text about two different checksums. -/
def openFrame (fail : String → JsError) (mismatch : Nat → Nat → String) (frame : Buffer) :
    Except JsError Buffer :=
  if frame.length < 12 then .error (fail "Frame too short")
  else if Buffer.toNatBE (frame.subarray 0 4) ≠ 0 then .error (fail "Bad preamble")
  else if (dataField frame).length ≠ dataLength frame then .error (fail "Incomplete data field")
  -- the checksum is read where the buffer may have ended
  else if frame.length < 8 + dataLength frame + 4 then .error Buffer.outOfBounds
  else if crc16IBM (dataField frame) ≠ sentCrc frame then
    .error (fail (mismatch (crc16IBM (dataField frame)) (sentCrc frame)))
  else .ok (dataField frame)

/-- A frame whose envelope is in order. -/
structure Intact (frame : Buffer) : Prop where
  preamble : Buffer.toNatBE (frame.subarray 0 4) = 0
  complete : 8 + dataLength frame + 4 ≤ frame.length
  crc : crc16IBM (dataField frame) = sentCrc frame

theorem openFrame_of_intact {fail : String → JsError} {mismatch : Nat → Nat → String}
    {frame : Buffer} (h : Intact frame) :
    openFrame fail mismatch frame = .ok (dataField frame) := by
  have hcomplete := h.complete
  have hfield := length_dataField frame
  unfold openFrame
  rw [if_neg (by omega), if_neg (by simp [h.preamble]), if_neg (by omega), if_neg (by omega),
    if_neg (by simp [h.crc])]

theorem intact_of_openFrame {fail : String → JsError} {mismatch : Nat → Nat → String}
    {frame d : Buffer} (h : openFrame fail mismatch frame = .ok d) :
    Intact frame ∧ d = dataField frame := by
  unfold openFrame at h
  split at h
  · cases h
  · split at h
    · cases h
    · rename_i hpreamble
      split at h
      · cases h
      · split at h
        · cases h
        · rename_i hcomplete
          split at h
          · cases h
          · rename_i hcrc
            cases h
            exact ⟨⟨not_not.mp hpreamble, by omega, not_not.mp hcrc⟩, rfl⟩

/-- The text of `decodeTcpPacket` about a wrong checksum. -/
def tcpMismatch (actual expected : Nat) : String :=
  "CRC mismatch: computed 0x" ++ hex actual ++ " expected 0x" ++ hex expected

/-- The text of `decodeCodec12` about a wrong checksum. -/
def codec12Mismatch (actual expected : Nat) : String :=
  "CRC mismatch: 0x" ++ hex actual ++ " vs 0x" ++ hex expected

private theorem readUIntBE_four {frame : Buffer} {offset : Nat} (h : offset + 4 ≤ frame.length) :
    frame.readUIntBE offset 4 = .ok (Buffer.toNatBE (frame.subarray offset (offset + 4))) :=
  if_pos h

/-- What both decoders do, with the errors of their class and a reader for the data field. -/
def decodeFrame {α : Type} (fail : String → JsError) (mismatch : Nat → Nat → String)
    (read : Buffer → Except JsError α) (frame : Buffer) : Except JsError α := do
  if frame.length < 12 then throw (fail "Frame too short")
  if (← frame.readUIntBE 0 4) ≠ 0 then throw (fail "Bad preamble")
  let dataLen ← frame.readUIntBE 4 4
  let dataField := frame.subarray 8 (8 + dataLen)
  if dataField.length ≠ dataLen then throw (fail "Incomplete data field")
  let crcExpected := (← frame.readUIntBE (8 + dataLen) 4) % 2 ^ 16
  let crcActual := crc16IBM dataField
  if crcActual ≠ crcExpected then throw (fail (mismatch crcActual crcExpected))
  read dataField

/-- **The checks are those of `openFrame`.** -/
theorem decodeFrame_eq {α : Type} (fail : String → JsError) (mismatch : Nat → Nat → String)
    (read : Buffer → Except JsError α) (frame : Buffer) :
    decodeFrame fail mismatch read frame = openFrame fail mismatch frame >>= read := by
  have hfield : frame.subarray 8 (8 + dataLength frame) = dataField frame := rfl
  unfold decodeFrame openFrame
  simp only [bind, Except.bind, throw, throwThe, MonadExceptOf.throw]
  by_cases hshort : frame.length < 12
  · simp [hshort]
  · have hpreamble := @readUIntBE_four frame 0 (by omega)
    have hlength : frame.readUIntBE 4 4 = .ok (dataLength frame) :=
      @readUIntBE_four frame 4 (by omega)
    simp only [hshort, if_false, hpreamble, hlength, Nat.zero_add, hfield]
    by_cases hcomplete : frame.length < 8 + dataLength frame + 4
    · have hread : frame.readUIntBE (8 + dataLength frame) 4 = .error Buffer.outOfBounds :=
        if_neg (by omega)
      rw [hread, if_pos hcomplete]
      split_ifs <;> rfl
    · have hread := @readUIntBE_four frame (8 + dataLength frame) (by omega)
      have hsent : Buffer.toNatBE (frame.subarray (8 + dataLength frame)
          (8 + dataLength frame + 4)) % 2 ^ 16 = sentCrc frame := rfl
      rw [hread, if_neg hcomplete]
      simp only [hsent]
      generalize crc16IBM (dataField frame) = actual
      generalize sentCrc frame = expected
      split_ifs <;> rfl

theorem decodeTcpPacket_eq (frame : Buffer) : decodeTcpPacket frame =
    openFrame .teltonikaDecodeError tcpMismatch frame >>= decodeAvlArray :=
  decodeFrame_eq .teltonikaDecodeError tcpMismatch decodeAvlArray frame

theorem decodeCodec12_eq (frame : Buffer) : decodeCodec12 frame =
    openFrame .codec12Error codec12Mismatch frame >>= fun d => Prod.fst <$> readCodec12.run d :=
  decodeFrame_eq .codec12Error codec12Mismatch (fun d => Prod.fst <$> readCodec12.run d) frame

/-! ## Building a frame -/

/-- A part of the buffer behind `a`. -/
theorem Buffer.subarray_append_right (a b : Buffer) (start stop : Nat) :
    Buffer.subarray (a ++ b) (a.length + start) (a.length + stop) = b.subarray start stop := by
  rw [Buffer.subarray, List.take_length_add_append, List.drop_length_add_append]
  rfl

/-- The parts of a frame whose header declares the length of what follows. -/
theorem parts_of_header {header d tail : Buffer} (hheader : header.length = 8)
    (hlength : Buffer.toNatBE (header.subarray 4 8) = d.length) :
    dataLength (header ++ d ++ tail) = d.length ∧ dataField (header ++ d ++ tail) = d ∧
      sentCrc (header ++ d ++ tail) = Buffer.toNatBE (tail.take 4) % 2 ^ 16 := by
  have hdata : dataLength (header ++ d ++ tail) = d.length := by
    rw [dataLength, List.append_assoc, Buffer.subarray_append 4 _ (by omega), hlength]
  have hfield : Buffer.subarray (header ++ (d ++ tail)) (header.length + 0)
      (header.length + d.length) = d := by
    rw [Buffer.subarray_append_right, Buffer.subarray, List.take_left]
    rfl
  have hcrc : Buffer.subarray (header ++ d ++ tail) ((header ++ d).length + 0)
      ((header ++ d).length + 4) = tail.take 4 := by
    rw [Buffer.subarray_append_right]
    rfl
  refine ⟨hdata, ?_, ?_⟩
  · rw [dataField, hdata, ← hheader, List.append_assoc]
    exact hfield
  · rw [sentCrc, hdata, ← hheader, ← List.length_append]
    exact congrArg (fun part => Buffer.toNatBE part % 2 ^ 16) hcrc

/-- The frame of a data field: preamble, length, data field and checksum. -/
def framed (d : Buffer) : Buffer :=
  Buffer.ofNatBE 4 0 ++ Buffer.ofNatBE 4 d.length ++ d ++ Buffer.ofNatBE 4 (crc16IBM d)

theorem encodeTcpPacket_eq (d : Buffer) : encodeTcpPacket d = framed d := rfl

theorem length_framed (d : Buffer) : (framed d).length = 8 + d.length + 4 := by
  simp only [framed, List.length_append, Buffer.length_ofNatBE]

theorem crc16IBM_lt (d : Buffer) : crc16IBM d < 2 ^ 16 := BitVec.isLt _

/-- The frame of a data field is intact. -/
theorem intact_framed {d : Buffer} (h : d.length < 2 ^ 32) :
    Intact (framed d) ∧ dataField (framed d) = d := by
  have hheader : (Buffer.ofNatBE 4 0 ++ Buffer.ofNatBE 4 d.length).length = 8 := by simp
  have hsize : Buffer.subarray (Buffer.ofNatBE 4 0 ++ Buffer.ofNatBE 4 d.length) 4 8 =
      Buffer.ofNatBE 4 d.length := by
    have hright := Buffer.subarray_append_right (Buffer.ofNatBE 4 0) (Buffer.ofNatBE 4 d.length) 0 4
    rw [Buffer.length_ofNatBE] at hright
    rw [hright, Buffer.subarray, List.take_of_length_le (by simp), List.drop_zero]
  have hlength : Buffer.toNatBE (Buffer.subarray
      (Buffer.ofNatBE 4 0 ++ Buffer.ofNatBE 4 d.length) 4 8) = d.length := by
    rw [hsize, Buffer.toNatBE_ofNatBE]
    omega
  obtain ⟨hdata, hfield, hcrc⟩ :=
    @parts_of_header _ d (Buffer.ofNatBE 4 (crc16IBM d)) hheader hlength
  refine ⟨⟨?_, ?_, ?_⟩, hfield⟩
  · rfl
  · rw [framed, hdata]
    exact (length_framed d).ge
  · have hlt := crc16IBM_lt d
    rw [framed, hfield, hcrc, List.take_of_length_le (by simp), Buffer.toNatBE_ofNatBE]
    omega

/-- The frame with another data field of the same length. -/
def withData (frame d : Buffer) : Buffer :=
  frame.take 8 ++ d ++ frame.drop (8 + dataLength frame)

theorem parts_withData {frame d : Buffer} (h : Intact frame)
    (hlength : d.length = (dataField frame).length) :
    dataField (withData frame d) = d ∧ sentCrc (withData frame d) = sentCrc frame := by
  have hcomplete := h.complete
  have hfield := length_dataField frame
  have hheader : (frame.take 8).length = 8 := by
    rw [List.length_take]
    omega
  have hdata : Buffer.toNatBE (Buffer.subarray (frame.take 8) 4 8) = d.length := by
    have hsize : Buffer.toNatBE ((frame.take 8).drop 4) = dataLength frame := rfl
    rw [Buffer.subarray, List.take_take, Nat.min_self, hlength, hfield, hsize]
    omega
  obtain ⟨-, hsame, hcrc⟩ :=
    @parts_of_header _ d (frame.drop (8 + dataLength frame)) hheader hdata
  refine ⟨hsame, ?_⟩
  rw [withData, hcrc, sentCrc, Buffer.subarray, List.drop_take]
  simp

end FleetTracking.Protocol
