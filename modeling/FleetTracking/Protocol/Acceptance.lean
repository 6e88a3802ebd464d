import FleetTracking.Protocol.Envelope
import FleetTracking.Protocol.Grammar
import FleetTracking.Protocol.Udp

/-!
# Which Data Is Accepted

The decoder of data arrays against their grammar: what it accepts, and with which errors it
rejects the rest.

1. `decodeAvlArray_cons`: the decoder, from the readers of the parts.
2. `decodes_iff`: it accepts what begins with a data array; `grammar_iff`: when that is right.
3. `Whole`, `decodeAvlArray_outOfBounds`: where it reads past the end.
4. `Reported`: the frames that are decoded or rejected with a decode error.
-/

namespace FleetTracking.Protocol

open Codec8

/-! ## The decoder -/

private theorem u8_cons (b : UInt8) (rest : Buffer) :
    Reader.u8 (b :: rest) = .ok (b.toNat, rest) := by
  simp [Reader.u8, Reader.uint, Buffer.toNatBE]

/-- Another codec is an error of its own. -/
theorem decodeAvlArray_unsupported {codec : UInt8} (count : UInt8) (rest : Buffer)
    (h : ¬ Supported codec) :
    ∃ text, decodeAvlArray (codec :: count :: rest) = .error (.teltonikaDecodeError text) := by
  unfold decodeAvlArray readArray
  simp only [StateT.run, Reader.bind_of_ok (u8_cons _ _)]
  by_cases h16 : codec.toNat = CODEC_16
  · rw [if_pos h16]
    exact ⟨_, rfl⟩
  · have hother : codec.toNat ≠ CODEC_8 ∧ codec.toNat ≠ CODEC_8_EXT := not_or.mp h
    rw [if_neg h16, if_pos hother]
    exact ⟨_, rfl⟩

/-- What is left to do after the codec id and the count. -/
theorem decodeAvlArray_supported {codec : UInt8} (count : UInt8) (rest : Buffer)
    (h : Supported codec) : decodeAvlArray (codec :: count :: rest) =
      match readRecords (codec.toNat == CODEC_8_EXT) count.toNat rest with
      | .error e => .error e
      | .ok (_, []) => .error Buffer.outOfBounds
      | .ok (rs, last :: _) =>
        if last.toNat ≠ count.toNat then
          .error (.teltonikaDecodeError ("Record count mismatch: " ++ toString count.toNat ++
            " vs " ++ toString last.toNat))
        else .ok ⟨codec.toNat, count.toNat, rs⟩ := by
  -- a supported codec passes both checks of the header
  have h16 : codec.toNat ≠ CODEC_16 := by
    rcases h with h | h <;> rw [h] <;> decide
  have hknown : ¬ (codec.toNat ≠ CODEC_8 ∧ codec.toNat ≠ CODEC_8_EXT) := by
    rwa [not_and_or, not_not, not_not]
  unfold decodeAvlArray readArray
  simp only [StateT.run, Reader.bind_of_ok (u8_cons _ _)]
  rw [if_neg h16, if_neg hknown]
  -- the records, then the second count behind them
  cases hread : readRecords (codec.toNat == CODEC_8_EXT) count.toNat rest with
  | error e =>
    rw [Reader.bind_of_error hread]
    rfl
  | ok p =>
    obtain ⟨rs, after⟩ := p
    rw [Reader.bind_of_ok hread]
    cases after with
    | nil => rfl
    | cons last after =>
      rw [Reader.bind_of_ok (u8_cons _ _)]
      by_cases hsame : last.toNat ≠ count.toNat
      · rw [if_pos hsame]
        simp only [if_pos hsame]
        rfl
      · rw [if_neg hsame]
        simp only [if_neg hsame]
        rfl

/-- The records of the count are there, and a byte behind them; of a codec that is not decoded,
only the count. -/
def Whole : Buffer → Prop
  | codec :: count :: rest => Supported codec →
    ∃ body ∈ records codec count, ∃ last after, rest = body ++ last :: after
  | _ => False

private theorem recognizes_array (codec count : UInt8) :
    Reader.Recognizes (readRecords (codec.toNat == CODEC_8_EXT) count.toNat)
      (records codec count) :=
  recognizes_records count.toNat

/-- In an array that is not whole, the decoder reads past the end. -/
theorem decodeAvlArray_outOfBounds {s : Buffer} (h : ¬ Whole s) :
    decodeAvlArray s = .error Buffer.outOfBounds := by
  match s with
  | [] => rfl
  | [codec] =>
    unfold decodeAvlArray readArray
    simp only [StateT.run, Reader.bind_of_ok (u8_cons _ _)]
    rfl
  | codec :: count :: rest =>
    simp only [Whole, Classical.not_imp] at h
    obtain ⟨hsupported, hcut⟩ := h
    rw [decodeAvlArray_supported count rest hsupported]
    cases hread : readRecords (codec.toNat == CODEC_8_EXT) count.toNat rest with
    | error e => simp only [(recognizes_array codec count).fails rest e hread]
    | ok p =>
      obtain ⟨rs, after⟩ := p
      cases after with
      | nil => rfl
      | cons last after =>
        obtain ⟨body, hbody, hrest⟩ :=
          (recognizes_array codec count).sound rest rs _ hread (List.cons_ne_nil _ _)
        exact absurd ⟨body, hbody, last, after, hrest⟩ hcut

/-- In one that is whole, the byte behind the records decides. -/
theorem decodeAvlArray_whole {codec count last : UInt8} {body : Buffer} (after : Buffer)
    (hsupported : Supported codec) (hbody : body ∈ records codec count) :
    if last = count then
      ∃ pkt, decodeAvlArray (codec :: count :: (body ++ last :: after)) = .ok pkt
    else ∃ text, decodeAvlArray (codec :: count :: (body ++ last :: after)) =
      .error (.teltonikaDecodeError text) := by
  obtain ⟨rs, hread⟩ := (recognizes_array codec count).complete body hbody (last :: after)
  rw [decodeAvlArray_supported count _ hsupported, hread]
  simp only [ne_eq, UInt8.toNat_inj]
  split_ifs with hlast
  · exact ⟨_, rfl⟩
  · exact ⟨_, rfl⟩

/-! ## The strings that are accepted -/

/-- A string with a data array in front. -/
def Begins (s : Buffer) : Prop := ∃ w ∈ dataArray, ∃ after, s = w ++ after

/-- The decoder accepts what begins with a data array. -/
theorem decodes_iff (s : Buffer) : (∃ pkt, decodeAvlArray s = .ok pkt) ↔ Begins s := by
  constructor
  · rintro ⟨pkt, hok⟩
    -- a text cut short fails out of bounds
    have hwhole : Whole s := by
      by_contra hcut
      rw [decodeAvlArray_outOfBounds hcut] at hok
      cases hok
    match s with
    | [] => exact hwhole.elim
    | [codec] => exact hwhole.elim
    | codec :: count :: rest =>
      have hsupported : Supported codec := by
        by_contra hother
        obtain ⟨text, herror⟩ := decodeAvlArray_unsupported count rest hother
        rw [hok] at herror
        cases herror
      obtain ⟨body, hbody, last, after, rfl⟩ := hwhole hsupported
      -- counts that differ fail with their own text
      have hcount : last = count := by
        by_contra hlast
        have hdecode := @decodeAvlArray_whole codec count last body after hsupported hbody
        rw [if_neg hlast] at hdecode
        obtain ⟨text, herror⟩ := hdecode
        rw [hok] at herror
        cases herror
      subst hcount
      exact ⟨codec :: last :: (body ++ [last]), ⟨codec, last, body, hsupported, hbody, rfl⟩, after,
        by simp⟩
  · rintro ⟨w, ⟨codec, count, body, hsupported, hbody, rfl⟩, after, rfl⟩
    have hdecode := @decodeAvlArray_whole codec count count body after hsupported hbody
    rw [if_pos rfl] at hdecode
    simpa using hdecode

/-- No data array continues another one. -/
theorem dataArray_prefix_free {w after : Buffer} (hw : w ∈ dataArray)
    (h : w ++ after ∈ dataArray) : after = [] := by
  obtain ⟨codec, count, body, -, hbody, rfl⟩ := hw
  obtain ⟨codec', count', body', -, hbody', heq⟩ := h
  simp only [List.cons_append, List.cons.injEq, List.append_assoc, List.nil_append] at heq
  obtain ⟨rfl, rfl, heq⟩ := heq
  obtain ⟨rs, hread⟩ := (recognizes_array codec count).complete body hbody (count :: after)
  obtain ⟨rs', hread'⟩ := (recognizes_array codec count).complete body' hbody' [count]
  rw [heq, hread'] at hread
  simp only [Except.ok.injEq, Prod.mk.injEq, List.cons.injEq, true_and] at hread
  exact hread.2.symm

/-- Bytes are left over behind a data array. -/
def LeavesBytes (s : Buffer) : Prop := ∃ w ∈ dataArray, ∃ after, after ≠ [] ∧ s = w ++ after

theorem not_leavesBytes {s : Buffer} (h : s ∈ dataArray) : ¬ LeavesBytes s := by
  rintro ⟨w, hw, after, hne, rfl⟩
  exact hne (dataArray_prefix_free hw h)

/-- What begins with a data array is one, or leaves bytes. -/
theorem Begins.mem_iff {s : Buffer} (h : Begins s) : s ∈ dataArray ↔ ¬ LeavesBytes s := by
  refine ⟨not_leavesBytes, fun hnone => ?_⟩
  obtain ⟨w, hw, after, rfl⟩ := h
  by_cases hafter : after = []
  · rwa [hafter, List.append_nil]
  · exact absurd ⟨w, hw, after, hafter, rfl⟩ hnone

/-- The data array of a datagram, behind its header and the IMEI. -/
def avlArray (dgram : Buffer) : Buffer := dgram.drop (8 + 15)

/-- A datagram that is accepted has an array that is. -/
theorem decodeUdpDatagram_ok {dgram : Buffer} {out : DecodedUdp}
    (h : decodeUdpDatagram dgram = .ok out) :
    decodeAvlArray (avlArray dgram) = .ok out.avl ∧
      dgram.length = Buffer.toNatBE (dgram.subarray 0 2) + 2 ∧ 8 + 15 ≤ dgram.length := by
  unfold decodeUdpDatagram Buffer.readUIntBE at h
  simp only [bind, Except.bind, throw, throwThe, MonadExceptOf.throw] at h
  by_cases hshort : dgram.length < 5
  · rw [if_pos hshort] at h
    cases h
  · rw [if_neg hshort, if_pos (show 0 + 2 ≤ dgram.length by omega)] at h
    by_cases hlength : dgram.length = Buffer.toNatBE (dgram.subarray 0 2) + 2
    · simp only [Nat.zero_add, ← hlength, ne_eq, not_true_eq_false, if_false] at h
      split at h
      · cases h
      · split at h
        · cases h
        · split at h
          · cases h
          · split at h
            · cases h
            · split at h
              · cases h
              · split at h
                · cases h
                · rename_i havl
                  cases h
                  refine ⟨havl, hlength, ?_⟩
                  -- an array that ends before its first byte is not decoded
                  by_contra hnone
                  rw [List.drop_of_length_le (by omega)] at havl
                  cases havl
    · simp only [Nat.zero_add, ne_eq, hlength, not_false_eq_true, if_true] at h
      cases h

/-- The length that a datagram declares is that of its header, the IMEI and one data array. -/
def WhollyConsumed (dgram : Buffer) : Prop :=
  Buffer.toNatBE (dgram.subarray 0 2) + 2 = 8 + 15 + (avlArray dgram).length ∧
    avlArray dgram ∈ dataArray

/-- **Which strings are accepted**: exactly the data arrays, of all strings that leave no bytes
behind a data array; and a datagram that is accepted is wholly consumed exactly if its array
leaves none. -/
theorem grammar_iff (s dgram : Buffer) :
    (((∃ pkt, decodeAvlArray s = .ok pkt) ↔ s ∈ dataArray) ↔ ¬ LeavesBytes s) ∧
      ∀ out, decodeUdpDatagram dgram = .ok out →
        (WhollyConsumed dgram ↔ ¬ LeavesBytes (avlArray dgram)) := by
  constructor
  · rw [decodes_iff]
    constructor
    · rintro hsame hleaves
      obtain ⟨w, hw, after, -, rfl⟩ := id hleaves
      exact not_leavesBytes (hsame.mp ⟨w, hw, after, rfl⟩) hleaves
    · intro hnone
      exact ⟨fun hbegins => hbegins.mem_iff.mpr hnone, fun hs => ⟨s, hs, [], by simp⟩⟩
  · intro out hok
    obtain ⟨havl, hlength, hlong⟩ := decodeUdpDatagram_ok hok
    have hbegins : Begins (avlArray dgram) := (decodes_iff _).mp ⟨_, havl⟩
    have hheader : Buffer.toNatBE (dgram.subarray 0 2) + 2 = 8 + 15 + (avlArray dgram).length := by
      rw [avlArray, List.length_drop]
      omega
    rw [WhollyConsumed, and_iff_right hheader, hbegins.mem_iff]

/-- A datagram around a data array. -/
def sampleDatagram (array : Buffer) : Buffer :=
  Buffer.ofNatBE 2 (21 + array.length) ++ [0xca, 0xfe, 0x01, 0x05, 0x00, 0x0f] ++
    Buffer.ofAscii "352093086403655" ++ array

/-- An array of no records. -/
def sampleArray : Buffer := [0x08, 0x00, 0x00]

theorem sampleArray_mem : sampleArray ∈ dataArray := by
  refine ⟨0x08, 0x00, [], Or.inl rfl, ?_, rfl⟩
  show [] ∈ record ((0x08 : UInt8).toNat == CODEC_8_EXT) ^ 0
  rw [pow_zero]
  exact Language.nil_mem_one

/-- A datagram of exactly one array. -/
theorem sample_grammar : ∃ out, decodeUdpDatagram (sampleDatagram sampleArray) = .ok out ∧
    (WhollyConsumed (sampleDatagram sampleArray) ↔
      ¬ LeavesBytes (avlArray (sampleDatagram sampleArray))) := by
  have hsome : (decodeUdpDatagram (sampleDatagram sampleArray)).toOption.isSome = true := by
    decide +kernel
  obtain ⟨out, hout⟩ := Option.isSome_iff_exists.mp hsome
  exact ⟨out, ok_of_toOption hout, (grammar_iff [] _).2 out (ok_of_toOption hout)⟩

/-- **A byte behind the array is not noticed**, neither in a data field nor in a datagram. -/
theorem leftover_accepted :
    (∃ pkt, decodeAvlArray (sampleArray ++ [0xff]) = .ok pkt) ∧
      sampleArray ++ [0xff] ∉ dataArray ∧
      (∃ out, decodeUdpDatagram (sampleDatagram (sampleArray ++ [0xff])) = .ok out) ∧
      ¬ WhollyConsumed (sampleDatagram (sampleArray ++ [0xff])) := by
  have hnot : sampleArray ++ [0xff] ∉ dataArray := fun h =>
    absurd (dataArray_prefix_free sampleArray_mem h) (List.cons_ne_nil _ _)
  have harray : avlArray (sampleDatagram (sampleArray ++ [0xff])) = sampleArray ++ [0xff] := by
    decide +kernel
  have hsome : (decodeUdpDatagram
      (sampleDatagram (sampleArray ++ [0xff]))).toOption.isSome = true := by
    decide +kernel
  obtain ⟨out, hout⟩ := Option.isSome_iff_exists.mp hsome
  refine ⟨(decodes_iff _).mpr ⟨sampleArray, sampleArray_mem, [0xff], rfl⟩, hnot,
    ⟨out, ok_of_toOption hout⟩, fun h => hnot ?_⟩
  rw [← harray]
  exact h.2

/-! ## How the rest is rejected -/

/-- The decoder of data arrays fails with a decode error, or past the end. -/
theorem decodeAvlArray_total (s : Buffer) :
    ((∃ pkt, decodeAvlArray s = .ok pkt) ∨
      ∃ text, decodeAvlArray s = .error (.teltonikaDecodeError text)) ↔ Whole s := by
  constructor
  · intro h
    by_contra hcut
    rw [decodeAvlArray_outOfBounds hcut] at h
    rcases h with ⟨pkt, h⟩ | ⟨text, h⟩ <;> cases h
  · intro h
    match s with
    | [] => exact h.elim
    | [codec] => exact h.elim
    | codec :: count :: rest =>
      by_cases hsupported : Supported codec
      · obtain ⟨body, hbody, last, after, rfl⟩ := h hsupported
        have hdecode := @decodeAvlArray_whole codec count last body after hsupported hbody
        split_ifs at hdecode
        · exact Or.inl hdecode
        · exact Or.inr hdecode
      · exact Or.inr (decodeAvlArray_unsupported count rest hsupported)

/-- The frames that are decoded, or whose defect the decoder looks for: the checksum is there, and
it is wrong or the data array is whole. -/
def Reported (frame : Buffer) : Prop :=
  frame.length < 12 ∨ Buffer.toNatBE (frame.subarray 0 4) ≠ 0 ∨
    (dataField frame).length ≠ dataLength frame ∨
    (8 + dataLength frame + 4 ≤ frame.length ∧
      (crc16IBM (dataField frame) ≠ sentCrc frame ∨ Whole (dataField frame)))

/-- A frame outside these is malformed where the decoder does not look: it reads past the end. -/
theorem decodeTcpPacket_outOfBounds {frame : Buffer} (h : ¬ Reported frame) :
    decodeTcpPacket frame = .error Buffer.outOfBounds := by
  simp only [Reported, not_or, not_and, ne_eq, not_not] at h
  obtain ⟨hlong, hpreamble, hfield, hrest⟩ := h
  rw [decodeTcpPacket_eq, openFrame, if_neg hlong, if_neg (by simp [hpreamble]),
    if_neg (by simp [hfield])]
  by_cases hcomplete : frame.length < 8 + dataLength frame + 4
  · rw [if_pos hcomplete]
    rfl
  · obtain ⟨hcrc, hcut⟩ := hrest (by omega)
    rw [if_neg hcomplete, if_neg (by simp [hcrc])]
    exact decodeAvlArray_outOfBounds hcut

theorem decodeTcpPacket_reported {frame : Buffer} (h : Reported frame) :
    (∃ pkt, decodeTcpPacket frame = .ok pkt) ∨
      ∃ text, decodeTcpPacket frame = .error (.teltonikaDecodeError text) := by
  rw [decodeTcpPacket_eq, openFrame]
  by_cases hshort : frame.length < 12
  · rw [if_pos hshort]
    exact Or.inr ⟨_, rfl⟩
  rw [if_neg hshort]
  by_cases hpreamble : Buffer.toNatBE (frame.subarray 0 4) ≠ 0
  · rw [if_pos hpreamble]
    exact Or.inr ⟨_, rfl⟩
  rw [if_neg hpreamble]
  by_cases hfield : (dataField frame).length ≠ dataLength frame
  · rw [if_pos hfield]
    exact Or.inr ⟨_, rfl⟩
  rw [if_neg hfield]
  -- the checks before the checksum have passed
  obtain ⟨hcomplete, hdecides⟩ :=
    ((h.resolve_left hshort).resolve_left hpreamble).resolve_left hfield
  rw [if_neg (by omega)]
  by_cases hcrc : crc16IBM (dataField frame) ≠ sentCrc frame
  · rw [if_pos hcrc]
    exact Or.inr ⟨_, rfl⟩
  · rw [if_neg hcrc]
    exact (decodeAvlArray_total _).mpr (hdecides.resolve_left hcrc)

end FleetTracking.Protocol
