import FleetTracking.Ingestion.Session
import FleetTracking.Protocol.Acceptance

/-!
# How Failures Are Counted

A session that fails counts the failure under a reason, from the class of the error.

1. `Session.failReason`: the reason.
2. `decode_errors_iff`: the malformed AVL frames that are counted as such.
-/

namespace FleetTracking.Ingestion

open FleetTracking.Protocol

/-- `Session.fail`: the reason under which an error is counted. -/
def Session.failReason : JsError → String
  | .teltonikaDecodeError _ => "decode"
  | _ => "handler"

/-- **Malformed frames as decode errors**: a frame is decoded, or rejected with a decode error,
exactly if its defect is one the decoder looks for; and exactly then a frame that is rejected is
counted under `decode`. -/
theorem decode_errors_iff (frame : Buffer) :
    (((∃ pkt, decodeTcpPacket frame = .ok pkt) ∨
      ∃ text, decodeTcpPacket frame = .error (.teltonikaDecodeError text)) ↔ Reported frame) ∧
    ∀ e, decodeTcpPacket frame = .error e →
      (Session.failReason e = "decode" ↔ Reported frame) := by
  by_cases hreported : Reported frame
  · have hdecode := decodeTcpPacket_reported hreported
    refine ⟨iff_of_true hdecode hreported, fun e he => iff_of_true ?_ hreported⟩
    rcases hdecode with ⟨pkt, hok⟩ | ⟨text, herror⟩
    · rw [hok] at he
      cases he
    · rw [herror] at he
      cases he
      rfl
  · have hdecode := decodeTcpPacket_outOfBounds hreported
    constructor
    · refine iff_of_false ?_ hreported
      rintro (⟨pkt, hok⟩ | ⟨text, herror⟩)
      · rw [hdecode] at hok
        cases hok
      · rw [hdecode] at herror
        cases herror
    · intro e he
      rw [hdecode] at he
      cases he
      exact iff_of_false (by decide) hreported

/-- A frame around one byte, with a checksum of zero. -/
def sampleBadCrc : Buffer := [0, 0, 0, 0, 0, 0, 0, 1, 0x8e, 0, 0, 0, 0]

theorem sample_decode_errors : ∃ e, decodeTcpPacket sampleBadCrc = .error e ∧
    (Session.failReason e = "decode" ↔ Reported sampleBadCrc) := by
  have hnone : (decodeTcpPacket sampleBadCrc).toOption = none := by decide +kernel
  cases hdecode : decodeTcpPacket sampleBadCrc with
  | error e => exact ⟨e, rfl, (decode_errors_iff sampleBadCrc).2 e hdecode⟩
  | ok pkt =>
    rw [hdecode] at hnone
    cases hnone

/-- **A frame that ends early is counted as a failure of the handler**: its checksum is right, but
the array in it ends after the codec id. -/
theorem cut_frame_counted_as_handler :
    (∃ e, decodeTcpPacket (encodeTcpPacket [0x8e]) = .error e ∧
      (∀ text, e ≠ .teltonikaDecodeError text) ∧ Session.failReason e = "handler") := by
  obtain ⟨hintact, hfield⟩ := @intact_framed [0x8e] (by decide)
  have hcut : ¬ Whole [0x8e] := fun h => h
  refine ⟨Buffer.outOfBounds, ?_, (fun text h => by cases h), rfl⟩
  rw [encodeTcpPacket_eq, decodeTcpPacket_eq, openFrame_of_intact hintact, hfield]
  exact decodeAvlArray_outOfBounds hcut

end FleetTracking.Ingestion
