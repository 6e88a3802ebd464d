import FleetTracking.Lib.Crc
import FleetTracking.Protocol.Envelope

/-!
# What the Checksum Notices

The checksum of the frames is a CRC of 16 bits over bytes, with a polynomial of odd weight.

1. `crc16IBM_eq`: the loop of the source is such a CRC.
2. `crc16IBM_ne`: the changes of a data field that change its checksum.
3. `corruption_caught`: with such a change, the decoders reject the frame.
-/

namespace FleetTracking.Protocol

/-- The polynomial of CRC-16/IBM, reflected. -/
def polynomial : BitVec 16 := 0xa001

/-- The bytes as bit vectors. -/
def Buffer.bits (data : Buffer) : List (BitVec 8) := data.map UInt8.toBitVec

theorem crcBit_eq (crc : BitVec 16) : crcBit crc = Crc.shift polynomial crc := by
  have hlow : (crc &&& 1 ≠ 0) ↔ crc.getLsbD 0 = true := by
    have hand : crc &&& 1#16 = (BitVec.ofBool (crc.getLsbD 0)).setWidth 16 :=
      BitVec.and_one_eq_setWidth_ofBool_getLsbD
    rw [BitVec.ofNat_eq_ofNat, BitVec.ofNat_eq_ofNat, hand]
    cases crc.getLsbD 0 <;> simp
  simp only [crcBit, Crc.shift, polynomial, hlow]

theorem crcByte_eq (crc : BitVec 16) (b : UInt8) :
    crcByte crc b = Crc.absorb polynomial crc b.toBitVec := by
  have hloop : crcBit = Crc.shift polynomial := funext crcBit_eq
  rw [crcByte, Crc.absorb, hloop]

/-- The two loops of `crc16IBM`. -/
theorem crc16IBM_eq (data : Buffer) :
    crc16IBM data = (Crc.checksum polynomial 0 data.bits).toNat := by
  have hbytes : crcByte = fun crc b => Crc.absorb polynomial crc b.toBitVec := by
    funext crc b
    exact crcByte_eq crc b
  rw [crc16IBM, Crc.checksum, Buffer.bits, List.foldl_map, hbytes]

/-- The three bits of the polynomial. -/
theorem weight_polynomial : (Crc.weight polynomial : ZMod 2) = 1 := by
  have hthree : Crc.weight polynomial = 3 := by decide
  rw [hthree]
  decide

/-! ## Changed data -/

/-- The number of bits in which two data fields differ. -/
def bitsChanged (d d' : Buffer) : Nat := Crc.distance d.bits d'.bits

/-- The data fields differ, within two adjacent bytes only. -/
def WithinTwoBytes (d d' : Buffer) : Prop :=
  d ≠ d' ∧ ∃ i, ∀ j, j ≠ i → j ≠ i + 1 → d[j]? = d'[j]?

theorem bits_injective : Function.Injective Buffer.bits :=
  List.map_injective_iff.mpr fun _ _ => UInt8.toBitVec_inj.mp

/-- **Corruption changes the checksum.** -/
theorem crc16IBM_ne {d d' : Buffer} (hlength : d.length = d'.length)
    (h : bitsChanged d d' % 2 = 1 ∨ WithinTwoBytes d d') : crc16IBM d' ≠ crc16IBM d := by
  have hbits : d.bits.length = d'.bits.length := by simpa [Buffer.bits] using hlength
  rw [crc16IBM_eq, crc16IBM_eq, ne_eq, BitVec.toNat_inj]
  rcases h with hodd | ⟨hne, i, hsame⟩
  · exact Crc.checksum_ne_of_odd polynomial weight_polynomial (by decide) 0 hbits hodd
  · refine Crc.checksum_ne_of_burst polynomial (by decide) (by decide) 0 hbits
      (fun h => hne (bits_injective h)) ⟨i, fun j hj hj' => ?_⟩
    simp only [Buffer.bits, List.getElem?_map, hsame j hj hj']

/-! ## Frames -/

/-- A frame that either decoder accepts is intact. -/
theorem intact_of_decodeTcpPacket {frame : Buffer} {pkt : DecodedAvl}
    (h : decodeTcpPacket frame = .ok pkt) : Intact frame := by
  rw [decodeTcpPacket_eq] at h
  cases hopen : openFrame .teltonikaDecodeError tcpMismatch frame with
  | error e =>
    rw [hopen] at h
    cases h
  | ok d => exact (intact_of_openFrame hopen).1

theorem intact_of_decodeCodec12 {frame : Buffer} {msg : Codec12Message}
    (h : decodeCodec12 frame = .ok msg) : Intact frame := by
  rw [decodeCodec12_eq] at h
  cases hopen : openFrame .codec12Error codec12Mismatch frame with
  | error e =>
    rw [hopen] at h
    cases h
  | ok d => exact (intact_of_openFrame hopen).1

/-- With a changed data field and the old checksum, a frame is no longer intact. -/
theorem not_intact_withData {frame d' : Buffer} (hframe : Intact frame)
    (hlength : (dataField frame).length = d'.length)
    (h : bitsChanged (dataField frame) d' % 2 = 1 ∨ WithinTwoBytes (dataField frame) d') :
    ¬ Intact (withData frame d') := by
  intro hintact
  obtain ⟨hfield, hsent⟩ := parts_withData hframe hlength.symm
  have hcrc := hintact.crc
  rw [hfield, hsent, ← hframe.crc] at hcrc
  exact crc16IBM_ne hlength h hcrc

/-- **Corruption is caught**: data of the same length that differs in an odd number of bits, or
only within two adjacent bytes, has another checksum; and a frame whose data field is replaced by
it, while its checksum is kept, is rejected. -/
theorem corruption_caught (d d' : Buffer) (hlength : d.length = d'.length)
    (h : bitsChanged d d' % 2 = 1 ∨ WithinTwoBytes d d') :
    crc16IBM d' ≠ crc16IBM d ∧
      ∀ frame, Intact frame → dataField frame = d →
        (∃ e, decodeTcpPacket (withData frame d') = .error e) ∧
        ∃ e, decodeCodec12 (withData frame d') = .error e := by
  refine ⟨crc16IBM_ne hlength h, fun frame hframe hfield => ?_⟩
  subst hfield
  have hbroken := not_intact_withData hframe hlength h
  constructor
  · cases hdecode : decodeTcpPacket (withData frame d') with
    | error e => exact ⟨e, rfl⟩
    | ok pkt => exact absurd (intact_of_decodeTcpPacket hdecode) hbroken
  · cases hdecode : decodeCodec12 (withData frame d') with
    | error e => exact ⟨e, rfl⟩
    | ok msg => exact absurd (intact_of_decodeCodec12 hdecode) hbroken

/-- The answer to a command, with two bytes of its text changed. -/
theorem sample_corruption_caught :
    crc16IBM [0x0c, 0x01, 0x06, 0, 0, 0, 2, 0x6e, 0x6f, 0x01] ≠
        crc16IBM [0x0c, 0x01, 0x06, 0, 0, 0, 2, 0x4f, 0x4b, 0x01] ∧
      ∀ frame, Intact frame →
        dataField frame = [0x0c, 0x01, 0x06, 0, 0, 0, 2, 0x4f, 0x4b, 0x01] →
        (∃ e, decodeTcpPacket
          (withData frame [0x0c, 0x01, 0x06, 0, 0, 0, 2, 0x6e, 0x6f, 0x01]) = .error e) ∧
        ∃ e, decodeCodec12
          (withData frame [0x0c, 0x01, 0x06, 0, 0, 0, 2, 0x6e, 0x6f, 0x01]) = .error e := by
  refine corruption_caught _ _ rfl (Or.inr ⟨by decide, 7, fun j hj hj' => ?_⟩)
  match j with
  | 0 | 1 | 2 | 3 | 4 | 5 | 6 => rfl
  | 7 => exact absurd rfl hj
  | 8 => exact absurd rfl hj'
  | 9 => rfl
  | _ + 10 => rfl

end FleetTracking.Protocol
