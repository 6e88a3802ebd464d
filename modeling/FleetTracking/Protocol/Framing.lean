import FleetTracking.Protocol.Envelope

/-!
# Frames in a Stream

What the encoders write, the framers cut out of a stream and the decoders read.

1. `extractFrame_framed`: the frame of a data field is taken off the front of any stream.
2. `extractFrames`: frame after frame, and `framing_round_trip`.
3. `command_round_trip`: commands and responses.
4. `readCodec12_ok`, `codec12_layout`: what a frame that decodes as a command looks like.
-/

namespace FleetTracking.Protocol

/-! ## One frame -/

/-- Whatever follows it, the frame is taken off as a whole. -/
theorem extractFrame_framed {d : Buffer} (h : d.length < 2 ^ 32) (rest : Buffer) :
    extractFrame (framed d ++ rest) = some (framed d, rest) := by
  obtain ⟨hintact, hfield⟩ := intact_framed h
  have hlength := length_framed d
  have hdata : dataLength (framed d) = d.length := by
    have hcomplete := hintact.complete
    have hmin := length_dataField (framed d)
    rw [hfield] at hmin
    omega
  have hsize : Buffer.toNatBE (Buffer.subarray (framed d ++ rest) 4 8) = d.length := by
    rw [Buffer.subarray_append 4 rest (by omega)]
    exact hdata
  unfold extractFrame
  rw [if_neg (by rw [List.length_append]; omega)]
  simp only [hsize, ← hlength]
  rw [if_neg (by rw [List.length_append]; omega), List.take_left, List.drop_left]

theorem extractCodec12Frame_eq (buf : Buffer) : extractCodec12Frame buf = extractFrame buf := rfl

/-! ## Frame after frame -/

/-- The loop of `drain` over the buffer: the complete frames, and what is left. -/
def extractFrames (buf : Buffer) : List Buffer × Buffer :=
  match _h : extractFrame buf with
  | none => ([], buf)
  | some (frame, rest) =>
    let (frames, left) := extractFrames rest
    (frame :: frames, left)
termination_by buf.length
decreasing_by exact extractFrame_rest ‹_›

theorem extractFrames_none {buf : Buffer} (h : extractFrame buf = none) :
    extractFrames buf = ([], buf) := by
  rw [extractFrames]
  split
  · rfl
  · rename_i hsome
    rw [h] at hsome
    cases hsome

theorem extractFrames_some {buf frame rest : Buffer} (h : extractFrame buf = some (frame, rest)) :
    extractFrames buf = (frame :: (extractFrames rest).1, (extractFrames rest).2) := by
  rw [extractFrames]
  split
  · rename_i hnone
    rw [h] at hnone
    cases hnone
  · rename_i hsome
    rw [h] at hsome
    cases hsome
    rfl

/-- The data field of an encoded packet is decoded as it is. -/
theorem decodeTcpPacket_framed {d : Buffer} (h : d.length < 2 ^ 32) :
    decodeTcpPacket (encodeTcpPacket d) = decodeAvlArray d := by
  obtain ⟨hintact, hfield⟩ := intact_framed h
  rw [encodeTcpPacket_eq, decodeTcpPacket_eq, openFrame_of_intact hintact, hfield]
  rfl

/-- **Framing round trip**: from a stream of encoded data arrays and a tail without a complete
frame, exactly these frames are taken, the tail is left, and each frame decodes as its array
does. -/
theorem framing_round_trip (ds : List Buffer) (t : Buffer) (hds : ∀ d ∈ ds, d.length < 2 ^ 32)
    (ht : extractFrame t = none) :
    extractFrames (ds.flatMap encodeTcpPacket ++ t) = (ds.map encodeTcpPacket, t) ∧
      ∀ d ∈ ds, decodeTcpPacket (encodeTcpPacket d) = decodeAvlArray d := by
  refine ⟨?_, fun d hd => decodeTcpPacket_framed (hds d hd)⟩
  induction ds with
  | nil => exact extractFrames_none ht
  | cons d ds ih =>
    have htail := ih fun d' hd' => hds d' (List.mem_cons_of_mem _ hd')
    have hfirst := extractFrame_framed (hds d List.mem_cons_self)
      (ds.flatMap encodeTcpPacket ++ t)
    rw [List.flatMap_cons, List.append_assoc, encodeTcpPacket_eq, extractFrames_some hfirst, htail]
    rfl

/-- Two arrays, of which the second is none, and the beginning of a third frame. -/
theorem sample_framing :
    extractFrames ([[0x08, 0x00, 0x00], [0x8e]].flatMap encodeTcpPacket ++ [0, 0, 0]) =
        ([[0x08, 0x00, 0x00], [0x8e]].map encodeTcpPacket, [0, 0, 0]) ∧
      ∀ d ∈ [[0x08, 0x00, 0x00], [0x8e]],
        decodeTcpPacket (encodeTcpPacket d) = decodeAvlArray d := by
  refine framing_round_trip _ _ (fun d hd => ?_) rfl
  simp only [List.mem_cons, List.not_mem_nil, or_false] at hd
  rcases hd with rfl | rfl <;> decide

/-! ## Commands and responses -/

/-- The data field around a text. -/
def codec12Field (type : Nat) (text : String) : Buffer :=
  let body := Buffer.ofAscii text
  Buffer.ofNatBE 1 CODEC_12 ++ [0x01] ++ Buffer.ofNatBE 1 type ++
    Buffer.ofNatBE 4 body.length ++ body ++ [0x01]

theorem encodeCodec12_eq (type : Nat) (text : String) :
    encodeCodec12 type text = framed (codec12Field type text) := rfl

/-- A text of ASCII characters. -/
def Ascii (text : String) : Prop := ∀ c ∈ text.toList, c.toNat < 128

theorem length_ofAscii (text : String) : (Buffer.ofAscii text).length = text.length := by
  rw [Buffer.ofAscii, List.length_map, String.length_toList]

theorem length_codec12Field (type : Nat) (text : String) :
    (codec12Field type text).length = text.length + 8 := by
  simp only [codec12Field, List.length_append, Buffer.length_ofNatBE, length_ofAscii,
    List.length_singleton]
  omega

/-- ASCII survives the way there and back. -/
theorem toAscii_ofAscii {text : String} (h : Ascii text) :
    (Buffer.ofAscii text).toAscii = text := by
  have hchar : ∀ c ∈ text.toList,
      Char.ofNat ((UInt8.ofNat (c.toNat % 256)).toNat % 128) = c := by
    intro c hc
    have hlow := h c hc
    have hbyte : (UInt8.ofNat (c.toNat % 256)).toNat % 128 = c.toNat := by
      simp only [UInt8.toNat_ofNat']
      omega
    rw [hbyte, Char.ofNat_toNat]
  have hmap : text.toList.map ((fun b : UInt8 => Char.ofNat (b.toNat % 128)) ∘
      fun c => UInt8.ofNat (c.toNat % 256)) = text.toList :=
    (List.map_congr_left hchar).trans (List.map_id' _)
  rw [Buffer.toAscii, Buffer.ofAscii, List.map_map, hmap, String.ofList_toList]

/-- What is read of the data field around a text. -/
theorem readCodec12_field {type : Nat} {text : String} (htype : type < 256)
    (hlength : text.length < 2 ^ 32) :
    readCodec12.run (codec12Field type text) =
      .ok (⟨type, (Buffer.ofAscii text).toAscii⟩, [0x01]) := by
  have hbody := length_ofAscii text
  have hreads : Reader.Reads readCodec12
      (Buffer.ofNatBE 1 CODEC_12 ++ (Buffer.ofNatBE 1 0x01 ++ (Buffer.ofNatBE 1 type ++
        (Buffer.ofNatBE 4 (Buffer.ofAscii text).length ++ (Buffer.ofAscii text ++ [])))))
      ⟨type, (Buffer.ofAscii text).toAscii⟩ := by
    refine (@Reader.reads_uint 1 _ (by decide)).bind ?_
    rw [if_neg (by simp)]
    refine (@Reader.reads_uint 1 _ (by decide)).bind ?_
    refine (@Reader.reads_uint 1 type (by omega)).bind ?_
    refine (@Reader.reads_uint 4 _ (by omega)).bind ?_
    exact ((Reader.reads_bytes (Buffer.ofAscii text)).map Buffer.toAscii).bind
      (Reader.reads_pure _)
  have hquantity : Buffer.ofNatBE 1 0x01 = [0x01] := rfl
  have hrun := hreads [0x01]
  simpa [codec12Field, StateT.run, hquantity] using hrun

/-- Frames of either type. -/
theorem codec12_round_trip {type : Nat} {text : String} (htype : type < 256) (hascii : Ascii text)
    (hlength : text.length < 2 ^ 32 - 8) (rest : Buffer) :
    extractCodec12Frame (encodeCodec12 type text ++ rest) =
        some (encodeCodec12 type text, rest) ∧
      extractFrame (encodeCodec12 type text ++ rest) = some (encodeCodec12 type text, rest) ∧
      decodeCodec12 (encodeCodec12 type text) = .ok ⟨type, text⟩ := by
  have hfits : (codec12Field type text).length < 2 ^ 32 := by
    rw [length_codec12Field]
    omega
  have hextract := extractFrame_framed hfits rest
  obtain ⟨hintact, hfield⟩ := intact_framed hfits
  refine ⟨hextract, hextract, ?_⟩
  have hread := @readCodec12_field type text htype (by omega)
  rw [toAscii_ofAscii hascii] at hread
  rw [encodeCodec12_eq, decodeCodec12_eq, openFrame_of_intact hintact, hfield]
  show Prod.fst <$> readCodec12.run (codec12Field type text) = _
  rw [hread]
  rfl

/-- **Command and response round trip**: whatever follows it in the stream, the frame of an ASCII
text is cut out by either framer, and decodes to its type and text. -/
theorem command_round_trip (s : String) (hascii : Ascii s) (hlength : s.length < 2 ^ 32 - 8)
    (rest : Buffer) :
    (extractCodec12Frame (encodeCommand s ++ rest) = some (encodeCommand s, rest) ∧
      extractFrame (encodeCommand s ++ rest) = some (encodeCommand s, rest) ∧
      decodeCodec12 (encodeCommand s) = .ok ⟨0x05, s⟩) ∧
    (extractCodec12Frame (encodeResponse s ++ rest) = some (encodeResponse s, rest) ∧
      extractFrame (encodeResponse s ++ rest) = some (encodeResponse s, rest) ∧
      decodeCodec12 (encodeResponse s) = .ok ⟨0x06, s⟩) :=
  ⟨codec12_round_trip (by decide) hascii hlength rest,
    codec12_round_trip (by decide) hascii hlength rest⟩

theorem sample_ascii : Ascii "getinfo" := by
  have hall : "getinfo".toList.all (fun c => decide (c.toNat < 128)) = true := by decide
  exact fun c hc => of_decide_eq_true (List.all_eq_true.mp hall c hc)

theorem sample_command_round_trip :
    (extractCodec12Frame (encodeCommand "getinfo" ++ [0x00]) =
        some (encodeCommand "getinfo", [0x00]) ∧
      extractFrame (encodeCommand "getinfo" ++ [0x00]) = some (encodeCommand "getinfo", [0x00]) ∧
      decodeCodec12 (encodeCommand "getinfo") = .ok ⟨0x05, "getinfo"⟩) ∧
    (extractCodec12Frame (encodeResponse "getinfo" ++ [0x00]) =
        some (encodeResponse "getinfo", [0x00]) ∧
      extractFrame (encodeResponse "getinfo" ++ [0x00]) =
        some (encodeResponse "getinfo", [0x00]) ∧
      decodeCodec12 (encodeResponse "getinfo") = .ok ⟨0x06, "getinfo"⟩) :=
  command_round_trip "getinfo" sample_ascii (by decide) [0x00]

/-! ## Frames that decode as commands -/

/-- The data field is codec id, quantity, type, size, a payload of this size and the quantity
again; the message is the type and the payload. -/
def StrictLayout (d : Buffer) (msg : Codec12Message) : Prop :=
  ∃ quantity type payload, payload.length < 2 ^ 32 ∧
    d = 0x0c :: quantity :: type :: (Buffer.ofNatBE 4 payload.length ++ payload ++ [quantity]) ∧
    msg = ⟨type.toNat, Buffer.toAscii payload⟩

/-- What is read of a data field: the size, then as much of the payload as there is. -/
theorem readCodec12_ok {d rest : Buffer} {msg : Codec12Message}
    (h : readCodec12 d = .ok (msg, rest)) :
    ∃ quantity type size body, size.length = 4 ∧
      d = 0x0c :: quantity :: type :: (size ++ body) ∧
      msg = ⟨type.toNat, Buffer.toAscii (body.take (Buffer.toNatBE size))⟩ := by
  unfold readCodec12 at h
  -- codec, quantity, type and size, in the order in which the reader takes them
  obtain ⟨codecId, afterCodec, hcodec, hcheck⟩ := Reader.bind_ok h
  obtain ⟨b, hd, hb⟩ := Reader.u8_ok hcodec
  split at hcheck
  · cases hcheck
  · rename_i hknown
    rw [hb] at hknown
    have hb : b = 0x0c := UInt8.toNat_inj.mp (not_not.mp hknown)
    obtain ⟨qty, afterQty, hqty, htail⟩ := Reader.bind_ok hcheck
    obtain ⟨quantity, rfl, -⟩ := Reader.u8_ok hqty
    obtain ⟨typeId, afterType, htype, hsized⟩ := Reader.bind_ok htail
    obtain ⟨type, rfl, rfl⟩ := Reader.u8_ok htype
    obtain ⟨size, body, hsize, hbody⟩ := Reader.bind_ok hsized
    rw [Reader.u32, Reader.uint] at hsize
    split at hsize
    case isTrue hlong =>
      cases hsize
      cases hbody
      refine ⟨quantity, type, afterType.take 4, afterType.drop 4, ?_, ?_, rfl⟩
      · rw [List.length_take]
        omega
      · rw [hd, hb, List.take_append_drop]
    case isFalse => cases hsize

/-- **The layout of a command**: a frame that decodes has a data field that begins with the codec
id, a quantity, the type and the size; and where the size agrees with the length of the data
field, the rest is a payload of exactly this size, which is returned, and one closing byte. -/
theorem codec12_layout (f : Buffer) (msg : Codec12Message) (h : decodeCodec12 f = .ok msg) :
    ∃ quantity type size rest, size.length = 4 ∧
      dataField f = 0x0c :: quantity :: type :: (size ++ rest) ∧ msg.type = type.toNat ∧
      ((dataField f).length = Buffer.toNatBE size + 8 →
        ∃ payload closing, rest = payload ++ [closing] ∧
          payload.length = Buffer.toNatBE size ∧ msg.payload = Buffer.toAscii payload) := by
  rw [decodeCodec12_eq] at h
  cases hopen : openFrame .codec12Error codec12Mismatch f with
  | error e =>
    rw [hopen] at h
    cases h
  | ok d =>
    rw [hopen] at h
    obtain ⟨-, rfl⟩ := intact_of_openFrame hopen
    change Prod.fst <$> readCodec12 (dataField f) = _ at h
    cases hread : readCodec12 (dataField f) with
    | error e =>
      rw [hread] at h
      cases h
    | ok p =>
      rw [hread] at h
      cases h
      obtain ⟨quantity, type, size, rest, hsize, hd, hmsg⟩ := readCodec12_ok hread
      refine ⟨quantity, type, size, rest, hsize, hd, by rw [hmsg], fun hlength => ?_⟩
      have hrest : rest.length = Buffer.toNatBE size + 1 := by
        rw [hd] at hlength
        simp only [List.length_cons, List.length_append, hsize] at hlength
        omega
      have hne : rest ≠ [] := by
        rintro rfl
        cases hrest
      -- all but the last byte
      refine ⟨rest.dropLast, rest.getLast hne, (List.dropLast_concat_getLast hne).symm, ?_, ?_⟩
      · rw [List.length_dropLast, hrest, Nat.add_sub_cancel]
      · rw [hmsg, List.dropLast_eq_take, hrest, Nat.add_sub_cancel]

/-- The response `OK`: its size is the one that it states, and what is between is its text. -/
theorem sample_codec12_layout : ∃ quantity type size payload closing,
    dataField (encodeResponse "OK") =
      0x0c :: quantity :: type :: (size ++ (payload ++ [closing])) ∧
    (⟨0x06, "OK"⟩ : Codec12Message).type = type.toNat ∧ size = [0, 0, 0, 2] ∧
    payload.length = Buffer.toNatBE size ∧
    (⟨0x06, "OK"⟩ : Codec12Message).payload = Buffer.toAscii payload := by
  obtain ⟨quantity, type, size, rest, hsize, hd, htype, hrest⟩ :=
    codec12_layout (encodeResponse "OK") ⟨0x06, "OK"⟩ (ok_of_toOption (by decide +kernel))
  have hfield : dataField (encodeResponse "OK") =
      [0x0c, 0x01, 0x06] ++ ([0, 0, 0, 2] ++ [0x4f, 0x4b, 0x01]) := by decide +kernel
  have htail : size ++ rest = [0, 0, 0, 2] ++ [0x4f, 0x4b, 0x01] := by
    have heq := hd.symm.trans hfield
    simp only [List.cons_append, List.nil_append, List.cons.injEq, true_and] at heq ⊢
    exact heq.2.2
  obtain ⟨rfl, -⟩ := List.append_inj htail hsize
  obtain ⟨payload, closing, rfl, hlength, hpayload⟩ := hrest (by rw [hfield]; decide)
  exact ⟨quantity, type, _, payload, closing, hd, htype, rfl, hlength, hpayload⟩

/-- The response `OK` with a closing quantity of two. -/
def otherQuantity : Buffer := [0x0c, 0x01, 0x06, 0, 0, 0, 2, 0x4f, 0x4b, 0x02]

/-- The response `OK` with a size of nine. -/
def otherSize : Buffer := [0x0c, 0x01, 0x06, 0, 0, 0, 9, 0x4f, 0x4b, 0x01]

/-- **Neither the quantities nor the lengths are compared**: a frame with two different quantities
decodes, and so does one with a size beyond its end. -/
theorem codec12_not_strict :
    (∃ msg, decodeCodec12 (framed otherQuantity) = .ok msg ∧
      ¬ StrictLayout (dataField (framed otherQuantity)) msg) ∧
    ∃ msg, decodeCodec12 (framed otherSize) = .ok msg ∧
      ¬ StrictLayout (dataField (framed otherSize)) msg := by
  -- ten bytes leave room for a payload of two
  have hpayload : ∀ {quantity type : UInt8} {payload d : Buffer}, d.length = 10 →
      d = 0x0c :: quantity :: type :: (Buffer.ofNatBE 4 payload.length ++ payload ++ [quantity]) →
      ∃ a b, payload = [a, b] := by
    intro quantity type payload d hten heq
    rw [heq] at hten
    simp only [List.length_cons, List.length_append, Buffer.length_ofNatBE, List.length_nil] at hten
    exact List.length_eq_two.mp (by omega)
  constructor
  · refine ⟨⟨0x06, "OK"⟩, ok_of_toOption (by decide +kernel), ?_⟩
    rw [(@intact_framed otherQuantity (by decide)).2]
    rintro ⟨quantity, type, payload, -, heq, -⟩
    obtain ⟨a, b, rfl⟩ := hpayload rfl heq
    -- the first quantity is 1 and the last 2
    have hfirst : some (0x01 : UInt8) = some quantity := congrArg (fun d : Buffer => d[1]?) heq
    have hlast : some (0x02 : UInt8) = some quantity := congrArg (fun d : Buffer => d[9]?) heq
    rw [← hfirst] at hlast
    cases hlast
  · refine ⟨⟨0x06, "OK\x01"⟩, ok_of_toOption (by decide +kernel), ?_⟩
    rw [(@intact_framed otherSize (by decide)).2]
    rintro ⟨quantity, type, payload, -, heq, -⟩
    obtain ⟨a, b, rfl⟩ := hpayload rfl heq
    -- the size says nine
    have hsize : some (9 : UInt8) = some 2 := congrArg (fun d : Buffer => d[6]?) heq
    cases hsize

end FleetTracking.Protocol
