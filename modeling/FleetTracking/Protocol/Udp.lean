import FleetTracking.Protocol.Codec8

/-!
# IMEI Login and UDP Datagrams

The IMEI frame with which a tracker opens a TCP connection, and the UDP channel, where
every datagram carries the IMEI and an AVL data array.
-/

namespace FleetTracking.Protocol

/-- The test `/^\d{15}$/` on the bytes of an IMEI read as ASCII. -/
def isImei (text : String) : Bool := text.length == 15 && text.toList.all Char.isDigit

structure ImeiParseResult where
  imei : String
  bytesConsumed : Nat
  deriving DecidableEq

/-- The login at the front of a TCP stream; `none` while bytes are missing. -/
def parseImei (buf : Buffer) : Except JsError (Option ImeiParseResult) := do
  if buf.length < 2 then return none
  let len ← buf.readUIntBE 0 2
  if len ≠ 15 then
    throw (.error ("Unexpected IMEI length " ++ toString len ++ " (expected 15)"))
  if buf.length < 2 + len then return none
  let imei := (buf.subarray 2 (2 + len)).toAscii
  if ¬ isImei imei then throw (.error ("IMEI is not 15 digits: \"" ++ imei ++ "\""))
  return some { imei, bytesConsumed := 2 + len }

/-- A login is read off the front of the buffer. -/
theorem parseImei_some {buf : Buffer} {login : ImeiParseResult}
    (h : parseImei buf = .ok (some login)) :
    login.bytesConsumed = 17 ∧ 17 ≤ buf.length ∧ isImei login.imei = true ∧
      login.imei = (buf.subarray 2 17).toAscii ∧ buf.readUIntBE 0 2 = .ok 15 := by
  unfold parseImei at h
  simp only [bind, Except.bind, pure, Except.pure, throw, throwThe, MonadExceptOf.throw] at h
  split at h
  · cases h
  · split at h
    · cases h
    · rename_i len hlen
      split at h
      · cases h
      · rename_i hne
        have h15 : len = 15 := by
          simpa using hne
        subst h15
        split at h
        · cases h
        · rename_i hlong
          split at h
          · cases h
          · rename_i himei
            cases h
            refine ⟨rfl, by omega, by simpa using himei, rfl, hlen⟩

/-- The bytes of the login are a login by themselves. -/
theorem parseImei_take {buf : Buffer} {login : ImeiParseResult}
    (h : parseImei buf = .ok (some login)) :
    parseImei (buf.take 17) = .ok (some ⟨login.imei, (buf.take 17).length⟩) := by
  obtain ⟨-, hlen, himei, htext, h15⟩ := parseImei_some h
  have htake : (buf.take 17).length = 17 := by
    rw [List.length_take]
    omega
  have hread : Buffer.readUIntBE (buf.take 17) 0 2 = .ok 15 := by
    rw [← h15]
    unfold Buffer.readUIntBE
    rw [if_pos (by omega), if_pos (by omega)]
    simp [Buffer.subarray, List.take_take]
  have hsub : Buffer.subarray (buf.take 17) 2 17 = buf.subarray 2 17 := by
    simp [Buffer.subarray, List.take_take]
  unfold parseImei
  simp only [hread, bind, Except.bind, pure, Except.pure, htake]
  simp [hsub, ← htext, himei]

/-- A login is read whatever comes behind it. -/
theorem parseImei_append {buf : Buffer} {login : ImeiParseResult} (more : Buffer)
    (h : parseImei buf = .ok (some login)) : parseImei (buf ++ more) = .ok (some login) := by
  obtain ⟨hconsumed, hlen, himei, htext, h15⟩ := parseImei_some h
  have hread : Buffer.readUIntBE (buf ++ more) 0 2 = .ok 15 := by
    rw [Buffer.readUIntBE_append more (by omega), h15]
  have hsub := Buffer.subarray_append 2 more hlen
  have hlong : 17 ≤ (buf ++ more).length := by
    rw [List.length_append]
    omega
  unfold parseImei
  simp only [hread, bind, Except.bind, pure, Except.pure, hsub, ← htext]
  rw [if_neg (by omega)]
  simp only [himei, not_true, if_false, ne_eq, Nat.reduceAdd]
  rw [if_neg (by omega)]
  cases login
  simp_all

/-- While bytes of a login are missing, nothing is read. -/
theorem parseImei_incomplete {buf more : Buffer} {login : ImeiParseResult}
    (h : parseImei (buf ++ more) = .ok (some login)) (hshort : buf.length < 17) :
    parseImei buf = .ok none := by
  obtain ⟨-, -, -, -, h15⟩ := parseImei_some h
  unfold parseImei
  by_cases htwo : buf.length < 2
  · rw [if_pos htwo]
    rfl
  · have hread : Buffer.readUIntBE buf 0 2 = .ok 15 := by
      rw [← Buffer.readUIntBE_append more (by omega), h15]
    simp only [hread, bind, Except.bind, pure, Except.pure]
    rw [if_neg htwo]
    simp [hshort]

/-- The login frame of a tracker. -/
def encodeImei (imei : String) : Except JsError Buffer :=
  if isImei imei then .ok ([0x00, 0x0f] ++ Buffer.ofAscii imei)
  else .error (.error "IMEI must be 15 digits")

structure DecodedUdp where
  packetId : Nat
  avlPacketId : Nat
  imei : String
  avl : DecodedAvl

/-- Decode a datagram: length, packet id, an unused byte, AVL packet id, IMEI, data array. -/
def decodeUdpDatagram (dgram : Buffer) : Except JsError DecodedUdp := do
  if dgram.length < 5 then throw (.udpDecodeError "Datagram too short")
  let length ← dgram.readUIntBE 0 2
  if dgram.length ≠ length + 2 then
    throw (.udpDecodeError
      ("Length mismatch: header " ++ toString length ++ ", datagram has " ++
        toString (dgram.length - 2)))
  let packetId ← dgram.readUIntBE 2 2
  let avlPacketId ← dgram.readUIntBE 5 1
  let imeiLen ← dgram.readUIntBE 6 2
  if imeiLen ≠ 15 then
    throw (.udpDecodeError ("Unexpected IMEI length " ++ toString imeiLen))
  let imei := (dgram.subarray 8 (8 + 15)).toAscii
  if ¬ isImei imei then throw (.udpDecodeError ("Bad IMEI \"" ++ imei ++ "\""))
  let avl ← decodeAvlArray (dgram.drop (8 + 15))
  return { packetId, avlPacketId, imei, avl }

/-- The UDP acknowledgement: the two packet ids echoed, and the accepted count. -/
def buildUdpAck (packetId avlPacketId acceptedCount : Nat) : Buffer :=
  Buffer.ofNatBE 2 5 ++ Buffer.ofNatBE 2 packetId ++ [0x01] ++
    Buffer.ofNatBE 1 avlPacketId ++ Buffer.ofNatBE 1 acceptedCount

end FleetTracking.Protocol
