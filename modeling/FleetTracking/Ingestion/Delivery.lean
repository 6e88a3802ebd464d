import FleetTracking.Ingestion.Dedupe
import FleetTracking.Lib.Typestate
import FleetTracking.Protocol.Udp

/-!
# Deliveries: Dedupe, Durable Write, Acknowledgement

A delivery is one AVL frame on a logged-in TCP session or one UDP datagram. Its handler
decodes the packet, asks the deduper about every record, writes the new ones to the sink
and acknowledges the packet. All handlers share one deduper and one sink.
-/

namespace FleetTracking.Ingestion

open FleetTracking.Protocol Async

/-- What a handler awaits. -/
inductive IngestOp where
  | isAllowed (imei : String)
  | checkAndSet (key : String)
  | write (records : List NormalizedTelemetry)

/-- What a handler does at once: answer the device, or drop its connection. -/
inductive IngestAct where
  | send (buf : Buffer)
  | close

/-- What the awaited operations resolve with. -/
@[reducible] def IngestOp.Res : IngestOp → Type
  | .isAllowed _ => Bool
  | .checkAndSet _ => Bool
  | .write _ => Unit

/-- The operations of the ingestion handlers. -/
abbrev ingestSig : Sig := ⟨IngestOp, IngestOp.Res, IngestAct, fun _ => Unit, JsError⟩

abbrev request (op : IngestOp) : Async ingestSig op.Res := Async.perform (S := ingestSig) op
abbrev emit (a : IngestAct) : Async ingestSig Unit := Async.action (S := ingestSig) a
abbrev check {α : Type} (x : Except JsError α) : Async ingestSig α := ofExcept (S := ingestSig) x

section Handlers

variable (sha1 : String → String)

/-- The loop over the records: those the deduper has not seen, normalised. -/
def freshRecords (imei : String) : List AvlRecord → Async ingestSig (List NormalizedTelemetry)
  | [] => pure []
  | rec :: rest => do
    let isNew ← request (.checkAndSet (dedupeKey sha1 imei rec))
    if isNew then
      let tel ← check (normalize imei rec)
      let fresh ← freshRecords imei rest
      pure (tel :: fresh)
    else freshRecords imei rest

/-- `Session.handleAvl` on a session logged in as `imei`. -/
def handleAvl (imei : String) (frame : Buffer) : Async ingestSig Unit := do
  let pkt ← check (decodeTcpPacket frame)
  let fresh ← freshRecords sha1 imei pkt.records
  request (.write fresh)
  emit (.send (buildTcpAck pkt.recordCount))

/-- The body of `IngestionUdpServer.onMessage` inside its `try`. -/
def handleDatagram (msg : Buffer) : Async ingestSig Unit := do
  let d ← check (decodeUdpDatagram msg)
  let allowed ← request (.isAllowed d.imei)
  if allowed then
    let fresh ← freshRecords sha1 d.imei d.avl.records
    request (.write fresh)
    emit (.send (buildUdpAck d.packetId d.avlPacketId d.avl.recordCount))
  else pure ()

/-- `IngestionUdpServer.onMessage`: an error means no acknowledgement. -/
def onMessage (msg : Buffer) : Async ingestSig Unit :=
  tryCatch (handleDatagram sha1 msg) fun _ => pure ()

end Handlers

/-- One AVL frame of a TCP session, or one datagram. -/
inductive Delivery where
  | tcp (imei : String) (frame : Buffer)
  | udp (msg : Buffer)

/-- The device and the records of a delivery that can be decoded. -/
def Delivery.packet : Delivery → Except JsError (String × List AvlRecord)
  | .tcp imei frame => (fun pkt => (imei, pkt.records)) <$> decodeTcpPacket frame
  | .udp msg => (fun d => (d.imei, d.avl.records)) <$> decodeUdpDatagram msg

/-- The handler of a delivery. On a session a failed frame closes the socket: `Session.fail`. -/
def deliver (sha1 : String → String) : Delivery → Async ingestSig Unit
  | .tcp imei frame =>
    tryCatch (handleAvl sha1 imei frame) fun _ => emit .close
  | .udp msg => onMessage sha1 msg

/-! ## The shared state -/

/-- What can be observed outside: a `sink.write` that resolved, an answer to the device. -/
inductive Obs where
  | wrote (d : Delivery) (records : List NormalizedTelemetry)
  | sent (d : Delivery) (ack : Buffer)

/-- The deduper, and what has been observed so far, newest first. -/
structure Shared (D : Deduper) where
  dedupe : D.State
  log : List Obs

/-- How an awaited operation turns out. -/
inductive Outcome (D : Deduper) where
  | allowed (r : Except JsError Bool)
  | checked (x : D.Choice)
  | written (r : Except JsError Unit)

/-- The effect of the awaited operations. -/
def Shared.settle {D : Deduper} (d : Delivery) : (op : IngestOp) → Outcome D → Shared D →
    Option (Shared D × Except JsError op.Res)
  | .isAllowed _, .allowed r, s => some (s, r)
  | .checkAndSet key, .checked x, s =>
    some ({ s with dedupe := (D.checkAndSet s.dedupe x key).1 }, (D.checkAndSet s.dedupe x key).2)
  | .write records, .written (.ok ()), s => some ({ s with log := .wrote d records :: s.log }, .ok ())
  | .write _, .written (.error e), s => some (s, .error e)
  | _, _, _ => none

/-- The effect of the actions. -/
def Shared.act {D : Deduper} (d : Delivery) : (a : IngestAct) → Shared D → Shared D × Unit
  | .send buf, s => ({ s with log := .sent d buf :: s.log }, ())
  | .close, s => (s, ())

/-- The handlers running against a shared deduper and sink. -/
def ingestion {ι : Type} (sha1 : String → String) (D : Deduper) :
    System ingestSig ι Delivery Unit (Shared D) (Outcome D) Empty where
  settle _ := Shared.settle
  act _ := Shared.act
  code := deliver sha1
  env e := e.elim

/-! ## A sample frame -/

/-- The test frame of the protocol package: one record, of 2019-06-10T10:04:46Z. -/
def sampleFrame : Buffer := encodeTcpPacket
  [0x08, 0x01, 0x00, 0x00, 0x01, 0x6B, 0x40, 0xD8, 0xEA, 0x30, 0x01, 0x00, 0x00, 0x00, 0x00,
   0x00, 0x00, 0x00, 0x00, 0x00, 0x00, 0x00, 0x00, 0x00, 0x00, 0x00, 0x01, 0x05, 0x02, 0x15,
   0x03, 0x01, 0x01, 0x01, 0x42, 0x5E, 0x0F, 0x01, 0xF1, 0x00, 0x00, 0x60, 0x1A, 0x01, 0x4E,
   0x00, 0x00, 0x00, 0x00, 0x00, 0x00, 0x00, 0x00, 0x01]

/-- A frame that decodes to one record with a valid timestamp. -/
def hasOneRecord (frame : Buffer) : Bool :=
  match decodeTcpPacket frame with
  | .ok ⟨_, _, [r]⟩ => r.timestamp.isSome
  | _ => false

/-- SHA-1, as far as the sample record is concerned. -/
def sampleSha1 (_ : String) : String := "40482f2c14f6b3ca93d67b0f9e48ce8fc8069439"

end FleetTracking.Ingestion
