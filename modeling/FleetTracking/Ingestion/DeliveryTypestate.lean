import FleetTracking.Ingestion.Delivery

/-!
# The Typestate of a Delivery Handler

What a handler may do depends on how far it has come with the records of its packet: it
asks the deduper about one record after the other, writes those that were new, and
acknowledges only after the write. `deliver_conforms` shows that the handlers of both
transports do nothing else.
-/

namespace FleetTracking.Ingestion

open FleetTracking.Protocol Async

variable {sha1 : String → String}

/-! ## Phases -/

/-- How far a handler has come. -/
inductive Stage where
  | deduping
  | written
  | over

/-- The phase of a handler: the records asked about, those still to ask about, and those
marked by this handler and not yet written. -/
structure DeliveryPhase where
  imei : String
  stage : Stage
  checked : List AvlRecord
  todo : List AvlRecord
  fresh : List AvlRecord

namespace DeliveryPhase

/-- A handler starts with all records of its packet ahead. -/
def init (d : Delivery) : DeliveryPhase :=
  match d.packet with
  | .ok (imei, recs) => ⟨imei, .deduping, [], recs, []⟩
  | .error _ => ⟨"", .over, [], [], []⟩

/-- The deduper has answered for the next record. -/
def checkedNext (q : DeliveryPhase) (r : Except JsError Bool) : DeliveryPhase :=
  match q.todo, r with
  | [], _ => q
  | _ :: _, .error _ => { q with stage := .over }
  | rec :: rest, .ok false => { q with checked := q.checked ++ [rec], todo := rest }
  | rec :: rest, .ok true =>
    { q with
      checked := q.checked ++ [rec]
      todo := rest
      fresh := q.fresh ++ [rec]
      -- an invalid date makes `normalize` throw
      stage := if rec.timestamp.isSome then q.stage else .over }

/-- The sink has answered. -/
def writtenNext (q : DeliveryPhase) : Except JsError Unit → DeliveryPhase
  | .ok () => { q with stage := .written, fresh := [] }
  | .error _ => { q with stage := .over }

/-- One more thing has been seen. -/
def next (q : DeliveryPhase) : Seen ingestSig → DeliveryPhase
  | .answered (.isAllowed _) (.ok true) => q
  | .answered (.isAllowed _) _ => { q with stage := .over }
  | .answered (.checkAndSet _) r => q.checkedNext r
  | .answered (.write _) r => q.writtenNext r
  | .did _ _ => q

variable (sha1) in
/-- What a handler may await in a phase. -/
def may (q : DeliveryPhase) : IngestOp → Prop
  | .isAllowed _ => q.stage = .deduping ∧ q.fresh = []
  | .checkAndSet key => q.stage = .deduping ∧
      ∃ rec rest, q.todo = rec :: rest ∧ key = dedupeKey sha1 q.imei rec
  | .write ws => q.stage = .deduping ∧ q.todo = [] ∧
      List.Forall₂ (fun rec tel => normalize q.imei rec = .ok tel) q.fresh ws

/-- An acknowledgement is only sent after the write. -/
def mayAct (q : DeliveryPhase) : IngestAct → Prop
  | .send _ => q.stage = .written
  | .close => True

/-- This handler has marked `key` and not yet written the record. -/
def Holds (sha1 : String → String) (q : DeliveryPhase) (key : String) : Prop :=
  ∃ rec ∈ q.fresh, dedupeKey sha1 q.imei rec = key

end DeliveryPhase

variable (sha1) in
/-- The typestate of the delivery handlers. -/
def deliveries : Typestate ingestSig Delivery Unit where
  Phase := DeliveryPhase
  init := DeliveryPhase.init
  next := DeliveryPhase.next
  may := DeliveryPhase.may sha1
  mayAct := DeliveryPhase.mayAct
  done q _ := q.stage ≠ .deduping

/-! ## The handlers follow the typestate -/

namespace DeliveryPhase

theorem checkedNext_error {q : DeliveryPhase} {rec : AvlRecord} {rest : List AvlRecord}
    (h : q.todo = rec :: rest) (e : JsError) :
    q.checkedNext (.error e) = { q with stage := .over } := by
  simp only [checkedNext, h]

theorem checkedNext_false {q : DeliveryPhase} {rec : AvlRecord} {rest : List AvlRecord}
    (h : q.todo = rec :: rest) :
    q.checkedNext (.ok false) = { q with checked := q.checked ++ [rec], todo := rest } := by
  simp only [checkedNext, h]

theorem checkedNext_true {q : DeliveryPhase} {rec : AvlRecord} {rest : List AvlRecord}
    (h : q.todo = rec :: rest) :
    q.checkedNext (.ok true) =
      { q with
        checked := q.checked ++ [rec]
        todo := rest
        fresh := q.fresh ++ [rec]
        stage := if rec.timestamp.isSome then q.stage else .over } := by
  simp only [checkedNext, h]

/-- What the record loop leaves behind: all records asked about and the new ones collected
in order, or an error. -/
def AfterDedupe (q q' : DeliveryPhase) : Except JsError (List NormalizedTelemetry) → Prop
  | .ok ws => q'.stage = .deduping ∧ q'.todo = [] ∧ q'.imei = q.imei ∧
      ∃ new, q'.fresh = q.fresh ++ new ∧
        List.Forall₂ (fun rec tel => normalize q.imei rec = .ok tel) new ws
  | .error _ => q'.stage = .over

end DeliveryPhase

open DeliveryPhase

/-- The record loop follows the typestate. Induction on the records still to ask about. -/
theorem freshRecords_conforms (recs : List AvlRecord) (q : DeliveryPhase)
    (hstage : q.stage = .deduping) (htodo : q.todo = recs) :
    (deliveries sha1).Conforms (freshRecords sha1 q.imei recs) q (AfterDedupe q) := by
  induction recs generalizing q with
  | nil => exact ⟨hstage, htodo, rfl, [], (List.append_nil _).symm, List.Forall₂.nil⟩
  | cons rec rest ih =>
    apply Typestate.conforms_bind.mpr
    apply Typestate.conforms_perform.mpr
    refine ⟨⟨hstage, rec, rest, htodo, rfl⟩, fun r => ?_⟩
    rcases r with e | isNew
    · show (q.checkedNext (.error e)).stage = .over
      rw [checkedNext_error htodo]
    · cases isNew with
      | false =>
        -- a duplicate: go on with the rest
        have hq : (deliveries sha1).next q
            (.answered (.checkAndSet (dedupeKey sha1 q.imei rec)) (.ok false)) =
            { q with checked := q.checked ++ [rec], todo := rest } := checkedNext_false htodo
        rw [hq]
        exact ih { q with checked := q.checked ++ [rec], todo := rest } hstage rfl
      | true =>
        have hq : (deliveries sha1).next q
            (.answered (.checkAndSet (dedupeKey sha1 q.imei rec)) (.ok true)) =
            { q with
              checked := q.checked ++ [rec]
              todo := rest
              fresh := q.fresh ++ [rec]
              stage := if rec.timestamp.isSome then q.stage else .over } :=
          checkedNext_true htodo
        rw [hq]
        show (deliveries sha1).Conforms (check (normalize q.imei rec) >>= _) _ _
        apply Typestate.conforms_bind.mpr
        apply Typestate.conforms_ofExcept.mpr
        cases hnorm : normalize q.imei rec with
        | error e =>
          have hbad : ¬ rec.timestamp.isSome := by
            intro hsome
            obtain ⟨tel, htel⟩ := (normalize_isOk q.imei rec).mpr hsome
            rw [hnorm] at htel
            cases htel
          show (if rec.timestamp.isSome then q.stage else Stage.over) = .over
          rw [if_neg hbad]
        | ok tel =>
          have hgood : rec.timestamp.isSome := (normalize_isOk q.imei rec).mp ⟨tel, hnorm⟩
          rw [if_pos hgood]
          apply Typestate.conforms_bind.mpr
          refine (ih { q with
            checked := q.checked ++ [rec], todo := rest, fresh := q.fresh ++ [rec] }
            hstage rfl).mono ?_
          intro q' r hr
          rcases r with e | ws
          · exact hr
          · obtain ⟨hst, htd, him, new, hfresh, hnew⟩ := hr
            refine ⟨hst, htd, him, rec :: new, ?_, List.Forall₂.cons hnorm hnew⟩
            rw [hfresh, List.append_assoc, List.singleton_append]

/-- Writing and acknowledging, after the record loop. -/
theorem write_conforms {q : DeliveryPhase} {ack : Buffer}
    (hstage : q.stage = .deduping) (htodo : q.todo = []) {ws : List NormalizedTelemetry}
    (hws : List.Forall₂ (fun rec tel => normalize q.imei rec = .ok tel) q.fresh ws) :
    (deliveries sha1).Conforms (request (.write ws) >>= fun _ => emit (.send ack)) q
      fun q' _ => q'.stage ≠ .deduping := by
  apply Typestate.conforms_bind.mpr
  apply Typestate.conforms_perform.mpr
  refine ⟨⟨hstage, htodo, hws⟩, fun r => ?_⟩
  rcases r with e | ⟨⟩
  · intro hst
    cases hst
  · refine Typestate.conforms_action.mpr ⟨rfl, fun _ hst => ?_⟩
    cases hst

/-- The part common to both transports: dedupe, write, acknowledge. -/
theorem store_conforms {imei : String} {recs : List AvlRecord} {ack : Buffer} :
    (deliveries sha1).Conforms
      (freshRecords sha1 imei recs >>= fun fresh =>
        request (.write fresh) >>= fun _ => emit (.send ack))
      ⟨imei, .deduping, [], recs, []⟩ fun q' _ => q'.stage ≠ .deduping := by
  apply Typestate.conforms_bind.mpr
  refine (freshRecords_conforms recs ⟨imei, .deduping, [], recs, []⟩ rfl rfl).mono ?_
  intro q r hr
  rcases r with e | ws
  · intro hst
    rw [show q.stage = .over from hr] at hst
    cases hst
  · obtain ⟨hst, htd, him, new, hfresh, hnew⟩ := hr
    rw [List.nil_append] at hfresh
    subst hfresh
    refine write_conforms hst htd ?_
    rw [him]
    exact hnew

/-- A handler of either transport follows the typestate. -/
theorem deliver_conforms (d : Delivery) :
    (deliveries sha1).Conforms (deliver sha1 d) (DeliveryPhase.init d)
      fun q _ => q.stage ≠ .deduping := by
  cases d with
  | tcp imei frame =>
    apply Typestate.conforms_attempt.mpr
    apply Typestate.conforms_bind.mpr
    apply Typestate.conforms_ofExcept.mpr
    -- a frame that does not decode reaches no deduper: the connection is closed
    cases hdec : decodeTcpPacket frame with
    | error e =>
      have hinit : DeliveryPhase.init (.tcp imei frame) = ⟨"", .over, [], [], []⟩ := by
        simp only [DeliveryPhase.init, Delivery.packet, hdec]
        rfl
      rw [hinit]
      refine Typestate.conforms_action.mpr ⟨trivial, fun _ hst => ?_⟩
      cases hst
    | ok pkt =>
      have hinit : DeliveryPhase.init (.tcp imei frame) = ⟨imei, .deduping, [], pkt.records, []⟩ := by
        simp only [DeliveryPhase.init, Delivery.packet, hdec]
        rfl
      rw [hinit]
      -- from here on both transports run the same store
      refine store_conforms.mono ?_
      intro q r hr
      rcases r with e | ⟨⟩
      · exact Typestate.conforms_action.mpr ⟨trivial, fun _ => hr⟩
      · exact hr
  | udp msg =>
    apply Typestate.conforms_attempt.mpr
    apply Typestate.conforms_bind.mpr
    apply Typestate.conforms_ofExcept.mpr
    -- over UDP a datagram that does not decode is answered with nothing at all
    cases hdec : decodeUdpDatagram msg with
    | error e =>
      have hinit : DeliveryPhase.init (.udp msg) = ⟨"", .over, [], [], []⟩ := by
        simp only [DeliveryPhase.init, Delivery.packet, hdec]
        rfl
      rw [hinit]
      intro hst
      cases hst
    | ok d =>
      have hinit : DeliveryPhase.init (.udp msg) = ⟨d.imei, .deduping, [], d.avl.records, []⟩ := by
        simp only [DeliveryPhase.init, Delivery.packet, hdec]
        rfl
      rw [hinit]
      apply Typestate.conforms_bind.mpr
      -- the allow list is asked before the deduper, and a refusal ends the delivery
      apply Typestate.conforms_perform.mpr
      refine ⟨⟨rfl, rfl⟩, fun r => ?_⟩
      rcases r with e | allowed
      · intro hst
        cases hst
      · cases allowed with
        | false =>
          intro hst
          cases hst
        | true =>
          refine store_conforms.mono ?_
          intro q r hr
          rcases r with e | ⟨⟩
          · exact hr
          · exact hr

end FleetTracking.Ingestion
