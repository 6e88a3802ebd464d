import FleetTracking.Ingestion.DeliveryTypestate

/-!
# Durable Write Before Acknowledgement

A tracker deletes what has been acknowledged, so an acknowledgement may only be sent when
every record of the packet is in a write that resolved. Within one handler this is the
order of its steps. Across handlers it depends on the dedupe marks: a record whose key is
marked is not written again, whether or not the write for which it was marked happened.

1. `DurableBeforeAck`: the guarantee, on the log of writes and acknowledgements.
2. `LosesNothing`, `NoOverlap`: no mark outlives a failed handler, and no duplicate meets
   a mark whose write is still pending.
3. Under these conditions the guarantee holds in every interleaving; handlers that run one
   after another need only the first, handlers that never fail only the second.
-/

namespace FleetTracking.Ingestion

open FleetTracking.Protocol Async DeliveryPhase Transition

variable (sha1 : String → String)

/-! ## The guarantee -/

/-- A write that resolved contained a record with this key. -/
def Durable (log : List Obs) (key : String) : Prop :=
  ∃ d ws, Obs.wrote d ws ∈ log ∧ ∃ imei recs, d.packet = .ok (imei, recs) ∧
    ∃ rec ∈ recs, dedupeKey sha1 imei rec = key ∧ ∃ tel ∈ ws, normalize imei rec = .ok tel

/-- **Durable before ack**: when a packet was acknowledged, all its records were durable.
The log has the newest entry first. -/
def DurableBeforeAck : List Obs → Prop
  | [] => True
  | .wrote _ _ :: older => DurableBeforeAck older
  | .sent d _ :: older =>
    (∀ imei recs, d.packet = .ok (imei, recs) →
      ∀ rec ∈ recs, Durable sha1 older (dedupeKey sha1 imei rec)) ∧ DurableBeforeAck older

variable {sha1}

theorem Durable.cons {log : List Obs} {key : String} (h : Durable sha1 log key) (o : Obs) :
    Durable sha1 (o :: log) key := by
  obtain ⟨d, ws, hmem, hrest⟩ := h
  exact ⟨d, ws, List.mem_cons_of_mem _ hmem, hrest⟩

/-! ## The conditions -/

section Conditions

variable {D : Deduper} {ι : Type} [DecidableEq ι]

/-- The outcome of an operation leaves no mark behind for a record that will not be
written: a record found new can be normalised, a failed request has marked nothing, and a
handler that fails holds no mark. -/
def KeepsNoMark (s : Shared D) (q : DeliveryPhase) : IngestOp → Outcome D → Prop
  | .checkAndSet key, .checked x =>
    match (D.checkAndSet s.dedupe x key).2 with
    | .ok true => ∀ rec ∈ q.todo.head?, rec.timestamp.isSome
    | .ok false => True
    | .error _ => q.fresh = [] ∧
        ∀ k, D.held (D.checkAndSet s.dedupe x key).1 k → D.held s.dedupe k
  | .write _, .written (.error _) => q.fresh = []
  | _, _ => True

variable (sha1) in
/-- No handler fails after it has marked a record and before the record is written. -/
def LosesNothing (cfg : Config ingestSig Delivery Unit (Shared D) ι) :
    Event Delivery (Outcome D) Empty ι → Prop
  | .settle i x => ∀ th, cfg.threads.lookup i = some th →
      KeepsNoMark cfg.shared ((deliveries sha1).phaseOf th) th.op x
  | _ => True

variable (sha1) in
/-- No handler is told that a record is a duplicate while another running handler has
marked its key and not yet written it. -/
def NoOverlap (cfg : Config ingestSig Delivery Unit (Shared D) ι) :
    Event Delivery (Outcome D) Empty ι → Prop
  | .settle i (.checked x) => ∀ th, cfg.threads.lookup i = some th →
      ∀ key, th.op = .checkAndSet key → (D.checkAndSet cfg.shared.dedupe x key).2 = .ok false →
        ∀ j, j ≠ i → ∀ th', cfg.threads.lookup j = some th' →
          ¬ DeliveryPhase.Holds sha1 ((deliveries sha1).phaseOf th') key
  | _ => True

/-- Every request resolves and no record makes `normalize` throw. -/
def Resolves (s : Shared D) (q : DeliveryPhase) : IngestOp → Outcome D → Prop
  | .checkAndSet key, .checked x =>
    ∃ isNew, (D.checkAndSet s.dedupe x key).2 = .ok isNew ∧
      ∀ rec ∈ q.todo.head?, rec.timestamp.isSome
  | _, .written (.error _) => False
  | _, .allowed (.error _) => False
  | _, _ => True

variable (sha1) in
/-- Every `sink.write` eventually resolves and nothing throws. -/
def NothingThrows (cfg : Config ingestSig Delivery Unit (Shared D) ι) :
    Event Delivery (Outcome D) Empty ι → Prop
  | .settle i x => ∀ th, cfg.threads.lookup i = some th →
      Resolves cfg.shared ((deliveries sha1).phaseOf th) th.op x
  | _ => True

theorem NothingThrows.losesNothing {cfg : Config ingestSig Delivery Unit (Shared D) ι}
    {e : Event Delivery (Outcome D) Empty ι} (h : NothingThrows sha1 cfg e) :
    LosesNothing sha1 cfg e := by
  cases e with
  | start i c => trivial
  | resume i => trivial
  | env e => trivial
  | settle i x =>
    intro th hth
    have hres := h th hth
    cases hop : th.op with
    | isAllowed imei => cases x <;> trivial
    | write ws =>
      rw [hop] at hres
      cases x with
      | allowed r => trivial
      | checked x => trivial
      | written r =>
        rcases r with e | ⟨⟩
        · exact hres.elim
        · trivial
    | checkAndSet key =>
      rw [hop] at hres
      cases x with
      | allowed r => trivial
      | written r => trivial
      | checked x =>
        obtain ⟨isNew, hnew, hvalid⟩ := hres
        simp only [KeepsNoMark, hnew]
        cases isNew with
        | false => trivial
        | true => exact hvalid

end Conditions

/-! ## The invariant -/

section Invariant

variable {D : Deduper} {ι : Type}

variable (sha1) in
/-- What holds of a running handler: it knows its packet, and every record it has asked
about is either durable or marked by this handler and still to be written. -/
structure CallInv (log : List Obs) (d : Delivery) (q : DeliveryPhase) : Prop where
  packet : q.stage ≠ .over → d.packet = .ok (q.imei, q.checked ++ q.todo)
  fresh : ∀ rec ∈ q.fresh, rec ∈ q.checked
  safe : ∀ rec ∈ q.checked, q.Holds sha1 (dedupeKey sha1 q.imei rec) ∨
    Durable sha1 log (dedupeKey sha1 q.imei rec)
  settled : q.stage ≠ .deduping → q.fresh = []
  written : q.stage = .written → q.todo = []

variable (sha1) in
/-- The invariant: acknowledgements have been safe, and every mark the deduper holds is
for a durable record or held by a running handler. -/
structure DeliveryInv (s : Shared D) (ph : ι → Option (Delivery × DeliveryPhase)) : Prop where
  acks : DurableBeforeAck sha1 s.log
  marks : ∀ key, D.held s.dedupe key → Durable sha1 s.log key ∨
    ∃ i d q, ph i = some (d, q) ∧ q.Holds sha1 key
  calls : ∀ i d q, ph i = some (d, q) → CallInv sha1 s.log d q

theorem CallInv.cons {log : List Obs} {d : Delivery} {q : DeliveryPhase}
    (h : CallInv sha1 log d q) (o : Obs) : CallInv sha1 (o :: log) d q :=
  { h with safe := fun rec hrec => (h.safe rec hrec).imp_right fun hd => hd.cons o }

theorem callInv_init (log : List Obs) (d : Delivery) :
    CallInv sha1 log d (DeliveryPhase.init d) := by
  unfold DeliveryPhase.init
  cases hp : d.packet with
  | error e =>
    refine ⟨fun h => absurd rfl h, ?_, ?_, fun _ => rfl, fun _ => rfl⟩
    · intro rec hrec
      cases hrec
    · intro rec hrec
      cases hrec
  | ok p =>
    refine ⟨fun _ => hp, ?_, ?_, fun _ => rfl, ?_⟩
    · intro rec hrec
      cases hrec
    · intro rec hrec
      cases hrec
    · intro h
      cases h

variable [DecidableEq ι] {s s' : Shared D} {ph : ι → Option (Delivery × DeliveryPhase)}
  {i : ι} {d : Delivery} {q q' : DeliveryPhase}

/-- One handler moves from phase `q` to `q'`, and the log may have grown. The marks it gives
up must have become durable. -/
theorem DeliveryInv.move (h : DeliveryInv sha1 s ph) (hi : ph i = some (d, q))
    (hlog : s'.log = s.log ∨ ∃ o, s'.log = o :: s.log)
    (hacks : DurableBeforeAck sha1 s'.log)
    (hheld : ∀ key, D.held s'.dedupe key → D.held s.dedupe key ∨
      Durable sha1 s'.log key ∨ q'.Holds sha1 key)
    (hgive : ∀ key, q.Holds sha1 key → q'.Holds sha1 key ∨ Durable sha1 s'.log key)
    (hcall : CallInv sha1 s'.log d q') :
    DeliveryInv sha1 s' (Function.update ph i (some (d, q'))) := by
  have hdur : ∀ key, Durable sha1 s.log key → Durable sha1 s'.log key := by
    intro key hk
    rcases hlog with hl | ⟨o, hl⟩
    · exact hl ▸ hk
    · exact hl ▸ hk.cons o
  have hother : ∀ j d₂ q₂, ph j = some (d₂, q₂) → CallInv sha1 s'.log d₂ q₂ := by
    intro j d₂ q₂ hj
    rcases hlog with hl | ⟨o, hl⟩
    · exact hl ▸ h.calls j d₂ q₂ hj
    · exact hl ▸ (h.calls j d₂ q₂ hj).cons o
  have hself : ∀ key, q'.Holds sha1 key →
      ∃ j d₂ q₂, Function.update ph i (some (d, q')) j = some (d₂, q₂) ∧ q₂.Holds sha1 key :=
    fun key hk => ⟨i, d, q', Function.update_self .., hk⟩
  refine ⟨hacks, ?_, ?_⟩
  · intro key hk
    rcases hheld key hk with hk | hk | hk
    · rcases h.marks key hk with hd | ⟨j, d₂, q₂, hj, hq₂⟩
      · exact Or.inl (hdur key hd)
      · -- the holder is the handler that moves, or another one
        by_cases hji : j = i
        · subst hji
          rw [hi] at hj
          cases hj
          exact (hgive key hq₂).symm.imp_right (hself key)
        · exact Or.inr ⟨j, d₂, q₂, by rw [Function.update_of_ne hji, hj], hq₂⟩
    · exact Or.inl hk
    · exact Or.inr (hself key hk)
  · intro j d₂ q₂ hj
    by_cases hji : j = i
    · subst hji
      rw [Function.update_self] at hj
      cases hj
      exact hcall
    · rw [Function.update_of_ne hji] at hj
      exact hother j d₂ q₂ hj

/-- Every record of the batch has its telemetry in the write. -/
private theorem forall₂_exists_right {α β : Type} {R : α → β → Prop} {l₁ : List α} {l₂ : List β}
    (h : List.Forall₂ R l₁ l₂) {a : α} (ha : a ∈ l₁) : ∃ b ∈ l₂, R a b := by
  induction h with
  | nil => cases ha
  | cons hab _ ih =>
    rcases List.mem_cons.mp ha with rfl | ha
    · exact ⟨_, List.mem_cons_self, hab⟩
    · obtain ⟨b, hb, hr⟩ := ih ha
      exact ⟨b, List.mem_cons_of_mem _ hb, hr⟩

/-- The allow-list has answered. -/
theorem inv_allowed (h : DeliveryInv sha1 s ph) (hi : ph i = some (d, q)) {imei : String}
    (hmay : q.may sha1 (.isAllowed imei)) (r : Except JsError Bool) :
    DeliveryInv sha1 s (Function.update ph i (some (d, q.next (.answered (.isAllowed imei) r)))) := by
  have hc := h.calls i d q hi
  have hover : CallInv sha1 s.log d { q with stage := .over } :=
    ⟨fun hst => absurd rfl hst, hc.fresh, hc.safe, fun _ => hmay.2, fun hst => by cases hst⟩
  rcases r with e | allowed
  · exact h.move hi (Or.inl rfl) h.acks (fun _ hk => Or.inl hk) (fun _ hk => Or.inl hk) hover
  · cases allowed with
    | false => exact h.move hi (Or.inl rfl) h.acks (fun _ hk => Or.inl hk) (fun _ hk => Or.inl hk) hover
    | true => exact h.move hi (Or.inl rfl) h.acks (fun _ hk => Or.inl hk) (fun _ hk => Or.inl hk) hc

/-- The deduper has answered. -/
theorem inv_checked (h : DeliveryInv sha1 s ph) (hi : ph i = some (d, q)) {key : String}
    (hmay : q.may sha1 (.checkAndSet key)) (x : D.Choice)
    (hkeep : KeepsNoMark s q (.checkAndSet key) (.checked x))
    (hlap : (D.checkAndSet s.dedupe x key).2 = .ok false →
      ∀ j d₂ q₂, j ≠ i → ph j = some (d₂, q₂) → ¬ q₂.Holds sha1 key) :
    DeliveryInv sha1 { s with dedupe := (D.checkAndSet s.dedupe x key).1 }
      (Function.update ph i (some (d, q.checkedNext (D.checkAndSet s.dedupe x key).2))) := by
  obtain ⟨hstage, rec, rest, htodo, hkey⟩ := hmay
  have hc := h.calls i d q hi
  have hpacket : d.packet = .ok (q.imei, q.checked ++ [rec] ++ rest) := by
    have := hc.packet (by rw [hstage]; exact Stage.noConfusion)
    rwa [htodo, List.append_cons] at this
  have hheld : ∀ k, D.held (D.checkAndSet s.dedupe x key).1 k → k = key ∨ D.held s.dedupe k :=
    fun k hk => D.held_of_held hk
  cases hans : (D.checkAndSet s.dedupe x key).2 with
  | error e =>
    simp only [KeepsNoMark, hans] at hkeep
    rw [checkedNext_error htodo]
    refine h.move hi (Or.inl rfl) h.acks (fun k hk => Or.inl (hkeep.2 k hk))
      (fun _ hk => Or.inl hk) ?_
    exact ⟨fun hst => absurd rfl hst, hc.fresh, hc.safe, fun _ => hkeep.1, fun hst => by cases hst⟩
  | ok isNew =>
    cases isNew with
    | false =>
      rw [checkedNext_false htodo]
      -- the key is held: by a durable record, or by this handler, no other one being allowed
      have hsafe : q.Holds sha1 key ∨ Durable sha1 s.log key := by
        rcases h.marks key (D.held_of_duplicate hans) with hd | ⟨j, d₂, q₂, hj, hq₂⟩
        · exact Or.inr hd
        · by_cases hji : j = i
          · subst hji
            rw [hi] at hj
            cases hj
            exact Or.inl hq₂
          · exact absurd hq₂ (hlap hans j d₂ q₂ hji hj)
      refine h.move hi (Or.inl rfl) h.acks ?_ (fun _ hk => Or.inl hk) ?_
      · intro k hk
        rcases hheld k hk with rfl | hk
        · exact Or.inr hsafe.symm
        · exact Or.inl hk
      · refine ⟨fun _ => hpacket, ?_, ?_, hc.settled, ?_⟩
        · intro r hr
          exact List.mem_append_left _ (hc.fresh r hr)
        · intro r hr
          rcases List.mem_append.mp hr with hr | hr
          · exact hc.safe r hr
          · rw [List.mem_singleton] at hr
            subst hr
            exact hkey ▸ hsafe
        · intro hst
          rw [hstage] at hst
          cases hst
    | true =>
      rw [checkedNext_true htodo]
      have hvalid : rec.timestamp.isSome := by
        simp only [KeepsNoMark, hans, htodo, List.head?_cons] at hkeep
        exact hkeep rec rfl
      rw [if_pos hvalid]
      have hnew : ∀ k, q.Holds sha1 k → DeliveryPhase.Holds sha1
          { q with checked := q.checked ++ [rec], todo := rest, fresh := q.fresh ++ [rec] } k := by
        rintro k ⟨r, hr, hrk⟩
        exact ⟨r, List.mem_append_left _ hr, hrk⟩
      have hrec : DeliveryPhase.Holds sha1
          { q with checked := q.checked ++ [rec], todo := rest, fresh := q.fresh ++ [rec] }
          (dedupeKey sha1 q.imei rec) :=
        ⟨rec, List.mem_append_right _ (List.mem_singleton_self rec), rfl⟩
      refine h.move hi (Or.inl rfl) h.acks ?_ (fun k hk => Or.inl (hnew k hk)) ?_
      · intro k hk
        rcases hheld k hk with rfl | hk
        · exact Or.inr (Or.inr (hkey ▸ hrec))
        · exact Or.inl hk
      · refine ⟨fun _ => hpacket, ?_, ?_, fun hst => absurd hstage hst, ?_⟩
        · intro r hr
          rcases List.mem_append.mp hr with hr | hr
          · exact List.mem_append_left _ (hc.fresh r hr)
          · exact List.mem_append_right _ hr
        · intro r hr
          rcases List.mem_append.mp hr with hr | hr
          · exact (hc.safe r hr).imp_left (hnew _)
          · rw [List.mem_singleton] at hr
            subst hr
            exact Or.inl hrec
        · intro hst
          rw [hstage] at hst
          cases hst

/-- The sink has answered. -/
theorem inv_written (h : DeliveryInv sha1 s ph) (hi : ph i = some (d, q))
    {ws : List NormalizedTelemetry} (hmay : q.may sha1 (.write ws)) :
    DeliveryInv sha1 { s with log := .wrote d ws :: s.log }
      (Function.update ph i (some (d, q.writtenNext (.ok ())))) := by
  obtain ⟨hstage, htodo, hws⟩ := hmay
  have hc := h.calls i d q hi
  have hpacket := hc.packet (by rw [hstage]; exact Stage.noConfusion)
  -- what this handler had marked is in the write
  have hdur : ∀ key, q.Holds sha1 key → Durable sha1 (.wrote d ws :: s.log) key := by
    rintro key ⟨rec, hrec, rfl⟩
    obtain ⟨tel, htel, hnorm⟩ := forall₂_exists_right hws hrec
    exact ⟨d, ws, List.mem_cons_self, q.imei, _, hpacket, rec,
      List.mem_append_left _ (hc.fresh rec hrec), rfl, tel, htel, hnorm⟩
  refine h.move hi (Or.inr ⟨_, rfl⟩) h.acks (fun _ hk => Or.inl hk)
    (fun key hk => Or.inr (hdur key hk)) ?_
  refine ⟨fun _ => hpacket, ?_, ?_, fun _ => rfl, fun _ => htodo⟩
  · intro rec hrec
    cases hrec
  · intro rec hrec
    rcases hc.safe rec hrec with hh | hd
    · exact Or.inr (hdur _ hh)
    · exact Or.inr (hd.cons _)

/-- A write was rejected; the handler held no mark. -/
theorem inv_rejected (h : DeliveryInv sha1 s ph) (hi : ph i = some (d, q))
    (hfresh : q.fresh = []) (e : JsError) :
    DeliveryInv sha1 s (Function.update ph i (some (d, q.writtenNext (.error e)))) := by
  have hc := h.calls i d q hi
  refine h.move hi (Or.inl rfl) h.acks (fun _ hk => Or.inl hk) (fun _ hk => Or.inl hk) ?_
  exact ⟨fun hst => absurd rfl hst, hc.fresh, hc.safe, fun _ => hfresh, fun hst => by cases hst⟩

/-- A handler answers the device or drops its connection. -/
theorem inv_act (h : DeliveryInv sha1 s ph) (hi : ph i = some (d, q)) {a : IngestAct}
    (hmay : q.mayAct a) :
    DeliveryInv sha1 (s.act d a).1 (Function.update ph i (some (d, q))) := by
  have hc := h.calls i d q hi
  cases a with
  | close =>
    exact h.move hi (Or.inl rfl) h.acks (fun _ hk => Or.inl hk) (fun _ hk => Or.inl hk) hc
  | send ack =>
    have hstage : q.stage = .written := hmay
    have hne : q.stage ≠ .deduping := by
      rw [hstage]
      exact Stage.noConfusion
    refine h.move hi (Or.inr ⟨_, rfl⟩) ⟨?_, h.acks⟩ (fun _ hk => Or.inl hk)
      (fun _ hk => Or.inl hk) (hc.cons _)
    -- after the write, every record of the packet has been asked about and none is pending
    intro imei recs hp rec hrec
    have hpacket := hc.packet (by rw [hstage]; exact Stage.noConfusion)
    rw [hp, hc.written hstage, List.append_nil] at hpacket
    cases hpacket
    rcases hc.safe rec hrec with ⟨r, hr, _⟩ | hd
    · rw [hc.settled hne] at hr
      cases hr
    · exact hd

/-- A new handler starts. -/
theorem inv_start (h : DeliveryInv sha1 s ph) (hi : ph i = none) (d : Delivery) :
    DeliveryInv sha1 s (Function.update ph i (some (d, DeliveryPhase.init d))) := by
  refine ⟨h.acks, ?_, ?_⟩
  · intro key hk
    rcases h.marks key hk with hd | ⟨j, d₂, q₂, hj, hq₂⟩
    · exact Or.inl hd
    · have hji : j ≠ i := by
        rintro rfl
        rw [hi] at hj
        cases hj
      exact Or.inr ⟨j, d₂, q₂, by rw [Function.update_of_ne hji, hj], hq₂⟩
  · intro j d₂ q₂ hj
    by_cases hji : j = i
    · subst hji
      rw [Function.update_self] at hj
      cases hj
      exact callInv_init s.log d
    · rw [Function.update_of_ne hji] at hj
      exact h.calls j d₂ q₂ hj

/-- A handler ends; it holds no mark. -/
theorem inv_finish (h : DeliveryInv sha1 s ph) (hi : ph i = some (d, q))
    (hdone : q.stage ≠ .deduping) : DeliveryInv sha1 s (Function.update ph i none) := by
  refine ⟨h.acks, ?_, ?_⟩
  · intro key hk
    rcases h.marks key hk with hd | ⟨j, d₂, q₂, hj, hq₂⟩
    · exact Or.inl hd
    · have hji : j ≠ i := by
        rintro rfl
        rw [hi] at hj
        cases hj
        obtain ⟨r, hr, _⟩ := hq₂
        rw [(h.calls _ _ _ hi).settled hdone] at hr
        cases hr
      exact Or.inr ⟨j, d₂, q₂, by rw [Function.update_of_ne hji, hj], hq₂⟩
  · intro j d₂ q₂ hj
    by_cases hji : j = i
    · subst hji
      rw [Function.update_self] at hj
      cases hj
    · rw [Function.update_of_ne hji] at hj
      exact h.calls j d₂ q₂ hj

variable (sha1) in
/-- Everything a handler can do preserves the invariant, if no mark is lost and no
duplicate overlaps a pending write. -/
theorem deliveries_preserve :
    Typestate.Preserves (ingestion sha1 D) (deliveries sha1)
      (fun (cfg : Config ingestSig Delivery Unit (Shared D) ι) e =>
        LosesNothing sha1 cfg e ∧ NoOverlap sha1 cfg e)
      (DeliveryInv sha1) where
  code d := deliver_conforms d
  start cfg i d hJ hnone _ := by
    refine inv_start hJ ?_ d
    simp only [Typestate.phases, hnone]
    rfl
  act s ph i d q a hJ hi hmay := inv_act hJ hi hmay
  settle cfg i th x s' r hJ hth hmay hok hs := by
    have hi := Typestate.phases_of_lookup (T := deliveries sha1) hth
    have hkeep := hok.1 th hth
    -- an outcome must fit the operation that waits; the others settle nothing
    obtain ⟨d, past, op, next, reply⟩ := th
    cases op with
    | isAllowed imei =>
      cases x with
      | checked x => cases hs
      | written r => cases hs
      | allowed r =>
        cases hs
        exact inv_allowed hJ hi hmay r
    | checkAndSet key =>
      cases x with
      | allowed r => cases hs
      | written r => cases hs
      | checked x =>
        cases hs
        refine inv_checked hJ hi hmay x hkeep ?_
        -- a duplicate's mark may not belong to a delivery that is still under way
        intro hdup j d₂ q₂ hji hj
        obtain ⟨th', hth', heq⟩ := Option.map_eq_some_iff.mp hj
        cases heq
        exact hok.2 _ hth key rfl hdup j hji th' hth'
    | write ws =>
      cases x with
      | allowed r => cases hs
      | checked x => cases hs
      | written r =>
        rcases r with e | ⟨⟩
        · cases hs
          exact inv_rejected hJ hi hkeep e
        · cases hs
          exact inv_written hJ hi hmay
  finish s ph i d q r hJ hi hdone := inv_finish hJ hi hdone
  env cfg e := e.elim

end Invariant

/-! ## Runs of a frame with one record -/

/-- An acknowledged packet with a record of which nothing was written. -/
theorem not_durableBeforeAck {d : Delivery} {imei : String} {rec : AvlRecord} {ack : Buffer}
    (hp : d.packet = .ok (imei, [rec])) :
    ¬ DurableBeforeAck sha1 [.sent d ack, .wrote d []] := by
  rintro ⟨hack, _⟩
  obtain ⟨d', ws, hmem, _, _, _, _, _, _, tel, htel, _⟩ :=
    hack imei [rec] hp rec (List.mem_singleton_self rec)
  rw [List.mem_singleton] at hmem
  cases hmem
  cases htel

/-- The handler of a frame with one record. -/
theorem deliver_one {imei : String} {frame : Buffer} {pkt : DecodedAvl} {rec : AvlRecord}
    {tel : NormalizedTelemetry} (hdec : decodeTcpPacket frame = .ok pkt)
    (hrecs : pkt.records = [rec]) (hnorm : normalize imei rec = .ok tel) :
    deliver sha1 (.tcp imei frame) =
      .await (.checkAndSet (dedupeKey sha1 imei rec)) fun r =>
        match r with
        | .error _ => .act .close .pure
        | .ok isNew =>
          .await (.write (if isNew then [tel] else [])) fun r =>
            match r with
            | .error _ => .act .close .pure
            | .ok _ => .act (.send (buildTcpAck pkt.recordCount)) .pure := by
  -- the frame decodes, then the one record goes through the deduper
  show tryCatch (check (decodeTcpPacket frame) >>= fun pkt => _) _ = _
  rw [hdec]
  show tryCatch (freshRecords sha1 imei pkt.records >>= _) _ = _
  rw [hrecs]
  show Async.await _ _ = Async.await _ _
  congr 1
  funext r
  rcases r with e | isNew
  · rfl
  · cases isNew with
    | false =>
      show Async.await _ _ = Async.await _ _
      congr 1
      funext r
      rcases r with e | ⟨⟩
      · rfl
      · rfl
    | true =>
      -- a new record is normalized, which it survives by hnorm
      show tryCatch ((check (normalize imei rec) >>= fun tel => _) >>= _) _ = _
      rw [hnorm]
      show Async.await _ _ = Async.await _ _
      congr 1
      funext r
      rcases r with e | ⟨⟩
      · rfl
      · rfl

/-- The sample delivery, on a session of the test device. -/
def sampleDelivery : Delivery := .tcp "356307042441013" sampleFrame

/-- What is to be known of the sample delivery. -/
theorem sampleDelivery_spec : ∃ pkt rec tel, decodeTcpPacket sampleFrame = .ok pkt ∧
    pkt.records = [rec] ∧ normalize "356307042441013" rec = .ok tel ∧
    sampleDelivery.packet = .ok ("356307042441013", [rec]) := by
  have hone : hasOneRecord sampleFrame = true := by decide +kernel
  unfold hasOneRecord at hone
  split at hone
  case h_1 c n rec hdec =>
    obtain ⟨tel, htel⟩ := (normalize_isOk "356307042441013" rec).mpr hone
    exact ⟨_, rec, tel, hdec, rfl, htel, by rw [sampleDelivery, Delivery.packet, hdec]; rfl⟩
  case h_2 => cases hone

/-- The deduper of a node without Redis, with the default settings. -/
abbrev defaultDeduper : Deduper := InMemoryDeduper.toDeduper 86400000 1000000

/-- The default deduper, asked about one key twice at one time. -/
theorem defaultDeduper_twice (key : String) : ∃ s : defaultDeduper.State,
    defaultDeduper.checkAndSet defaultDeduper.empty (0 : Nat) key = (s, .ok true) ∧
      defaultDeduper.checkAndSet s (0 : Nat) key = (s, .ok false) := by
  obtain ⟨hnew, hdup⟩ :=
    InMemoryDeduper.new_then_duplicate (show 0 < 86400000 by decide)
      (show 0 < 1000000 by decide) 0 key
  exact ⟨_, congrArg (fun out => (out.1, Except.ok out.2)) hnew,
    congrArg (fun out => (out.1, Except.ok out.2)) hdup⟩

/-! ## Main results -/

section Results

variable {D : Deduper} {ι : Type} [DecidableEq ι]

variable (D) in
/-- No handler has run yet, and the deduper holds no key. -/
def freshStart : Config ingestSig Delivery Unit (Shared D) ι := Config.start ⟨D.empty, []⟩

omit [DecidableEq ι] in
theorem deliveryInv_empty :
    DeliveryInv sha1 (⟨D.empty, []⟩ : Shared D) fun _ : ι => none := by
  refine ⟨trivial, fun key hk => absurd hk (D.not_held_empty key), ?_⟩
  intro i d q hi
  cases hi

/-- The general form: durable before ack in every interleaving in which no mark is lost and
no duplicate overlaps a pending write. -/
theorem ack_durable {es : List (Event Delivery (Outcome D) Empty ι)}
    {cfg : Config ingestSig Delivery Unit (Shared D) ι}
    (hrun : Run (ingestion sha1 D).step
      (fun cfg e => LosesNothing sha1 cfg e ∧ NoOverlap sha1 cfg e) (freshStart D) es cfg) :
    DurableBeforeAck sha1 cfg.shared.log :=
  ((deliveries_preserve sha1).invariant deliveryInv_empty hrun).acks

/-- **Durable before ack across retries.** Deliveries handled one after another are only
acknowledged when all their records are durable, if no delivery fails after it has marked
a record and before the write of that record resolved. -/
theorem ack_durable_across_retries {es : List (Event Delivery (Outcome D) Empty ι)}
    {cfg : Config ingestSig Delivery Unit (Shared D) ι}
    (hrun : Run (ingestion sha1 D).step
      (fun cfg e => Sequential cfg e ∧ LosesNothing sha1 cfg e) (freshStart D) es cfg) :
    DurableBeforeAck sha1 cfg.shared.log := by
  have hsolo := hrun.with_invariant (solo_start _)
    fun cfg e cfg' hsolo hok hs => solo_of_step hsolo hok.1 hs
  apply ack_durable
  refine hsolo.mono ?_
  rintro cfg e ⟨⟨_, hloses⟩, hsolo⟩
  refine ⟨hloses, ?_⟩
  -- there is no other handler to overlap with
  cases e with
  | start i d => trivial
  | resume i => trivial
  | env e => trivial
  | settle i x =>
    cases x with
    | allowed r => trivial
    | written r => trivial
    | checked x =>
      intro th hth key _ _ j hji th' hth'
      exact absurd (hsolo j i th' th hth' hth) hji

/-- A packet that is resent after its acknowledgement was lost: the second delivery is a
duplicate, and both acknowledgements are safe. -/
theorem resent_packet_ack_durable :
    ∃ (es : List (Event Delivery (Outcome defaultDeduper) Empty Nat))
      (cfg : Config ingestSig Delivery Unit (Shared defaultDeduper) Nat) (ack : Buffer)
      (tel : NormalizedTelemetry),
      cfg.shared.log = [.sent sampleDelivery ack, .wrote sampleDelivery [],
        .sent sampleDelivery ack, .wrote sampleDelivery [tel]] ∧
      Run (ingestion sampleSha1 defaultDeduper).step
        (fun cfg e => Sequential cfg e ∧ LosesNothing sampleSha1 cfg e)
        (freshStart defaultDeduper) es cfg ∧
      DurableBeforeAck sampleSha1 cfg.shared.log := by
  obtain ⟨pkt, r, tel, hdec, hrecs, hnorm, hp⟩ := sampleDelivery_spec
  obtain ⟨s, hnew, hdup⟩ := defaultDeduper_twice (dedupeKey sampleSha1 "356307042441013" r)
  have hcode : deliver sampleSha1 sampleDelivery = _ := deliver_one hdec hrecs hnorm
  have hvalid : r.timestamp.isSome := (normalize_isOk _ r).mp ⟨tel, hnorm⟩
  -- the device sends its packet once more after the answer
  let es : List (Event Delivery (Outcome defaultDeduper) Empty Nat) :=
    [.start 0 sampleDelivery, .settle 0 (.checked (0 : Nat)), .resume 0,
      .settle 0 (.written (.ok ())), .resume 0,
      .start 1 sampleDelivery, .settle 1 (.checked (0 : Nat)), .resume 1,
      .settle 1 (.written (.ok ())), .resume 1]
  classical
  obtain ⟨cfg, hrun, hlog⟩ : ∃ cfg,
      Run (ingestion sampleSha1 defaultDeduper).step
          (fun cfg e => Sequential cfg e ∧ LosesNothing sampleSha1 cfg e)
          (freshStart defaultDeduper) es cfg ∧
        cfg.shared.log = [.sent sampleDelivery (buildTcpAck pkt.recordCount),
          .wrote sampleDelivery [], .sent sampleDelivery (buildTcpAck pkt.recordCount),
          .wrote sampleDelivery [tel]] := by
    apply Run.exists_of_foldl
    simp only [Async.Sequential, LosesNothing, KeepsNoMark, Typestate.phaseOf, deliveries, ne_eq,
      init, Option.mem_def, System.step, System.run, ingestion, Shared.settle, freshStart,
      Config.start, List.foldl_cons, Run.advance_some, AList.lookup_empty, implies_true, and_self,
      ↓reduceIte, hcode, World.advance, reduceCtorEq, imp_self, Outcome.written.injEq,
      List.foldl_nil, AList.lookup_insert, Option.some.injEq, forall_eq', hnew, hp, List.foldl_nil,
      List.head?_cons, hvalid, List.nil_append, AList.insert_insert, ↓dreduceIte, List.cons_append,
      Shared.act, erase_insert_empty, hdup, Bool.false_eq_true, exists_eq_left', es]
  exact ⟨es, cfg, _, tel, hlog, hrun, ack_durable_across_retries hrun⟩

/-- A failed write followed by a resend acknowledges a record that was never written. -/
theorem resend_after_failed_write_loses_record :
    ¬ ∃ sha1, ∀ (es : List (Event Delivery (Outcome defaultDeduper) Empty Nat))
      (cfg : Config ingestSig Delivery Unit (Shared defaultDeduper) Nat),
      Run (ingestion sha1 defaultDeduper).step Sequential (freshStart defaultDeduper) es cfg →
        DurableBeforeAck sha1 cfg.shared.log := by
  rintro ⟨sha1, hclaim⟩
  obtain ⟨pkt, r, tel, hdec, hrecs, hnorm, hp⟩ := sampleDelivery_spec
  obtain ⟨s, hnew, hdup⟩ := defaultDeduper_twice (dedupeKey sha1 "356307042441013" r)
  have hcode : deliver sha1 sampleDelivery = _ := deliver_one hdec hrecs hnorm
  -- the first write is rejected; the resent frame is a duplicate
  let es : List (Event Delivery (Outcome defaultDeduper) Empty Nat) :=
    [.start 0 sampleDelivery, .settle 0 (.checked (0 : Nat)), .resume 0,
      .settle 0 (.written (.error (.error "EIO"))), .resume 0,
      .start 1 sampleDelivery, .settle 1 (.checked (0 : Nat)), .resume 1,
      .settle 1 (.written (.ok ())), .resume 1]
  classical
  obtain ⟨cfg, hrun, hlog⟩ : ∃ cfg,
      Run (ingestion sha1 defaultDeduper).step Sequential (freshStart defaultDeduper) es cfg ∧
        cfg.shared.log = [.sent sampleDelivery (buildTcpAck pkt.recordCount),
          .wrote sampleDelivery []] := by
    apply Run.exists_of_foldl
    simp only [Async.Sequential, System.step, System.run, ingestion, Shared.settle, freshStart,
      Config.start, List.foldl_cons, Run.advance_some, AList.lookup_empty, implies_true, ↓reduceIte,
      hcode, World.advance, List.foldl_nil, AList.lookup_insert, hnew, List.nil_append,
      AList.insert_insert, ↓dreduceIte, List.cons_append, Shared.act, erase_insert_empty, hdup,
      Bool.false_eq_true, Option.some.injEq, exists_eq_left', es]
  have hbad := hclaim es cfg hrun
  rw [hlog] at hbad
  exact not_durableBeforeAck hp hbad

/-- **Durable before ack with overlapping deliveries.** When nothing fails, a packet is only
acknowledged when all its records are durable, if no handler is told that a record is a
duplicate while the write for which it was marked is still pending. -/
theorem ack_durable_when_overlapping {es : List (Event Delivery (Outcome D) Empty ι)}
    {cfg : Config ingestSig Delivery Unit (Shared D) ι}
    (hrun : Run (ingestion sha1 D).step
      (fun cfg e => NothingThrows sha1 cfg e ∧ NoOverlap sha1 cfg e) (freshStart D) es cfg) :
    DurableBeforeAck sha1 cfg.shared.log :=
  ack_durable (hrun.mono fun _ _ hok => ⟨hok.1.losesNothing, hok.2⟩)

/-- Two overlapping handlers of the same frame: the second one starts when the write of the
first has resolved and overtakes its acknowledgement. -/
theorem interleaved_duplicates_ack_durable :
    ∃ (es : List (Event Delivery (Outcome defaultDeduper) Empty Nat))
      (cfg : Config ingestSig Delivery Unit (Shared defaultDeduper) Nat) (ack : Buffer)
      (tel : NormalizedTelemetry),
      cfg.shared.log = [.sent sampleDelivery ack, .sent sampleDelivery ack,
        .wrote sampleDelivery [], .wrote sampleDelivery [tel]] ∧
      Run (ingestion sampleSha1 defaultDeduper).step
        (fun cfg e => NothingThrows sampleSha1 cfg e ∧ NoOverlap sampleSha1 cfg e)
        (freshStart defaultDeduper) es cfg ∧
      DurableBeforeAck sampleSha1 cfg.shared.log := by
  obtain ⟨pkt, r, tel, hdec, hrecs, hnorm, hp⟩ := sampleDelivery_spec
  obtain ⟨s, hnew, hdup⟩ := defaultDeduper_twice (dedupeKey sampleSha1 "356307042441013" r)
  have hcode : deliver sampleSha1 sampleDelivery = _ := deliver_one hdec hrecs hnorm
  have hvalid : r.timestamp.isSome := (normalize_isOk _ r).mp ⟨tel, hnorm⟩
  -- the second delivery starts when the first has stored its record and is about to answer
  let es : List (Event Delivery (Outcome defaultDeduper) Empty Nat) :=
    [.start 0 sampleDelivery, .settle 0 (.checked (0 : Nat)), .resume 0,
      .settle 0 (.written (.ok ())), .start 1 sampleDelivery, .settle 1 (.checked (0 : Nat)),
      .resume 1, .settle 1 (.written (.ok ())), .resume 1, .resume 0]
  classical
  obtain ⟨cfg, hrun, hlog⟩ : ∃ cfg,
      Run (ingestion sampleSha1 defaultDeduper).step
          (fun cfg e => NothingThrows sampleSha1 cfg e ∧ NoOverlap sampleSha1 cfg e)
          (freshStart defaultDeduper) es cfg ∧
        cfg.shared.log = [.sent sampleDelivery (buildTcpAck pkt.recordCount),
          .sent sampleDelivery (buildTcpAck pkt.recordCount), .wrote sampleDelivery [],
          .wrote sampleDelivery [tel]] := by
    -- the run is evaluated step by step, with the side conditions beside it
    apply Run.exists_of_foldl
    simp only [NothingThrows, Resolves, Typestate.phaseOf, deliveries, ne_eq, init, Option.mem_def,
      exists_and_right, Bool.exists_bool, NoOverlap, Holds, not_exists, not_and, System.step,
      System.run, ingestion, Shared.settle, freshStart, Config.start, List.foldl_cons,
      Run.advance_some, and_self, ↓reduceIte, AList.lookup_empty, hcode, World.advance,
      reduceCtorEq, imp_self, implies_true, List.foldl_nil, AList.lookup_insert, Option.some.injEq,
      forall_eq', hnew, Except.ok.injEq, Bool.true_eq_false, or_true, hp, List.foldl_nil,
      List.head?_cons, hvalid, lookup_insert_iff, and_false, or_false, and_imp,
      forall_apply_eq_imp_iff, List.not_mem_nil, IsEmpty.forall_iff, List.nil_append,
      AList.insert_insert, ↓dreduceIte, List.cons_append, Nat.succ_ne_self, not_false_eq_true,
      AList.lookup_insert_ne, hdup, Bool.false_eq_true, or_imp, forall_and,
      forall_apply_eq_imp_iff₂, List.foldl_cons, next, checkedNext, writtenNext, Shared.act,
      Nat.zero_ne_one, AList.lookup_erase_ne, exists_eq_left', es]
  exact ⟨es, cfg, _, tel, hlog, hrun, ack_durable_when_overlapping hrun⟩

/-- A duplicate that arrives while the write is pending is acknowledged before the write. -/
theorem duplicate_in_write_window_acked_early :
    ¬ ∃ sha1, ∀ (es : List (Event Delivery (Outcome defaultDeduper) Empty Nat))
      (cfg : Config ingestSig Delivery Unit (Shared defaultDeduper) Nat),
      Run (ingestion sha1 defaultDeduper).step (NothingThrows sha1) (freshStart defaultDeduper) es cfg →
        DurableBeforeAck sha1 cfg.shared.log := by
  rintro ⟨sha1, hclaim⟩
  obtain ⟨pkt, r, tel, hdec, hrecs, hnorm, hp⟩ := sampleDelivery_spec
  obtain ⟨s, hnew, hdup⟩ := defaultDeduper_twice (dedupeKey sha1 "356307042441013" r)
  have hcode : deliver sha1 sampleDelivery = _ := deliver_one hdec hrecs hnorm
  have hvalid : r.timestamp.isSome := (normalize_isOk _ r).mp ⟨tel, hnorm⟩
  -- handler 0 awaits its write while handler 1 handles the same frame
  let es : List (Event Delivery (Outcome defaultDeduper) Empty Nat) :=
    [.start 0 sampleDelivery, .settle 0 (.checked (0 : Nat)), .resume 0,
      .start 1 sampleDelivery, .settle 1 (.checked (0 : Nat)), .resume 1,
      .settle 1 (.written (.ok ())), .resume 1]
  classical
  obtain ⟨cfg, hrun, hlog⟩ : ∃ cfg,
      Run (ingestion sha1 defaultDeduper).step (NothingThrows sha1) (freshStart defaultDeduper) es
          cfg ∧
        cfg.shared.log = [.sent sampleDelivery (buildTcpAck pkt.recordCount),
          .wrote sampleDelivery []] := by
    apply Run.exists_of_foldl
    simp only [NothingThrows, Resolves, Typestate.phaseOf, deliveries, ne_eq, init, Option.mem_def,
      exists_and_right, Bool.exists_bool, System.step, System.run, ingestion, Shared.settle,
      freshStart, Config.start, List.foldl_cons, Run.advance_some, ↓reduceIte, AList.lookup_empty,
      hcode, World.advance, reduceCtorEq, imp_self, implies_true, List.foldl_nil,
      AList.lookup_insert, Option.some.injEq, forall_eq', hnew, Except.ok.injEq, Bool.true_eq_false,
      or_true, hp, List.foldl_nil, List.head?_cons, hvalid, and_self, List.nil_append,
      AList.insert_insert, ↓dreduceIte, Nat.succ_ne_self, not_false_eq_true, AList.lookup_insert_ne,
      hdup, Bool.false_eq_true, or_false, List.cons_append, Shared.act, exists_eq_left', es]
  have hbad := hclaim es cfg hrun
  rw [hlog] at hbad
  exact not_durableBeforeAck hp hbad

end Results

end FleetTracking.Ingestion
