import FleetTracking.Ingestion.SessionRun
import FleetTracking.Lib.EventLog

/-!
# No Unauthenticated Record

Whatever bytes arrive, in whatever chunks and at whatever times: a session writes records,
and acknowledges frames, only of a device whose login it has read, whom the allow-list has
accepted, and to whom it has said so.

1. `Accepted`, `Authorised`: what has to come before a write and before an acknowledgement.
2. `LoginInv`: where a login stands in each state of the session.
3. `records_authenticated`: the guarantee, for every run.
-/

namespace FleetTracking.Ingestion

open FleetTracking.Protocol Async Transition EventLog

namespace SessionRun

/-! ## The guarantee -/

/-- The login of this device was read, it was accepted, and the device was told so. -/
def Accepted (log : List Entry) (imei : String) : Prop :=
  .asked imei ∈ log ∧ .allowed imei ∈ log ∧ .sent Session.ACCEPT ∈ log

/-- What has to come before an entry. -/
def Authorised (before : List Entry) : Entry → Prop
  | .writing records => ∀ tel ∈ records, Accepted before tel.imei
  | .ack _ => ∃ imei, Accepted before imei
  | _ => True

/-- A login frame for this IMEI is among the bytes that have arrived. -/
def LoginRead (received : Buffer) (imei : String) : Prop :=
  ∃ login, login <:+: received ∧ parseImei login = .ok (some ⟨imei, login.length⟩)

/-! ## The invariant -/

/-- How far the login has come in a state of the session. -/
def LoginAt (log : List Entry) : SessionState → Prop
  | .anonymous => True
  | .checking imei => .asked imei ∈ log
  | .ready imei => Accepted log imei
  | .storing imei _ => Accepted log imei

/-- An entry that needs no login. -/
def Plain : Entry → Prop
  | .asked _ => False
  | .writing _ => False
  | .ack _ => False
  | _ => True

structure LoginInv (r : SessionRun) : Prop where
  -- Only bytes that have arrived are in the buffer.
  buffer : r.session.buffer <:+ r.received
  -- The allow-list is asked about logins that were read.
  read : ∀ imei, .asked imei ∈ r.log → isImei imei = true ∧ LoginRead r.received imei
  login : LoginAt r.log r.session.state
  -- A handler works for the device that is logged in.
  handler : ∀ h, r.handling = some h →
    ∃ imei frame, r.session.state = .storing imei frame ∧ HaltsFor imei h
  authorised : Causal Authorised r.log

section Lemmas

variable {log more : List Entry} {imei : String} {r : SessionRun} {sha1 : String → String}

theorem Accepted.append (h : Accepted log imei) : Accepted (log ++ more) imei :=
  ⟨List.mem_append_left _ h.1, List.mem_append_left _ h.2.1, List.mem_append_left _ h.2.2⟩

theorem authorised_mono (log more : List Entry) (e : Entry) (h : Authorised log e) :
    Authorised (log ++ more) e := by
  cases e with
  | writing records =>
    intro tel htel
    exact (h tel htel).append
  | ack buf =>
    obtain ⟨imei, himei⟩ := h
    exact ⟨imei, himei.append⟩
  | _ => trivial

theorem LoginAt.append {state : SessionState} (h : LoginAt log state) :
    LoginAt (log ++ more) state := by
  cases state with
  | anonymous => trivial
  | checking imei => exact List.mem_append_left _ h
  | ready imei => exact Accepted.append h
  | storing imei frame => exact Accepted.append h

theorem authorised_of_plain {e : Entry} (h : Plain e) : Authorised log e := by
  cases e with
  | writing records => cases h
  | ack buf => cases h
  | _ => trivial

/-- What a handler logs on a session that is logged in. -/
theorem authorised_of_logs {e : Entry} (haccepted : Accepted log imei) (h : Logs imei e) :
    Authorised log e := by
  cases e with
  | writing records =>
    intro tel htel
    rw [h tel htel]
    exact haccepted
  | ack buf => exact ⟨imei, haccepted⟩
  | _ => trivial

theorem LoginRead.append {received more : Buffer} (h : LoginRead received imei) :
    LoginRead (received ++ more) imei := by
  obtain ⟨login, hin, hparse⟩ := h
  exact ⟨login, hin.trans (List.prefix_append received more).isInfix, hparse⟩

theorem plain_outputs (out : List Output) : ∀ e ∈ out.flatMap outputEntry, Plain e := by
  intro e he
  obtain ⟨o, -, heo⟩ := List.mem_flatMap.mp he
  cases o with
  | send buf =>
    rw [List.mem_singleton.mp heo]
    trivial
  | close =>
    rw [List.mem_singleton.mp heo]
    trivial
  | authenticated imei =>
    rw [List.mem_singleton.mp heo]
    trivial
  | resolve id text => cases heo
  | reject id e => cases heo

/-- Plain entries are added. -/
theorem read_plain {received : Buffer}
    (h : ∀ imei, .asked imei ∈ log → isImei imei = true ∧ LoginRead received imei)
    (hplain : ∀ e ∈ more, Plain e) (imei : String) (hin : .asked imei ∈ log ++ more) :
    isImei imei = true ∧ LoginRead received imei := by
  rcases List.mem_append.mp hin with hin | hin
  · exact h imei hin
  · exact absurd (hplain _ hin) id

/-- The session runs on and stops. -/
theorem LoginInv.goOn {before : List Entry} {out : Session × List Output} (h : LoginInv r)
    (hbefore : ∀ e ∈ before, Plain e) (hbuffer : out.1.buffer <:+ r.received)
    (hlogin : ∀ imei, out.1.state = .checking imei →
      isImei imei = true ∧ LoginRead r.received imei)
    (hstate : (∃ imei, out.1.state = .checking imei) ∨
      LoginAt (r.log ++ before ++ out.2.flatMap outputEntry) out.1.state) :
    LoginInv (goOn sha1 r before out) := by
  -- the outputs of the session alone are plain: none is a write, none asks
  have hplain : ∀ e ∈ before ++ out.2.flatMap outputEntry, Plain e := by
    intro e he
    rcases List.mem_append.mp he with he | he
    · exact hbefore e he
    · exact plain_outputs _ e he
  rw [List.append_assoc] at hstate
  have hread := read_plain h.read hplain
  have hauthorised := h.authorised.append_of_mono authorised_mono
    fun e he => authorised_of_plain (hplain e he)
  unfold SessionRun.goOn
  rw [List.append_assoc]
  simp only
  generalize r.log ++ (before ++ out.2.flatMap outputEntry) = log at *
  split
  -- the session stores: it is past its login, and the handler runs for its IMEI
  case h_1 imei frame hst =>
    rw [hst] at hstate
    have haccepted : Accepted log imei :=
      hstate.resolve_left fun ⟨_, hne⟩ => by cases hne
    obtain ⟨hlogs, hhalts⟩ := runTo_conforms (handleAvl_conforms sha1 imei frame)
    refine ⟨hbuffer, fun imei' hin => ?_, ?_, ?_, ?_⟩
    · rcases List.mem_append.mp hin with hin | hin
      · exact hread imei' hin
      · exact absurd (hlogs _ hin) id
    · simp only [hst]
      exact haccepted.append
    · intro h' hh'
      cases hh'
      exact ⟨imei, frame, hst, hhalts⟩
    · exact hauthorised.append_of_mono authorised_mono
        fun e he => authorised_of_logs haccepted (hlogs e he)
  -- the session asks about the IMEI that it has read
  case h_2 imei hst =>
    refine ⟨hbuffer, fun imei' hin => ?_, ?_, ?_, ?_⟩
    · rcases List.mem_append.mp hin with hin | hin
      · exact hread imei' hin
      · rw [List.mem_singleton, Entry.asked.injEq] at hin
        subst hin
        exact hlogin _ hst
    · simp only [hst]
      exact List.mem_append_right _ List.mem_cons_self
    · intro h' hh'
      cases hh'
    · exact hauthorised.snoc trivial
  case h_3 hnotStoring hnotChecking =>
    refine ⟨hbuffer, hread, ?_, ?_, hauthorised⟩
    · exact hstate.resolve_left fun ⟨imei, heq⟩ => hnotChecking imei heq
    · intro h' hh'
      cases hh'

/-- The handler runs on. -/
theorem LoginInv.handlerGoesOn (before : List Entry) {code : Async ingestSig Unit} {frame : Buffer}
    (h : LoginInv r) (hst : r.session.state = .storing imei frame)
    (hbefore : ∀ e ∈ before, Plain e)
    (hcode : (avlHandler imei).Conforms code () (avlHandler imei).done) :
    LoginInv (handlerGoesOn r before code) := by
  obtain ⟨hlogs, hhalts⟩ := runTo_conforms hcode
  have haccepted : Accepted (r.log ++ before) imei := by
    have hlogin := h.login
    rw [hst] at hlogin
    exact Accepted.append hlogin
  refine ⟨h.buffer, fun imei' hin => ?_, ?_, ?_, ?_⟩
  · rcases List.mem_append.mp hin with hin | hin
    · exact read_plain h.read hbefore imei' hin
    · exact absurd (hlogs _ hin) id
  · exact h.login.append.append
  · intro h' hh'
    cases hh'
    exact ⟨imei, frame, hst, hhalts⟩
  · refine (h.authorised.append_of_mono authorised_mono
      fun e he => authorised_of_plain (hbefore e he)).append_of_mono authorised_mono ?_
    exact fun e he => authorised_of_logs haccepted (hlogs e he)

/-- A drain runs: it reads the login, or goes on with the frames. -/
theorem LoginInv.drain {out : Session × List Output} (h : LoginInv r)
    (hdrain : r.session.drain = some out) : LoginInv (r.goOn sha1 [] out) := by
  have hlogin := h.login
  unfold Session.drain at hdrain
  split at hdrain
  case h_1 queued hq hst =>
    rw [hst] at hlogin
    split at hdrain
    case h_1 =>
      cases hdrain
      exact h.goOn (by simp) h.buffer (by simp [hst]) (Or.inr (by simp [hst, LoginAt]))
    case h_2 =>
      cases hdrain
      exact h.goOn (by simp) h.buffer (by simp [hst]) (Or.inr (by simp [hst, LoginAt]))
    -- the login comes from the front of the buffer, which is a part of what arrived
    case h_3 login hparse =>
      cases hdrain
      refine h.goOn (by simp) ((List.drop_suffix _ _).trans h.buffer) ?_ (Or.inl ⟨_, rfl⟩)
      intro imei himei
      cases himei
      obtain ⟨-, -, hdigits, -, -⟩ := parseImei_some hparse
      refine ⟨hdigits, _, ?_, parseImei_take hparse⟩
      exact (List.take_prefix _ _).isInfix.trans h.buffer.isInfix
  -- the loop never goes back to asking
  case h_2 queued imei hq hst =>
    cases hdrain
    rw [hst] at hlogin
    obtain ⟨hbuffer, hstate⟩ := Session.loop_spec' { r.session with queued } imei
    refine h.goOn (by simp) (hbuffer.trans h.buffer) ?_ (Or.inr ?_)
    · intro imei' himei'
      rcases hstate with ⟨hready, -⟩ | ⟨frame, hstoring, -⟩
      · rw [hready] at himei'
        cases himei'
      · rw [hstoring] at himei'
        cases himei'
    · rcases hstate with ⟨hready, -⟩ | ⟨frame, hstoring, -⟩
      · rw [hready]
        exact Accepted.append (Accepted.append hlogin)
      · rw [hstoring]
        exact Accepted.append (Accepted.append hlogin)
  case h_3 => cases hdrain

/-- The loop goes on, on a session that is logged in. -/
theorem LoginInv.loop {before : List Entry} (outs : List Output) (h : LoginInv r)
    (hbefore : ∀ e ∈ before, Plain e)
    (haccepted : Accepted (r.log ++ before ++ outs.flatMap outputEntry) imei) :
    LoginInv (r.goOn sha1 before ((r.session.loop imei).1, outs ++ (r.session.loop imei).2)) := by
  obtain ⟨hbuffer, hstate⟩ := Session.loop_spec' r.session imei
  refine h.goOn hbefore (hbuffer.trans h.buffer) ?_ (Or.inr ?_)
  · intro imei' himei'
    rcases hstate with ⟨hready, -⟩ | ⟨frame, hstoring, -⟩
    · rw [hready] at himei'
      cases himei'
    · rw [hstoring] at himei'
      cases himei'
  · rw [List.flatMap_append, ← List.append_assoc]
    rcases hstate with ⟨hready, -⟩ | ⟨frame, hstoring, -⟩
    · rw [hready]
      exact haccepted.append
    · rw [hstoring]
      exact haccepted.append

/-- The allow-list answers: the device is told before anything else is done. -/
theorem LoginInv.allowed {a : Except JsError Bool} {out : Session × List Output} (h : LoginInv r)
    (hanswer : r.session.loginAnswered a = some out) :
    LoginInv (r.goOn sha1 (loginEntry r.session.state a) out) := by
  have hlogin := h.login
  unfold Session.loginAnswered at hanswer
  split at hanswer
  case h_1 imei hst =>
    cases hanswer
    rw [hst] at hlogin ⊢
    apply LoginInv.loop [.send Session.ACCEPT, .authenticated imei] h
    · intro e he
      rw [List.mem_singleton.mp he]
      trivial
    · refine ⟨?_, ?_, ?_⟩
      · exact List.mem_append_left _ (List.mem_append_left _ hlogin)
      · exact List.mem_append_left _ (List.mem_append_right _ List.mem_cons_self)
      · exact List.mem_append_right _ List.mem_cons_self
  case h_2 imei hst =>
    cases hanswer
    rw [hst]
    exact h.goOn (by simp [loginEntry]) h.buffer (by simp) (Or.inr trivial)
  case h_3 imei e hst =>
    cases hanswer
    rw [hst]
    exact h.goOn (by simp [loginEntry]) h.buffer (by simp) (Or.inr trivial)
  case h_4 => cases hanswer

/-- `handleAvl` is over. -/
theorem LoginInv.handled {a : Except JsError Unit} {out : Session × List Output} (h : LoginInv r)
    (hstored : r.session.stored a = some out) : LoginInv (r.goOn sha1 [] out) := by
  have hlogin := h.login
  unfold Session.stored at hstored
  split at hstored
  case h_1 imei frame hst =>
    cases hstored
    rw [hst] at hlogin
    exact LoginInv.loop [] h (by simp) (Accepted.append (Accepted.append hlogin))
  case h_2 imei frame e hst =>
    cases hstored
    rw [hst] at hlogin
    exact h.goOn (by simp) h.buffer (by simp)
      (Or.inr (Accepted.append (Accepted.append hlogin)))
  case h_3 => cases hstored

/-- A step that only changes the queue of commands, and sends a command. -/
theorem LoginInv.commands (more : List Entry) (session : Session) (h : LoginInv r)
    (hbuffer : session.buffer = r.session.buffer) (hstate : session.state = r.session.state)
    (hplain : ∀ e ∈ more, Plain e) :
    LoginInv { r with session, log := r.log ++ more } where
  buffer := by
    rw [hbuffer]
    exact h.buffer
  read := read_plain h.read hplain
  login := by
    rw [hstate]
    exact h.login.append
  handler h' hh' := by
    rw [hstate]
    exact h.handler h' hh'
  authorised := h.authorised.append_of_mono authorised_mono
    fun e he => authorised_of_plain (hplain e he)

end Lemmas

variable {sha1 : String → String}

theorem loginInv_init : LoginInv init where
  buffer := List.suffix_refl _
  read imei h := by cases h
  login := trivial
  handler h hh := by cases hh
  authorised := causal_nil

/-- Every step keeps the invariant. -/
theorem loginInv_step {r r' : SessionRun} {e : Ev} (h : LoginInv r)
    (hs : step sha1 r e = some r') : LoginInv r' := by
  -- what is read is a part of what arrived, and nothing else changes the login
  cases e with
  | data chunk =>
    cases hs
    refine ⟨?_, fun imei hin => ?_, h.login, h.handler, h.authorised⟩
    · obtain ⟨front, hfront⟩ := h.buffer
      exact ⟨front, by simp [Session.onData, ← hfront]⟩
    · exact ⟨(h.read imei hin).1, (h.read imei hin).2.append⟩
  | drain =>
    obtain ⟨out, hout, rfl⟩ := Option.map_eq_some_iff.mp hs
    exact h.drain hout
  | allowed a =>
    obtain ⟨out, hout, rfl⟩ := Option.map_eq_some_iff.mp hs
    exact h.allowed hout
  -- the handler goes on with its IMEI
  | checked a =>
    simp only [step] at hs
    split at hs
    case h_1 key k hhandling =>
      cases hs
      obtain ⟨imei, frame, hst, -, hk⟩ := h.handler _ hhandling
      have hgo := LoginInv.handlerGoesOn [] h hst (by simp) (hk a)
      exact ⟨hgo.buffer, hgo.read, hgo.login, hgo.handler, hgo.authorised⟩
    case h_2 => cases hs
  | written a =>
    simp only [step] at hs
    split at hs
    case h_1 records k hhandling =>
      cases hs
      obtain ⟨imei, frame, hst, -, hk⟩ := h.handler _ hhandling
      apply LoginInv.handlerGoesOn _ h hst ?_ (hk a)
      intro e he
      cases a with
      | ok u =>
        rw [List.mem_singleton.mp he]
        trivial
      | error err => cases he
    case h_2 => cases hs
  | handled =>
    simp only [step] at hs
    split at hs
    case h_1 a hhandling =>
      obtain ⟨out, hout, rfl⟩ := Option.map_eq_some_iff.mp hs
      exact h.handled hout
    case h_2 => cases hs
  -- commands add plain entries and leave the state
  | command id now text =>
    simp only [step] at hs
    split at hs
    case h_1 =>
      cases hs
      exact h
    case h_2 session out hcommand =>
      cases hs
      unfold Session.sendCommand at hcommand
      split at hcommand
      · cases hcommand
      · cases hcommand
        exact LoginInv.commands _ _ h rfl rfl (plain_outputs _)
  | commandTimedOut id =>
    cases hs
    have hgo := LoginInv.commands [] (r.session.commandTimedOut id).1 h rfl rfl (by simp)
    rwa [List.append_nil] at hgo
  | handleClosed =>
    cases hs
    have hgo := LoginInv.commands [] r.session.handleClosed.1 h rfl rfl (by simp)
    rwa [List.append_nil] at hgo

/-- **No unauthenticated record.** In every run, every record that is written is of a device
with an IMEI of 15 digits whose login was read and accepted, and whom the session has told
so, before the write began; and an acknowledgement comes after that answer. -/
theorem records_authenticated {es : List Ev} {r : SessionRun}
    (hrun : Run (step sha1) (fun _ _ => True) init es r) {before after : List Entry} {e : Entry}
    (hlog : r.log = before ++ e :: after) :
    (∀ records, e = .writing records → ∀ tel ∈ records, isImei tel.imei = true ∧
      LoginRead r.received tel.imei ∧ .allowed tel.imei ∈ before ∧
      .sent Session.ACCEPT ∈ before) ∧
    ∀ buf, e = .ack buf → .sent Session.ACCEPT ∈ before := by
  have h : LoginInv r := hrun.invariant loginInv_init fun _ _ _ h _ hs => loginInv_step h hs
  have hauthorised := h.authorised before e after hlog
  constructor
  · intro records he tel htel
    subst he
    obtain ⟨hasked, hallowed, hsent⟩ := hauthorised tel htel
    have hin : .asked tel.imei ∈ r.log := by
      rw [hlog]
      exact List.mem_append_left _ hasked
    obtain ⟨hdigits, hread⟩ := h.read tel.imei hin
    exact ⟨hdigits, hread, hallowed, hsent⟩
  · intro buf he
    subst he
    obtain ⟨imei, -, -, hsent⟩ := hauthorised
    exact hsent

/-- Login and sample frame in one chunk; everything resolves. -/
def sampleEvents : List Ev :=
  [.data (sampleLogin ++ sampleFrame), .drain, .allowed (.ok true), .checked (.ok true),
    .written (.ok ()), .handled]

/-- The log of a session that has written one record and acknowledged it. -/
def hasWritten (log : List Entry) : Bool :=
  match log with
  | [.asked _, .allowed _, .sent _, .authenticated _, .checking _, .writing [_], .wrote _, .ack _] =>
    true
  | _ => false

/-- The sample frame is written for the device that has logged in. -/
theorem sample_record_authenticated : ∃ es r before after tel,
    Run (step sampleSha1) (fun _ _ => True) init es r ∧
      r.log = before ++ .writing [tel] :: after ∧ isImei tel.imei = true ∧
      LoginRead r.received tel.imei ∧ .allowed tel.imei ∈ before ∧
      .sent Session.ACCEPT ∈ before := by
  have hfold : (sampleEvents.foldlM (fun r e => if True then step sampleSha1 r e else none)
      init).any (fun r => hasWritten r.log) = true := by
    decide +kernel
  obtain ⟨r, hr, hwritten⟩ := (Option.any_eq_true _ _).mp hfold
  have hrun : Run (step sampleSha1) (fun _ _ => True) init sampleEvents r := Run.of_foldlM hr
  unfold hasWritten at hwritten
  split at hwritten
  case h_1 i₁ i₂ b₁ i₃ key tel records buf hlog =>
    have hsplit : r.log = [.asked i₁, .allowed i₂, .sent b₁, .authenticated i₃, .checking key] ++
        .writing [tel] :: [.wrote records, .ack buf] := hlog
    have h := (records_authenticated hrun hsplit).1 [tel] rfl tel List.mem_cons_self
    exact ⟨_, r, _, _, tel, hrun, hsplit, h⟩
  case h_2 => cases hwritten

end SessionRun

end FleetTracking.Ingestion
