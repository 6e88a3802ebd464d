import FleetTracking.Lib.EventLog
import FleetTracking.Lib.Typestate
import FleetTracking.Web.Session

/-!
# Requests of the Web Application

`request`: a call of the API that renews the session where its answer is 401, and ends it where
that fails. Calls overlap, and share the refresh.

1. `request`: the function; `webApp`: any number of calls, and the answers to the refreshes.
2. `Justified`: what a call may end the session for.
3. `Sound`: what the promises of the refreshes say, as long as each refresh is answered.
4. `requests`: the phases of a call.
5. `session_survives`: no call ends the session for anything else.
-/

namespace FleetTracking.Web

open Async ControlPlane EventLog Transition Typestate

/-! ## The function -/

structure Response where
  status : Nat
  statusText : String

/-- The body of an answer. -/
inductive ResponseText where
  | empty
  -- It has this `message`, if it has one.
  | json (message : Option String)
  | malformed

inductive WebError where
  -- `fetch` or `text` has rejected.
  | network
  -- `JSON.parse` has thrown.
  | syntaxError
  | api (status : Nat) (message : String)

inductive RequestOp where
  | fetch (path : String) (token : Option String)
  -- The promise of a refresh.
  | refreshed (p : Nat)
  | text

inductive RequestAct where
  | getToken
  | refreshSession
  | endSession

def RequestOp.Res : RequestOp → Type
  | .fetch _ _ => Response
  | .refreshed _ => Bool
  | .text => ResponseText

def RequestAct.Ret : RequestAct → Type
  | .getToken => Option String
  | .refreshSession => Nat
  | .endSession => Unit

def webSig : Sig := ⟨RequestOp, RequestOp.Res, RequestAct, RequestAct.Ret, WebError⟩

abbrev WebM := Async webSig

def WebM.perform (op : RequestOp) : WebM op.Res := Async.perform (S := webSig) op

def WebM.action (a : RequestAct) : WebM a.Ret := Async.action (S := webSig) a

def sessionExpired : WebError := .api 401 "Your session expired — please sign in again."

/-- `path.startsWith('/auth/')`. -/
def isAuth (path : String) : Bool := "/auth/".toList.isPrefixOf path.toList

/-- `text ? JSON.parse(text) : null`. -/
def parseBody : ResponseText → Except WebError ResponseText
  | .malformed => .error .syntaxError
  | text => .ok text

/-- `body?.message`. -/
def messageOf : ResponseText → Option String
  | .json message => message
  | _ => none

def send (path : String) : WebM Response := do
  let token ← WebM.action .getToken
  WebM.perform (.fetch path token)

/-- The end of `request`, with the answer it has. -/
def finish (path : String) (res : Response) : WebM ResponseText := do
  let text ← WebM.perform .text
  let body ← ofExcept (S := webSig) (parseBody text)
  if res.status = 401 ∧ ¬ isAuth path then do
    WebM.action .endSession
    throw sessionExpired
  else if isOk res.status then pure body
  else throw (WebError.api res.status ((messageOf body).getD res.statusText))

/-- `request`; no caller sets `retried`. -/
def request (path : String) : WebM ResponseText := do
  let res ← send path
  -- Access token expired: refresh once, transparently, and retry.
  if res.status = 401 ∧ ¬ isAuth path then do
    let p ← WebM.action .refreshSession
    let refreshed : Bool ← WebM.perform (.refreshed p)
    if refreshed then do
      let res ← send path
      finish path res
    else do
      WebM.action .endSession
      throw sessionExpired
  else finish path res

/-! ## The page -/

/-- What happens in the page, as far as it matters for the end of the session. -/
inductive PageNote where
  -- A fetch of request `i` was answered.
  | answered (i status : Nat)
  -- Request `i` goes on with the result of a refresh.
  | awaited (i p : Nat)
  -- The server answered a refresh with an error status.
  | refused (p : Nat)
  -- A refresh has brought new tokens.
  | renewed (p : Nat)
  -- Request `i` has cleared the tokens; the refresh token that was stored.
  | cleared (i : Nat) (refreshToken : Option String)
  deriving DecidableEq

structure Page where
  session : Session
  log : List PageNote

/-- How an awaited operation ends. -/
inductive WebOutcome where
  | rejects
  | response (status : Nat) (statusText : String)
  | text (text : ResponseText)
  -- The promise is settled.
  | wakes

/-- `endSession`, in call `i`; without the way to the login page. -/
def Page.endSession (s : Page) (i : Nat) : Page :=
  { session := s.session.clearToken, log := s.log ++ [.cleared i s.session.refreshToken] }

def Page.act (i : Nat) (a : RequestAct) (s : Page) : Page × a.Ret :=
  match a with
  | .getToken => (s, s.session.token)
  | .refreshSession =>
    ({ s with session := s.session.refreshSession.1 }, s.session.refreshSession.2)
  | .endSession => (s.endSession i, ())

def Page.settle (i : Nat) (op : RequestOp) (x : WebOutcome) (s : Page) :
    Option (Page × Except WebError op.Res) :=
  match op, x with
  | .fetch _ _, .rejects => some (s, .error .network)
  | .fetch _ _, .response status statusText =>
    some ({ s with log := s.log ++ [.answered i status] }, .ok ⟨status, statusText⟩)
  | .text, .rejects => some (s, .error .network)
  | .text, .text text => some (s, .ok text)
  | .refreshed p, .wakes =>
    match s.session.promises[p]? with
    | some (.settled refreshed) =>
      some ({ s with log := s.log ++ [.awaited i p] }, .ok refreshed)
    | _ => none
  | _, _ => none

/-- What a step of the session has to say. -/
def notesOf : SessionEvent → List PageNote
  | .answered p (.response status) => if isOk status then [] else [.refused p]
  | .read p (.object accessToken _) =>
    if (accessToken.filter truthy).isSome then [.renewed p] else []
  | _ => []

/-- A step of the session that no call makes. -/
def Page.move (e : SessionEvent) (s : Page) : Option Page :=
  (s.session.step e).map fun session => { session, log := s.log ++ notesOf e }

/-- Any number of requests, by path. -/
def webApp : System webSig Nat String ResponseText Page WebOutcome SessionEvent where
  settle i _ op x s := s.settle i op x
  act i _ a s := s.act i a
  code := request
  env := Page.move

def Page.load (token refreshToken : Option String) : Page := ⟨Session.load token refreshToken, []⟩

/-! ## The end of the session -/

/-- Request `i` was answered 401 again, after a refresh that it had awaited had brought new
tokens. -/
def Again (i : Nat) (log : List PageNote) : Prop :=
  ∃ p before after, log = before ++ .awaited i p :: after ∧
    .renewed p ∈ before ∧ .answered i 401 ∈ after

/-- A call may clear the tokens if there is no refresh token, if it has awaited a refresh that the
server refused, or if it was answered 401 again. -/
def Justified (before : List PageNote) : PageNote → Prop
  | .cleared i refreshToken => refreshToken.filter truthy = none ∨
      (∃ p, .awaited i p ∈ before ∧ .refused p ∈ before) ∨ Again i before
  | _ => True

/-- The page makes requests, and nobody logs in. -/
def NoLogin : Event String WebOutcome SessionEvent Nat → Prop
  | .env (.login _ _) => False
  | _ => True

/-- A refresh does not fail at the network level, and one that the server does not refuse brings an
access token. -/
def RefreshAnswered : Event String WebOutcome SessionEvent Nat → Prop
  | .env (.answered _ .networkError) => False
  | .env (.read _ .unreadable) => False
  | .env (.read _ (.object accessToken _)) => (accessToken.filter truthy).isSome
  | _ => True

instance : (e : Event String WebOutcome SessionEvent Nat) → Decidable (NoLogin e)
  | .env (.login _ _) => .isFalse id
  | .env .refreshSession | .env (.answered _ _) | .env (.read _ _) | .env .logout => .isTrue trivial
  | .start _ _ | .settle _ _ | .resume _ => .isTrue trivial

instance : (e : Event String WebOutcome SessionEvent Nat) → Decidable (RefreshAnswered e)
  | .env (.answered _ .networkError) => .isFalse id
  | .env (.answered _ (.response _)) => .isTrue trivial
  | .env (.read _ .unreadable) => .isFalse id
  | .env (.read _ (.object accessToken _)) =>
    inferInstanceAs (Decidable ((accessToken.filter truthy).isSome = true))
  | .env .refreshSession | .env (.login _ _) | .env .logout => .isTrue trivial
  | .start _ _ | .settle _ _ | .resume _ => .isTrue trivial

/-! ## The refreshes -/

/-- What the promises of the refreshes say: a refresh has failed because the server refused it, or
because there was no token, and then there is none and the latch stays set. -/
structure Sound (s : Page) : Prop where
  latched : ∀ p, s.session.Pending p → s.session.refreshInFlight = some p
  failed : ∀ p, s.session.promises[p]? = some (.settled false) → .refused p ∈ s.log ∨
    s.session.refreshInFlight = some p ∧ s.session.refreshToken.filter truthy = none
  renewed : ∀ p, s.session.promises[p]? = some (.settled true) → .renewed p ∈ s.log

section Refreshes

variable {s s' : Page}

theorem sound_load (token refreshToken : Option String) : Sound (Page.load token refreshToken) where
  latched p hp := by
    obtain ⟨r, hr, _⟩ := hp
    simp [Page.load, Session.load] at hr
  failed p hp := by simp [Page.load, Session.load] at hp
  renewed p hp := by simp [Page.load, Session.load] at hp

/-- More notes make no difference. -/
theorem Sound.note (h : Sound s) (notes : List PageNote) :
    Sound { s with log := s.log ++ notes } where
  latched := h.latched
  failed p hp := (h.failed p hp).imp_left (List.mem_append_left notes)
  renewed p hp := List.mem_append_left notes (h.renewed p hp)

/-- Without tokens. -/
theorem Sound.clearToken (h : Sound s) (notes : List PageNote) :
    Sound { session := s.session.clearToken, log := s.log ++ notes } where
  latched := h.latched
  failed p hp := (h.failed p hp).imp (List.mem_append_left notes) fun hnone => ⟨hnone.1, rfl⟩
  renewed p hp := List.mem_append_left notes (h.renewed p hp)

/-- A refresh is started, or the one in flight is shared. -/
theorem Sound.refreshSession (h : Sound s) :
    Sound { s with session := s.session.refreshSession.1 } := by
  unfold Session.refreshSession
  -- a refresh under way is joined, otherwise a new one is latched
  cases hlatch : s.session.refreshInFlight with
  | some p => exact h
  | none =>
    refine ⟨?_, ?_, ?_⟩
    · rintro p ⟨r, hr, hpending⟩
      rcases Session.promise_started hr with hr | ⟨rfl, -⟩
      · have hlatched := h.latched p ⟨r, hr, hpending⟩
        rw [hlatch] at hlatched
        cases hlatched
      · rfl
    · intro p hp
      rcases Session.promise_started hp with hr | ⟨rfl, hstart⟩
      · rcases h.failed p hr with hrefused | ⟨hlatched, _⟩
        · exact Or.inl hrefused
        · rw [hlatch] at hlatched
          cases hlatched
      · refine Or.inr ⟨rfl, ?_⟩
        dsimp only
        cases htoken : s.session.refreshToken.filter truthy with
        | none => rfl
        | some refreshToken => simp [Session.startRefresh, htoken] at hstart
    · intro p hp
      rcases Session.promise_started hp with hr | ⟨rfl, hstart⟩
      · exact h.renewed p hr
      · cases htoken : s.session.refreshToken.filter truthy with
        | none => simp [Session.startRefresh, htoken] at hstart
        | some refreshToken => simp [Session.startRefresh, htoken] at hstart

/-- The pending refresh is over, and it is noted how. -/
theorem Sound.settle (h : Sound s) {p : Nat} (hp : s.session.Pending p) {refreshed : Bool}
    {log : List PageNote} {session : Session}
    (hpromises : session.promises = s.session.promises) (hlog : ∀ note ∈ s.log, note ∈ log)
    (hrefused : refreshed = false → .refused p ∈ log)
    (hrenewed : refreshed = true → .renewed p ∈ log) :
    Sound { session := session.settle p refreshed, log } := by
  -- the refresh itself, or one that was settled or pending before
  have hcases : ∀ q r, (session.settle p refreshed).promises[q]? = some r →
      q = p ∧ r = .settled refreshed ∨ q ≠ p ∧ s.session.promises[q]? = some r := by
    intro q r hr
    rw [← hpromises]
    exact Session.promise_set hr
  refine ⟨?_, ?_, ?_⟩
  · rintro q ⟨r, hr, hpending⟩
    rcases hcases q r hr with ⟨rfl, rfl⟩ | ⟨hne, hr⟩
    · cases hpending
    · have hq := h.latched q ⟨r, hr, hpending⟩
      rw [h.latched p hp] at hq
      exact absurd (Option.some.inj hq).symm hne
  · intro q hq
    rcases hcases q _ hq with ⟨rfl, heq⟩ | ⟨hne, hr⟩
    · exact Or.inl (hrefused (Refresh.settled.inj heq).symm)
    · rcases h.failed q hr with hmem | ⟨hlatched, _⟩
      · exact Or.inl (hlog _ hmem)
      · rw [h.latched p hp] at hlatched
        exact absurd (Option.some.inj hlatched).symm hne
  · intro q hq
    rcases hcases q _ hq with ⟨rfl, heq⟩ | ⟨hne, hr⟩
    · exact hrenewed (Refresh.settled.inj heq).symm
    · exact hlog _ (h.renewed q hr)

/-- The pending refresh goes on to read its answer. -/
theorem Sound.reading (h : Sound s) {p : Nat} (hp : s.session.Pending p) (refreshToken : String) :
    Sound { s with session :=
      { s.session with promises := s.session.promises.set p (.reading refreshToken) } } := by
  refine ⟨?_, ?_, ?_⟩
  · rintro q ⟨r, hr, hpending⟩
    rcases Session.promise_set hr with ⟨rfl, -⟩ | ⟨-, hr⟩
    · exact h.latched q hp
    · exact h.latched q ⟨r, hr, hpending⟩
  · intro q hq
    rcases Session.promise_set hq with ⟨-, heq⟩ | ⟨-, hr⟩
    · cases heq
    · exact h.failed q hr
  · intro q hq
    rcases Session.promise_set hq with ⟨-, heq⟩ | ⟨-, hr⟩
    · cases heq
    · exact h.renewed q hr

/-- **What the promises say stays so**, as long as each refresh is answered and nobody logs in. -/
theorem Sound.move (h : Sound s) {e : SessionEvent} (hlogin : NoLogin (.env e))
    (hanswered : RefreshAnswered (.env e)) (hs : s.move e = some s') : Sound s' := by
  obtain ⟨session, hstep, rfl⟩ := Option.map_eq_some_iff.mp hs
  cases e with
  | refreshSession =>
    obtain rfl := Option.some.inj hstep
    exact h.refreshSession.note []
  | answered p outcome =>
    simp only [Session.step, Session.answered] at hstep
    split at hstep
    -- this is where a network failure would become the `false` of a refusal
    case h_1 => exact hanswered.elim
    case h_2 status hfetching =>
      split at hstep
      case isTrue hok =>
        obtain rfl := Option.some.inj hstep
        exact (h.reading ⟨_, hfetching, rfl⟩ _).note _
      case isFalse hnot =>
        -- the server has refused the token
        obtain rfl := Option.some.inj hstep
        have hnote : .refused p ∈ s.log ++ notesOf (.answered p (.response status)) := by
          simp [notesOf, hnot]
        exact h.settle ⟨_, hfetching, rfl⟩ rfl (fun _ => List.mem_append_left _) (fun _ => hnote)
          fun heq => by cases heq
    case h_3 => cases hstep
  | read p body =>
    simp only [Session.step, Session.read] at hstep
    split at hstep
    case h_1 => exact hanswered.elim
    case h_2 accessToken refreshToken hreading =>
      obtain ⟨token, htoken⟩ := Option.isSome_iff_exists.mp hanswered
      rw [htoken] at hstep
      obtain rfl := Option.some.inj hstep
      have hnote : .renewed p ∈ s.log ++ notesOf (.read p (.object accessToken refreshToken)) := by
        simp [notesOf, htoken]
      exact h.settle ⟨_, hreading, rfl⟩ rfl (fun _ => List.mem_append_left _)
        (fun heq => by cases heq) fun _ => hnote
    case h_3 => cases hstep
  -- it could store a token behind a refresh that has failed for want of one
  | login accessToken refreshToken => exact hlogin.elim
  | logout =>
    obtain rfl := Option.some.inj hstep
    exact h.clearToken _

end Refreshes

/-! ## The phases of a request -/

/-- What a request has done. -/
inductive RequestPhase where
  | sending
  -- It was answered.
  | sent (status : Nat)
  -- It waits for a refresh.
  | refreshing
  | refreshed (p : Nat) (renewed : Bool)
  -- It was answered after the refresh.
  | again (status : Nat)

namespace RequestPhase

def next : RequestPhase → Seen webSig → RequestPhase
  | .sending, .answered (RequestOp.fetch _ _) (.ok res) => .sent (Response.status res)
  | .sent _, .did RequestAct.refreshSession _ => .refreshing
  | .refreshing, .answered (RequestOp.refreshed p) (.ok renewed) => .refreshed p renewed
  | .refreshed _ true, .answered (RequestOp.fetch _ _) (.ok res) => .again (Response.status res)
  | q, _ => q

/-- It may end the session after a refresh that has failed, and where it was answered 401 again. -/
def mayAct : RequestPhase → RequestAct → Prop
  | .refreshed _ renewed, .endSession => renewed = false
  | .again status, .endSession => status = 401
  | _, .endSession => False
  | _, _ => True

/-- What is known of the page in a phase of request `i`. -/
def Known (s : Page) (i : Nat) : RequestPhase → Prop
  | .refreshed p false => .awaited i p ∈ s.log ∧ s.session.promises[p]? = some (.settled false)
  | .refreshed p true => ∃ before after, s.log = before ++ .awaited i p :: after ∧
      .renewed p ∈ before
  | .again status => status = 401 → Again i s.log
  | _ => True

end RequestPhase

def requests : Typestate webSig String ResponseText where
  Phase := RequestPhase
  init _ := .sending
  next := RequestPhase.next
  may _ _ := True
  mayAct := RequestPhase.mayAct
  done _ _ := True

section Phases

variable {s s' : Page} {i : Nat} {q : RequestPhase} {path : String} {res : Response}

theorem next_text (q : RequestPhase) (r : Except WebError ResponseText) :
    q.next (.answered .text r) = q := by
  cases q with
  | refreshed p renewed =>
    cases renewed with
    | false => rfl
    | true => rfl
  | _ => rfl

theorem next_getToken (q : RequestPhase) (r : Option String) : q.next (.did .getToken r) = q := by
  cases q with
  | refreshed p renewed =>
    cases renewed with
    | false => rfl
    | true => rfl
  | _ => rfl

theorem mayAct_getToken (q : RequestPhase) : q.mayAct .getToken := by
  cases q with
  | _ => trivial

/-- What is known stays so, with more notes and more promises. -/
theorem RequestPhase.Known.mono (h : q.Known s i) {notes : List PageNote}
    (hlog : s'.log = s.log ++ notes)
    (hsettled : ∀ p : Nat, s.session.promises[p]? = some (Refresh.settled false) →
      s'.session.promises[p]? = some (Refresh.settled false)) : q.Known s' i := by
  cases q with
  | refreshed p renewed =>
    cases renewed with
    | false =>
      refine ⟨?_, hsettled p h.2⟩
      rw [hlog]
      exact List.mem_append_left notes h.1
    | true =>
      obtain ⟨before, after, heq, hmem⟩ := h
      exact ⟨before, after ++ notes, by simp [hlog, heq], hmem⟩
  | again status =>
    intro hstatus
    obtain ⟨p, before, after, heq, hbefore, hafter⟩ := h hstatus
    exact ⟨p, before, after ++ notes, by simp [hlog, heq], hbefore,
      List.mem_append_left notes hafter⟩
  | _ => trivial

/-- A settled promise stays as it is. -/
theorem settled_move {e : SessionEvent} (hs : s.move e = some s') {p : Nat} {renewed : Bool}
    (hp : s.session.promises[p]? = some (.settled renewed)) :
    s'.session.promises[p]? = some (.settled renewed) := by
  obtain ⟨session, hstep, rfl⟩ := Option.map_eq_some_iff.mp hs
  -- the promise that the step writes was not settled
  have hset : ∀ {q : Nat} {r r' : Refresh}, s.session.promises[q]? = some r → r.pending = true →
      (s.session.promises.set q r')[p]? = some (.settled renewed) := by
    intro q r r' hq hpending
    have hne : q ≠ p := by
      rintro rfl
      rw [hp] at hq
      obtain rfl := Option.some.inj hq
      cases hpending
    rw [List.getElem?_set_ne hne]
    exact hp
  cases e with
  | refreshSession =>
    obtain rfl := Option.some.inj hstep
    have hlt := (List.getElem?_eq_some_iff.mp hp).1
    simp only [Session.refreshSession]
    split
    · exact hp
    · rw [List.getElem?_append_left hlt]
      exact hp
  | answered q outcome =>
    simp only [Session.step, Session.answered] at hstep
    split at hstep
    case h_1 hfetching =>
      obtain rfl := Option.some.inj hstep
      exact hset hfetching rfl
    case h_2 hfetching =>
      split at hstep
      case isTrue =>
        obtain rfl := Option.some.inj hstep
        exact hset hfetching rfl
      case isFalse =>
        obtain rfl := Option.some.inj hstep
        exact hset hfetching rfl
    case h_3 => cases hstep
  | read q body =>
    simp only [Session.step, Session.read] at hstep
    split at hstep
    case h_1 hreading =>
      obtain rfl := Option.some.inj hstep
      exact hset hreading rfl
    case h_2 hreading =>
      split at hstep
      case h_1 =>
        obtain rfl := Option.some.inj hstep
        exact hset hreading rfl
      case h_2 =>
        obtain rfl := Option.some.inj hstep
        exact hset hreading rfl
    case h_3 => cases hstep
  | login accessToken refreshToken =>
    obtain rfl := Option.some.inj hstep
    exact hp
  | logout =>
    obtain rfl := Option.some.inj hstep
    exact hp

/-! ## The function follows them -/

theorem finish_conforms (h : res.status = 401 ∧ ¬ isAuth path → q.mayAct .endSession) :
    requests.Conforms (finish path res) q requests.done := by
  refine Conforms.perform_bind trivial (fun text => ?_) fun _ => trivial
  have hnext : requests.next q (.answered .text (.ok text)) = q := next_text q _
  rw [hnext]
  have hbody : requests.Conforms (ofExcept (S := webSig) (parseBody text)) q fun q' _ => q' = q :=
    conforms_ofExcept.mpr rfl
  refine hbody.bind ?_ fun _ _ _ => trivial
  rintro _ body rfl
  split
  case isTrue hagain => exact Conforms.action_bind (h hagain) fun _ => trivial
  case isFalse =>
    split
    · exact trivial
    · exact trivial

/-- A request is sent, and goes on with the answer. -/
theorem send_conforms {f : Response → WebM ResponseText}
    (hok : ∀ token res, requests.Conforms (f res)
      (q.next (.answered (RequestOp.fetch path token) (.ok res))) requests.done) :
    requests.Conforms (send path >>= f) q requests.done := by
  refine conforms_bind.mpr (Conforms.action_bind (mayAct_getToken q) fun token => ?_)
  have hnext : requests.next q (.did .getToken token) = q := next_getToken q token
  rw [hnext]
  refine conforms_perform.mpr ⟨trivial, fun r => ?_⟩
  cases r with
  | error e => exact trivial
  | ok res => exact hok token res

theorem request_conforms (path : String) :
    requests.Conforms (request path) (requests.init path) requests.done := by
  refine send_conforms fun token res => ?_
  split
  case isTrue hrefresh =>
    refine Conforms.action_bind trivial fun p => ?_
    refine Conforms.perform_bind trivial (fun refreshed => ?_) fun _ => trivial
    cases refreshed with
    | true => exact send_conforms fun token res => finish_conforms fun hagain => hagain.1
    | false => exact Conforms.action_bind rfl fun _ => trivial
  case isFalse hnot => exact finish_conforms fun hrefresh => absurd hrefresh hnot

end Phases

/-! ## The invariant -/

/-- The promises say what they should, what has happened was justified, and the phases of the
requests are known. -/
structure PageInv (s : Page) (ph : Nat → Option (String × RequestPhase)) : Prop where
  sound : Sound s
  causal : Causal Justified s.log
  known : ∀ i c q, ph i = some (c, q) → q.Known s i

section Page

variable {s s' : Page} {ph : Nat → Option (String × RequestPhase)} {i : Nat} {c : String}
  {q q' : RequestPhase} {notes : List PageNote}

/-- What was justified stays so. -/
theorem justified_append (before more : List PageNote) (note : PageNote)
    (h : Justified before note) : Justified (before ++ more) note := by
  cases note with
  | cleared i refreshToken =>
    rcases h with hnone | ⟨p, hawaited, hrefused⟩ | ⟨p, pre, post, heq, hpre, hpost⟩
    · exact Or.inl hnone
    · exact Or.inr (Or.inl ⟨p, List.mem_append_left _ hawaited, List.mem_append_left _ hrefused⟩)
    · exact Or.inr (Or.inr ⟨p, pre, post ++ more, by simp [heq], hpre,
        List.mem_append_left _ hpost⟩)
  | _ => trivial

/-- The page goes on, without a request. -/
theorem PageInv.page (h : PageInv s ph) (hsound : Sound s') (hlog : s'.log = s.log ++ notes)
    (hnotes : ∀ note ∈ notes, Justified s.log note)
    (hsettled : ∀ p : Nat, s.session.promises[p]? = some (Refresh.settled false) →
      s'.session.promises[p]? = some (Refresh.settled false)) : PageInv s' ph where
  sound := hsound
  causal := by
    rw [hlog]
    exact h.causal.append_of_mono justified_append hnotes
  known j c q hj := (h.known j c q hj).mono hlog hsettled

/-- A request goes on. -/
theorem PageInv.moved (h : PageInv s ph) (hknown : q.Known s i) :
    PageInv s (Function.update ph i (some (c, q))) where
  sound := h.sound
  causal := h.causal
  known j c' q' hj := by
    rcases update_some_iff.mp hj with ⟨rfl, heq⟩ | ⟨-, hj⟩
    · cases heq
      exact hknown
    · exact h.known j c' q' hj

/-- A request may end the session where its phase allows it. -/
theorem PageInv.may_end (h : PageInv s ph) (hi : ph i = some (c, q)) (hmay : q.mayAct .endSession) :
    Justified s.log (.cleared i s.session.refreshToken) := by
  have hknown := h.known i c q hi
  cases q with
  | refreshed p renewed =>
    cases renewed with
    | true => cases hmay
    | false =>
      -- the promise is still settled, so what it says of the refresh is still so
      rcases h.sound.failed p hknown.2 with hrefused | ⟨-, hnone⟩
      · exact Or.inr (Or.inl ⟨p, hknown.1, hrefused⟩)
      · exact Or.inl hnone
  | again status => exact Or.inr (Or.inr (hknown hmay))
  | _ => exact hmay.elim

/-- An action makes nothing unknown. -/
theorem known_did (h : q.Known s i) (a : RequestAct) (r : a.Ret) :
    (q.next (.did a r)).Known s i := by
  cases q with
  | sent status =>
    cases a with
    | _ => trivial
  | refreshed p renewed =>
    cases renewed with
    | false => exact h
    | true => exact h
  | sending => trivial
  | refreshing => trivial
  | again status => exact h

/-- A rejection changes no phase. -/
theorem next_error (q : RequestPhase) (op : RequestOp) (e : WebError) :
    q.next (.answered op (.error e)) = q := by
  cases op with
  | text => exact next_text q _
  | fetch path token =>
    cases q with
    | refreshed p renewed =>
      cases renewed with
      | false => rfl
      | true => rfl
    | _ => rfl
  | refreshed p =>
    cases q with
    | refreshed p renewed =>
      cases renewed with
      | false => rfl
      | true => rfl
    | _ => rfl

theorem known_error (h : q.Known s i) (op : RequestOp) (e : WebError) :
    (q.next (.answered op (.error e))).Known s i := by
  have hnext := next_error q op e
  rw [hnext]
  exact h

theorem known_text (h : q.Known s i) (r : Except WebError ResponseText) :
    (q.next (.answered .text r)).Known s i := by
  have hnext := next_text q r
  rw [hnext]
  exact h

/-- The page with one more note. -/
def Page.noted (s : Page) (note : PageNote) : Page := { s with log := s.log ++ [note] }

/-- A request was answered. -/
theorem known_response (h : q.Known s i) (path : String) (token : Option String) (res : Response) :
    (q.next (.answered (RequestOp.fetch path token) (.ok res))).Known
      (s.noted (.answered i res.status)) i := by
  have hstays : q.Known (s.noted (.answered i res.status)) i := h.mono rfl fun _ hp => hp
  cases q with
  | sending => trivial
  | sent status => trivial
  | refreshing => trivial
  | again status => exact hstays
  | refreshed p renewed =>
    cases renewed with
    | false => exact hstays
    | true =>
      intro hstatus
      obtain ⟨before, after, heq, hmem⟩ := h
      exact ⟨p, before, after ++ [.answered i res.status], by simp [Page.noted, heq], hmem,
        by rw [hstatus]; simp⟩

/-- The promise that a request waits for is settled. -/
theorem known_refreshed (h : q.Known s i) (hsound : Sound s) {p : Nat} {renewed : Bool}
    (hp : s.session.promises[p]? = some (.settled renewed)) :
    (q.next (.answered (RequestOp.refreshed p) (.ok renewed))).Known (s.noted (.awaited i p))
      i := by
  have hstays : q.Known (s.noted (.awaited i p)) i := h.mono rfl fun _ hq => hq
  cases q with
  | sending => trivial
  | sent status => trivial
  | again status => exact hstays
  | refreshed p' renewed' =>
    cases renewed' with
    | false => exact hstays
    | true => exact hstays
  | refreshing =>
    cases renewed with
    | false => exact ⟨List.mem_append_right s.log (List.mem_singleton_self _), hp⟩
    -- the new tokens came before the request went on
    | true => exact ⟨s.log, [], rfl, hsound.renewed p hp⟩

/-- A note that needs no reason. -/
theorem PageInv.noted (h : PageInv s ph) {note : PageNote} (hnote : Justified s.log note) :
    PageInv (s.noted note) ph :=
  h.page (h.sound.note [note]) rfl (fun _ hmem => List.mem_singleton.mp hmem ▸ hnote)
    fun _ hp => hp

/-- **What a request awaits takes effect.** -/
theorem PageInv.settle (h : PageInv s ph) (hi : ph i = some (c, q)) {op : RequestOp}
    {x : WebOutcome} {r : Except WebError op.Res} (hs : s.settle i op x = some (s', r)) :
    PageInv s' (Function.update ph i (some (c, q.next (.answered op r)))) := by
  have hknown := h.known i c q hi
  unfold Page.settle at hs
  split at hs
  case h_1 =>
    -- the fetch has failed
    cases hs
    exact h.moved (known_error hknown _ .network)
  case h_2 path token status statusText =>
    cases hs
    have hnote : Justified s.log (.answered i status) := trivial
    exact (h.noted hnote).moved (known_response hknown path token ⟨status, statusText⟩)
  case h_3 =>
    -- the body of the answer has not come
    cases hs
    exact h.moved (known_text hknown (.error .network))
  case h_4 text =>
    cases hs
    exact h.moved (known_text hknown (.ok text))
  case h_5 p =>
    -- the refresh is over, with the result that its promise has
    split at hs
    case h_1 hp =>
      cases hs
      have hnote : Justified s.log (.awaited i p) := trivial
      exact (h.noted hnote).moved (known_refreshed hknown h.sound hp)
    case h_2 => cases hs
  case h_6 => cases hs

/-- **A request performs an action.** -/
theorem PageInv.act (h : PageInv s ph) (hi : ph i = some (c, q)) {a : RequestAct}
    (hmay : q.mayAct a) : PageInv (s.act i a).1
      (Function.update ph i (some (c, q.next (.did a (s.act i a).2)))) := by
  cases a with
  | getToken => exact h.moved (known_did (h.known i c q hi) .getToken _)
  | refreshSession =>
    have hshared : PageInv { s with session := s.session.refreshSession.1 } ph :=
      h.page h.sound.refreshSession (List.append_nil _).symm (fun _ hmem => nomatch hmem)
        fun p hp => settled_move (e := .refreshSession) rfl hp
    exact hshared.moved (known_did (hshared.known i c q hi) .refreshSession _)
  | endSession =>
    have hended : PageInv (s.endSession i) ph :=
      h.page (h.sound.clearToken _) rfl
        (fun _ hmem => List.mem_singleton.mp hmem ▸ h.may_end hi hmay) fun _ hp => hp
    exact hended.moved (known_did (hended.known i c q hi) .endSession _)

/-- Every step keeps the invariant, as long as each refresh is answered and nobody logs in. -/
theorem requests_preserve :
    Preserves webApp requests (fun _ e => NoLogin e ∧ RefreshAnswered e) PageInv where
  code := request_conforms
  start cfg i c h _ _ := h.moved trivial
  act s ph i c q a h hi hmay := h.act hi hmay
  settle cfg i th x s' r h hth _ _ hs := h.settle (phases_of_lookup (T := requests) hth) hs
  finish s ph i c q r h _ _ :=
    ⟨h.sound, h.causal, fun j c' q' hj => h.known j c' q' (update_none_iff.mp hj).2⟩
  env cfg e s' h hok hs := by
    have hlog : s'.log = cfg.shared.log ++ notesOf e := by
      obtain ⟨session, -, rfl⟩ := Option.map_eq_some_iff.mp hs
      rfl
    refine h.page (h.sound.move hok.1 hok.2 hs) hlog (fun note hmem => ?_)
      fun p hp => settled_move hs hp
    cases note with
    | cleared i refreshToken =>
      -- only a request notes it
      cases e with
      | answered p outcome =>
        cases outcome with
        | networkError => cases hmem
        | response status =>
          simp only [notesOf] at hmem
          split at hmem
          · cases hmem
          · cases List.mem_singleton.mp hmem
      | read p body =>
        cases body with
        | unreadable => cases hmem
        | object accessToken refreshToken =>
          simp only [notesOf] at hmem
          split at hmem
          · cases List.mem_singleton.mp hmem
          · cases hmem
      | _ => cases hmem
    | _ => trivial

/-- **A session survives all but its end.** However any number of requests are interleaved, and
however they are answered: as long as every refresh is answered, and with an access token unless it
is refused, the tokens are cleared only if there was no refresh token, the server refused the
refresh that the request had awaited, or the request was answered 401 again after one that had
brought new tokens. -/
theorem session_survives (token refreshToken : Option String)
    {es : List (Event String WebOutcome SessionEvent Nat)}
    {cfg : Config webSig String ResponseText Page Nat}
    (hrun : Run webApp.step (fun _ e => NoLogin e ∧ RefreshAnswered e)
      (Config.start (Page.load token refreshToken)) es cfg) :
    Causal Justified cfg.shared.log := by
  have hinit : PageInv (Page.load token refreshToken) fun _ => none :=
    ⟨sound_load token refreshToken, causal_nil, fun _ _ _ hi => nomatch hi⟩
  exact (requests_preserve.invariant hinit hrun).causal

/-- Two requests share a refresh. The first one is answered then, the second one 401 again. -/
def sharedRefresh : List (Event String WebOutcome SessionEvent Nat) :=
  [.start 0 "/devices", .start 1 "/billing",
    .settle 0 (.response 401 "Unauthorized"), .settle 1 (.response 401 "Unauthorized"),
    .resume 0, .resume 1,
    .env (.answered 0 (.response 200)), .env (.read 0 (.object (some "access2") none)),
    .settle 0 .wakes, .resume 0, .settle 0 (.response 200 "OK"), .resume 0,
    .settle 0 (.text .empty), .resume 0,
    .settle 1 .wakes, .resume 1, .settle 1 (.response 401 "Unauthorized"), .resume 1,
    .settle 1 (.text .empty), .resume 1]

theorem sample_survives : ∃ cfg,
    Run webApp.step (fun _ e => NoLogin e ∧ RefreshAnswered e)
      (Config.start (Page.load (some "access1") (some "refresh1"))) sharedRefresh cfg ∧
      Causal Justified cfg.shared.log ∧ cfg.shared.session.token = none := by
  have hexists : ∃ cfg, Run webApp.step (fun _ e => NoLogin e ∧ RefreshAnswered e)
      (Config.start (Page.load (some "access1") (some "refresh1"))) sharedRefresh cfg ∧
      cfg.shared.session.token = none := by
    apply Run.exists_of_any
    decide +kernel
  obtain ⟨cfg, hrun, hcleared⟩ := hexists
  exact ⟨cfg, hrun, session_survives _ _ hrun, hcleared⟩

/-- The fetch of the refresh fails at the network level. -/
def unreachable : List (Event String WebOutcome SessionEvent Nat) :=
  [.start 0 "/devices", .settle 0 (.response 401 "Unauthorized"), .resume 0,
    .env (.answered 0 .networkError), .settle 0 .wakes, .resume 0]

/-- **A network failure ends the session.** -/
theorem network_failure_clears : ∃ cfg,
    Run webApp.step (fun _ e => NoLogin e)
      (Config.start (Page.load (some "access1") (some "refresh1"))) unreachable cfg ∧
      ¬ Causal Justified cfg.shared.log := by
  have hexists : ∃ cfg, Run webApp.step (fun _ e => NoLogin e)
      (Config.start (Page.load (some "access1") (some "refresh1"))) unreachable cfg ∧
      cfg.shared.log = [.answered 0 401, .awaited 0 0, .cleared 0 (some "refresh1")] := by
    apply Run.exists_of_any
    decide +kernel
  obtain ⟨cfg, hrun, hlog⟩ := hexists
  refine ⟨cfg, hrun, fun hcausal => ?_⟩
  rcases hcausal [.answered 0 401, .awaited 0 0] (.cleared 0 (some "refresh1")) [] hlog with
    hnone | ⟨p, -, hrefused⟩ | ⟨p, before, after, heq, hrenewed, -⟩
  · exact absurd hnone (by decide)
  · simp at hrefused
  · have hmem : PageNote.renewed p ∈ [PageNote.answered 0 401, .awaited 0 0] := by
      rw [heq]
      exact List.mem_append_left _ hrenewed
    simp at hmem

end Page

end FleetTracking.Web
