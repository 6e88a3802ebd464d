import FleetTracking.Auth.TokenFamilies
import FleetTracking.Lib.Supply
import FleetTracking.Lib.Typestate

/-!
# Refreshes and Logouts that Overlap

`refresh` looks its token up, checks it, marks it and mints the next one, each in a request of
its own. Two refreshes with one token may both pass the check, and a logout may come in between
the check and the mint.

1. `Spends`, `SpendNote`: the store, with a log of what refreshes and revocations have achieved.
2. `SpendPhase`, `spendCalls`: how far a call has come.
3. `SpendStep`: the record is as it was found when it is marked, and not revoked since when the
   next token is minted.
4. `SpendInv`, `single_spend`: then no token is exchanged twice, and none after a logout.
-/

namespace FleetTracking.Auth

open Async ControlPlane Transition Typestate

/-! ## Calls that overlap -/

/-- The calls that present a refresh token. -/
inductive SpendCall where
  | refresh (refreshToken : String)
  | logout (refreshToken : String)

namespace SpendCall

/-- The token that is presented. -/
def token : SpendCall → String
  | .refresh refreshToken => refreshToken
  | .logout refreshToken => refreshToken

/-- The call exchanges its token. -/
def exchanges : SpendCall → Bool
  | .refresh _ => true
  | .logout _ => false

def code (D : AuthDeployment) : SpendCall → AuthM AuthReply
  | .refresh refreshToken => (AuthCall.refresh refreshToken).code D
  | .logout refreshToken => (AuthCall.logout refreshToken).code D

end SpendCall

/-- Ghost: what was achieved. -/
inductive SpendNote where
  -- The token was exchanged for the next one of the family.
  | exchanged (refreshToken familyId : String)
  -- The family was revoked, by a logout or after a replay.
  | revoked (familyId : String)
  deriving DecidableEq

/-- The store, and what was achieved so far, latest first. -/
structure Spends where
  auth : AuthStore
  log : List SpendNote

/-- What a request that turns out as `x` achieves for a call. -/
def SpendCall.note (c : SpendCall) : AuthOp → Outcome → List SpendNote
  | .refreshTokensCreate t, .resolves _ => [.exchanged c.token t.familyId]
  | .refreshTokensRevokeFamily familyId _, .resolves _ => [.revoked familyId]
  | _, _ => []

/-- Refreshes and logouts, interleaved at their awaits, while time passes. -/
def spends (D : AuthDeployment) : System authSig Nat SpendCall AuthReply Spends Outcome Nat where
  settle i c op x s := some (⟨(s.auth.settle i op x).1, c.note op x ++ s.log⟩, (s.auth.settle i op x).2)
  act _ _ a s := ({ s with auth := (s.auth.act D a).1 }, (s.auth.act D a).2)
  code := SpendCall.code D
  env ms s := some { s with auth := s.auth.elapse ms }

/-! ## The typestate -/

/-- How far a call has come. -/
structure SpendPhase where
  call : SpendCall
  -- The record that was found.
  record : Option RefreshToken := none
  -- The record was marked as used.
  marked : Bool := false
  -- The next token and the id of its record, until they are stored.
  token : Option String := none
  id : Option String := none

namespace SpendPhase

/-- One more thing has been seen. -/
def next (q : SpendPhase) : Seen authSig → SpendPhase
  | .answered (.refreshTokensFindByHash _) (.ok (some record)) => { q with record := some record }
  | .answered (.refreshTokensMarkUsed _ _) (.ok _) => { q with marked := true }
  | .answered (.refreshTokensCreate _) _ => { call := q.call }
  | .did .randomBytes token => { q with token := some token }
  | .did (.api .randomUUID) id => { q with id := some id }
  | _ => q

/-- What a call may await: it marks a record that was live when it was found. -/
def may (D : AuthDeployment) (q : SpendPhase) : AuthOp → Prop
  | .refreshTokensFindByHash tokenHash => tokenHash = D.hashToken q.call.token
  | .api (.usersFindById _) => True
  | .refreshTokensMarkUsed id _ => q.marked = false ∧
      ∃ record, q.record = some record ∧ record.live = true ∧ id = record.id
  | .refreshTokensCreate t => q.call.exchanges = true ∧ q.marked = true ∧ q.id = some t.id ∧
      q.token.map D.hashToken = some t.tokenHash ∧
      ∃ record, q.record = some record ∧ record.revokedAt = none ∧ t.familyId = record.familyId
  | .refreshTokensRevokeFamily familyId _ => ∃ record, q.record = some record ∧
      familyId = record.familyId
  | _ => False

/-- What a call may do at once. -/
def mayAct : AuthAct → Prop
  | .randomBytes | .api .randomUUID | .api (.backend .now) => True
  | _ => False

end SpendPhase

/-- The typestate of refreshes and logouts. -/
def spendCalls (D : AuthDeployment) : Typestate authSig SpendCall AuthReply where
  Phase := SpendPhase
  init c := { call := c }
  next := SpendPhase.next
  may := SpendPhase.may D
  mayAct _ := SpendPhase.mayAct
  done _ _ := True

section Conforms

variable {D : AuthDeployment} {c : SpendCall} {q : SpendPhase}

theorem conforms_now {f : Nat → AuthM AuthReply} (h : ∀ now,
    (spendCalls D).Conforms (f now) q fun _ _ => True) :
    (spendCalls D).Conforms (dateNow >>= f) q fun _ _ => True :=
  Conforms.action_bind trivial fun now => h now

/-- Minting the next token. -/
theorem conforms_issueTokens {user : User} {record : RefreshToken}
    {f : TokenPair → AuthM AuthReply} (hexchanges : q.call.exchanges = true)
    (hmarked : q.marked = true) (hrecord : q.record = some record)
    (hopen : record.revokedAt = none)
    (hf : ∀ pair q', (spendCalls D).Conforms (f pair) q' fun _ _ => True) :
    (spendCalls D).Conforms
      (AuthService.issueTokens D user (some record.familyId) >>= f) q fun _ _ => True := by
  simp only [AuthService.issueTokens, AuthService.issueTokensIn, AuthService.accessToken,
    AuthService.sign, bind_assoc, pure_bind]
  refine Conforms.action_bind trivial fun token => conforms_now fun now => ?_
  refine Conforms.action_bind trivial fun id => ?_
  refine Conforms.perform_bind ⟨hexchanges, hmarked, rfl, rfl, record, hrecord, hopen, rfl⟩ (fun _ => ?_)
    fun _ => trivial
  exact conforms_now fun now => hf _ _

theorem conforms_refresh (refreshToken : String) :
    (spendCalls D).Conforms ((AuthCall.refresh refreshToken).code D)
      { call := .refresh refreshToken } fun _ _ => True := by
  simp only [AuthCall.code, AuthService.refresh, bind_assoc]
  refine Conforms.perform_bind rfl (fun found => ?_) fun _ => trivial
  cases found with
  | none => trivial
  | some record =>
    simp only [bind_assoc]
    refine conforms_now fun now => ?_
    split
    case isTrue =>
      simp only [bind_assoc]
      exact Conforms.perform_bind ⟨record, rfl, rfl⟩ (fun _ => trivial) fun _ => trivial
    -- a record that is neither used nor revoked is live when it was read
    case isFalse hused =>
      split
      case isTrue => trivial
      case isFalse hrevoked =>
        rw [Option.not_isSome_iff_eq_none] at hused hrevoked
        have hlive : record.live = true := by simp [RefreshToken.live, hused, hrevoked]
        split
        · trivial
        · simp only [AuthService.rotate, bind_assoc]
          refine Conforms.perform_bind trivial (fun user => ?_) fun _ => trivial
          split
          · trivial
          · simp only [bind_assoc]
            refine Conforms.perform_bind ⟨rfl, record, rfl, hlive, rfl⟩ (fun _ => ?_)
              fun _ => trivial
            exact conforms_issueTokens rfl rfl rfl hrevoked fun _ _ => trivial

theorem conforms_logout (refreshToken : String) :
    (spendCalls D).Conforms ((AuthCall.logout refreshToken).code D)
      { call := .logout refreshToken } fun _ _ => True := by
  simp only [AuthCall.code, AuthService.logout, bind_assoc]
  refine Conforms.perform_bind rfl (fun found => ?_) fun _ => trivial
  cases found with
  | none => trivial
  | some record =>
    simp only [bind_assoc]
    refine conforms_now fun now => ?_
    exact Conforms.perform_bind ⟨record, rfl, rfl⟩ (fun _ => trivial) fun _ => trivial

/-- Every call follows the typestate. -/
theorem conforms_spend (c : SpendCall) :
    (spendCalls D).Conforms (c.code D) { call := c } fun _ _ => True := by
  cases c with
  | refresh refreshToken => exact conforms_refresh refreshToken
  | logout refreshToken => exact conforms_logout refreshToken

end Conforms

/-! ## The condition -/

/-- What a write of a refresh asks of the record that was found: nobody has used or revoked it
since, when it is marked, and nobody has revoked it since, when the next token is stored. -/
def AuthOp.Unspent (s : AuthStore) (q : SpendPhase) : AuthOp → Prop
  | .refreshTokensMarkUsed _ _ => ∀ record ∈ q.record, ∀ t ∈ s.refreshTokens.rows,
      t.id = record.id → t.usedAt = record.usedAt ∧ t.revokedAt = record.revokedAt
  | .refreshTokensCreate _ => ∀ record ∈ q.record, ∀ t ∈ s.refreshTokens.rows,
      t.id = record.id → t.revokedAt = record.revokedAt
  | _ => True

instance (s : AuthStore) (q : SpendPhase) : (op : AuthOp) → Decidable (op.Unspent s q)
  | .refreshTokensMarkUsed _ _ => inferInstanceAs (Decidable (∀ record ∈ q.record,
      ∀ t ∈ s.refreshTokens.rows, t.id = record.id →
        t.usedAt = record.usedAt ∧ t.revokedAt = record.revokedAt))
  | .refreshTokensCreate _ => inferInstanceAs (Decidable (∀ record ∈ q.record,
      ∀ t ∈ s.refreshTokens.rows, t.id = record.id → t.revokedAt = record.revokedAt))
  | .api _ | .tenantsCreate _ | .usersUpdateMfa _ _ | .refreshTokensFindByHash _
  | .refreshTokensRevokeFamily _ _ => .isTrue trivial

/-- How far a call in progress has come. -/
def spendPhase (D : AuthDeployment) (th : Thread authSig SpendCall AuthReply) : SpendPhase :=
  (spendCalls D).phaseOf th

/-- When a write of a call takes effect, the record is as the call has found it. -/
def SpendStep (D : AuthDeployment) (cfg : Config authSig SpendCall AuthReply Spends Nat) :
    Event SpendCall Outcome Nat Nat → Prop
  | .settle i x => x.takesEffect = true → ∀ th ∈ cfg.threads.lookup i,
      th.op.Unspent cfg.shared.auth (spendPhase D th)
  | _ => True

instance (D : AuthDeployment) (cfg : Config authSig SpendCall AuthReply Spends Nat) :
    (e : Event SpendCall Outcome Nat Nat) → Decidable (SpendStep D cfg e)
  | .settle i x => inferInstanceAs (Decidable (x.takesEffect = true →
      ∀ th ∈ cfg.threads.lookup i, th.op.Unspent cfg.shared.auth (spendPhase D th)))
  | .start _ _ | .resume _ | .env _ => .isTrue trivial

/-! ## The records -/

/-- Every record is still there, with what was noted in it. -/
def AuthStore.Grows (s s' : AuthStore) : Prop :=
  ∀ t ∈ s.refreshTokens.rows, ∃ t' ∈ s'.refreshTokens.rows, t'.id = t.id ∧
    t'.tokenHash = t.tokenHash ∧ t'.familyId = t.familyId ∧
    (t.usedAt.isSome = true → t'.usedAt.isSome = true) ∧
    (t.revokedAt.isSome = true → t'.revokedAt.isSome = true)

theorem AuthStore.Grows.refl (s : AuthStore) : s.Grows s :=
  fun t ht => ⟨t, ht, rfl, rfl, rfl, fun h => h, fun h => h⟩

/-- The token was marked as used. -/
def AuthStore.Spent (D : AuthDeployment) (s : AuthStore) (refreshToken : String) : Prop :=
  ∃ t ∈ s.refreshTokens.rows, t.tokenHash = D.hashToken refreshToken ∧ t.usedAt.isSome = true

/-- All tokens of the family are revoked. -/
def AuthStore.Revoked (s : AuthStore) (familyId : String) : Prop :=
  ∀ t ∈ s.refreshTokens.rows, t.familyId = familyId → t.revokedAt.isSome = true

/-- The record is still there, used or revoked or not. -/
def AuthStore.Has (s : AuthStore) (record : RefreshToken) : Prop :=
  ∃ t ∈ s.refreshTokens.rows, t.id = record.id ∧ t.tokenHash = record.tokenHash ∧
    t.familyId = record.familyId

section Records

variable {D : AuthDeployment} {s s' : AuthStore}

theorem AuthStore.Grows.spent (h : s.Grows s') {refreshToken : String}
    (hspent : s.Spent D refreshToken) : s'.Spent D refreshToken := by
  obtain ⟨t, ht, hhash, hused⟩ := hspent
  obtain ⟨t', ht', -, hhash', -, hused', -⟩ := h t ht
  exact ⟨t', ht', hhash'.trans hhash, hused' hused⟩

theorem AuthStore.Grows.has (h : s.Grows s') {record : RefreshToken} (hhas : s.Has record) :
    s'.Has record := by
  obtain ⟨t, ht, hid, hhash, hfamily⟩ := hhas
  obtain ⟨t', ht', hid', hhash', hfamily', -, -⟩ := h t ht
  exact ⟨t', ht', hid'.trans hid, hhash'.trans hhash, hfamily'.trans hfamily⟩

/-- No two records are of one token. -/
def AuthStore.Distinct (s : AuthStore) : Prop :=
  ∀ t ∈ s.refreshTokens.rows, ∀ t' ∈ s.refreshTokens.rows, t.tokenHash = t'.tokenHash → t = t'

/-- The ids and the tokens that are in use. -/
def AuthStore.UsesId (s : AuthStore) (id : String) : Prop :=
  ∃ t ∈ s.refreshTokens.rows, t.id = id

def AuthStore.UsesHash (s : AuthStore) (tokenHash : String) : Prop :=
  ∃ t ∈ s.refreshTokens.rows, t.tokenHash = tokenHash

/-- What is written into records that are there. -/
structure AuthStore.Noted (s s' : AuthStore) : Prop where
  grows : s.Grows s'
  aged : ∀ t ∈ s'.refreshTokens.rows, ∃ r ∈ s.refreshTokens.rows, r.Aged t

theorem AuthStore.Noted.refl (s : AuthStore) : s.Noted s :=
  ⟨.refl s, fun t ht => ⟨t, ht, .refl t⟩⟩

theorem AuthStore.Noted.usesId (h : s.Noted s') {id : String} (hid : s'.UsesId id) :
    s.UsesId id := by
  obtain ⟨t, ht, rfl⟩ := hid
  obtain ⟨r, hr, hrt⟩ := h.aged t ht
  exact ⟨r, hr, hrt.id.symm⟩

theorem AuthStore.Noted.usesHash (h : s.Noted s') {tokenHash : String}
    (hhash : s'.UsesHash tokenHash) : s.UsesHash tokenHash := by
  obtain ⟨t, ht, rfl⟩ := hhash
  obtain ⟨r, hr, hrt⟩ := h.aged t ht
  exact ⟨r, hr, hrt.tokenHash.symm⟩

theorem AuthStore.Noted.distinct (h : s.Noted s') (hdistinct : s.Distinct) : s'.Distinct := by
  intro t ht t' ht' heq
  obtain ⟨r, hr, hrt⟩ := h.aged t ht
  obtain ⟨r', hr', hrt'⟩ := h.aged t' ht'
  have hrr' : r = r' := hdistinct r hr r' hr' (hrt.tokenHash ▸ hrt'.tokenHash ▸ heq)
  exact Table.eq_of_key ht ht' (by rw [hrt.id, hrt'.id, hrr'])

theorem AuthStore.Noted.revoked (h : s.Noted s') {familyId : String}
    (hrevoked : s.Revoked familyId) : s'.Revoked familyId := by
  intro t ht hfamily
  obtain ⟨r, hr, hrt⟩ := h.aged t ht
  obtain ⟨t', ht', hid, -, -, -, hrev⟩ := h.grows r hr
  obtain rfl := Table.eq_of_key ht ht' (hrt.id.trans hid.symm)
  exact hrev (hrevoked r hr (hrt.familyId.symm.trans hfamily))

/-- A token is marked as used. -/
theorem noted_markUsed (s : AuthStore) (id : String) (now : Nat) :
    s.Noted (s.effect (.refreshTokensMarkUsed id now)) := by
  simp only [AuthStore.effect]
  cases hget : s.refreshTokens.get id with
  | none =>
    simp only [RefreshTokenTable.markUsed, hget]
    exact .refl s
  | some record =>
    obtain ⟨hrecord, rfl⟩ := Table.get_eq_some_iff.mp hget
    refine ⟨fun t ht => ?_, fun t ht => RefreshTokenTable.aged_of_markUsed hrecord ht⟩
    simp only [RefreshTokenTable.markUsed, hget]
    by_cases hid : t.id = record.id
    · obtain rfl := Table.eq_of_key ht hrecord hid
      exact ⟨_, Table.mem_put.mpr (Or.inl rfl), rfl, rfl, rfl, fun _ => rfl, fun h => h⟩
    · exact ⟨t, Table.mem_put.mpr (Or.inr ⟨ht, hid⟩), rfl, rfl, rfl, fun h => h, fun h => h⟩

/-- A family is revoked. -/
theorem noted_revokeFamily (s : AuthStore) (familyId : String) (now : Nat) :
    s.Noted (s.effect (.refreshTokensRevokeFamily familyId now)) := by
  refine ⟨fun t ht => ?_, fun t ht => ?_⟩
  · have haged := RefreshTokenTable.aged_revoke familyId now t
    refine ⟨_, List.mem_map.mpr ⟨t, ht, rfl⟩, haged.id, haged.tokenHash, haged.familyId, ?_, ?_⟩
    · unfold RefreshTokenTable.revoke
      split
      · exact fun h => h
      · exact fun h => h
    · unfold RefreshTokenTable.revoke
      split
      · exact fun _ => rfl
      · exact fun h => h
  · obtain ⟨r, hr, rfl⟩ := List.mem_map.mp ht
    exact ⟨r, hr, RefreshTokenTable.aged_revoke _ _ r⟩

/-- Afterwards all tokens of the family are revoked. -/
theorem revoked_revokeFamily (s : AuthStore) (familyId : String) (now : Nat) :
    (s.effect (.refreshTokensRevokeFamily familyId now)).Revoked familyId := by
  intro t ht hfamily
  obtain ⟨r, -, rfl⟩ := List.mem_map.mp ht
  have hrfamily : r.familyId = familyId :=
    (RefreshTokenTable.aged_revoke familyId now r).familyId.symm.trans hfamily
  unfold RefreshTokenTable.revoke
  by_cases hrev : r.revokedAt = none
  · simp [hrfamily, hrev]
  · simpa [hrfamily, hrev] using Option.isSome_iff_ne_none.mpr hrev

/-- Afterwards the token is spent, if it is there. -/
theorem spent_markUsed {record : RefreshToken} (h : s.Has record) {refreshToken : String}
    (hhash : record.tokenHash = D.hashToken refreshToken) (now : Nat) :
    (s.effect (.refreshTokensMarkUsed record.id now)).Spent D refreshToken := by
  obtain ⟨t, ht, hid, hthash, -⟩ := h
  have hget : s.refreshTokens.get record.id = some t := Table.get_eq_some_iff.mpr ⟨ht, hid⟩
  simp only [AuthStore.effect, RefreshTokenTable.markUsed, hget]
  exact ⟨_, Table.mem_put.mpr (Or.inl rfl), hthash.trans hhash, rfl⟩

/-- A new record is put beside those that are there. -/
theorem grows_create {t : RefreshToken} (hnew : ¬ s.UsesId t.id) :
    s.Grows (s.effect (.refreshTokensCreate t)) := by
  intro r hr
  have hne : r.id ≠ t.id := fun heq => hnew ⟨r, hr, heq⟩
  exact ⟨r, Table.mem_put.mpr (Or.inr ⟨hr, hne⟩), rfl, rfl, rfl, fun h => h, fun h => h⟩

theorem distinct_create {t : RefreshToken} (h : s.Distinct) (hnew : ¬ s.UsesHash t.tokenHash) :
    (s.effect (.refreshTokensCreate t)).Distinct := by
  intro r hr r' hr' heq
  rcases Table.mem_put.mp hr with rfl | ⟨hold, -⟩
  · rcases Table.mem_put.mp hr' with rfl | ⟨hr', -⟩
    · rfl
    · exact absurd ⟨r', hr', heq.symm⟩ hnew
  · rcases Table.mem_put.mp hr' with rfl | ⟨hr', -⟩
    · exact absurd ⟨r, hold, heq⟩ hnew
    · exact h r hold r' hr' heq

end Records

/-! ## The invariant -/

/-- The calls in progress. -/
abbrev SpendPhases := Nat → Option (SpendCall × SpendPhase)

/-- The ids that calls have drawn and not stored yet. -/
def heldIds (ph : SpendPhases) (i : Nat) : Option String := (ph i).bind fun call => call.2.id

/-- The hashes of the tokens that calls have drawn and not stored yet. -/
def heldHashes (D : AuthDeployment) (ph : SpendPhases) (i : Nat) : Option String :=
  (ph i).bind fun call => call.2.token.map D.hashToken

/-- A note after an older one: no token is exchanged a second time, and none of a family that was
revoked. -/
def SpendNote.After : SpendNote → SpendNote → Prop
  | .exchanged refreshToken _, .exchanged refreshToken' _ => refreshToken ≠ refreshToken'
  | .exchanged _ familyId, .revoked familyId' => familyId ≠ familyId'
  | .revoked _, _ => True

/-- What holds of the store, the log, and the calls in progress. -/
structure SpendInv (D : AuthDeployment) (s : Spends) (ph : SpendPhases) : Prop where
  ids : Supply D.uuid s.auth.store.drawn s.auth.UsesId (heldIds ph)
  hashes : Supply (fun n => D.hashToken (D.token n)) s.auth.randoms s.auth.UsesHash
    (heldHashes D ph)
  distinct : s.auth.Distinct
  call : ∀ i c q, ph i = some (c, q) → q.call = c
  found : ∀ i c q record, ph i = some (c, q) → q.record = some record →
    record.tokenHash = D.hashToken c.token ∧ s.auth.Has record
  -- Who has marked a token has not exchanged it yet, and nobody else has.
  marked : ∀ i c q, ph i = some (c, q) → q.marked = true → s.auth.Spent D c.token ∧
    (∀ familyId, .exchanged c.token familyId ∉ s.log) ∧
    ∀ j c' q', j ≠ i → ph j = some (c', q') → q'.marked = true → c'.token ≠ c.token
  exchanged : ∀ refreshToken familyId, .exchanged refreshToken familyId ∈ s.log →
    s.auth.Spent D refreshToken
  revoked : ∀ familyId, .revoked familyId ∈ s.log → s.auth.Revoked familyId
  laws : s.log.Pairwise SpendNote.After

section Invariant

variable {D : AuthDeployment} {s s' : Spends} {ph : SpendPhases} {i : Nat} {c : SpendCall}
  {q q' : SpendPhase}

@[simp] theorem heldIds_update : heldIds (Function.update ph i (some (c, q))) =
    Function.update (heldIds ph) i q.id :=
  heldBy_update (f := fun call : SpendCall × SpendPhase => call.2.id)

@[simp] theorem heldHashes_update : heldHashes D (Function.update ph i (some (c, q))) =
    Function.update (heldHashes D ph) i (q.token.map D.hashToken) :=
  heldBy_update (f := fun call : SpendCall × SpendPhase => call.2.token.map D.hashToken)

theorem heldIds_erase :
    heldIds (Function.update ph i none) = Function.update (heldIds ph) i none :=
  heldBy_erase (f := fun call : SpendCall × SpendPhase => call.2.id)

theorem heldHashes_erase :
    heldHashes D (Function.update ph i none) = Function.update (heldHashes D ph) i none :=
  heldBy_erase (f := fun call : SpendCall × SpendPhase => call.2.token.map D.hashToken)

theorem heldIds_self (hi : ph i = some (c, q)) :
    Function.update (heldIds ph) i q.id = heldIds ph := by
  rw [← heldIds_update (c := c), Function.update_eq_self_iff.mpr hi.symm]

theorem heldHashes_self (hi : ph i = some (c, q)) :
    Function.update (heldHashes D ph) i (q.token.map D.hashToken) = heldHashes D ph := by
  rw [← heldHashes_update (c := c), Function.update_eq_self_iff.mpr hi.symm]

theorem heldIds_idle (hi : ph i = none) : Function.update (heldIds ph) i none = heldIds ph := by
  rw [← heldIds_erase, Function.update_eq_self_iff.mpr hi.symm]

theorem heldHashes_idle (hi : ph i = none) :
    Function.update (heldHashes D ph) i none = heldHashes D ph := by
  rw [← heldHashes_erase, Function.update_eq_self_iff.mpr hi.symm]

/-- A call goes on in phase `q'`. -/
theorem SpendInv.move (h : SpendInv D s ph)
    (hids : Supply D.uuid s'.auth.store.drawn s'.auth.UsesId
      (Function.update (heldIds ph) i q'.id))
    (hhashes : Supply (fun n => D.hashToken (D.token n)) s'.auth.randoms s'.auth.UsesHash
      (Function.update (heldHashes D ph) i (q'.token.map D.hashToken)))
    (hdistinct : s'.auth.Distinct) (hgrows : s.auth.Grows s'.auth) (hcall : q'.call = c)
    (hfound : ∀ record, q'.record = some record →
      record.tokenHash = D.hashToken c.token ∧ s'.auth.Has record)
    (hmarked : q'.marked = true → s'.auth.Spent D c.token ∧
      (∀ familyId, .exchanged c.token familyId ∉ s'.log) ∧
      ∀ j c' q, j ≠ i → ph j = some (c', q) → q.marked = true → c'.token ≠ c.token)
    (hexchanged : ∀ refreshToken familyId, .exchanged refreshToken familyId ∈ s'.log →
      .exchanged refreshToken familyId ∈ s.log ∨
        refreshToken = c.token ∧ ∃ q, ph i = some (c, q) ∧ q.marked = true)
    (hrevoked : ∀ familyId, .revoked familyId ∈ s'.log → s'.auth.Revoked familyId)
    (hlaws : s'.log.Pairwise SpendNote.After) :
    SpendInv D s' (Function.update ph i (some (c, q'))) where
  ids := by rwa [heldIds_update]
  hashes := by rwa [heldHashes_update]
  distinct := hdistinct
  call j c' q hj := by
    rcases update_some_iff.mp hj with ⟨-, heq⟩ | ⟨-, hj⟩
    · cases heq
      exact hcall
    · exact h.call j c' q hj
  found j c' q record hj hrecord := by
    rcases update_some_iff.mp hj with ⟨-, heq⟩ | ⟨-, hj⟩
    · cases heq
      exact hfound record hrecord
    · obtain ⟨hhash, hhas⟩ := h.found j c' q record hj hrecord
      exact ⟨hhash, hgrows.has hhas⟩
  -- two marked calls of one token never stand side by side, whichever of the two moved
  marked j c' q hj hq := by
    rcases update_some_iff.mp hj with ⟨hji, heq⟩ | ⟨hji, hj⟩
    · cases heq
      obtain ⟨hspent, hlog, hother⟩ := hmarked hq
      refine ⟨hspent, hlog, fun k c'' q'' hk hkq hq'' => ?_⟩
      rcases update_some_iff.mp hkq with ⟨hki, -⟩ | ⟨-, hkq⟩
      · exact absurd (hki.trans hji.symm) hk
      · exact hother k c'' q'' (hji ▸ hk) hkq hq''
    · obtain ⟨hspent, hlog, hother⟩ := h.marked j c' q hj hq
      refine ⟨hgrows.spent hspent, fun familyId hmem => ?_, fun k c'' q'' hk hkq hq'' => ?_⟩
      · rcases hexchanged _ familyId hmem with hmem | ⟨heq, q₀, hi, hq₀⟩
        · exact hlog familyId hmem
        · exact hother i c q₀ (Ne.symm hji) hi hq₀ heq.symm
      · rcases update_some_iff.mp hkq with ⟨-, heq⟩ | ⟨-, hkq⟩
        · cases heq
          exact fun heq => (hmarked hq'').2.2 j c' q hji hj hq heq.symm
        · exact hother k c'' q'' hk hkq hq''
  exchanged refreshToken familyId hmem := by
    rcases hexchanged _ familyId hmem with hmem | ⟨rfl, q₀, hi, hq₀⟩
    · exact hgrows.spent (h.exchanged _ familyId hmem)
    · exact hgrows.spent (h.marked i c q₀ hi hq₀).1
  revoked := hrevoked
  laws := hlaws

/-- A call goes on, while records are noted in and names are held as before. -/
theorem SpendInv.note (h : SpendInv D s ph) (hi : ph i = some (c, q)) (q' : SpendPhase) {auth : AuthStore}
    (hnoted : s.auth.Noted auth) (hdrawn : auth.store.drawn = s.auth.store.drawn)
    (hrandoms : auth.randoms = s.auth.randoms) (hcall : q'.call = c) (hid : q'.id = q.id)
    (htoken : q'.token = q.token)
    (hfound : ∀ record, q'.record = some record →
      record.tokenHash = D.hashToken c.token ∧ auth.Has record)
    (hmarked : q'.marked = true → auth.Spent D c.token ∧
      (∀ familyId, .exchanged c.token familyId ∉ s.log) ∧
      ∀ j c' q, j ≠ i → ph j = some (c', q) → q.marked = true → c'.token ≠ c.token)
    {log : List SpendNote} (hlog : ∀ note ∈ log, ∃ familyId, note = .revoked familyId ∧
      auth.Revoked familyId) :
    SpendInv D ⟨auth, log ++ s.log⟩ (Function.update ph i (some (c, q'))) := by
  -- the step draws nothing, so what every call holds is what it held
  have hids : Function.update (heldIds ph) i q'.id = heldIds ph := by
    rw [hid, heldIds_self hi]
  have hhashes : Function.update (heldHashes D ph) i (q'.token.map D.hashToken) =
      heldHashes D ph := by
    rw [htoken, heldHashes_self hi]
  -- the new notes are revocations only
  have hexchanged : ∀ refreshToken familyId, .exchanged refreshToken familyId ∈ log ++ s.log →
      .exchanged refreshToken familyId ∈ s.log := by
    intro refreshToken familyId hmem
    rcases List.mem_append.mp hmem with hmem | hmem
    · obtain ⟨_, heq, -⟩ := hlog _ hmem
      cases heq
    · exact hmem
  refine h.move ?_ ?_ (hnoted.distinct h.distinct) hnoted.grows hcall hfound (fun hq => ?_)
    (fun refreshToken familyId hmem => Or.inl (hexchanged refreshToken familyId hmem))
    (fun familyId hmem => ?_) ?_
  · rw [hids]
    exact h.ids.mono hdrawn.ge fun _ hused => hnoted.usesId hused
  · rw [hhashes]
    exact h.hashes.mono hrandoms.ge fun _ hused => hnoted.usesHash hused
  · obtain ⟨hspent, hnot, hother⟩ := hmarked hq
    exact ⟨hspent, fun familyId hmem => hnot familyId (hexchanged _ familyId hmem), hother⟩
  · rcases List.mem_append.mp hmem with hmem | hmem
    · obtain ⟨_, heq, hrev⟩ := hlog _ hmem
      cases heq
      exact hrev
    · exact hnoted.revoked (h.revoked familyId hmem)
  · have hafter : ∀ note ∈ log, ∀ note', note.After note' := by
      intro note hnote note'
      obtain ⟨_, rfl, -⟩ := hlog note hnote
      trivial
    refine List.pairwise_append.mpr ⟨?_, h.laws, fun note hnote note' _ => hafter note hnote note'⟩
    exact List.pairwise_of_forall_mem_list fun note hnote note' _ => hafter note hnote note'

/-- The request of a call turns out, before the call goes on. -/
theorem spends_settle {op : AuthOp} {x : Outcome} {r : Except ApiError op.Res}
    (hs : (spends D).settle i c op x s = some (s', r)) :
    s' = ⟨(s.auth.settle i op x).1, c.note op x ++ s.log⟩ ∧ r = (s.auth.settle i op x).2 := by
  obtain ⟨hs', hr⟩ := Prod.mk.inj (Option.some_inj.mp hs)
  exact ⟨hs'.symm, hr.symm⟩

/-- The token of a call is looked up. -/
theorem SpendInv.settle_find (h : SpendInv D s ph) (hi : ph i = some (c, q)) {tokenHash : String}
    {x : Outcome} (hhash : tokenHash = D.hashToken q.call.token) :
    SpendInv D ⟨(s.auth.settle i (.refreshTokensFindByHash tokenHash) x).1, s.log⟩
      (Function.update ph i (some (c, q.next (.answered (.refreshTokensFindByHash tokenHash)
        (s.auth.settle i (.refreshTokensFindByHash tokenHash) x).2)))) := by
  have hcall := h.call i c q hi
  have hsame : (s.auth.settle i (.refreshTokensFindByHash tokenHash) x).1 = s.auth := ite_self _
  rw [hsame]
  cases x with
  | rejects e applied =>
    exact h.note hi q (.refl _) rfl rfl hcall rfl rfl (fun record => h.found i c q record hi)
      (fun hq => h.marked i c q hi hq) fun _ hmem => absurd hmem List.not_mem_nil
  | resolves reply =>
    show SpendInv D _ (Function.update ph i (some (c, q.next (.answered
      (.refreshTokensFindByHash tokenHash)
      (.ok (RefreshTokenTable.findByHash s.auth.refreshTokens tokenHash))))))
    cases hfound : RefreshTokenTable.findByHash s.auth.refreshTokens tokenHash with
    | none =>
      exact h.note hi q (.refl _) rfl rfl hcall rfl rfl (fun record => h.found i c q record hi)
        (fun hq => h.marked i c q hi hq) fun _ hmem => absurd hmem List.not_mem_nil
    | some record =>
      obtain ⟨hmem, hrecord⟩ := RefreshTokenTable.findByHash_eq_some hfound
      refine h.note hi { q with record := some record } (.refl _) rfl rfl hcall rfl rfl
        (fun record' heq => ?_) (fun hq => h.marked i c q hi hq)
        fun _ hmem => absurd hmem List.not_mem_nil
      obtain rfl := Option.some_inj.mp heq
      refine ⟨hrecord.trans (hhash.trans (by rw [hcall])), record, hmem, rfl, rfl, rfl⟩

/-- The token of a call is marked. -/
theorem SpendInv.settle_mark (h : SpendInv D s ph) (hi : ph i = some (c, q)) {id : String}
    {usedAt : Nat} {x : Outcome} (hmay : q.may D (.refreshTokensMarkUsed id usedAt))
    (hlive : x.takesEffect = true → (AuthOp.refreshTokensMarkUsed id usedAt).Unspent s.auth q) :
    SpendInv D ⟨(s.auth.settle i (.refreshTokensMarkUsed id usedAt) x).1, s.log⟩
      (Function.update ph i (some (c, q.next (.answered (.refreshTokensMarkUsed id usedAt)
        (s.auth.settle i (.refreshTokensMarkUsed id usedAt) x).2)))) := by
  have hcall := h.call i c q hi
  obtain ⟨hfirst, record, hrecord, hrecordLive, rfl⟩ := hmay
  obtain ⟨hhash, hhas⟩ := h.found i c q record hi hrecord
  have hnoted := noted_markUsed s.auth record.id usedAt
  have hnone : ∀ note : SpendNote, note ∈ [] → ∃ familyId, note = .revoked familyId ∧
      (s.auth.effect (.refreshTokensMarkUsed record.id usedAt)).Revoked familyId :=
    fun _ hmem => absurd hmem List.not_mem_nil
  cases x with
  | rejects e applied =>
    have hq : ¬ q.marked = true := by simp [hfirst]
    cases applied with
    | false =>
      exact h.note hi q (.refl _) rfl rfl hcall rfl rfl (fun record => h.found i c q record hi)
        (fun hmarked => absurd hmarked hq) fun _ hmem => absurd hmem List.not_mem_nil
    | true =>
      refine h.note hi q hnoted rfl rfl hcall rfl rfl (fun record' heq => ?_)
        (fun hmarked => absurd hmarked hq) hnone
      obtain ⟨hhash', hhas'⟩ := h.found i c q record' hi heq
      exact ⟨hhash', hnoted.grows.has hhas'⟩
  | resolves reply =>
    refine h.note hi { q with marked := true } hnoted rfl rfl hcall rfl rfl
      (fun record' heq => ?_) (fun _ => ?_) hnone
    · obtain ⟨hhash', hhas'⟩ := h.found i c q record' hi heq
      exact ⟨hhash', hnoted.grows.has hhas'⟩
    · -- The record was live, so nobody else has marked it, and it was not exchanged.
      have hunspent : ¬ s.auth.Spent D c.token := by
        intro hspent
        obtain ⟨t, ht, hthash, hused⟩ := hspent
        obtain ⟨r, hr, hrid, hrhash, -⟩ := hhas
        have hrt : t = r := h.distinct t ht r hr (hthash.trans (hrhash.trans hhash).symm)
        have hsame := hlive rfl record hrecord t ht (hrt ▸ hrid)
        simp only [RefreshToken.live, decide_eq_true_eq] at hrecordLive
        rw [hsame.1, hrecordLive.1] at hused
        cases hused
      refine ⟨spent_markUsed hhas hhash usedAt, fun familyId hmem => ?_,
        fun j c' q' _ hj hq' heq => ?_⟩
      · exact hunspent (h.exchanged _ familyId hmem)
      · exact hunspent (heq ▸ (h.marked j c' q' hj hq').1)

/-- A family is revoked. -/
theorem SpendInv.settle_revoke (h : SpendInv D s ph) (hi : ph i = some (c, q)) {familyId : String}
    {revokedAt : Nat} {x : Outcome} (hmay : q.may D (.refreshTokensRevokeFamily familyId revokedAt)) :
    SpendInv D ⟨(s.auth.settle i (.refreshTokensRevokeFamily familyId revokedAt) x).1,
        c.note (.refreshTokensRevokeFamily familyId revokedAt) x ++ s.log⟩
      (Function.update ph i (some (c, q.next (.answered
        (.refreshTokensRevokeFamily familyId revokedAt)
        (s.auth.settle i (.refreshTokensRevokeFamily familyId revokedAt) x).2)))) := by
  have hcall := h.call i c q hi
  obtain ⟨record, hrecord, rfl⟩ := hmay
  obtain ⟨-, hhas⟩ := h.found i c q record hi hrecord
  have hnoted := noted_revokeFamily s.auth record.familyId revokedAt
  have hfound : ∀ record', q.record = some record' → record'.tokenHash = D.hashToken c.token ∧
      (s.auth.effect (.refreshTokensRevokeFamily record.familyId revokedAt)).Has record' := by
    intro record' heq
    obtain ⟨hhash', hhas'⟩ := h.found i c q record' hi heq
    exact ⟨hhash', hnoted.grows.has hhas'⟩
  have hmarked : q.marked = true →
      (s.auth.effect (.refreshTokensRevokeFamily record.familyId revokedAt)).Spent D c.token ∧
      (∀ familyId, .exchanged c.token familyId ∉ s.log) ∧
      ∀ j c' q, j ≠ i → ph j = some (c', q) → q.marked = true → c'.token ≠ c.token := by
    intro hq
    obtain ⟨hspent, hrest⟩ := h.marked i c q hi hq
    exact ⟨hnoted.grows.spent hspent, hrest⟩
  cases x with
  | rejects e applied =>
    -- a rejected revocation may have reached the rows all the same
    cases applied with
    | false =>
      exact h.note hi q (.refl _) rfl rfl hcall rfl rfl (fun record => h.found i c q record hi)
        (fun hq => h.marked i c q hi hq) fun _ hmem => absurd hmem List.not_mem_nil
    | true =>
      exact h.note hi q hnoted rfl rfl hcall rfl rfl hfound hmarked
        fun _ hmem => absurd hmem List.not_mem_nil
  | resolves reply =>
    refine h.note hi q hnoted rfl rfl hcall rfl rfl hfound hmarked fun note hnote => ?_
    exact ⟨_, List.mem_singleton.mp hnote, revoked_revokeFamily _ _ _⟩

/-- **The next token is minted.** -/
theorem SpendInv.settle_create (h : SpendInv D s ph) (hi : ph i = some (c, q)) {t : RefreshToken}
    {x : Outcome} (hmay : q.may D (.refreshTokensCreate t))
    (hfree : x.takesEffect = true → (AuthOp.refreshTokensCreate t).Unspent s.auth q) :
    SpendInv D ⟨(s.auth.settle i (.refreshTokensCreate t) x).1,
        c.note (.refreshTokensCreate t) x ++ s.log⟩
      (Function.update ph i (some (c, q.next (.answered (.refreshTokensCreate t)
        (s.auth.settle i (.refreshTokensCreate t) x).2)))) := by
  have hcall := h.call i c q hi
  obtain ⟨-, hmark, hid, htoken, record, hrecord, hunrevoked, hfamily⟩ := hmay
  have hheldId : heldIds ph i = some t.id := by rw [heldIds, hi]; exact hid
  have hheldHash : heldHashes D ph i = some t.tokenHash := by rw [heldHashes, hi]; exact htoken
  have hids : Supply D.uuid s.auth.store.drawn
      (s.auth.effect (.refreshTokensCreate t)).UsesId (Function.update (heldIds ph) i none) := by
    refine h.ids.use hheldId fun id hused => ?_
    obtain ⟨r, hr, rfl⟩ := hused
    rcases Table.mem_put.mp hr with rfl | ⟨hr, -⟩
    · exact Or.inl rfl
    · exact Or.inr ⟨r, hr, rfl⟩
  have hhashes : Supply (fun n => D.hashToken (D.token n)) s.auth.randoms
      (s.auth.effect (.refreshTokensCreate t)).UsesHash
      (Function.update (heldHashes D ph) i none) := by
    refine h.hashes.use hheldHash fun id hused => ?_
    obtain ⟨r, hr, rfl⟩ := hused
    rcases Table.mem_put.mp hr with rfl | ⟨hr, -⟩
    · exact Or.inl rfl
    · exact Or.inr ⟨r, hr, rfl⟩
  have hdistinct := distinct_create h.distinct (h.hashes.unused i _ hheldHash)
  have hgrows := grows_create (s := s.auth) (h.ids.unused i _ hheldId)
  -- The family of the record is not one of those that were revoked.
  have hopen : x.takesEffect = true → ∀ familyId, .revoked familyId ∈ s.log →
      t.familyId ≠ familyId := by
    intro hx familyId hmem heq
    obtain ⟨-, r, hr, hrid, -, hrfamily⟩ := h.found i c q record hi hrecord
    have hrev := h.revoked familyId hmem r hr (hrfamily.trans (hfamily.symm.trans heq))
    rw [hfree hx record hrecord r hr hrid, hunrevoked] at hrev
    cases hrev
  have hrevoked : x.takesEffect = true → ∀ familyId, .revoked familyId ∈ s.log →
      (s.auth.effect (.refreshTokensCreate t)).Revoked familyId := by
    intro hx familyId hmem r hr hrfamily
    rcases Table.mem_put.mp hr with rfl | ⟨hr, -⟩
    · exact absurd hrfamily (hopen hx familyId hmem)
    · exact h.revoked familyId hmem r hr hrfamily
  cases x with
  | rejects e applied =>
    cases applied with
    | false =>
      exact h.move (h.ids.drop i) (h.hashes.drop i) h.distinct (.refl _) hcall
        (fun _ heq => nomatch heq) (fun hq => nomatch hq) (fun _ _ hmem => Or.inl hmem)
        h.revoked h.laws
    | true =>
      exact h.move hids hhashes hdistinct hgrows hcall (fun _ heq => nomatch heq)
        (fun hq => nomatch hq) (fun _ _ hmem => Or.inl hmem) (hrevoked rfl) h.laws
  | resolves reply =>
    refine h.move hids hhashes hdistinct hgrows hcall (fun _ heq => nomatch heq)
      (fun hq => nomatch hq) (fun refreshToken familyId hmem => ?_) (fun familyId hmem => ?_) ?_
    · rcases List.mem_cons.mp hmem with heq | hmem
      · cases heq
        exact Or.inr ⟨rfl, q, hi, hmark⟩
      · exact Or.inl hmem
    · rcases List.mem_cons.mp hmem with heq | hmem
      · cases heq
      · exact hrevoked rfl familyId hmem
    · -- The token was marked by this call alone, and its family is not revoked.
      refine List.pairwise_cons.mpr ⟨fun note hnote => ?_, h.laws⟩
      cases note with
      | exchanged refreshToken familyId =>
        rintro rfl
        exact (h.marked i c q hi hmark).2.1 familyId hnote
      | revoked familyId => exact hopen rfl familyId hnote

/-- A call starts. -/
theorem SpendInv.start (h : SpendInv D s ph) (hi : ph i = none) :
    SpendInv D s (Function.update ph i (some (c, { call := c }))) := by
  refine h.move ?_ ?_ h.distinct (.refl _) rfl (fun _ heq => nomatch heq)
    (fun hq => nomatch hq) (fun _ _ hmem => Or.inl hmem) h.revoked h.laws
  · rw [heldIds_idle hi]
    exact h.ids
  · rw [Option.map_none, heldHashes_idle hi]
    exact h.hashes

/-- A call ends. -/
theorem SpendInv.finish (h : SpendInv D s ph) : SpendInv D s (Function.update ph i none) where
  ids := heldIds_erase ▸ h.ids.drop i
  hashes := heldHashes_erase ▸ h.hashes.drop i
  distinct := h.distinct
  call j c' q' hj := h.call j c' q' (update_none_iff.mp hj).2
  found j c' q' record hj := h.found j c' q' record (update_none_iff.mp hj).2
  marked j c' q' hj hq := by
    obtain ⟨hspent, hlog, hother⟩ := h.marked j c' q' (update_none_iff.mp hj).2 hq
    exact ⟨hspent, hlog, fun k c'' q'' hk hkq => hother k c'' q'' hk (update_none_iff.mp hkq).2⟩
  exchanged := h.exchanged
  revoked := h.revoked
  laws := h.laws

/-- A call goes on as it was. -/
theorem SpendInv.stay (h : SpendInv D s ph) (hi : ph i = some (c, q)) :
    SpendInv D s (Function.update ph i (some (c, q))) := by
  rw [Function.update_eq_self_iff.mpr hi.symm]
  exact h

/-- A call does something at once. -/
theorem SpendInv.act (h : SpendInv D s ph) (hi : ph i = some (c, q)) {a : AuthAct}
    (hmay : SpendPhase.mayAct a) :
    SpendInv D { s with auth := (s.auth.act D a).1 }
      (Function.update ph i (some (c, q.next (.did a (s.auth.act D a).2)))) := by
  have hcall := h.call i c q hi
  have hfound := fun record => h.found i c q record hi
  have hmarked := h.marked i c q hi
  cases a with
  | randomBytes =>
    refine h.move ?_ (h.hashes.draw (D.collisionFree.comp D.freshToken) i) h.distinct (.refl _)
      hcall hfound hmarked (fun _ _ hmem => Or.inl hmem) h.revoked h.laws
    exact (heldIds_self hi).symm ▸ h.ids
  | api a =>
    cases a with
    | randomUUID =>
      refine h.move (h.ids.draw D.fresh i) ?_ h.distinct (.refl _) hcall hfound hmarked
        (fun _ _ hmem => Or.inl hmem) h.revoked h.laws
      exact (heldHashes_self hi).symm ▸ h.hashes
    | backend a =>
      cases a with
      | now => exact h.stay hi
      | _ => exact hmay.elim
    | _ => exact hmay.elim
  | generateSecret => exact hmay.elim

/-- Every step keeps the invariant, as long as what was checked still holds. -/
theorem spends_preserves (D : AuthDeployment) :
    Preserves (spends D) (spendCalls D) (SpendStep D) (SpendInv D) where
  code := conforms_spend
  start cfg i c h hnone _ := h.start (by rw [phases, hnone]; rfl)
  act s ph i c q a h hi hmay := h.act hi hmay
  settle cfg i th x s' r h hth hmay hok hs := by
    have hi := phases_of_lookup (T := spendCalls D) hth
    have hgood := fun hx => hok hx th hth
    obtain ⟨rfl, rfl⟩ := spends_settle hs
    obtain ⟨c, past, op, k, reply⟩ := th
    cases op with
    | refreshTokensFindByHash tokenHash => exact h.settle_find hi hmay
    | refreshTokensMarkUsed id usedAt => exact h.settle_mark hi hmay hgood
    | refreshTokensCreate t => exact h.settle_create hi hmay hgood
    | refreshTokensRevokeFamily familyId revokedAt => exact h.settle_revoke hi hmay
    | api op =>
      cases op with
      | usersFindById id =>
        have hsame : (cfg.shared.auth.settle i (.api (.usersFindById id)) x).1 = cfg.shared.auth :=
          ite_self _
        rw [hsame]
        exact h.stay hi
      | _ => exact hmay.elim
    | tenantsCreate t => exact hmay.elim
    | usersUpdateMfa id patch => exact hmay.elim
  finish s ph i c q r h _ _ := h.finish
  env cfg ms s' h _ hs := by
    obtain rfl := Option.some_inj.mp hs
    exact ⟨h.ids, h.hashes, h.distinct, h.call, h.found, h.marked, h.exchanged, h.revoked, h.laws⟩

/-- **Single spend, and a logout wins.** However refreshes and logouts are interleaved, as long as
nobody has used or revoked the record that a refresh has found before its writes take effect: no
token is exchanged a second time, and none of a family that was revoked before. -/
theorem single_spend (D : AuthDeployment) (s₀ : AuthStore) (h₀ : s₀.Families D)
    {es : List (Event SpendCall Outcome Nat Nat)}
    {cfg : Config authSig SpendCall AuthReply Spends Nat}
    (hrun : Run (spends D).step (SpendStep D) (Config.start ⟨s₀, []⟩) es cfg) :
    cfg.shared.log.Pairwise SpendNote.After := by
  have hinit : SpendInv D ⟨s₀, []⟩ fun _ => none := by
    have hidle : ∀ i c (q : SpendPhase), ¬ (fun _ => none : SpendPhases) i = some (c, q) :=
      fun i c q => Option.some_ne_none (c, q) ∘ Eq.symm
    refine ⟨Supply.start ?_, Supply.start ?_, h₀.distinct, fun i c q h => absurd h (hidle i c q),
      fun i c q _ h => absurd h (hidle i c q), fun i c q h => absurd h (hidle i c q),
      fun _ _ h => absurd h List.not_mem_nil, fun _ h => absurd h List.not_mem_nil, .nil⟩
    · intro id hused
      obtain ⟨t, ht, rfl⟩ := hused
      exact Supply.old_of_drawn D.fresh (h₀.ids t ht)
    · intro tokenHash hused
      obtain ⟨t, ht, rfl⟩ := hused
      exact Supply.old_of_drawn (D.collisionFree.comp D.freshToken) (h₀.hashes t ht)
  exact ((spends_preserves D).invariant hinit hrun).laws

end Invariant

/-! ## A token that two present -/

/-- A server on which one user is registered, and holds the refresh token `t`. -/
def sampleRegistered : AuthStore :=
  ((sampleLogins.complete sampleAuth (fun _ => .resolves "")
    ((AuthCall.registerTenant ⟨"Acme", "admin@acme.test", "secret"⟩).code sampleAuth)).map
    Prod.snd).getD sampleLogins

theorem sampleRegistered_families : sampleRegistered.Families sampleAuth := by
  have hstep : AuthStore.step sampleAuth sampleLogins
      (.call (.registerTenant ⟨"Acme", "admin@acme.test", "secret"⟩) fun _ => .resolves "") =
      some sampleRegistered := rfl
  exact families_run rfl (.single trivial hstep)

/-- A refresh, and then another one with the new token, and a logout. -/
def refreshesInTurn : List (Event SpendCall Outcome Nat Nat) :=
  ([.start 0 (.refresh "t")] : List (Event SpendCall Outcome Nat Nat)) ++
    ((List.replicate 4 [.settle 0 (.resolves ""), .resume 0]).flatten :
      List (Event SpendCall Outcome Nat Nat)) ++
    ([.start 1 (.refresh "tt")] : List (Event SpendCall Outcome Nat Nat)) ++
    ((List.replicate 4 [.settle 1 (.resolves ""), .resume 1]).flatten :
      List (Event SpendCall Outcome Nat Nat)) ++
    ([.start 2 (.logout "t")] : List (Event SpendCall Outcome Nat Nat)) ++
    ((List.replicate 2 [.settle 2 (.resolves ""), .resume 2]).flatten :
      List (Event SpendCall Outcome Nat Nat))

theorem sample_single_spend : ∃ cfg,
    Run (spends sampleAuth).step (SpendStep sampleAuth) (Config.start ⟨sampleRegistered, []⟩)
      refreshesInTurn cfg ∧
    cfg.shared.log.length = 3 ∧ cfg.shared.log.Pairwise SpendNote.After := by
  have hexists : ∃ cfg, Run (spends sampleAuth).step (SpendStep sampleAuth)
      (Config.start ⟨sampleRegistered, []⟩) refreshesInTurn cfg ∧ cfg.shared.log.length = 3 := by
    apply Run.exists_of_any
    decide +kernel
  obtain ⟨cfg, hrun, hlength⟩ := hexists
  exact ⟨cfg, hrun, hlength,
    single_spend sampleAuth sampleRegistered sampleRegistered_families hrun⟩

/-- Two refreshes with one token, side by side. -/
def refreshesAtOnce : List (Event SpendCall Outcome Nat Nat) :=
  ([.start 0 (.refresh "t"), .start 1 (.refresh "t")] : List (Event SpendCall Outcome Nat Nat)) ++
    ((List.replicate 4 [.settle 0 (.resolves ""), .resume 0, .settle 1 (.resolves ""),
      .resume 1]).flatten :
      List (Event SpendCall Outcome Nat Nat))

/-- A logout that comes while a refresh is under way, and a refresh with the token that was
minted. -/
def logoutMeanwhile : List (Event SpendCall Outcome Nat Nat) :=
  ([.start 0 (.refresh "t")] : List (Event SpendCall Outcome Nat Nat)) ++
    ((List.replicate 3 [.settle 0 (.resolves ""), .resume 0]).flatten :
      List (Event SpendCall Outcome Nat Nat)) ++
    ([.start 1 (.logout "t")] : List (Event SpendCall Outcome Nat Nat)) ++
    ((List.replicate 2 [.settle 1 (.resolves ""), .resume 1]).flatten :
      List (Event SpendCall Outcome Nat Nat)) ++
    ([.settle 0 (.resolves ""), .resume 0, .start 2 (.refresh "tt")] :
      List (Event SpendCall Outcome Nat Nat)) ++
    ((List.replicate 4 [.settle 2 (.resolves ""), .resume 2]).flatten :
      List (Event SpendCall Outcome Nat Nat))

/-- **One token is exchanged twice**, and tokens of a family are exchanged after its logout. -/
theorem token_spent_twice :
    (∃ cfg, Run (spends sampleAuth).step (fun _ _ => True) (Config.start ⟨sampleRegistered, []⟩)
        refreshesAtOnce cfg ∧
      cfg.shared.log = [.exchanged "t" "xxx", .exchanged "t" "xxx"]) ∧
    ∃ cfg, Run (spends sampleAuth).step (fun _ _ => True) (Config.start ⟨sampleRegistered, []⟩)
        logoutMeanwhile cfg ∧
      cfg.shared.log = [.exchanged "tt" "xxx", .exchanged "t" "xxx", .revoked "xxx"] := by
  constructor
  · apply Run.exists_of_any
    decide +kernel
  · apply Run.exists_of_any
    decide +kernel

end FleetTracking.Auth
