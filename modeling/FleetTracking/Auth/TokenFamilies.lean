import FleetTracking.Auth.CallEffects
import FleetTracking.Lib.Transition

/-!
# Families of Refresh Tokens

Every login starts a family of refresh tokens, of which at most one can be exchanged. A replay
or a logout revokes the family.

1. `Families`: the invariant of the refresh tokens, kept by every call.
2. `Dead`: a family without a live token stays without one.
3. `Kills`: the calls that revoke a family.
4. `refresh_families`: the three properties, in every reachable state.
-/

namespace FleetTracking.Auth

open Async ControlPlane Transition

/-! ## The invariant -/

/-- What holds of the refresh tokens: ids, families and tokens were drawn, no two records have
the same token, and no family has two live ones. -/
structure AuthStore.Families (D : AuthDeployment) (s : AuthStore) : Prop where
  ids : ∀ t ∈ s.refreshTokens.rows, ∃ n < s.store.drawn, t.id = D.uuid n
  families : ∀ t ∈ s.refreshTokens.rows, ∃ n < s.store.drawn, t.familyId = D.uuid n
  hashes : ∀ t ∈ s.refreshTokens.rows, ∃ n < s.randoms, t.tokenHash = D.hashToken (D.token n)
  distinct : ∀ t ∈ s.refreshTokens.rows, ∀ t' ∈ s.refreshTokens.rows,
    t.tokenHash = t'.tokenHash → t = t'
  single : ∀ t ∈ s.refreshTokens.rows, ∀ t' ∈ s.refreshTokens.rows,
    t.familyId = t'.familyId → t.live = true → t'.live = true → t = t'

/-- A later state of a record: it may have been used or revoked. -/
structure RefreshToken.Aged (r t : RefreshToken) : Prop where
  id : t.id = r.id
  userId : t.userId = r.userId
  tokenHash : t.tokenHash = r.tokenHash
  familyId : t.familyId = r.familyId
  live : t.live = true → r.live = true

theorem RefreshToken.Aged.refl (r : RefreshToken) : r.Aged r := ⟨rfl, rfl, rfl, rfl, fun h => h⟩

/-- The record of `record` after it was marked, and the other ones. -/
theorem RefreshTokenTable.mem_markUsed {t : RefreshTokenTable} {record r : RefreshToken}
    {now : Nat} (hrecord : record ∈ t.rows)
    (hr : r ∈ (RefreshTokenTable.markUsed t record.id now).rows) :
    r = { record with usedAt := some now } ∨ r ∈ t.rows ∧ r.id ≠ record.id := by
  have hget : Table.get t record.id = some record := Table.get_eq_some_iff.mpr ⟨hrecord, rfl⟩
  rw [RefreshTokenTable.markUsed, hget] at hr
  exact Table.mem_put.mp hr

theorem RefreshTokenTable.aged_of_markUsed {t : RefreshTokenTable} {record r : RefreshToken}
    {now : Nat} (hrecord : record ∈ t.rows)
    (hr : r ∈ (RefreshTokenTable.markUsed t record.id now).rows) : ∃ r₀ ∈ t.rows, r₀.Aged r := by
  rcases RefreshTokenTable.mem_markUsed hrecord hr with rfl | ⟨hr, -⟩
  · exact ⟨record, hrecord, rfl, rfl, rfl, rfl, fun h => by simp [RefreshToken.live] at h⟩
  · exact ⟨r, hr, .refl r⟩

theorem RefreshTokenTable.aged_revoke (familyId : String) (now : Nat) (r : RefreshToken) :
    r.Aged (RefreshTokenTable.revoke familyId now r) := by
  unfold RefreshTokenTable.revoke
  split
  · exact ⟨rfl, rfl, rfl, rfl, fun h => by simp [RefreshToken.live] at h⟩
  · exact .refl r

section Invariant

variable {D : AuthDeployment} {s s' : AuthStore}

/-- Records that are used or revoked keep the invariant. -/
theorem families_aged (h : s.Families D) (hdrawn : s.store.drawn ≤ s'.store.drawn)
    (hrandoms : s.randoms ≤ s'.randoms)
    (haged : ∀ t ∈ s'.refreshTokens.rows, ∃ r ∈ s.refreshTokens.rows, r.Aged t) :
    s'.Families D where
  -- a row that has only aged keeps id, family and hash
  ids t ht := by
    obtain ⟨r, hr, hrt⟩ := haged t ht
    obtain ⟨n, hn, hid⟩ := h.ids r hr
    exact ⟨n, hn.trans_le hdrawn, hrt.id.trans hid⟩
  families t ht := by
    obtain ⟨r, hr, hrt⟩ := haged t ht
    obtain ⟨n, hn, hid⟩ := h.families r hr
    exact ⟨n, hn.trans_le hdrawn, hrt.familyId.trans hid⟩
  hashes t ht := by
    obtain ⟨r, hr, hrt⟩ := haged t ht
    obtain ⟨n, hn, hid⟩ := h.hashes r hr
    exact ⟨n, hn.trans_le hrandoms, hrt.tokenHash.trans hid⟩
  distinct t ht t' ht' heq := by
    obtain ⟨r, hr, hrt⟩ := haged t ht
    obtain ⟨r', hr', hrt'⟩ := haged t' ht'
    have hrr' : r = r' := h.distinct r hr r' hr' (hrt.tokenHash ▸ hrt'.tokenHash ▸ heq)
    exact Table.eq_of_key ht ht' (by rw [hrt.id, hrt'.id, hrr'])
  single t ht t' ht' heq hlive hlive' := by
    obtain ⟨r, hr, hrt⟩ := haged t ht
    obtain ⟨r', hr', hrt'⟩ := haged t' ht'
    have hrr' : r = r' := h.single r hr r' hr' (hrt.familyId ▸ hrt'.familyId ▸ heq)
      (hrt.live hlive) (hrt'.live hlive')
    exact Table.eq_of_key ht ht' (by rw [hrt.id, hrt'.id, hrr'])

/-- A new record keeps the invariant, if its family has no live one. -/
theorem families_put (h : s.Families D) {t : RefreshToken} (hnew : s.NewToken D s' t)
    (hdrawn : s.store.drawn ≤ s'.store.drawn) (hrandoms : s.randoms ≤ s'.randoms)
    (hfamily : ∃ n < s'.store.drawn, t.familyId = D.uuid n)
    (hdead : ∀ r ∈ s.refreshTokens.rows, r.familyId = t.familyId → r.live = false)
    (htokens : s'.refreshTokens = s.refreshTokens.put t) : s'.Families D := by
  obtain ⟨n, hn, hn', hid⟩ := hnew.id
  obtain ⟨token, ⟨m, hm, hm', rfl⟩, hhash⟩ := hnew.tokenHash
  have hmem : ∀ {r}, r ∈ s'.refreshTokens.rows → r = t ∨ r ∈ s.refreshTokens.rows := by
    intro r hr
    rw [htokens] at hr
    exact (Table.mem_put.mp hr).imp_right And.left
  -- no older record has the new token
  have hother : ∀ r ∈ s.refreshTokens.rows, r.tokenHash ≠ t.tokenHash := by
    intro r hr heq
    obtain ⟨k, hk, hrk⟩ := h.hashes r hr
    rw [hrk, hhash] at heq
    have hkm : k = m := D.freshToken (D.collisionFree heq)
    omega
  refine ⟨fun r hr => ?_, fun r hr => ?_, fun r hr => ?_, fun r hr r' hr' heq => ?_,
    fun r hr r' hr' heq hlive hlive' => ?_⟩
  · rcases hmem hr with rfl | hr
    · exact ⟨n, hn', hid⟩
    · obtain ⟨k, hk, hrk⟩ := h.ids r hr
      exact ⟨k, hk.trans_le hdrawn, hrk⟩
  · rcases hmem hr with rfl | hr
    · exact hfamily
    · obtain ⟨k, hk, hrk⟩ := h.families r hr
      exact ⟨k, hk.trans_le hdrawn, hrk⟩
  · rcases hmem hr with rfl | hr
    · exact ⟨m, hm', hhash⟩
    · obtain ⟨k, hk, hrk⟩ := h.hashes r hr
      exact ⟨k, hk.trans_le hrandoms, hrk⟩
  · rcases hmem hr with rfl | hr
    · rcases hmem hr' with rfl | hr'
      · rfl
      · exact absurd heq.symm (hother r' hr')
    · rcases hmem hr' with rfl | hr'
      · exact absurd heq (hother r hr)
      · exact h.distinct r hr r' hr' heq
  · rcases hmem hr with rfl | hr
    · rcases hmem hr' with rfl | hr'
      · rfl
      · rw [hdead r' hr' heq.symm] at hlive'
        exact absurd hlive' Bool.false_ne_true
    · rcases hmem hr' with rfl | hr'
      · rw [hdead r hr heq] at hlive
        exact absurd hlive Bool.false_ne_true
      · exact h.single r hr r' hr' heq hlive hlive'

/-- Where a live token is spent, its family has no live one. -/
theorem dead_markUsed (h : s.Families D) {record r : RefreshToken} (hex : s.Exchangeable record)
    (hr : r ∈ (RefreshTokenTable.markUsed s.refreshTokens record.id s.now).rows)
    (hfamily : r.familyId = record.familyId) : r.live = false := by
  rcases RefreshTokenTable.mem_markUsed hex.mem hr with rfl | ⟨hr, hne⟩
  · simp [RefreshToken.live]
  · by_contra hlive
    rw [Bool.not_eq_false] at hlive
    exact hne (congrArg RefreshToken.id (h.single r hr record hex.mem hfamily hlive hex.live))

/-- **What a call does keeps the invariant.** -/
theorem families_move (h : s.Families D) (hdrawn : s.store.drawn ≤ s'.store.drawn)
    (hrandoms : s.randoms ≤ s'.randoms) (hmove : s.TokensMove D s') : s'.Families D := by
  cases hmove with
  | same tokens =>
    refine families_aged h hdrawn hrandoms fun t ht => ⟨t, ?_, .refl t⟩
    rwa [tokens] at ht
  | minted t new family tokens =>
    obtain ⟨n, hn, hn', hfamily⟩ := family
    refine families_put h new hdrawn hrandoms ⟨n, hn', hfamily⟩ (fun r hr heq => ?_) tokens
    -- the new family's draw is later than that of any stored one
    obtain ⟨k, hk, hrk⟩ := h.families r hr
    rw [hrk, hfamily] at heq
    have hkn : k = n := D.fresh heq
    omega
  | spent record exchangeable tokens =>
    refine families_aged h hdrawn hrandoms fun t ht => ?_
    rw [tokens] at ht
    exact RefreshTokenTable.aged_of_markUsed exchangeable.mem ht
  | rotated record t exchangeable new family userId tokens =>
    have hspent : AuthStore.Families D
        { s with refreshTokens :=
            RefreshTokenTable.markUsed s.refreshTokens record.id s.now } :=
      families_aged h le_rfl le_rfl fun t ht =>
        RefreshTokenTable.aged_of_markUsed exchangeable.mem ht
    obtain ⟨n, hn, hrecord⟩ := h.families record exchangeable.mem
    refine families_put hspent ⟨new.id, new.live, new.tokenHash⟩ hdrawn hrandoms
      ⟨n, hn.trans_le hdrawn, family.trans hrecord⟩ (fun r hr heq => ?_) tokens
    -- the record spent was the only live one of its family
    exact dead_markUsed h exchangeable hr (heq.trans family)
  | revoked record mem tokens =>
    refine families_aged h hdrawn hrandoms fun t ht => ?_
    rw [tokens] at ht
    obtain ⟨r, hr, rfl⟩ := List.mem_map.mp ht
    exact ⟨r, hr, RefreshTokenTable.aged_revoke _ _ r⟩

/-- What happens in a step. -/
theorem step_cases {e : AuthEvent} (h : s.step D e = some s') :
    (∃ call ω r, e = .call call ω ∧ s.complete D ω (call.code D) = some (r, s')) ∨
      ∃ ms, e = .elapse ms ∧ s' = s.elapse ms := by
  cases e with
  | call call ω =>
    obtain ⟨⟨r, s''⟩, hcomplete, hout⟩ := Option.map_eq_some_iff.mp h
    cases hout
    exact Or.inl ⟨call, ω, r, rfl, hcomplete⟩
  | elapse ms => exact Or.inr ⟨ms, rfl, (Option.some_inj.mp h).symm⟩

theorem families_step (h : s.Families D) {e : AuthEvent} (hs : s.step D e = some s') :
    s'.Families D := by
  rcases step_cases hs with ⟨call, ω, r, rfl, hcomplete⟩ | ⟨ms, rfl, rfl⟩
  · have hleads := leads_of_complete hcomplete
    exact families_move h hleads.drawn hleads.randoms hleads.tokens
  · exact ⟨h.ids, h.families, h.hashes, h.distinct, h.single⟩

/-! ## Dead families -/

/-- The family was started, and none of its tokens is live. -/
structure AuthStore.Dead (D : AuthDeployment) (s : AuthStore) (familyId : String) : Prop where
  drawn : ∃ n < s.store.drawn, familyId = D.uuid n
  dead : ∀ t ∈ s.refreshTokens.rows, t.familyId = familyId → t.live = false

theorem dead_aged {familyId : String} (h : s.Dead D familyId)
    (hdrawn : s.store.drawn ≤ s'.store.drawn)
    (haged : ∀ t ∈ s'.refreshTokens.rows, ∃ r ∈ s.refreshTokens.rows, r.Aged t) :
    s'.Dead D familyId where
  drawn := by
    obtain ⟨n, hn, hfamily⟩ := h.drawn
    exact ⟨n, hn.trans_le hdrawn, hfamily⟩
  dead t ht heq := by
    obtain ⟨r, hr, hrt⟩ := haged t ht
    by_contra hlive
    rw [Bool.not_eq_false] at hlive
    have hdead := h.dead r hr (hrt.familyId.symm.trans heq)
    rw [hrt.live hlive] at hdead
    cases hdead

/-- A dead family stays dead. -/
theorem dead_move {familyId : String} (h : s.Dead D familyId)
    (hdrawn : s.store.drawn ≤ s'.store.drawn) (hmove : s.TokensMove D s') :
    s'.Dead D familyId := by
  -- a new record of another family does not bring this one back
  have hput : ∀ {t : RefreshToken} {s₁ : AuthStore}, s₁.Dead D familyId → t.familyId ≠ familyId →
      s₁.store.drawn ≤ s'.store.drawn → s'.refreshTokens = s₁.refreshTokens.put t →
      s'.Dead D familyId := by
    intro t s₁ h₁ hne hle htokens
    obtain ⟨n, hn, hfamily⟩ := h₁.drawn
    refine ⟨⟨n, hn.trans_le hle, hfamily⟩, fun r hr heq => ?_⟩
    rw [htokens] at hr
    rcases Table.mem_put.mp hr with rfl | ⟨hr, -⟩
    · exact absurd heq hne
    · exact h₁.dead r hr heq
  cases hmove with
  | same tokens =>
    refine dead_aged h hdrawn fun t ht => ⟨t, ?_, .refl t⟩
    rwa [tokens] at ht
  | minted t new family tokens =>
    refine hput h (fun heq => ?_) hdrawn tokens
    -- a new family is drawn later than the dead one
    obtain ⟨k, hk, hfamily⟩ := h.drawn
    obtain ⟨n, hn, -, hnew⟩ := family
    rw [hnew, hfamily] at heq
    have hnk : n = k := D.fresh heq
    omega
  | spent record exchangeable tokens =>
    refine dead_aged h hdrawn fun t ht => ?_
    rw [tokens] at ht
    exact RefreshTokenTable.aged_of_markUsed exchangeable.mem ht
  | rotated record t exchangeable new family userId tokens =>
    have hspent : AuthStore.Dead D
        { s with refreshTokens :=
            RefreshTokenTable.markUsed s.refreshTokens record.id s.now } familyId :=
      dead_aged h le_rfl fun t ht => RefreshTokenTable.aged_of_markUsed exchangeable.mem ht
    refine hput hspent (fun heq => ?_) hdrawn tokens
    -- a rotation needs a live record, and a dead family has none
    have hdead := h.dead record exchangeable.mem (family.symm.trans heq)
    rw [exchangeable.live] at hdead
    cases hdead
  | revoked record mem tokens =>
    refine dead_aged h hdrawn fun t ht => ?_
    rw [tokens] at ht
    obtain ⟨r, hr, rfl⟩ := List.mem_map.mp ht
    exact ⟨r, hr, RefreshTokenTable.aged_revoke _ _ r⟩

theorem dead_step {familyId : String} (h : s.Dead D familyId) {e : AuthEvent}
    (hs : s.step D e = some s') : s'.Dead D familyId := by
  rcases step_cases hs with ⟨call, ω, r, rfl, hcomplete⟩ | ⟨ms, rfl, rfl⟩
  · have hleads := leads_of_complete hcomplete
    exact dead_move h hleads.drawn hleads.tokens
  · exact ⟨h.drawn, h.dead⟩

/-! ## Calls that revoke a family -/

/-- A refresh with a token of the family that was used already, or a logout with any. -/
inductive AuthStore.Kills (D : AuthDeployment) (s : AuthStore) (familyId : String) :
    AuthCall → Prop where
  | replay {refreshToken : String} (record : RefreshToken) (mem : record ∈ s.refreshTokens.rows)
      (hash : record.tokenHash = D.hashToken refreshToken) (family : record.familyId = familyId)
      (used : record.usedAt.isSome = true) : Kills D s familyId (.refresh refreshToken)
  | logout {refreshToken : String} (record : RefreshToken) (mem : record ∈ s.refreshTokens.rows)
      (hash : record.tokenHash = D.hashToken refreshToken) (family : record.familyId = familyId) :
      Kills D s familyId (.logout refreshToken)

/-- The record of a token is the one that its hash finds. -/
theorem findByHash_of_mem (h : s.Families D) {record : RefreshToken} {refreshToken : String}
    (hmem : record ∈ s.refreshTokens.rows)
    (hhash : record.tokenHash = D.hashToken refreshToken) :
    RefreshTokenTable.findByHash s.refreshTokens (D.hashToken refreshToken) = some record := by
  cases hfind : RefreshTokenTable.findByHash s.refreshTokens (D.hashToken refreshToken) with
  | none =>
    have hne := List.find?_eq_none.mp hfind record hmem
    simp [hhash] at hne
  | some record' =>
    obtain ⟨hmem', hhash'⟩ := RefreshTokenTable.findByHash_eq_some hfind
    rw [h.distinct record' hmem' record hmem (hhash'.trans hhash.symm)]

/-- A revoked family is dead. -/
theorem dead_revoke (h : s.Families D) {record : RefreshToken}
    (hmem : record ∈ s.refreshTokens.rows) (now : Nat) :
    AuthStore.Dead D (s.effect (.refreshTokensRevokeFamily record.familyId now))
      record.familyId where
  drawn := h.families record hmem
  dead t ht heq := by
    obtain ⟨r, -, rfl⟩ := List.mem_map.mp ht
    have hfamily : r.familyId = record.familyId :=
      (RefreshTokenTable.aged_revoke record.familyId now r).familyId.symm.trans heq
    unfold RefreshTokenTable.revoke
    by_cases hlive : r.revokedAt = none
    · simp [RefreshToken.live, hfamily, hlive]
    · simp [RefreshToken.live, hlive]

/-- **Such a call leaves the family dead**, where its requests resolve. -/
theorem ends_kills (h : s.Families D) {familyId : String} {call : AuthCall}
    (hkills : s.Kills D familyId call) :
    AuthStore.Ends D resolves (fun _ s' => s'.Dead D familyId) (call.code D) s := by
  cases hkills with
  | replay record mem hash family used =>
    subst family
    simp only [AuthCall.code, AuthService.refresh, bind_assoc]
    refine ends_write rfl (fun _ => ?_) (fun _ hx => absurd hx not_resolves)
      fun _ hx => absurd hx not_resolves
    simp only [AuthStore.answer, findByHash_of_mem h mem hash, bind_assoc]
    refine ends_now ?_
    rw [if_pos used]
    simp only [bind_assoc]
    exact ends_write rfl (fun _ => dead_revoke h mem s.now) (fun _ hx => absurd hx not_resolves)
      fun _ hx => absurd hx not_resolves
  | logout record mem hash family =>
    subst family
    simp only [AuthCall.code, AuthService.logout, bind_assoc]
    refine ends_write rfl (fun _ => ?_) (fun _ hx => absurd hx not_resolves)
      fun _ hx => absurd hx not_resolves
    simp only [AuthStore.answer, findByHash_of_mem h mem hash, bind_assoc]
    refine ends_now ?_
    exact ends_write rfl (fun _ => dead_revoke h mem s.now) (fun _ hx => absurd hx not_resolves)
      fun _ hx => absurd hx not_resolves

/-! ## Every reachable state -/

/-- A refresh succeeds only with a token that may be exchanged. -/
theorem exchangeable_of_refresh {refreshToken : String} {ω : Nat → Outcome} {reply : AuthReply}
    (h : s.complete D ω ((AuthCall.refresh refreshToken).code D) = some (.ok reply, s')) :
    ∃ record, record.tokenHash = D.hashToken refreshToken ∧ s.Exchangeable record := by
  cases (leads_of_complete h).reply reply rfl with
  | refreshed record u hash exchangeable => exact ⟨record, hash, exchangeable⟩
  | other issues => cases issues

/-- What the refresh tokens are for. -/
structure AuthStore.FamilyLaws (D : AuthDeployment) (s : AuthStore) : Prop where
  -- A family has at most one token that is neither used nor revoked.
  single : ∀ t ∈ s.refreshTokens.rows, ∀ t' ∈ s.refreshTokens.rows,
    t.familyId = t'.familyId → t.live = true → t'.live = true → t = t'
  -- A refresh succeeds only with such a token, unexpired and with an active user.
  exchange : ∀ refreshToken ω reply s', s.complete D ω ((AuthCall.refresh refreshToken).code D) =
    some (.ok reply, s') →
      ∃ record, record.tokenHash = D.hashToken refreshToken ∧ s.Exchangeable record
  -- After a replay or a logout, no token of the family is exchanged any more.
  revoked : ∀ familyId call ω r s₁ es s₂, s.Kills D familyId call → (∀ n, resolves (ω n)) →
    s.complete D ω (call.code D) = some (r, s₁) →
    Run (AuthStore.step D) (fun _ _ => True) s₁ es s₂ →
    ∀ record ∈ s₂.refreshTokens.rows, record.familyId = familyId →
      ∀ refreshToken, record.tokenHash = D.hashToken refreshToken →
        ∀ ω' reply s', s₂.complete D ω' ((AuthCall.refresh refreshToken).code D) ≠
          some (.ok reply, s')

theorem families_empty (hempty : s.refreshTokens = Table.empty) : s.Families D := by
  have hnone : ∀ t, t ∉ s.refreshTokens.rows := by
    rw [hempty]
    exact fun t => List.not_mem_nil
  exact ⟨fun t ht => absurd ht (hnone t), fun t ht => absurd ht (hnone t),
    fun t ht => absurd ht (hnone t), fun t ht => absurd ht (hnone t),
    fun t ht => absurd ht (hnone t)⟩

theorem families_run {s₀ : AuthStore} (hempty : s₀.refreshTokens = Table.empty)
    {es : List AuthEvent} (hrun : Run (AuthStore.step D) (fun _ _ => True) s₀ es s) :
    s.Families D :=
  hrun.invariant (families_empty hempty) fun _ _ _ h _ hs => families_step h hs

/-- No token of a dead family can be exchanged. -/
theorem not_exchanged (h : s.Families D) {familyId : String} (hdead : s.Dead D familyId)
    {record : RefreshToken} (hmem : record ∈ s.refreshTokens.rows)
    (hfamily : record.familyId = familyId) {refreshToken : String}
    (hhash : record.tokenHash = D.hashToken refreshToken) (ω : Nat → Outcome) (reply : AuthReply)
    (s' : AuthStore) :
    s.complete D ω ((AuthCall.refresh refreshToken).code D) ≠ some (.ok reply, s') := by
  intro hcomplete
  obtain ⟨record', hhash', hex⟩ := exchangeable_of_refresh hcomplete
  obtain rfl := h.distinct record' hex.mem record hmem (hhash'.trans hhash.symm)
  have hnot := hdead.dead record' hmem hfamily
  rw [hex.live] at hnot
  cases hnot

/-- **Refresh-token families.** In every run of complete calls that starts without refresh
tokens, at any times and whatever the outcomes of the requests. -/
theorem refresh_families (D : AuthDeployment) (s₀ : AuthStore)
    (hempty : s₀.refreshTokens = Table.empty) {es : List AuthEvent} {s : AuthStore}
    (hrun : Run (AuthStore.step D) (fun _ _ => True) s₀ es s) : s.FamilyLaws D where
  single := (families_run hempty hrun).single
  exchange _ _ _ _ h := exchangeable_of_refresh h
  revoked familyId call ω r s₁ es' s₂ hkills hω hcall hrun' := by
    have hfamilies := families_run hempty hrun
    have hdead : s₁.Dead D familyId := (ends_kills hfamilies hkills).of_complete hω hcall
    have hstep : s.step D (.call call ω) = some s₁ := by
      rw [AuthStore.step, hcall, Option.map_some]
    have hdead₂ : s₂.Dead D familyId :=
      hrun'.invariant (I := fun s => s.Dead D familyId) hdead fun _ _ _ h _ hs => dead_step h hs
    have hfamilies₂ : s₂.Families D :=
      hrun'.invariant (I := fun s => s.Families D) (families_step hfamilies hstep) fun _ _ _ h _ hs => families_step h hs
    intro record hmem hfamily refreshToken hhash ω' reply s'
    exact not_exchanged hfamilies₂ hdead₂ hmem hfamily hhash ω' reply s'

end Invariant

/-! ## A login that is replayed -/

/-- A deployment whose random tokens are of growing length. -/
def sampleAuth : AuthDeployment where
  toApiDeployment := sampleApi
  token n := String.ofList (List.replicate (n + 1) 't')
  freshToken m n h := by simpa using congrArg String.length h
  hashToken token := token
  collisionFree := Function.injective_id
  secretBytes n := List.replicate 20 (UInt8.ofNat n)
  otpauthUri secret account := account ++ secret
  refreshDays := 30
  jwtExpiresIn := 900

/-- A server on which nobody is registered. -/
def sampleLogins : AuthStore where
  store := Store.new (Backend.new Table.empty)
  tenants := Table.empty
  refreshTokens := Table.empty
  randoms := 0

/-- After a registration and two refreshes, the family holds three tokens, one of them live. -/
theorem sample_families : ∃ s,
    Run (AuthStore.step sampleAuth) (fun _ _ => True) sampleLogins
      [.call (.registerTenant ⟨"Acme", "admin@acme.test", "secret"⟩) fun _ => .resolves "",
        .elapse 60000, .call (.refresh "t") fun _ => .resolves "",
        .call (.refresh "tt") fun _ => .resolves ""] s ∧
    (s.refreshTokens.rows.map RefreshToken.live = [false, false, true]) ∧
    s.FamilyLaws sampleAuth := by
  have hrun : Run (AuthStore.step sampleAuth) (fun _ _ => True) sampleLogins
      [.call (.registerTenant ⟨"Acme", "admin@acme.test", "secret"⟩) fun _ => .resolves "",
        .elapse 60000, .call (.refresh "t") fun _ => .resolves "",
        .call (.refresh "tt") fun _ => .resolves ""] _ :=
    .cons trivial rfl (.cons trivial rfl (.cons trivial rfl (.single trivial rfl)))
  exact ⟨_, hrun, by decide, refresh_families sampleAuth sampleLogins rfl hrun⟩

end FleetTracking.Auth
