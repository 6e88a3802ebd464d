import FleetTracking.ControlPlane.Overlap
import FleetTracking.ControlPlane.Services
import FleetTracking.Lib.ReadModifyWrite

/-!
# Updates of the Configurations

`AlertsService` and `NotificationsService` read the configuration of the tenant, merge the fields
of the request into it, and write it back. The stores have no version to check, so a call that
writes between the read and the write of another one is undone by it.

1. `AlertsCall`, and what a patch sets.
2. `NotificationsService`, with the secret that signs the webhooks.
3. `updates_kept`: nothing is lost where the calls of a tenant write apart from each other.
-/

namespace FleetTracking.ControlPlane

open Async Transition

/-! ## Fields of a patch -/

/-- The field has the value that the patch sets. -/
def Sets {α : Type} (field : Option α) (value : α) : Prop := ∀ v, field = some v → value = v

/-- At most one of two patches sets the field. -/
def Apart {α : Type} (field other : Option α) : Prop := field = none ∨ other = none

section Fields

variable {α : Type} {field other : Option α} {value : α}

theorem sets_getD (field : Option α) (value : α) : Sets field (field.getD value) := by
  rintro v rfl
  rfl

theorem Sets.getD (h : Sets field value) (hapart : Apart other field) :
    Sets field (other.getD value) := by
  rintro v rfl
  rcases hapart with rfl | hnone
  · exact h v rfl
  · cases hnone

end Fields

/-! ## Alerts -/

namespace AlertConfigPatch

/-- The configuration has the values that the patch sets. -/
structure Within (patch : AlertConfigPatch) (c : AlertConfig) : Prop where
  overspeedKph : Sets patch.overspeedKph c.overspeedKph
  ignitionAlerts : Sets patch.ignitionAlerts c.ignitionAlerts
  geofenceAlerts : Sets patch.geofenceAlerts c.geofenceAlerts
  offlineAfterSec : Sets patch.offlineAfterSec c.offlineAfterSec

/-- The patches set different fields. -/
structure Disjoint (patch other : AlertConfigPatch) : Prop where
  overspeedKph : Apart patch.overspeedKph other.overspeedKph
  ignitionAlerts : Apart patch.ignitionAlerts other.ignitionAlerts
  geofenceAlerts : Apart patch.geofenceAlerts other.geofenceAlerts
  offlineAfterSec : Apart patch.offlineAfterSec other.offlineAfterSec

theorem within_apply (patch : AlertConfigPatch) (c : AlertConfig) : patch.Within (patch.apply c) :=
  ⟨sets_getD _ _, sets_getD _ _, sets_getD _ _, sets_getD _ _⟩

theorem Within.apply {patch other : AlertConfigPatch} {c : AlertConfig} (h : patch.Within c)
    (hdisjoint : other.Disjoint patch) : patch.Within (other.apply c) where
  overspeedKph := h.overspeedKph.getD hdisjoint.overspeedKph
  ignitionAlerts := h.ignitionAlerts.getD hdisjoint.ignitionAlerts
  geofenceAlerts := h.geofenceAlerts.getD hdisjoint.geofenceAlerts
  offlineAfterSec := h.offlineAfterSec.getD hdisjoint.offlineAfterSec

end AlertConfigPatch

/-- A call of `AlertsService` about the configuration. -/
inductive AlertsCall where
  | getConfig (tenantId : String)
  | setConfig (tenantId : String) (patch : AlertConfigPatch)

def AlertsCall.code : AlertsCall → Api AlertConfig
  | .getConfig tenantId => AlertsService.getConfig tenantId
  | .setConfig tenantId patch => AlertsService.setConfig tenantId patch

/-- The configuration of a tenant. -/
def Store.alertConfig (s : Store) (tenantId : String) : AlertConfig :=
  (s.backend.alertConfigs.get tenantId).getD DEFAULT_ALERT_CONFIG

/-- The calls, as far as the configurations are concerned. -/
def alertUpdates : Updates apiSig AlertsCall AlertConfig String AlertConfig where
  key
    | .getConfig tenantId => tenantId
    | .setConfig tenantId _ => tenantId
  writes
    | .getConfig _ => False
    | .setConfig _ _ => True
  merges
    | .getConfig _, _, _ => False
    | .setConfig _ patch, c, merged => merged = patch.apply c
  access
    | .backend (.alertConfigGet tenantId) => some (.get tenantId)
    | .alertConfigSet tenantId config => some (.set tenantId config)
    | _ => none
  value
    | .backend (.alertConfigGet _), config => some config
    | .alertConfigSet _ _, config => some config
    | _, _ => none
  result := id

/-- The calls, interleaved at their awaits. -/
def alertsCalls (D : ApiDeployment) :
    System apiSig Nat AlertsCall AlertConfig Store Outcome EnvMove :=
  apiCalls D AlertsCall.code

section Alerts

variable {D : ApiDeployment}

theorem alertConfig_set (s : Store) (tenantId : String) (config : AlertConfig) :
    (s.effect (.alertConfigSet tenantId config)).alertConfig =
      Function.update s.alertConfig tenantId config := by
  funext tenant
  by_cases h : tenant = tenantId
  · subst h
    simp [Store.alertConfig, Store.effect]
  · simp [Store.alertConfig, Store.effect, Function.update_of_ne h, JsMap.get_set_of_ne _ _ h]

theorem alerts_stores : alertUpdates.Stores (alertsCalls D) Store.alertConfig where
  get {i c op x s s' r tenantId} haccess hset := by
    unfold alertUpdates at haccess
    dsimp only at haccess
    split at haccess
    case h_1 tenant =>
      cases haccess
      obtain ⟨rfl, hr⟩ := settle_read hset rfl rfl
      refine ⟨rfl, fun a ha => ?_⟩
      obtain ⟨reply, rfl⟩ := hr a ha
      rfl
    case h_2 => cases haccess
    case h_3 => cases haccess
  set {i c op x s s' r tenantId config} haccess hset := by
    unfold alertUpdates at haccess
    dsimp only at haccess
    split at haccess
    case h_1 => cases haccess
    case h_2 tenant config =>
      cases haccess
      obtain ⟨hs', hr⟩ := settle_cases hset
      refine ⟨?_, fun a ha => ?_⟩
      · by_cases htakes : x.takesEffect
        · rw [if_pos htakes] at hs'
          exact Or.inr (hs' ▸ alertConfig_set _ _ _)
        · rw [if_neg htakes] at hs'
          refine Or.inl ⟨congrArg _ hs', ?_⟩
          rw [settle_result hset]
          cases x with
          | resolves reply => exact absurd rfl htakes
          | rejects e applied => exact ⟨e, rfl⟩
      · obtain ⟨reply, -, hvalue⟩ := hr a ha
        exact congrArg some hvalue
    case h_3 => cases haccess
  act {i c a s} := by
    cases a with
    | backend a => cases a <;> rfl
    | randomUUID => rfl
    | forgetImei imei => rfl
    | sweepOffline nowMs config => rfl
  env {e s s'} henv := by
    cases henv
    cases e <;> rfl

theorem alerts_conforms (c : AlertsCall) :
    alertUpdates.typestate.Conforms c.code (c, .fresh) alertUpdates.typestate.done := by
  cases c with
  | getConfig tenantId =>
    apply Typestate.conforms_perform.mpr
    refine ⟨rfl, fun r => ?_⟩
    cases r with
    | ok config => exact Or.inr ⟨id, rfl⟩
    | error e => trivial
  | setConfig tenantId patch =>
    refine Typestate.Conforms.perform_bind rfl (fun current => ?_) fun e => trivial
    apply Typestate.conforms_perform.mpr
    -- It has read `current`, and writes what it has merged into it.
    refine ⟨⟨trivial, _, rfl, rfl⟩, fun r => ?_⟩
    cases r with
    | ok config => exact Or.inl ⟨trivial, rfl⟩
    | error e => trivial

end Alerts

/-! ## Notifications -/

/-- Of `types`, `some none` is an explicit `null`. -/
structure NotificationConfigPatch where
  webhookUrls : Option (List String) := none
  emailRecipients : Option (List String) := none
  types : Option (Option (List AlertType)) := none

namespace NotificationConfigPatch

/-- Merge only the keys that are there. -/
def apply (patch : NotificationConfigPatch) (c : NotificationConfig) : NotificationConfig :=
  { c with
    webhookUrls := patch.webhookUrls.getD c.webhookUrls
    emailRecipients := patch.emailRecipients.getD c.emailRecipients
    types := patch.types.getD c.types }

/-- The configuration has the values that the patch sets. -/
structure Within (patch : NotificationConfigPatch) (c : NotificationConfig) : Prop where
  webhookUrls : Sets patch.webhookUrls c.webhookUrls
  emailRecipients : Sets patch.emailRecipients c.emailRecipients
  types : Sets patch.types c.types

/-- The patches set different fields. -/
structure Disjoint (patch other : NotificationConfigPatch) : Prop where
  webhookUrls : Apart patch.webhookUrls other.webhookUrls
  emailRecipients : Apart patch.emailRecipients other.emailRecipients
  types : Apart patch.types other.types

theorem within_apply (patch : NotificationConfigPatch) (c : NotificationConfig) :
    patch.Within (patch.apply c) :=
  ⟨sets_getD _ _, sets_getD _ _, sets_getD _ _⟩

theorem Within.apply {patch other : NotificationConfigPatch} {c : NotificationConfig}
    (h : patch.Within c) (hdisjoint : other.Disjoint patch) : patch.Within (other.apply c) where
  webhookUrls := h.webhookUrls.getD hdisjoint.webhookUrls
  emailRecipients := h.emailRecipients.getD hdisjoint.emailRecipients
  types := h.types.getD hdisjoint.types

end NotificationConfigPatch

/-- Webhooks are configured, and no secret yet. -/
def NotificationConfig.NeedsSecret (c : NotificationConfig) : Prop :=
  c.webhookUrls ≠ [] ∧ c.webhookSecret = ""

instance (c : NotificationConfig) : Decidable c.NeedsSecret :=
  inferInstanceAs (Decidable (_ ∧ _))

/-- What `NotificationsService` awaits. -/
inductive NotificationOp where
  | get (tenantId : String)
  | set (tenantId : String) (config : NotificationConfig)

inductive NotificationAct where
  -- `randomBytes(24).toString('hex')`.
  | randomBytes

/-- The signature of `NotificationsService`. -/
abbrev notificationSig : Sig :=
  ⟨NotificationOp, fun _ => NotificationConfig, NotificationAct, fun _ => String, ApiError⟩

namespace NotificationsService

def getConfig (tenantId : String) : Async notificationSig NotificationConfig :=
  Async.perform (S := notificationSig) (.get tenantId)

/-- Generate a stable signing secret the first time webhooks are configured. -/
def withSecret (merged : NotificationConfig) : Async notificationSig NotificationConfig :=
  if merged.NeedsSecret then do
    let secret ← Async.action (S := notificationSig) .randomBytes
    pure { merged with webhookSecret := secret }
  else pure merged

def setConfig (tenantId : String) (patch : NotificationConfigPatch) :
    Async notificationSig NotificationConfig := do
  let current ← Async.perform (S := notificationSig) (.get tenantId)
  let merged ← withSecret (patch.apply current)
  Async.perform (S := notificationSig) (.set tenantId merged)

end NotificationsService

/-- A call of `NotificationsService` about the configuration. -/
inductive NotificationsCall where
  | getConfig (tenantId : String)
  | setConfig (tenantId : String) (patch : NotificationConfigPatch)

def NotificationsCall.tenantId : NotificationsCall → String
  | .getConfig tenantId => tenantId
  | .setConfig tenantId _ => tenantId

def NotificationsCall.code : NotificationsCall → Async notificationSig NotificationConfig
  | .getConfig tenantId => NotificationsService.getConfig tenantId
  | .setConfig tenantId patch => NotificationsService.setConfig tenantId patch

/-- The stored configurations, and how often a secret was drawn. -/
structure NotificationStore where
  byTenant : JsMap String NotificationConfig
  drawn : Nat

namespace NotificationStore

/-- The configuration of a tenant. -/
def config (s : NotificationStore) (tenantId : String) : NotificationConfig :=
  (s.byTenant.get tenantId).getD (emptyNotificationConfig tenantId)

/-- The effect of a request. -/
def effect (s : NotificationStore) : NotificationOp → NotificationStore
  | .get _ => s
  | .set tenantId config => { s with byTenant := s.byTenant.set tenantId config }

/-- What a request resolves with. -/
def answer (s : NotificationStore) : NotificationOp → NotificationConfig
  | .get tenantId => s.config tenantId
  | .set _ config => config

end NotificationStore

/-- The calls, interleaved at their awaits; `secret n` is the `n`-th secret drawn. -/
def notificationsCalls (secret : Nat → String) :
    System notificationSig Nat NotificationsCall NotificationConfig NotificationStore Outcome
      Empty where
  settle _ _ op x s := some (if x.takesEffect then s.effect op else s,
    match x with
    | .resolves _ => .ok (s.answer op)
    | .rejects e _ => .error e)
  act _ _ _ s := ({ s with drawn := s.drawn + 1 }, secret s.drawn)
  code := NotificationsCall.code
  env e _ := nomatch e

/-- The calls, as far as the configurations are concerned. -/
def notificationUpdates :
    Updates notificationSig NotificationsCall NotificationConfig String NotificationConfig where
  key := NotificationsCall.tenantId
  writes
    | .getConfig _ => False
    | .setConfig _ _ => True
  merges
    | .getConfig _, _, _ => False
    | .setConfig _ patch, c, merged =>
      if (patch.apply c).NeedsSecret then
        ∃ secret, merged = { patch.apply c with webhookSecret := secret }
      else merged = patch.apply c
  access
    | .get tenantId => some (.get tenantId)
    | .set tenantId config => some (.set tenantId config)
  value _ config := some config
  result := id

section Notifications

variable {secret : Nat → String}

theorem config_set (s : NotificationStore) (tenantId : String) (config : NotificationConfig) :
    (s.effect (.set tenantId config)).config = Function.update s.config tenantId config := by
  funext tenant
  by_cases h : tenant = tenantId
  · subst h
    simp [NotificationStore.config, NotificationStore.effect]
  · simp [NotificationStore.config, NotificationStore.effect, Function.update_of_ne h,
      JsMap.get_set_of_ne _ _ h]

theorem notifications_stores :
    notificationUpdates.Stores (notificationsCalls secret) NotificationStore.config where
  get {i c op x s s' r tenantId} haccess hset := by
    cases op with
    | set tenant config => cases haccess
    | get tenant =>
      cases haccess
      cases x with
      | resolves reply =>
        cases hset
        refine ⟨rfl, fun a ha => ?_⟩
        cases ha
        rfl
      | rejects e applied =>
        cases hset
        refine ⟨?_, fun a ha => nomatch ha⟩
        cases applied <;> rfl
  set {i c op x s s' r tenantId config} haccess hset := by
    cases op with
    | get tenant => cases haccess
    | set tenant config =>
      cases haccess
      cases x with
      | resolves reply =>
        cases hset
        refine ⟨Or.inr (config_set _ _ _), fun a ha => ?_⟩
        cases ha
        rfl
      | rejects e applied =>
        cases hset
        refine ⟨?_, fun a ha => nomatch ha⟩
        cases applied with
        | true => exact Or.inr (config_set _ _ _)
        | false => exact Or.inl ⟨rfl, e, rfl⟩
  act := rfl
  env {e s s'} := nomatch e

theorem notifications_conforms (c : NotificationsCall) :
    notificationUpdates.typestate.Conforms c.code (c, .fresh)
      notificationUpdates.typestate.done := by
  cases c with
  | getConfig tenantId =>
    apply Typestate.conforms_perform.mpr
    refine ⟨rfl, fun r => ?_⟩
    cases r with
    | ok config => exact Or.inr ⟨id, rfl⟩
    | error e => trivial
  | setConfig tenantId patch =>
    refine Typestate.Conforms.perform_bind rfl (fun current => ?_) fun e => trivial
    have hset : ∀ merged, notificationUpdates.merges (.setConfig tenantId patch) current merged →
        notificationUpdates.typestate.Conforms
          (Async.perform (S := notificationSig) (.set tenantId merged))
          (.setConfig tenantId patch, .held current) notificationUpdates.typestate.done := by
      intro merged hmerged
      apply Typestate.conforms_perform.mpr
      refine ⟨⟨trivial, _, rfl, hmerged⟩, fun r => ?_⟩
      cases r with
      | ok config => exact Or.inl ⟨trivial, rfl⟩
      | error e => trivial
    unfold NotificationsService.withSecret
    by_cases hneeds : (patch.apply current).NeedsSecret
    -- A secret is drawn before the merged value is written.
    · rw [if_pos hneeds]
      refine ⟨trivial, fun secret => hset _ ?_⟩
      simp only [notificationUpdates, if_pos hneeds]
      exact ⟨secret, rfl⟩
    · rw [if_neg hneeds]
      refine hset _ ?_
      simp only [notificationUpdates, if_neg hneeds]

/-- What a call stores has the fields that its patch sets. -/
theorem within_of_merges {tenantId : String} {patch : NotificationConfigPatch}
    {c merged : NotificationConfig}
    (h : notificationUpdates.merges (.setConfig tenantId patch) c merged) :
    patch.Within merged ∧ ∀ other : NotificationConfigPatch, other.Within c →
      patch.Disjoint other → other.Within merged := by
  have hfields : ∀ (p : NotificationConfigPatch) (d : NotificationConfig) (secret : String),
      p.Within d → p.Within { d with webhookSecret := secret } :=
    fun p d secret h => ⟨h.webhookUrls, h.emailRecipients, h.types⟩
  simp only [notificationUpdates] at h
  split at h
  · obtain ⟨secret, rfl⟩ := h
    exact ⟨hfields _ _ _ (patch.within_apply c), fun other hother hdisjoint =>
      hfields _ _ _ (hother.apply hdisjoint)⟩
  · subst h
    exact ⟨patch.within_apply c, fun other hother hdisjoint => hother.apply hdisjoint⟩

/-- A secret stays what it is. -/
theorem secret_of_later {tenantId : String} {c c' : NotificationConfig}
    (h : notificationUpdates.Later tenantId c c') (hsecret : c.webhookSecret ≠ "") :
    c'.webhookSecret = c.webhookSecret := by
  induction h with
  | refl => rfl
  | @tail c₁ c₂ _ hstep ih =>
    obtain ⟨call, -, hmerge⟩ := hstep
    cases call with
    | getConfig tenantId => exact hmerge.elim
    | setConfig tenantId patch =>
      have hkept : (patch.apply c₁).webhookSecret = c.webhookSecret := ih
      have hneeds : ¬ (patch.apply c₁).NeedsSecret := by
        rintro ⟨-, hempty⟩
        exact hsecret (hkept.symm.trans hempty)
      simp only [notificationUpdates, if_neg hneeds] at hmerge
      rw [hmerge, hkept]

end Notifications

/-! ## No update is lost -/

section Runs

variable {D : ApiDeployment} {s₀ : Store} {es : List (Event AlertsCall Outcome EnvMove Nat)}
  {h : History apiSig AlertsCall AlertConfig Store Nat} {secret : Nat → String}
  {s₁ : NotificationStore} {es' : List (Event NotificationsCall Outcome Empty Nat)}
  {h' : History notificationSig NotificationsCall NotificationConfig NotificationStore Nat}

/-- **Updates are kept.** However many calls are interleaved: if no `setConfig` call writes while
another one for its tenant has read the configuration and is still to write it, then the
configuration contains the patch of each call that has returned, where the other patches for the
tenant set other fields; and a secret that was returned is the one that is stored. -/
theorem updates_kept
    (halerts : Run (alertsCalls D).follow alertUpdates.Apart (History.start s₀) es h)
    (hnotifications :
      Run (notificationsCalls secret).follow notificationUpdates.Apart (History.start s₁) es' h') :
    (∀ i tenantId patch c, (i, .setConfig tenantId patch, .ok c) ∈ h.ended →
      (∀ j other, .start j (.setConfig tenantId other) ∈ es → other ≠ patch →
        other.Disjoint patch) →
      patch.Within (h.config.shared.alertConfig tenantId)) ∧
    (∀ i tenantId patch c, (i, .setConfig tenantId patch, .ok c) ∈ h'.ended →
      (∀ j other, .start j (.setConfig tenantId other) ∈ es' → other ≠ patch →
        other.Disjoint patch) →
      patch.Within (h'.config.shared.config tenantId)) ∧
    ∀ i call c, (i, call, .ok c) ∈ h'.ended → c.webhookUrls ≠ [] → c.webhookSecret ≠ "" →
      (h'.config.shared.config call.tenantId).webhookSecret = c.webhookSecret := by
  refine ⟨fun i tenantId patch c hended hothers => ?_,
    fun i tenantId patch c hended hothers => ?_, fun i call c hended _ hsecret => ?_⟩
  · refine Updates.merged_of_ended alerts_stores alerts_conforms halerts hended trivial
      (fun _ c => patch.Within c) ?_ fun j call hj hkey hne => ?_
    · rintro c merged rfl
      exact patch.within_apply c
    · cases call with
      | getConfig tenant => exact fun hmerge => hmerge.elim
      | setConfig tenant other =>
        obtain rfl : tenant = tenantId := hkey
        -- a later update of other fields leaves these fields as the merge set them
        have hdisjoint : other.Disjoint patch := hothers j other hj fun heq => hne (heq ▸ rfl)
        rintro c merged rfl hwithin
        exact hwithin.apply hdisjoint
  · refine Updates.merged_of_ended notifications_stores notifications_conforms hnotifications
      hended trivial (fun _ c => patch.Within c) ?_ fun j call hj hkey hne => ?_
    · intro c merged hmerge
      exact (within_of_merges hmerge).1
    · cases call with
      | getConfig tenant => exact fun hmerge => hmerge.elim
      | setConfig tenant other =>
        obtain rfl : tenant = tenantId := hkey
        have hdisjoint : other.Disjoint patch := hothers j other hj fun heq => hne (heq ▸ rfl)
        intro c merged hmerge hwithin
        exact (within_of_merges hmerge).2 patch hwithin hdisjoint
  · have hlater := Updates.later_of_ended notifications_stores notifications_conforms
      hnotifications hended
    exact secret_of_later hlater hsecret

end Runs

/-- The call whose request takes effect is the only one. -/
def Alone {S : Sig} {κ ρ σ χ η : Type} (h : History S κ ρ σ Nat) : Event κ χ η Nat → Prop
  | .settle i _ => h.config.threads.keys = [i]
  | _ => True

instance {S : Sig} {κ ρ σ χ η : Type} (h : History S κ ρ σ Nat) (e : Event κ χ η Nat) :
    Decidable (Alone h e) := by
  cases e with
  | settle i x => exact inferInstanceAs (Decidable (_ = _))
  | start i c => exact inferInstanceAs (Decidable True)
  | resume i => exact inferInstanceAs (Decidable True)
  | env e => exact inferInstanceAs (Decidable True)

theorem apart_of_alone {S : Sig} {κ ρ σ χ η K V : Type} {U : Updates S κ ρ K V}
    (h : History S κ ρ σ Nat) (e : Event κ χ η Nat) (halone : Alone h e) : U.Apart h e := by
  cases e with
  | settle i x =>
    intro th k w _ _ j c p v hji hj
    have hnone : h.config.threads.lookup j = none := by
      apply AList.lookup_eq_none.mpr
      rw [AList.mem_keys, show h.config.threads.keys = [i] from halone]
      simpa using hji
    simp [Typestate.phases, hnone] at hj
  | start i c => trivial
  | resume i => trivial
  | env e => trivial

/-! ## Runs of two calls -/

/-- No alerts about the ignition. -/
def quiet : AlertConfigPatch := ⟨none, some false, none, none⟩

/-- Faster vehicles are fine. -/
def fast : AlertConfigPatch := ⟨some (some 120), none, none, none⟩

/-- Two calls that set different fields, one after the other or both at once. -/
def updating (overlap : Bool) : List (Event AlertsCall Outcome EnvMove Nat) :=
  if overlap then
    [.start 0 (.setConfig "acme" quiet), .start 1 (.setConfig "acme" fast),
      .settle 0 (.resolves ""), .settle 1 (.resolves ""), .resume 0, .resume 1,
      .settle 0 (.resolves ""), .settle 1 (.resolves ""), .resume 0, .resume 1]
  else
    [.start 0 (.setConfig "acme" quiet), .settle 0 (.resolves ""), .resume 0,
      .settle 0 (.resolves ""), .resume 0, .start 1 (.setConfig "acme" fast),
      .settle 1 (.resolves ""), .resume 1, .settle 1 (.resolves ""), .resume 1]

/-- The first webhook of a tenant. -/
def hook : NotificationConfigPatch := { webhookUrls := some ["https://acme.example/hook"] }

/-- It is configured once, or twice at once. -/
def hooking (twice : Bool) : List (Event NotificationsCall Outcome Empty Nat) :=
  if twice then
    [.start 0 (.setConfig "acme" hook), .start 1 (.setConfig "acme" hook),
      .settle 0 (.resolves ""), .settle 1 (.resolves ""), .resume 0, .resume 1,
      .settle 0 (.resolves ""), .resume 0, .settle 1 (.resolves ""), .resume 1]
  else
    [.start 0 (.setConfig "acme" hook), .settle 0 (.resolves ""), .resume 0,
      .settle 0 (.resolves ""), .resume 0]

/-- Secrets of one character, all different for a while. -/
def sampleSecret (n : Nat) : String := String.singleton (Char.ofNat (97 + n))

/-- One after the other, both patches are there, and the secret is the one that was returned. -/
theorem sample_updates_kept : ∃ h h' c c',
    Run (alertsCalls sampleApi).follow alertUpdates.Apart
      (History.start (Store.new (Backend.new Table.empty))) (updating false) h ∧
    Run (notificationsCalls sampleSecret).follow notificationUpdates.Apart
      (History.start ⟨JsMap.empty, 0⟩) (hooking false) h' ∧
    (0, .setConfig "acme" quiet, .ok c) ∈ h.ended ∧
    quiet.Within (h.config.shared.alertConfig "acme") ∧
    (0, .setConfig "acme" hook, .ok c') ∈ h'.ended ∧ c'.webhookSecret = "a" ∧
    (h'.config.shared.config "acme").webhookSecret = c'.webhookSecret := by
  have halerts : ∃ h, Run (alertsCalls sampleApi).follow Alone
      (History.start (Store.new (Backend.new Table.empty))) (updating false) h ∧
      ∃ c, (0, .setConfig "acme" quiet, .ok c) ∈ h.ended := by
    apply Run.exists_of_foldl
    exact ⟨_, rfl, _, List.mem_cons_self⟩
  have hnotifications : ∃ h', Run (notificationsCalls sampleSecret).follow Alone
      (History.start ⟨JsMap.empty, 0⟩) (hooking false) h' ∧
      ∃ c', (0, .setConfig "acme" hook, .ok c') ∈ h'.ended ∧ c'.webhookUrls ≠ [] ∧
        c'.webhookSecret = "a" := by
    apply Run.exists_of_foldl
    exact ⟨_, rfl, _, List.mem_cons_self, List.cons_ne_nil _ _, by decide⟩
  obtain ⟨h, hrun, c, hc⟩ := halerts
  obtain ⟨h', hrun', c', hc', hurls, hsecret⟩ := hnotifications
  have hkept := updates_kept (hrun.mono apart_of_alone) (hrun'.mono apart_of_alone)
  refine ⟨h, h', c, c', hrun.mono apart_of_alone, hrun'.mono apart_of_alone, hc,
    hkept.1 0 "acme" quiet c hc ?_, hc', hsecret, hkept.2.2 0 _ c' hc' hurls ?_⟩
  · intro j other hj hne
    -- the one other update of the run is to other fields
    have hcases : (Event.start j (.setConfig "acme" other) : Event AlertsCall Outcome EnvMove Nat) =
        .start 0 (.setConfig "acme" quiet) ∨
        (Event.start j (.setConfig "acme" other) : Event AlertsCall Outcome EnvMove Nat) =
        .start 1 (.setConfig "acme" fast) := by
      simpa [updating] using hj
    rcases hcases with heq | heq
    · injection heq with _ hcall
      injection hcall with _ hpatch
      exact absurd hpatch hne
    · injection heq with _ hcall
      injection hcall with _ hpatch
      rw [hpatch]
      exact ⟨Or.inr rfl, Or.inl rfl, Or.inl rfl, Or.inl rfl⟩
  · rw [hsecret]
    decide

/-- Both at once: one patch is gone, and a secret that was returned is not the one that is
stored. -/
theorem overlapping_update_lost :
    (∃ h c c', Run (alertsCalls sampleApi).follow (fun _ _ => True)
        (History.start (Store.new (Backend.new Table.empty))) (updating true) h ∧
      (0, .setConfig "acme" quiet, .ok c) ∈ h.ended ∧
      (1, .setConfig "acme" fast, .ok c') ∈ h.ended ∧ quiet.Disjoint fast ∧
      ¬ quiet.Within (h.config.shared.alertConfig "acme")) ∧
    ∃ h c, Run (notificationsCalls sampleSecret).follow (fun _ _ => True)
        (History.start ⟨JsMap.empty, 0⟩) (hooking true) h ∧
      (0, .setConfig "acme" hook, .ok c) ∈ h.ended ∧ c.webhookUrls ≠ [] ∧
      c.webhookSecret = "a" ∧ (h.config.shared.config "acme").webhookSecret = "b" := by
  constructor
  · have hrun : ∃ h, Run (alertsCalls sampleApi).follow (fun _ _ => True)
        (History.start (Store.new (Backend.new Table.empty))) (updating true) h ∧
        (∃ c, (0, .setConfig "acme" quiet, .ok c) ∈ h.ended) ∧
        (∃ c, (1, .setConfig "acme" fast, .ok c) ∈ h.ended) ∧
        (h.config.shared.alertConfig "acme").ignitionAlerts = true := by
      apply Run.exists_of_foldl
      exact ⟨_, rfl, ⟨_, List.mem_cons_self⟩,
        ⟨_, List.mem_cons_of_mem _ List.mem_cons_self⟩, rfl⟩
    obtain ⟨h, hrun, ⟨c, hc⟩, ⟨c', hc'⟩, hlost⟩ := hrun
    refine ⟨h, c, c', hrun, hc, hc', ⟨Or.inl rfl, Or.inr rfl, Or.inl rfl, Or.inl rfl⟩, ?_⟩
    intro hwithin
    have hset := hwithin.ignitionAlerts false rfl
    rw [hlost] at hset
    cases hset
  · have hrun : ∃ h, Run (notificationsCalls sampleSecret).follow (fun _ _ => True)
        (History.start ⟨JsMap.empty, 0⟩) (hooking true) h ∧
        (∃ c, (0, .setConfig "acme" hook, .ok c) ∈ h.ended ∧ c.webhookUrls ≠ [] ∧
          c.webhookSecret = "a") ∧
        (h.config.shared.config "acme").webhookSecret = "b" := by
      apply Run.exists_of_foldl
      exact ⟨_, rfl, ⟨_, List.mem_cons_self, List.cons_ne_nil _ _, by decide⟩, by decide⟩
    obtain ⟨h, hrun, ⟨c, hc, hurls, hsecret⟩, hstored⟩ := hrun
    exact ⟨h, c, hrun, hc, hurls, hsecret, hstored⟩

end FleetTracking.ControlPlane
