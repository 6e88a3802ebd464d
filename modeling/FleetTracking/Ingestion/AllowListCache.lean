import FleetTracking.Lib.JsMap
import FleetTracking.Lib.Transition
import FleetTracking.Lib.Typestate
import Mathlib.Data.Finset.Basic

/-!
# The Allow-List Cache of the Ingestion

`RedisAllowList` answers whether a device may log in from the Redis set that the control plane
publishes, and keeps each answer for a while. The time an answer is kept counts from the start of
the call that has asked; the read takes effect at any later instant, and calls overlap.

1. `RedisAllowList.isAllowed`, and the system of its calls.
2. `Witnessed`: an answer is the membership at some instant of the run.
3. `isAllowed_recent`: how old the instant may be.
-/

namespace FleetTracking.Ingestion

open Async Transition

namespace RedisAllowList

/-- A cached answer. -/
structure CacheEntry where
  allowed : Bool
  exp : Nat

inductive Op where
  | sismember (member : String)

inductive Act where
  | now
  | cacheGet (imei : String)
  | cacheSet (imei : String) (entry : CacheEntry)

@[reducible] def Act.Ret : Act → Type
  | .now => Nat
  | .cacheGet _ => Option CacheEntry
  | .cacheSet _ _ => Unit

/-- What the class awaits and does; a rejected read has a message. -/
abbrev sig : Sig := ⟨Op, fun _ => Nat, Act, Act.Ret, String⟩

/-- What follows the read of the set. -/
def remember (cacheTtlMs : Nat) (imei : String) (t reply : Nat) : Async sig Bool := do
  let allowed : Bool := reply = 1
  let _ ← Async.action (S := sig) (.cacheSet imei ⟨allowed, t + cacheTtlMs⟩)
  pure allowed

/-- `isAllowed`. -/
def isAllowed (cacheTtlMs : Nat) (imei : String) : Async sig Bool := do
  let t ← Async.action (S := sig) .now
  let hit ← Async.action (S := sig) (.cacheGet imei)
  match hit.filter fun hit => t < hit.exp with
  | some hit => pure hit.allowed
  | none => do
    let reply ← Async.perform (S := sig) (.sismember imei)
    remember cacheTtlMs imei t reply

/-! ## Its calls -/

/-- The clock, the Redis set, and the cache. -/
structure Shared where
  now : Nat
  members : Finset String
  cache : JsMap String CacheEntry

inductive Outcome where
  | resolves
  | rejects (message : String)

inductive Move where
  -- Time passes.
  | elapse (ms : Nat)
  -- The control plane changes the set.
  | publish (members : Finset String)

/-- `SISMEMBER`. -/
def Shared.sismember (s : Shared) (member : String) : Nat := if member ∈ s.members then 1 else 0

/-- The calls of `isAllowed`, interleaved with the changes of the set. -/
def calls (cacheTtlMs : Nat) : System sig Nat String Bool Shared Outcome Move where
  settle
    | _, _, .sismember member, .resolves, s => some (s, .ok (s.sismember member))
    | _, _, _, .rejects message, s => some (s, .error message)
  act
    | _, _, .now, s => (s, s.now)
    | _, _, .cacheGet imei, s => (s, s.cache.get imei)
    | _, _, .cacheSet imei entry, s => ({ s with cache := s.cache.set imei entry }, ())
  code := isAllowed cacheTtlMs
  env
    | .elapse ms, s => some { s with now := s.now + ms }
    | .publish members, s => some { s with members }

/-- The state of the calls. -/
abbrev Calls := Config sig String Bool Shared Nat

abbrev CallEvent := Event String Outcome Move Nat

/-! ## Instants of a run -/

section Instants

variable {cacheTtlMs : Nat} {s₀ : Shared} {es es' : List CallEvent} {e : CallEvent}
  {cfg cfg' : Calls} {i : Nat} {imei : String} {allowed : Bool}
  {p q : List CallEvent → Calls → Prop}

/-- A run of the calls. -/
abbrev Reaches (cacheTtlMs : Nat) (s₀ : Shared) (es : List CallEvent) (cfg : Calls) : Prop :=
  Run (calls cacheTtlMs).step (fun _ _ => True) (Config.start s₀) es cfg

/-- The answer is the membership at an instant of the run with the property `p`. -/
def Witnessed (cacheTtlMs : Nat) (s₀ : Shared) (es : List CallEvent) (imei : String)
    (allowed : Bool) (p : List CallEvent → Calls → Prop) : Prop :=
  ∃ es₁ cfg₁, es₁ <+: es ∧ Reaches cacheTtlMs s₀ es₁ cfg₁ ∧
    allowed = decide (imei ∈ cfg₁.shared.members) ∧ p es₁ cfg₁

/-- The last call with the number `i` was started after `before`, in the state `cfg`. -/
structure Started (cacheTtlMs : Nat) (s₀ : Shared) (es : List CallEvent) (i : Nat) (imei : String)
    (before : List CallEvent) (cfg : Calls) : Prop where
  reached : Reaches cacheTtlMs s₀ before cfg
  since : ∃ after, es = before ++ .start i imei :: after ∧ ∀ imei', .start i imei' ∉ after

theorem Witnessed.mono (h : Witnessed cacheTtlMs s₀ es imei allowed p) (hes : es <+: es')
    (hp : ∀ es₁ cfg₁, p es₁ cfg₁ → q es₁ cfg₁) : Witnessed cacheTtlMs s₀ es' imei allowed q := by
  obtain ⟨es₁, cfg₁, hprefix, hreach, hallowed, hp₁⟩ := h
  exact ⟨es₁, cfg₁, hprefix.trans hes, hreach, hallowed, hp _ _ hp₁⟩

/-- The instant that the run has reached. -/
theorem Reaches.witnessed (h : Reaches cacheTtlMs s₀ es cfg) (hp : p es cfg) :
    Witnessed cacheTtlMs s₀ es imei (decide (imei ∈ cfg.shared.members)) p :=
  ⟨es, cfg, List.prefix_rfl, h, rfl, hp⟩

theorem Started.snoc {before : List CallEvent} (h : Started cacheTtlMs s₀ es i imei before cfg)
    (he : ∀ imei', e ≠ .start i imei') : Started cacheTtlMs s₀ (es ++ [e]) i imei before cfg := by
  obtain ⟨hreach, after, rfl, hnone⟩ := h
  refine ⟨hreach, after ++ [e], by simp, fun imei' hmem => ?_⟩
  rcases List.mem_append.mp hmem with hmem | hmem
  · exact hnone imei' hmem
  · exact he imei' (List.mem_singleton.mp hmem).symm

theorem Started.lt_length {before : List CallEvent}
    (h : Started cacheTtlMs s₀ es i imei before cfg) : before.length < es.length := by
  obtain ⟨-, after, rfl, -⟩ := h
  simp

end Instants

/-! ## How old an answer is -/

section Recent

variable {cacheTtlMs : Nat} {s₀ : Shared} {es : List CallEvent} {e : CallEvent}
  {cfg cfg' : Calls} {i : Nat} {imei : String} {th : Thread sig String Bool}

/-- What is left of a call that awaits the read. -/
def rest (cacheTtlMs : Nat) (imei : String) (t : Nat) : Except String Nat → Async sig Bool
  | .ok reply => remember cacheTtlMs imei t reply
  | .error message => .throw message

/-- The read, with what follows it. -/
theorem sismember_bind (t : Nat) :
    (Async.perform (S := sig) (.sismember imei) >>= remember cacheTtlMs imei t) =
      .await (.sismember imei) (rest cacheTtlMs imei t) := by
  refine congrArg (Async.await (S := sig) _) (funext fun r => ?_)
  cases r with
  | ok reply => rfl
  | error message => rfl

/-- A call up to its read. -/
theorem advance_isAllowed (s : Shared) :
    (calls cacheTtlMs).advance i imei (isAllowed cacheTtlMs imei) [] s =
      (s, [.did .now s.now, .did (.cacheGet imei) (s.cache.get imei)],
        match (s.cache.get imei).filter fun hit => s.now < hit.exp with
        | some hit => .finished (.ok hit.allowed)
        | none => .awaiting (.sismember imei) (rest cacheTtlMs imei s.now)) := by
  have hadvance : (calls cacheTtlMs).advance i imei (isAllowed cacheTtlMs imei) [] s =
      (calls cacheTtlMs).advance i imei
        (match (s.cache.get imei).filter fun hit => s.now < hit.exp with
          | some hit => pure hit.allowed
          | none => Async.perform (S := sig) (.sismember imei) >>= remember cacheTtlMs imei s.now)
        [.did .now s.now, .did (.cacheGet imei) (s.cache.get imei)] s := rfl
  rw [hadvance]
  cases (s.cache.get imei).filter fun hit => s.now < hit.exp with
  | some hit => rfl
  | none =>
    simp only
    rw [sismember_bind]
    rfl

/-- A cached answer was right at an instant after which it is not kept for longer than
`cacheTtlMs`. -/
def CacheInv (cacheTtlMs : Nat) (s₀ : Shared) (es : List CallEvent) (s : Shared) : Prop :=
  ∀ imei entry, s.cache.get imei = some entry →
    Witnessed cacheTtlMs s₀ es imei entry.allowed fun _ cfg₁ =>
      entry.exp ≤ cfg₁.shared.now + cacheTtlMs

/-- The instant comes after the start of the call. -/
def Since (before : List CallEvent) (cfg₀ : Calls) (es₁ : List CallEvent) (cfg₁ : Calls) : Prop :=
  before.length < es₁.length ∧ cfg₀.shared.now ≤ cfg₁.shared.now

/-- A call in progress has not read yet, or it has read the membership at an instant since its
start. -/
structure Waiting (cacheTtlMs : Nat) (s₀ : Shared) (es : List CallEvent) (s : Shared) (i : Nat)
    (imei : String) (reply : Option (Except String Nat)) (before : List CallEvent)
    (cfg₀ : Calls) : Prop where
  started : Started cacheTtlMs s₀ es i imei before cfg₀
  now : cfg₀.shared.now ≤ s.now
  read : ∀ n, reply = some (.ok n) →
    Witnessed cacheTtlMs s₀ es imei (decide (n = 1)) (Since before cfg₀)

/-- The calls in progress. -/
def ThreadsInv (cacheTtlMs : Nat) (s₀ : Shared) (es : List CallEvent) (cfg : Calls) : Prop :=
  ∀ i th, cfg.threads.lookup i = some th → ∃ imei past reply before cfg₀,
    th = ⟨imei, past, .sismember imei, rest cacheTtlMs imei cfg₀.shared.now, reply⟩ ∧
      Waiting cacheTtlMs s₀ es cfg.shared i imei reply before cfg₀

/-- What holds all along a run. -/
structure Inv (cacheTtlMs : Nat) (s₀ : Shared) (es : List CallEvent) (cfg : Calls) : Prop where
  reached : Reaches cacheTtlMs s₀ es cfg
  cache : CacheInv cacheTtlMs s₀ es cfg.shared
  threads : ThreadsInv cacheTtlMs s₀ es cfg

theorem CacheInv.snoc {s : Shared} (h : CacheInv cacheTtlMs s₀ es s) :
    CacheInv cacheTtlMs s₀ (es ++ [e]) s := fun imei entry hget =>
  (h imei entry hget).mono (List.prefix_append _ _) fun _ _ h => h

theorem Waiting.snoc {s s' : Shared} {reply : Option (Except String Nat)}
    {before : List CallEvent} {cfg₀ : Calls}
    (h : Waiting cacheTtlMs s₀ es s i imei reply before cfg₀)
    (he : ∀ imei', e ≠ .start i imei') (hnow : s.now ≤ s'.now) :
    Waiting cacheTtlMs s₀ (es ++ [e]) s' i imei reply before cfg₀ where
  started := h.started.snoc he
  now := h.now.trans hnow
  read n hn := (h.read n hn).mono (List.prefix_append _ _) fun _ _ h => h

theorem ThreadsInv.snoc {threads : AList fun _ : Nat => Thread sig String Bool} {s s' : Shared}
    (h : ThreadsInv cacheTtlMs s₀ es ⟨s, threads⟩) (he : ∀ i imei', e ≠ .start i imei')
    (hnow : s.now ≤ s'.now) : ThreadsInv cacheTtlMs s₀ (es ++ [e]) ⟨s', threads⟩ := by
  intro i th hi
  obtain ⟨imei, past, reply, before, cfg₀, hth, hwaiting⟩ := h i th hi
  exact ⟨imei, past, reply, before, cfg₀, hth, hwaiting.snoc (he i) hnow⟩

/-- What a call that goes on after its read does. -/
theorem run_rest (t : Nat) (r : Except String Nat) (past : List (Seen sig)) :
    ((calls cacheTtlMs).run i imei (rest cacheTtlMs imei t r) past cfg).shared =
        (match r with
          | .ok n => { cfg.shared with
              cache := cfg.shared.cache.set imei ⟨decide (n = 1), t + cacheTtlMs⟩ }
          | .error _ => cfg.shared) ∧
      ((calls cacheTtlMs).run i imei (rest cacheTtlMs imei t r) past cfg).threads =
        cfg.threads.erase i := by
  cases r with
  | ok n => exact ⟨rfl, rfl⟩
  | error message => exact ⟨rfl, rfl⟩

/-- A call starts: it ends at once with a cached answer, or it awaits the read. -/
theorem Inv.start (h : Inv cacheTtlMs s₀ es cfg)
    (hs : (calls cacheTtlMs).step cfg (.start i imei) = some cfg') :
    cfg'.shared = cfg.shared ∧ ThreadsInv cacheTtlMs s₀ (es ++ [.start i imei]) cfg' := by
  have hstarted : Started cacheTtlMs s₀ (es ++ [.start i imei]) i imei es cfg :=
    ⟨h.reached, [], rfl, fun _ => List.not_mem_nil⟩
  -- the calls that wait already are still the same calls
  have hothers : ∀ j th, j ≠ i → cfg.threads.lookup j = some th →
      ∃ imei' past reply before cfg₀,
        th = ⟨imei', past, .sismember imei', rest cacheTtlMs imei' cfg₀.shared.now, reply⟩ ∧
          Waiting cacheTtlMs s₀ (es ++ [.start i imei]) cfg.shared j imei' reply before cfg₀ := by
    intro j th hji hj
    obtain ⟨imei', past, reply, before, cfg₀, hth, hwaiting⟩ := h.threads j th hj
    refine ⟨imei', past, reply, before, cfg₀, hth, hwaiting.snoc (fun _ he => ?_) (Nat.le_refl _)⟩
    injection he with hij
    exact hji hij.symm
  simp only [System.step] at hs
  split at hs
  case h_2 => cases hs
  case h_1 =>
    cases hs
    simp only [System.run]
    rw [show (calls cacheTtlMs).code imei = isAllowed cacheTtlMs imei from rfl, advance_isAllowed]
    cases hhit : (cfg.shared.cache.get imei).filter fun hit => cfg.shared.now < hit.exp with
    | some hit =>
      refine ⟨rfl, fun j th hj => ?_⟩
      have hji : j ≠ i := by
        rintro rfl
        simp at hj
      rw [AList.lookup_erase_ne hji] at hj
      exact hothers j th hji hj
    | none =>
      refine ⟨rfl, fun j th hj => ?_⟩
      rcases lookup_insert_iff.mp hj with ⟨rfl, rfl⟩ | ⟨hji, hj⟩
      · exact ⟨imei, _, none, es, cfg, rfl, hstarted, Nat.le_refl _, fun _ hn => (by cases hn)⟩
      · exact hothers j th hji hj

/-- The read takes effect: its answer is the membership now. -/
theorem Inv.settle {x : Outcome} (h : Inv cacheTtlMs s₀ es cfg)
    (hs : (calls cacheTtlMs).step cfg (.settle i x) = some cfg') :
    cfg'.shared = cfg.shared ∧ ThreadsInv cacheTtlMs s₀ (es ++ [.settle i x]) cfg' := by
  have hold := h.threads.snoc (e := .settle i x) (fun _ _ he => by cases he) (Nat.le_refl _)
  simp only [System.step] at hs
  split at hs
  case h_2 => cases hs
  case h_1 imei past op k hi =>
    obtain ⟨_, past', reply, before, cfg₀, hth, hwaiting⟩ := h.threads i _ hi
    cases hth
    have hnew : ∀ r, (∀ n, r = .ok n → n = cfg.shared.sismember imei) →
        ThreadsInv cacheTtlMs s₀ (es ++ [.settle i x]) ⟨cfg.shared, cfg.threads.insert i ⟨imei,
          past ++ [.answered (.sismember imei) r], .sismember imei,
          rest cacheTtlMs imei cfg₀.shared.now, some r⟩⟩ := by
      intro r hr j th hj
      rcases lookup_insert_iff.mp hj with ⟨rfl, rfl⟩ | ⟨-, hj⟩
      · refine ⟨imei, _, some r, before, cfg₀, rfl, ?_, hwaiting.now, fun n hn => ?_⟩
        · exact hwaiting.started.snoc fun _ he => by cases he
        · obtain rfl := hr n (Option.some.inj hn)
          -- SISMEMBER answers 1 for a member and 0 for any other
          have hmember : decide (cfg.shared.sismember imei = 1) =
              decide (imei ∈ cfg.shared.members) := by
            unfold Shared.sismember
            split <;> simp [*]
          rw [hmember]
          exact (h.reached.witnessed ⟨hwaiting.started.lt_length, hwaiting.now⟩).mono
            (List.prefix_append _ _) fun _ _ h => h
      · exact hold j th hj
    cases x with
    | resolves =>
      cases hs
      exact ⟨rfl, hnew _ fun n hn => (Except.ok.inj hn).symm⟩
    | rejects message =>
      cases hs
      exact ⟨rfl, hnew _ fun n hn => (by cases hn)⟩

/-- A call that was started at this time has the answer, which is cached. -/
theorem Inv.resume (h : Inv cacheTtlMs s₀ es cfg)
    (hs : (calls cacheTtlMs).step cfg (.resume i) = some cfg') :
    CacheInv cacheTtlMs s₀ (es ++ [.resume i]) cfg'.shared ∧
      ThreadsInv cacheTtlMs s₀ (es ++ [.resume i]) cfg' := by
  have hold := h.threads.snoc (e := .resume i) (fun _ _ he => nomatch he) (Nat.le_refl _)
  simp only [System.step] at hs
  split at hs
  case h_2 => cases hs
  case h_1 imei past op k r hi =>
    cases hs
    obtain ⟨_, past', reply, before, cfg₀, hth, hwaiting⟩ := h.threads i _ hi
    cases hth
    obtain ⟨hshared, hthreads⟩ := @run_rest cacheTtlMs cfg i imei cfg₀.shared.now r past
    -- filling the cache takes no time
    have hnow : ((calls cacheTtlMs).run i imei (rest cacheTtlMs imei cfg₀.shared.now r) past
        cfg).shared.now = cfg.shared.now := by
      rw [hshared]
      split <;> rfl
    refine ⟨?_, fun j th hj => ?_⟩
    · rw [hshared]
      cases r with
      | error message => exact h.cache.snoc
      | ok n =>
        intro imei' entry hget
        -- the new entry carries the time the call has started with, and is read later
        by_cases heq : imei' = imei
        · subst heq
          rw [JsMap.get_set_self] at hget
          cases hget
          exact (hwaiting.read n rfl).mono (List.prefix_append _ _) fun _ _ hsince =>
            Nat.add_le_add_right hsince.2 _
        · rw [JsMap.get_set_of_ne _ _ heq] at hget
          exact h.cache.snoc imei' entry hget
    · rw [hthreads] at hj
      have hji : j ≠ i := by
        rintro rfl
        simp at hj
      rw [AList.lookup_erase_ne hji] at hj
      obtain ⟨imei', past', reply', before', cfg', hth, hwaiting'⟩ := hold j th hj
      exact ⟨imei', past', reply', before', cfg', hth, hwaiting'.started, by
        rw [hnow]
        exact hwaiting'.now, hwaiting'.read⟩

theorem Inv.step (h : Inv cacheTtlMs s₀ es cfg) (hs : (calls cacheTtlMs).step cfg e = some cfg') :
    Inv cacheTtlMs s₀ (es ++ [e]) cfg' := by
  have hreached : Reaches cacheTtlMs s₀ (es ++ [e]) cfg' := h.reached.snoc trivial hs
  cases e with
  | start i imei =>
    obtain ⟨hshared, hthreads⟩ := h.start hs
    exact ⟨hreached, hshared ▸ h.cache.snoc, hthreads⟩
  | settle i x =>
    obtain ⟨hshared, hthreads⟩ := h.settle hs
    exact ⟨hreached, hshared ▸ h.cache.snoc, hthreads⟩
  | resume i =>
    obtain ⟨hcache, hthreads⟩ := h.resume hs
    exact ⟨hreached, hcache, hthreads⟩
  | env move =>
    cases move with
    | elapse ms =>
      cases hs
      exact ⟨hreached, h.cache.snoc,
        h.threads.snoc (fun _ _ he => nomatch he) (Nat.le_add_right _ _)⟩
    | publish members =>
      cases hs
      exact ⟨hreached, h.cache.snoc, h.threads.snoc (fun _ _ he => nomatch he) (Nat.le_refl _)⟩

theorem Reaches.inv (hcold : s₀.cache = JsMap.empty) (h : Reaches cacheTtlMs s₀ es cfg) :
    Inv cacheTtlMs s₀ es cfg := by
  induction h with
  | nil =>
    refine ⟨.nil, fun imei entry hget => ?_, fun i th hi => ?_⟩
    · simp [Config.start, hcold] at hget
    · simp [Config.start] at hi
  | snoc _ _ hs ih => exact ih.step hs

/-- **An answer is recent.** However the calls are interleaved with each other, with the passing of
time and with the changes of the set: the answer of a call is the membership of the IMEI at an
instant of the run up to its end, which comes after the start of the call, or is less than
`cacheTtlMs` older than its start. -/
theorem isAllowed_recent (hcold : s₀.cache = JsMap.empty) (hrun : Reaches cacheTtlMs s₀ es cfg)
    (hs : (calls cacheTtlMs).step cfg e = some cfg') {allowed : Bool}
    (hends : (calls cacheTtlMs).ends cfg e = some (i, imei, .ok allowed)) :
    ∃ before cfg₀, Started cacheTtlMs s₀ (es ++ [e]) i imei before cfg₀ ∧
      Witnessed cacheTtlMs s₀ (es ++ [e]) imei allowed fun es₁ cfg₁ =>
        Since before cfg₀ es₁ cfg₁ ∨ cfg₀.shared.now < cfg₁.shared.now + cacheTtlMs := by
  have hinv := hrun.inv hcold
  cases e with
  | start j imei =>
    simp only [System.ends] at hends
    split at hends
    case h_2 => cases hends
    case h_1 =>
      rw [show (calls cacheTtlMs).code imei = isAllowed cacheTtlMs imei from rfl,
        advance_isAllowed] at hends
      -- a call that ends where it starts has answered from the cache
      cases hhit : (cfg.shared.cache.get imei).filter fun hit => cfg.shared.now < hit.exp with
      | none =>
        rw [hhit] at hends
        cases hends
      | some hit =>
        rw [hhit] at hends
        cases hends
        obtain ⟨hget, hlive⟩ := Option.filter_eq_some_iff.mp hhit
        rw [decide_eq_true_eq] at hlive
        refine ⟨es, cfg, ⟨hrun, [], rfl, fun _ => List.not_mem_nil⟩, ?_⟩
        exact (hinv.cache imei hit hget).mono (List.prefix_append _ _) fun _ _ hexp =>
          Or.inr (hlive.trans_le hexp)
  | resume j =>
    simp only [System.ends] at hends
    split at hends
    case h_2 => cases hends
    case h_1 imei past op k r hi =>
      -- any other ends when the answer of its own read comes back
      obtain ⟨_, past', reply, before, cfg₀, hth, hwaiting⟩ := hinv.threads j _ hi
      cases hth
      cases r with
      | error message => cases hends
      | ok n =>
        cases hends
        refine ⟨before, cfg₀, hwaiting.started.snoc (fun _ he => by cases he), ?_⟩
        exact (hwaiting.read n rfl).mono (List.prefix_append _ _) fun _ _ hsince => Or.inl hsince
  | settle j x => cases hends
  | env move => cases hends

/-- A device is refused, provisioned, and asks again just before the refusal expires. -/
def provisionedLater : List CallEvent :=
  [.start 0 "356307042441013", .settle 0 .resolves, .resume 0,
    .env (.publish {"356307042441013"}), .env (.elapse 29999)]

/-- It is refused again. -/
theorem sample_isAllowed_recent : ∃ cfg cfg',
    Reaches 30000 ⟨0, ∅, JsMap.empty⟩ provisionedLater cfg ∧
    (calls 30000).step cfg (.start 1 "356307042441013") = some cfg' ∧
    (calls 30000).ends cfg (.start 1 "356307042441013") =
      some (1, "356307042441013", .ok false) ∧
    ∃ before cfg₀, Started 30000 ⟨0, ∅, JsMap.empty⟩
      (provisionedLater ++ [.start 1 "356307042441013"]) 1 "356307042441013" before cfg₀ ∧
      Witnessed 30000 ⟨0, ∅, JsMap.empty⟩ (provisionedLater ++ [.start 1 "356307042441013"])
        "356307042441013" false fun es₁ cfg₁ =>
          Since before cfg₀ es₁ cfg₁ ∨ cfg₀.shared.now < cfg₁.shared.now + 30000 := by
  have hrun : ∃ cfg, Reaches 30000 ⟨0, ∅, JsMap.empty⟩ provisionedLater cfg ∧
      (∃ cfg', (calls 30000).step cfg (.start 1 "356307042441013") = some cfg') ∧
      (calls 30000).ends cfg (.start 1 "356307042441013") =
        some (1, "356307042441013", .ok false) := by
    apply Run.exists_of_foldl
    exact ⟨_, rfl, ⟨_, rfl⟩, rfl⟩
  obtain ⟨cfg, hreach, ⟨cfg', hs⟩, hends⟩ := hrun
  exact ⟨cfg, cfg', hreach, hs, hends, isAllowed_recent rfl hreach hs hends⟩

end Recent

end RedisAllowList

end FleetTracking.Ingestion
