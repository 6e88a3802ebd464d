import FleetTracking.Ingestion.AvlMap
import Mathlib.Data.List.DropRight

/-!
# Idempotency: Dedupe Keys and Dedupers

1. `dedupeKey` identifies a record; the digest is a parameter.
2. `InMemoryDeduper` and `RedisDeduper` are the two implementations, as functions of the
   clock and, for Redis, of what happens to the request.
3. `Deduper` is what the handlers rely on: a key is reported as a duplicate only while it
   is held, and a call holds on to no key but its own. Both implementations provide it.
-/

namespace FleetTracking.Ingestion

open FleetTracking.Protocol

/-- `String(n / 1e7)` for an integer of at most 32 bits: such a quotient is printed as the
exact decimal, in exponent form below 1e-6. -/
def degreesText (n : Int) : String :=
  let a := n.natAbs
  let sign := if n < 0 then "-" else ""
  let whole := a / 10000000
  let frac := (JsDate.padded 7 (a % 10000000)).toList.rdropWhile (· = '0')
  if a = 0 then "0"
  else if a < 10 then sign ++ toString a ++ "e-7"
  else if frac.isEmpty then sign ++ toString whole
  else sign ++ toString whole ++ "." ++ String.ofList frac

/-- The IO values in the order of `Object.entries(values).sort()`, which compares the
texts `id,value`. -/
def sortedValues (values : JsRecord Nat) : List (Nat × Nat) :=
  values.entries.mergeSort fun a b =>
    decide (toString a.1 ++ "," ++ toString a.2 ≤ toString b.1 ++ "," ++ toString b.2)

/-- What is fed to the hash, piece after piece. -/
def dedupeText (imei : String) (rec : AvlRecord) : String :=
  imei ++ rec.timestamp.timeText ++ toString rec.priority ++
    (degreesText rec.gps.latitude ++ "," ++ degreesText rec.gps.longitude ++ "," ++
      toString rec.gps.speed ++ "," ++ toString rec.gps.angle) ++
    toString rec.io.eventId ++
    String.join ((sortedValues rec.io.values).map fun e => toString e.1 ++ "=" ++ toString e.2)

/-- The key of a record. `sha1` gives the hexadecimal SHA-1 digest of a text. -/
def dedupeKey (sha1 : String → String) (imei : String) (rec : AvlRecord) : String :=
  imei ++ ":" ++ rec.timestamp.timeText ++ ":" ++
    String.ofList ((sha1 (dedupeText imei rec)).toList.take 16)

/-- A key with an expiry time that is still to come. -/
def isLive (seen : JsMap String Nat) (t : Nat) (key : String) : Bool :=
  match seen.get key with
  | some exp => t < exp
  | none => false

theorem mem_of_isLive {seen : JsMap String Nat} {t : Nat} {key : String}
    (h : isLive seen t key = true) : key ∈ seen.keys := by
  by_contra hkey
  have hget : seen.get key = none := JsMap.get_eq_none.mpr hkey
  simp [isLive, hget] at h

/-! ## The in-memory deduper -/

/-- The keys seen with their expiry times, oldest first. -/
structure InMemoryDeduper where
  ttlMs : Nat
  maxEntries : Nat
  seen : JsMap String Nat

namespace InMemoryDeduper

/-- The first loop of `evict`: drop expired keys, oldest first, until a tenth is free. -/
def dropExpired (t maxEntries : Nat) : List (String × Nat) → JsMap String Nat → JsMap String Nat
  | [], seen => seen
  | (k, exp) :: rest, seen =>
    let seen := if exp ≤ t then seen.delete k else seen
    if 10 * seen.size ≤ 9 * maxEntries then seen else dropExpired t maxEntries rest seen

/-- The second loop of `evict`: drop the oldest keys while there are too many. -/
def dropOldest (maxEntries : Nat) : List String → JsMap String Nat → JsMap String Nat
  | [], seen => seen
  | k :: rest, seen =>
    if maxEntries < seen.size then dropOldest maxEntries rest (seen.delete k) else seen

/-- `evict`. -/
def evict (d : InMemoryDeduper) (t : Nat) : InMemoryDeduper :=
  let seen := dropExpired t d.maxEntries d.seen.entries d.seen
  { d with seen := dropOldest d.maxEntries seen.keys seen }

/-- `checkAndSet` at clock time `t`. -/
def checkAndSet (d : InMemoryDeduper) (t : Nat) (key : String) : InMemoryDeduper × Bool :=
  if isLive d.seen t key then (d, false)
  else
    let d' := { d with seen := d.seen.set key (t + d.ttlMs) }
    (if d'.maxEntries < d'.seen.size then d'.evict t else d', true)

/-- Evicting brings no key in. -/
private theorem dropExpired_keys {t maxEntries : Nat} {key : String}
    (l : List (String × Nat)) (seen : JsMap String Nat)
    (h : key ∈ (dropExpired t maxEntries l seen).keys) : key ∈ seen.keys := by
  induction l generalizing seen with
  | nil => exact h
  | cons e l ih =>
    have hdrop : key ∈ (if e.2 ≤ t then seen.delete e.1 else seen).keys := by
      simp only [dropExpired] at h
      by_cases hfree : 10 * (if e.2 ≤ t then seen.delete e.1 else seen).size ≤ 9 * maxEntries
      · rwa [if_pos hfree] at h
      · rw [if_neg hfree] at h
        exact ih _ h
    split at hdrop
    · exact JsMap.mem_keys_of_delete hdrop
    · exact hdrop

private theorem dropOldest_keys {maxEntries : Nat} {key : String} (l : List String)
    (seen : JsMap String Nat) (h : key ∈ (dropOldest maxEntries l seen).keys) :
    key ∈ seen.keys := by
  induction l generalizing seen with
  | nil => exact h
  | cons k l ih =>
    simp only [dropOldest] at h
    split at h
    · exact JsMap.mem_keys_of_delete (ih _ h)
    · exact h

/-- A duplicate is a key that is held. -/
theorem mem_of_duplicate {d : InMemoryDeduper} {t : Nat} {key : String}
    (h : (d.checkAndSet t key).2 = false) : key ∈ d.seen.keys := by
  by_cases hlive : isLive d.seen t key = true
  · exact mem_of_isLive hlive
  · simp [checkAndSet, hlive] at h

/-- A call holds on to no key but its own. -/
theorem mem_of_checkAndSet {d : InMemoryDeduper} {t : Nat} {key k : String}
    (h : k ∈ (d.checkAndSet t key).1.seen.keys) : k = key ∨ k ∈ d.seen.keys := by
  unfold checkAndSet at h
  by_cases hlive : isLive d.seen t key = true
  · rw [if_pos hlive] at h
    exact Or.inr h
  · -- the key is (re)set, and the map evicted if it has grown too large
    rw [if_neg hlive] at h
    have hset : k ∈ (d.seen.set key (t + d.ttlMs)).keys := by
      by_cases hsize : d.maxEntries < (d.seen.set key (t + d.ttlMs)).size
      · simp only [hsize, if_true] at h
        exact dropExpired_keys _ _ (dropOldest_keys _ _ h)
      · simp only [hsize, if_false] at h
        exact h
    exact JsMap.mem_keys_of_set hset

/-- Without an intervening expiry or eviction the same key is new once. -/
theorem new_then_duplicate {ttlMs maxEntries : Nat} (httl : 0 < ttlMs) (hmax : 0 < maxEntries)
    (t : Nat) (key : String) :
    let d : InMemoryDeduper := ⟨ttlMs, maxEntries, JsMap.empty.set key (t + ttlMs)⟩
    checkAndSet ⟨ttlMs, maxEntries, JsMap.empty⟩ t key = (d, true) ∧
      checkAndSet d t key = (d, false) := by
  intro d
  have hsize : ¬ maxEntries < (JsMap.empty.set key (t + ttlMs)).size := by
    rw [JsMap.size_set_empty]
    omega
  constructor
  · simp [checkAndSet, isLive, hsize, d]
  · simp [checkAndSet, isLive, d, httl]

end InMemoryDeduper

/-! ## The Redis deduper -/

/-- What happens to a `SET` request: it is executed and the reply arrives, it is executed
and the reply gets lost, or it never reaches the server. -/
inductive RedisFate where
  | replied
  | replyLost
  | refused

/-- The keys a Redis server holds for the deduper, with their expiry times in seconds. -/
structure RedisDeduper where
  ttlSeconds : Nat
  prefixText : String
  store : JsMap String Nat

namespace RedisDeduper

/-- The rejection of a command whose connection is gone. -/
def connectionError : JsError := .error "Connection is closed."

/-- `SET key 1 NX EX ttl` at server time `t`: true if the key was new. -/
def setNX (d : RedisDeduper) (t : Nat) (key : String) : RedisDeduper × Bool :=
  if isLive d.store t key then (d, false)
  else ({ d with store := d.store.set key (t + d.ttlSeconds) }, true)

/-- `checkAndSet` with the fate of the request. -/
def checkAndSet (d : RedisDeduper) (t : Nat) (fate : RedisFate) (key : String) :
    RedisDeduper × Except JsError Bool :=
  let out := d.setNX t (d.prefixText ++ key)
  match fate with
  | .replied => (out.1, .ok out.2)
  | .replyLost => (out.1, .error connectionError)
  | .refused => (d, .error connectionError)

theorem setNX_mem {d : RedisDeduper} {t : Nat} {key k : String}
    (h : k ∈ (d.setNX t key).1.store.keys) : k = key ∨ k ∈ d.store.keys := by
  unfold setNX at h
  by_cases hlive : isLive d.store t key = true
  · rw [if_pos hlive] at h
    exact Or.inr h
  · rw [if_neg hlive] at h
    exact JsMap.mem_keys_of_set h

theorem setNX_duplicate {d : RedisDeduper} {t : Nat} {key : String}
    (h : (d.setNX t key).2 = false) : key ∈ d.store.keys := by
  by_cases hlive : isLive d.store t key = true
  · exact mem_of_isLive hlive
  · simp [setNX, hlive] at h

@[simp] theorem setNX_prefixText (d : RedisDeduper) (t : Nat) (key : String) :
    (d.setNX t key).1.prefixText = d.prefixText := by
  simp only [setNX]
  split <;> rfl

@[simp] theorem checkAndSet_prefixText (d : RedisDeduper) (t : Nat) (fate : RedisFate)
    (key : String) : (d.checkAndSet t fate key).1.prefixText = d.prefixText := by
  cases fate with
  | replied => exact setNX_prefixText d t _
  | replyLost => exact setNX_prefixText d t _
  | refused => rfl

end RedisDeduper

/-! ## What the handlers rely on -/

/-- A deduper with its state explicit. -/
structure Deduper where
  -- The state, the outcome of a request, and the keys held in a state.
  State : Type
  Choice : Type
  empty : State
  held : State → String → Prop
  checkAndSet : State → Choice → String → State × Except JsError Bool
  -- The keys reported as duplicates are held, and a call holds on to no other key.
  not_held_empty : ∀ key, ¬ held empty key
  held_of_duplicate : ∀ {s x key}, (checkAndSet s x key).2 = .ok false → held s key
  held_of_held : ∀ {s x key k}, held (checkAndSet s x key).1 k → k = key ∨ held s k

/-- The in-memory deduper; a request depends on the clock only and never fails. -/
def InMemoryDeduper.toDeduper (ttlMs maxEntries : Nat) : Deduper where
  State := InMemoryDeduper
  Choice := Nat
  empty := ⟨ttlMs, maxEntries, JsMap.empty⟩
  held d key := key ∈ d.seen.keys
  checkAndSet d t key := ((d.checkAndSet t key).1, .ok (d.checkAndSet t key).2)
  not_held_empty _ := List.not_mem_nil
  held_of_duplicate h := mem_of_duplicate (Except.ok.inj h)
  held_of_held h := mem_of_checkAndSet h

/-- The Redis deduper. -/
def RedisDeduper.toDeduper (ttlSeconds : Nat) (prefixText : String) : Deduper where
  State := RedisDeduper
  Choice := Nat × RedisFate
  empty := ⟨ttlSeconds, prefixText, JsMap.empty⟩
  held d key := d.prefixText ++ key ∈ d.store.keys
  checkAndSet d x key := d.checkAndSet x.1 x.2 key
  not_held_empty _ := List.not_mem_nil
  held_of_duplicate {s x key} h := by
    obtain ⟨t, fate⟩ := x
    cases fate with
    | replied => exact setNX_duplicate (Except.ok.inj h)
    | replyLost => cases h
    | refused => cases h
  held_of_held {s x key k} h := by
    obtain ⟨t, fate⟩ := x
    rw [checkAndSet_prefixText] at h
    have hset : s.prefixText ++ k ∈ (s.setNX t (s.prefixText ++ key)).1.store.keys →
        k = key ∨ s.prefixText ++ k ∈ s.store.keys := by
      intro hk
      rcases setNX_mem hk with heq | hk
      · exact Or.inl ((String.append_right_inj _).mp heq)
      · exact Or.inr hk
    cases fate with
    | replied => exact hset h
    | replyLost => exact hset h
    | refused => exact Or.inr h

end FleetTracking.Ingestion
