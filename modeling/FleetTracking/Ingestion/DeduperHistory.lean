import FleetTracking.Ingestion.Dedupe
import FleetTracking.Lib.EventLog
import FleetTracking.Lib.Transition
import Mathlib.Data.List.Perm.Subperm

/-!
# The In-Memory Deduper over Time

What the deduper holds after any sequence of calls, compared with the calls themselves.

1. `dropExpired_entries`, `dropOldest_entries`: the two loops of `evict`.
2. `checkAndSet_cases`: all that a call can do.
3. `DeduperRun`: a deduper with the log of its calls; `HistoryInv`: what it holds is what it has
   accepted.
4. `sound_and_bounded`, `evicts_by_age_iff`.
-/

namespace FleetTracking.Ingestion

open Transition EventLog

/-! ## The loops of `evict` -/

namespace InMemoryDeduper

/-- The first loop: of the entries it passes, those that are still live stay. -/
theorem dropExpired_entries (t maxEntries : Nat) {kept l : List (String × Nat)}
    {seen : JsMap String Nat} (h : seen.entries = kept ++ l) :
    ∃ done rest, l = done ++ rest ∧
      (dropExpired t maxEntries l seen).entries =
        kept ++ done.filter (fun e => decide (t < e.2)) ++ rest ∧
      (rest = [] ∨ 10 * (dropExpired t maxEntries l seen).size ≤ 9 * maxEntries) := by
  induction l generalizing kept seen with
  | nil => exact ⟨[], [], rfl, by simpa [dropExpired] using h, Or.inl rfl⟩
  | cons e l ih =>
    -- the entry at the head goes when it has run out and stays in its place when not
    have hone : (if e.2 ≤ t then seen.delete e.1 else seen).entries =
        kept ++ [e].filter (fun e => decide (t < e.2)) ++ l := by
      split
      case isTrue hexp =>
        rw [JsMap.entries_delete h]
        simp [hexp]
      case isFalse hlive =>
        rw [h]
        simp [Nat.lt_of_not_le hlive]
    rw [dropExpired]
    generalize (if e.2 ≤ t then seen.delete e.1 else seen) = seen' at hone ⊢
    -- the loop stops as soon as a tenth is free
    by_cases hfree : 10 * seen'.size ≤ 9 * maxEntries
    · simp only [if_pos hfree]
      exact ⟨[e], l, rfl, hone, Or.inr hfree⟩
    · simp only [if_neg hfree]
      obtain ⟨done, rest, rfl, hentries, hstop⟩ := ih hone
      refine ⟨e :: done, rest, rfl, ?_, hstop⟩
      have hcons : e :: done = [e] ++ done := rfl
      rw [hentries, hcons, List.filter_append]
      simp only [List.append_assoc]

/-- The second loop: as many of the oldest entries go as are too many. -/
theorem dropOldest_entries (maxEntries : Nat) {l : List (String × Nat)} {seen : JsMap String Nat}
    (h : seen.entries = l) :
    (dropOldest maxEntries (l.map Prod.fst) seen).entries = l.drop (l.length - maxEntries) := by
  induction l generalizing seen with
  | nil => simpa [dropOldest] using h
  | cons e l ih =>
    have hsize : seen.size = l.length + 1 := by rw [JsMap.size, h, List.length_cons]
    rw [List.map_cons, dropOldest]
    split
    case isTrue hmany =>
      have hnext : l.length + 1 - maxEntries = (l.length - maxEntries) + 1 := by omega
      have hrest := @JsMap.entries_delete _ _ _ _ [] _ _ h
      rw [ih hrest, List.length_cons, hnext, List.drop_succ_cons]
    case isFalse hfew =>
      have hzero : (e :: l).length - maxEntries = 0 := by
        rw [List.length_cons]
        omega
      rw [h, hzero, List.drop_zero]

/-- Both loops. -/
theorem evict_entries (d : InMemoryDeduper) (t : Nat) :
    ∃ done rest, d.seen.entries = done ++ rest ∧
      (d.evict t).seen.entries =
        (done.filter (fun e => decide (t < e.2)) ++ rest).drop
          ((done.filter (fun e => decide (t < e.2)) ++ rest).length - d.maxEntries) ∧
      (rest = [] ∨
        (done.filter (fun e => decide (t < e.2)) ++ rest).length ≤ d.maxEntries) := by
  obtain ⟨done, rest, hl, hentries, hstop⟩ :=
    @dropExpired_entries t d.maxEntries [] d.seen.entries d.seen rfl
  rw [List.nil_append] at hentries
  refine ⟨done, rest, hl, ?_, hstop.imp_right fun hfree => ?_⟩
  · rw [evict, JsMap.keys, hentries]
    exact dropOldest_entries d.maxEntries hentries
  · rw [JsMap.size, hentries] at hfree
    omega

/-! ## A call -/

/-- A live key. -/
theorem isLive_eq_true {seen : JsMap String Nat} {t : Nat} {key : String} :
    isLive seen t key = true ↔ ∃ exp, seen.get key = some exp ∧ t < exp := by
  unfold isLive
  cases seen.get key with
  | none => simp
  | some exp => simp

/-- What the first loop leaves of a map with a new entry, which is live and stays. -/
private theorem exists_kept {t : Nat} {old done rest : List (String × Nat)} {new : String × Nat}
    (hnew : t < new.2) (h : old ++ [new] = done ++ rest) :
    ∃ kept, done.filter (fun e => decide (t < e.2)) ++ rest = kept ++ [new] ∧
      kept.Sublist old ∧ (∀ e ∈ old, e ∉ kept → e.2 ≤ t) ∧
      (rest = [] → kept = old.filter fun e => decide (t < e.2)) := by
  have hexpired : ∀ {l : List (String × Nat)} {e : String × Nat}, e ∈ l →
      e ∉ l.filter (fun e => decide (t < e.2)) → e.2 ≤ t := by
    intro l e he hnot
    by_contra hlater
    exact hnot (List.mem_filter.mpr ⟨he, decide_eq_true (by omega)⟩)
  rcases List.eq_nil_or_concat rest with rfl | ⟨rest, last, rfl⟩
  · rw [List.append_nil] at h
    refine ⟨old.filter fun e => decide (t < e.2), ?_, List.filter_sublist,
      fun e he hnot => hexpired he hnot, fun _ => rfl⟩
    rw [← h, List.filter_append, List.append_nil]
    simp [hnew]
  · rw [List.concat_eq_append, ← List.append_assoc] at h
    obtain ⟨rfl, hlast⟩ := List.append_inj' h rfl
    obtain rfl := (List.cons.inj hlast).1
    refine ⟨done.filter (fun e => decide (t < e.2)) ++ rest, by simp,
      List.filter_sublist.append_right rest, fun e he hnot => ?_, fun h => by simp at h⟩
    rw [List.mem_append, not_or] at hnot
    exact hexpired ((List.mem_append.mp he).resolve_right hnot.2) hnot.1

/-- All that a call can do: it finds the key live; or it renews the mark of a key that it still
holds; or it adds the key behind all others, and what then goes is expired, or is the oldest entry
of a full map of live ones. -/
theorem checkAndSet_cases {d : InMemoryDeduper} (httl : 0 < d.ttlMs) (hmax : 0 < d.maxEntries)
    (hsize : d.seen.size ≤ d.maxEntries) (t : Nat) (key : String) :
    (∃ exp, d.seen.get key = some exp ∧ t < exp ∧ d.checkAndSet t key = (d, false)) ∨
    (∃ before exp after, d.seen.entries = before ++ (key, exp) :: after ∧ exp ≤ t ∧
      (d.checkAndSet t key).2 = true ∧
      (d.checkAndSet t key).1.seen.entries = before ++ (key, t + d.ttlMs) :: after) ∨
    (key ∉ d.seen.keys ∧ (d.checkAndSet t key).2 = true ∧
      ∃ kept, (d.checkAndSet t key).1.seen.entries = kept ++ [(key, t + d.ttlMs)] ∧
        kept.Sublist d.seen.entries ∧ kept.length < d.maxEntries ∧
        ((∀ e ∈ d.seen.entries, e ∉ kept → e.2 ≤ t) ∨
          (d.seen.size = d.maxEntries ∧ (∀ e ∈ d.seen.entries, t < e.2) ∧
            kept = d.seen.entries.tail))) := by
  by_cases hlive : isLive d.seen t key = true
  · obtain ⟨exp, hget, hexp⟩ := isLive_eq_true.mp hlive
    exact Or.inl ⟨exp, hget, hexp, if_pos hlive⟩
  right
  by_cases hkey : key ∈ d.seen.keys
  · -- the key is held with a mark that has expired
    left
    obtain ⟨e, he, rfl⟩ := List.mem_map.mp hkey
    obtain ⟨before, after, hentries⟩ := List.append_of_mem he
    have hexp : e.2 ≤ t := by
      by_contra hlater
      exact hlive (isLive_eq_true.mpr ⟨e.2, JsMap.get_of_entries hentries, by omega⟩)
    have hset := JsMap.entries_set_held (t + d.ttlMs) hentries
    have hsame : (d.seen.set e.1 (t + d.ttlMs)).size = d.seen.size := by
      simp [JsMap.size, hset, hentries]
    have hcall : d.checkAndSet t e.1 = ({ d with seen := d.seen.set e.1 (t + d.ttlMs) }, true) := by
      unfold checkAndSet
      rw [if_neg hlive]
      simp only
      rw [if_neg (by omega)]
    exact ⟨before, e.2, after, hentries, hexp, by rw [hcall], by rw [hcall]; exact hset⟩
  · right
    have hset := JsMap.entries_set_new (t + d.ttlMs) hkey
    have hgrown : (d.seen.set key (t + d.ttlMs)).size = d.seen.size + 1 := by
      simp [JsMap.size, hset]
    refine ⟨hkey, ?_, ?_⟩
    · rw [checkAndSet, if_neg hlive]
    by_cases hroom : d.seen.size < d.maxEntries
    · -- there is room
      have hcall : d.checkAndSet t key = ({ d with seen := d.seen.set key (t + d.ttlMs) }, true) := by
        unfold checkAndSet
        rw [if_neg hlive]
        simp only
        rw [if_neg (by omega)]
      rw [hcall]
      exact ⟨d.seen.entries, hset, List.Sublist.refl _, hroom,
        Or.inl fun e he hnot => absurd he hnot⟩
    · have hfull : d.seen.size = d.maxEntries := by omega
      have hcall : d.checkAndSet t key =
          (evict { d with seen := d.seen.set key (t + d.ttlMs) } t, true) := by
        unfold checkAndSet
        rw [if_neg hlive]
        simp only
        rw [if_pos (by omega)]
      have hsizes : d.seen.entries.length = d.maxEntries := hfull
      rw [hcall]
      obtain ⟨done, rest, hl, hentries, hstop⟩ :=
        evict_entries { d with seen := d.seen.set key (t + d.ttlMs) } t
      simp only [hset] at hl
      obtain ⟨kept, hkept, hsub, hexpired, hall⟩ :=
        exists_kept (show t < (key, t + d.ttlMs).2 by simpa using httl) hl
      simp only [hkept, List.length_append, List.length_singleton] at hentries hstop
      by_cases hfits : kept.length + 1 ≤ d.maxEntries
      · -- only expired entries had to go
        rw [Nat.sub_eq_zero_of_le hfits, List.drop_zero] at hentries
        exact ⟨kept, hentries, hsub, hfits, Or.inl hexpired⟩
      · -- every entry is live, and the oldest one goes
        have hkeptAll := hall (hstop.resolve_right hfits)
        have hlength : kept.length = d.seen.entries.length := by
          have hle := hsub.length_le
          omega
        obtain rfl := hsub.eq_of_length hlength
        have hone : d.seen.entries.length + 1 - d.maxEntries = 1 := by omega
        have hne : d.seen.entries ≠ [] := List.ne_nil_of_length_pos (by omega)
        rw [hone, List.drop_one, List.tail_append_of_ne_nil hne] at hentries
        refine ⟨d.seen.entries.tail, hentries, List.tail_sublist _, ?_, Or.inr ⟨hfull, ?_, rfl⟩⟩
        · rw [List.length_tail]
          omega
        · intro e he
          rw [hkeptAll] at he
          simpa using (List.mem_filter.mp he).2

@[simp] theorem checkAndSet_ttlMs (d : InMemoryDeduper) (t : Nat) (key : String) :
    (d.checkAndSet t key).1.ttlMs = d.ttlMs := by
  unfold checkAndSet evict
  split
  · rfl
  · simp only
    split <;> rfl

@[simp] theorem checkAndSet_maxEntries (d : InMemoryDeduper) (t : Nat) (key : String) :
    (d.checkAndSet t key).1.maxEntries = d.maxEntries := by
  unfold checkAndSet evict
  split
  · rfl
  · simp only
    split <;> rfl

end InMemoryDeduper

/-! ## Calls over time -/

/-- A call, with its answer. -/
structure Check where
  time : Nat
  key : String
  isNew : Bool

/-- A deduper, with the log of its calls. -/
structure DeduperRun where
  deduper : InMemoryDeduper
  log : List Check

namespace DeduperRun

/-- Before the first call. -/
def start (ttlMs maxEntries : Nat) : DeduperRun := ⟨⟨ttlMs, maxEntries, JsMap.empty⟩, []⟩

/-- The log with one more call. -/
def call (r : DeduperRun) (t : Nat) (key : String) : DeduperRun :=
  let out := r.deduper.checkAndSet t key
  ⟨out.1, r.log ++ [⟨t, key, out.2⟩]⟩

/-- A call of `checkAndSet`, at a time that the clock can show: it does not run backwards. -/
def step (r : DeduperRun) (c : Nat × String) : Option DeduperRun :=
  if r.log.all (fun c' => decide (c'.time ≤ c.1)) then some (r.call c.1 c.2) else none

theorem step_eq_some {r r' : DeduperRun} {c : Nat × String} :
    r.step c = some r' ↔ (∀ c' ∈ r.log, c'.time ≤ c.1) ∧ r.call c.1 c.2 = r' := by
  simp [step]

end DeduperRun

/-- When the key was last accepted as new. -/
def lastAccepted (log : List Check) (key : String) : Option Nat :=
  (log.reverse.find? fun c => c.isNew && c.key = key).map Check.time

theorem lastAccepted_snoc (log : List Check) (c : Check) (key : String) :
    lastAccepted (log ++ [c]) key =
      if c.isNew = true ∧ c.key = key then some c.time else lastAccepted log key := by
  unfold lastAccepted
  rw [List.reverse_append, List.reverse_singleton, List.singleton_append, List.find?_cons]
  by_cases h : c.isNew = true ∧ c.key = key
  · simp [h]
  · have hfalse : (c.isNew && decide (c.key = key)) = false := by simpa using h
    rw [hfalse, if_neg h]

/-- It was accepted by a call. -/
theorem exists_of_lastAccepted {log : List Check} {key : String} {t : Nat}
    (h : lastAccepted log key = some t) :
    ∃ c ∈ log, c.key = key ∧ c.isNew = true ∧ c.time = t := by
  obtain ⟨c, hfind, rfl⟩ := Option.map_eq_some_iff.mp h
  have hc := List.find?_some hfind
  rw [Bool.and_eq_true, decide_eq_true_eq] at hc
  exact ⟨c, List.mem_reverse.mp (List.mem_of_find?_eq_some hfind), hc.2, hc.1, rfl⟩

namespace DeduperRun

/-- What is held, against the log: no more keys than allowed, each with the expiry of its last
acceptance; and the key that was accepted last is held. -/
structure HistoryInv (ttlMs maxEntries : Nat) (r : DeduperRun) : Prop where
  ttl : r.deduper.ttlMs = ttlMs
  max : r.deduper.maxEntries = maxEntries
  bounded : r.deduper.seen.size ≤ maxEntries
  held : ∀ e ∈ r.deduper.seen.entries, ∃ t, lastAccepted r.log e.1 = some t ∧ e.2 = t + ttlMs
  latest : ∀ c, r.log.getLast? = some c → c.isNew = true →
    r.deduper.seen.get c.key = some (c.time + ttlMs)

variable {ttlMs maxEntries : Nat} {r r' : DeduperRun} {c : Nat × String}
  {calls : List (Nat × String)}

theorem historyInv_start : HistoryInv ttlMs maxEntries (start ttlMs maxEntries) where
  ttl := rfl
  max := rfl
  bounded := Nat.zero_le _
  held e he := absurd he List.not_mem_nil
  latest c hc := by cases hc

/-- Other keys were last accepted when they were. -/
theorem lastAccepted_call_of_ne (r : DeduperRun) (t : Nat) {key k : String} (h : key ≠ k) :
    lastAccepted (r.call t key).log k = lastAccepted r.log k := by
  rw [call, lastAccepted_snoc, if_neg fun hboth => h hboth.2]

theorem lastAccepted_call_new {t : Nat} {key : String}
    (h : (r.deduper.checkAndSet t key).2 = true) :
    lastAccepted (r.call t key).log key = some t := by
  rw [call, lastAccepted_snoc, if_pos ⟨h, rfl⟩]

/-- The step lemma: one call keeps the invariant. -/
theorem historyInv_call (httl : 0 < ttlMs) (hmax : 0 < maxEntries)
    (h : HistoryInv ttlMs maxEntries r) (t : Nat) (key : String) :
    HistoryInv ttlMs maxEntries (r.call t key) := by
  have hcases := InMemoryDeduper.checkAndSet_cases (h.ttl ▸ httl) (h.max ▸ hmax)
    (h.max ▸ h.bounded) t key
  rw [h.ttl, h.max] at hcases
  have hlast : (r.call t key).log.getLast? =
      some ⟨t, key, (r.deduper.checkAndSet t key).2⟩ := by
    simp [call]
  have hheld : ∀ e ∈ r.deduper.seen.entries, e.1 ≠ key →
      ∃ t', lastAccepted (r.call t key).log e.1 = some t' ∧ e.2 = t' + ttlMs := by
    intro e he hne
    rw [lastAccepted_call_of_ne r t hne.symm]
    exact h.held e he
  refine ⟨(InMemoryDeduper.checkAndSet_ttlMs _ _ _).trans h.ttl,
    (InMemoryDeduper.checkAndSet_maxEntries _ _ _).trans h.max, ?_, ?_, ?_⟩
  · -- no more keys than allowed
    rcases hcases with ⟨exp, -, -, hcall⟩ | ⟨before, exp, after, hold, -, -, hentries⟩ |
      ⟨-, -, kept, hentries, -, hroom, -⟩
    · rw [call, hcall]
      exact h.bounded
    · have hbounded := h.bounded
      rw [JsMap.size, hold] at hbounded
      rw [call, JsMap.size, hentries]
      simpa using hbounded
    · rw [call, JsMap.size, hentries, List.length_append, List.length_singleton]
      exact hroom
  · -- every mark is that of the last acceptance
    rcases hcases with ⟨exp, -, -, hcall⟩ | ⟨before, exp, after, hold, -, hnew, hentries⟩ |
      ⟨hkey, hnew, kept, hentries, hsub, -, -⟩
    · intro e he
      have hsame : (r.call t key).deduper = r.deduper := by rw [call, hcall]
      rw [hsame] at he
      rw [call, lastAccepted_snoc, hcall, if_neg (by simp)]
      exact h.held e he
    · intro e he
      have hne := JsMap.ne_of_entries hold
      rw [call, hentries] at he
      rcases List.mem_append.mp he with he | he
      · exact hheld e (by simp [hold, he]) (hne e (List.mem_append_left _ he))
      · rcases List.mem_cons.mp he with rfl | he
        · exact ⟨t, lastAccepted_call_new hnew, rfl⟩
        · exact hheld e (by simp [hold, he]) (hne e (List.mem_append_right _ he))
    · intro e he
      rw [call, hentries] at he
      rcases List.mem_append.mp he with he | he
      · have hmem := hsub.subset he
        exact hheld e hmem fun heq => hkey (heq ▸ List.mem_map_of_mem hmem)
      · obtain rfl := List.mem_singleton.mp he
        exact ⟨t, lastAccepted_call_new hnew, rfl⟩
  · -- what was accepted last is there
    intro c hc hisNew
    rw [hlast, Option.some.injEq] at hc
    subst hc
    rcases hcases with ⟨exp, -, -, hcall⟩ | ⟨before, exp, after, -, -, -, hentries⟩ |
      ⟨-, -, kept, hentries, -, -, -⟩
    · rw [hcall] at hisNew
      cases hisNew
    · exact JsMap.get_of_entries hentries
    · exact JsMap.get_of_entries hentries

theorem historyInv_step {ok : DeduperRun → Nat × String → Prop} (httl : 0 < ttlMs)
    (hmax : 0 < maxEntries) (r : DeduperRun) (c : Nat × String) (r' : DeduperRun)
    (h : HistoryInv ttlMs maxEntries r) (_ : ok r c) (hs : r.step c = some r') :
    HistoryInv ttlMs maxEntries r' := by
  obtain ⟨-, rfl⟩ := step_eq_some.mp hs
  exact historyInv_call httl hmax h c.1 c.2

/-! ## Soundness and bound -/

/-- A duplicate was accepted before, and its mark has not expired. -/
def Sound (ttlMs : Nat) (before : List Check) (c : Check) : Prop :=
  c.isNew = false →
    ∃ c' ∈ before, c'.key = c.key ∧ c'.isNew = true ∧ c.time < c'.time + ttlMs

/-- What the call just before has accepted is a duplicate until its mark expires. -/
def Effective (ttlMs : Nat) (before : List Check) (c : Check) : Prop :=
  ∀ c', before.getLast? = some c' → c'.isNew = true → c'.key = c.key →
    c.time < c'.time + ttlMs → c.isNew = false

theorem sound_call (h : HistoryInv ttlMs maxEntries r) (t : Nat) (key : String) :
    Sound ttlMs r.log ⟨t, key, (r.deduper.checkAndSet t key).2⟩ := by
  intro hdup
  have hlive : isLive r.deduper.seen t key = true := by
    by_contra hnot
    rw [InMemoryDeduper.checkAndSet, if_neg hnot] at hdup
    cases hdup
  obtain ⟨exp, hget, hexp⟩ := InMemoryDeduper.isLive_eq_true.mp hlive
  obtain ⟨t', haccepted, heq⟩ := h.held _ (JsMap.mem_of_get hget)
  obtain ⟨c', hc', hkey, hnew, rfl⟩ := exists_of_lastAccepted haccepted
  exact ⟨c', hc', hkey, hnew, heq ▸ hexp⟩

theorem effective_call (h : HistoryInv ttlMs maxEntries r) (t : Nat) (key : String) :
    Effective ttlMs r.log ⟨t, key, (r.deduper.checkAndSet t key).2⟩ := by
  intro c' hlast hnew hkey ht
  have hget := h.latest c' hlast hnew
  rw [show c'.key = key from hkey] at hget
  have hlive : isLive r.deduper.seen t key = true :=
    InMemoryDeduper.isLive_eq_true.mpr ⟨_, hget, ht⟩
  show (r.deduper.checkAndSet t key).2 = false
  rw [InMemoryDeduper.checkAndSet, if_pos hlive]

/-- **Sound and bounded**: over any calls, no more than `maxEntries` keys are held; a call answers
`false` only for a key that was accepted less than `ttlMs` before; and it does answer `false` when
the call just before has accepted the key less than `ttlMs` before. -/
theorem sound_and_bounded (httl : 0 < ttlMs) (hmax : 1 ≤ maxEntries)
    (hrun : Run step (fun _ _ => True) (start ttlMs maxEntries) calls r) :
    r.deduper.seen.size ≤ maxEntries ∧ Causal (Sound ttlMs) r.log ∧
      Causal (Effective ttlMs) r.log := by
  have hinv := hrun.invariant (I := fun r => HistoryInv ttlMs maxEntries r ∧
    Causal (Sound ttlMs) r.log ∧ Causal (Effective ttlMs) r.log)
    ⟨historyInv_start, causal_nil, causal_nil⟩ (by
      rintro r c r' ⟨hinv, hsound, heffective⟩ - hstep
      obtain ⟨-, rfl⟩ := step_eq_some.mp hstep
      exact ⟨historyInv_call httl hmax hinv c.1 c.2, hsound.snoc (sound_call hinv c.1 c.2),
        heffective.snoc (effective_call hinv c.1 c.2)⟩)
  exact ⟨hinv.1.bounded, hinv.2.1, hinv.2.2⟩

/-- Three keys, two at a time; the first one comes again when its mark has expired. -/
def sampleCalls : List (Nat × String) := [(0, "a"), (5, "b"), (12, "a"), (12, "a")]

theorem sample_sound_and_bounded : ∃ r,
    Run step (fun _ _ => True) (start 10 2) sampleCalls r ∧
      (r.deduper.seen.size ≤ 2 ∧ Causal (Sound 10) r.log ∧ Causal (Effective 10) r.log) := by
  obtain ⟨r, hrun, -⟩ : ∃ r, Run step (fun _ _ => True) (start 10 2) sampleCalls r ∧
      r.deduper.seen.size = 2 := by
    apply Run.exists_of_any
    decide +kernel
  exact ⟨r, hrun, sound_and_bounded (by decide) (by decide) hrun⟩

/-! ## The order of eviction -/

/-- A call takes no key that is within its time while it keeps one that was last accepted
earlier. -/
def EvictsByAge (ttlMs : Nat) (r : DeduperRun) (c : Nat × String) : Prop :=
  ∀ a ta b tb, a ∈ r.deduper.seen.keys → a ∉ (r.call c.1 c.2).deduper.seen.keys →
    lastAccepted r.log a = some ta → c.1 < ta + ttlMs →
    b ∈ (r.call c.1 c.2).deduper.seen.keys → lastAccepted (r.call c.1 c.2).log b = some tb →
    ta ≤ tb

/-- Where a new key meets a full map of live ones, the first key in the order of the map is one
that was accepted no later than any other. -/
def OldestFirst (ttlMs : Nat) (r : DeduperRun) (c : Nat × String) : Prop :=
  c.2 ∉ r.deduper.seen.keys → r.deduper.seen.size = r.deduper.maxEntries →
    (∀ k ∈ r.deduper.seen.keys, ∀ t, lastAccepted r.log k = some t → c.1 < t + ttlMs) →
    ∀ first rest, r.deduper.seen.keys = first :: rest → ∀ k ∈ rest,
      ∀ t₁ t₂, lastAccepted r.log first = some t₁ → lastAccepted r.log k = some t₂ → t₁ ≤ t₂

theorem HistoryInv.held_key (h : HistoryInv ttlMs maxEntries r) {k : String} {t : Nat}
    (haccepted : lastAccepted r.log k = some t) {e : String × Nat}
    (he : e ∈ r.deduper.seen.entries) (hk : e.1 = k) : e.2 = t + ttlMs := by
  obtain ⟨t', haccepted', hexp⟩ := h.held e he
  rw [hk, haccepted, Option.some.injEq] at haccepted'
  rw [hexp, haccepted']

/-- The key that is accepted last was accepted no earlier than any other. -/
theorem lastAccepted_le (hclock : ∀ c' ∈ r.log, c'.time ≤ c.1) {k : String} {t : Nat}
    (haccepted : lastAccepted r.log k = some t) : t ≤ c.1 := by
  obtain ⟨c', hc', -, -, rfl⟩ := exists_of_lastAccepted haccepted
  exact hclock c' hc'

/-- The eviction goes by age exactly if the map stands in the order of age where it matters: the
key that goes is the first of a full map of live ones. -/
theorem evictsByAge_iff (httl : 0 < ttlMs) (hmax : 0 < maxEntries)
    (h : HistoryInv ttlMs maxEntries r) (hclock : ∀ c' ∈ r.log, c'.time ≤ c.1) :
    EvictsByAge ttlMs r c ↔ OldestFirst ttlMs r c := by
  obtain ⟨t, key⟩ := c
  have hcases := InMemoryDeduper.checkAndSet_cases (h.ttl ▸ httl) (h.max ▸ hmax)
    (h.max ▸ h.bounded) t key
  rw [h.ttl, h.max] at hcases
  have hkeys : ∀ {l : List (String × Nat)},
      (r.deduper.checkAndSet t key).1.seen.entries = l →
      (r.call t key).deduper.seen.keys = l.map Prod.fst := by
    intro l hl
    rw [call, JsMap.keys, hl]
  -- from the eviction to the order: the key is new and the map is full, so something has gone
  constructor
  · intro hage hkey hfull hlive first rest hfirst k hk t₁ t₂ ht₁ ht₂
    rw [h.max] at hfull
    rcases hcases with ⟨exp, hget, -, -⟩ | ⟨before, exp, after, hold, -, -, -⟩ |
      ⟨-, -, kept, hentries, -, hroom, hgone⟩
    · exact absurd (List.mem_map_of_mem (JsMap.mem_of_get hget)) hkey
    · exact absurd (by simp [JsMap.keys, hold]) hkey
    rcases hgone with hexpired | ⟨-, -, rfl⟩
    · -- something has gone, and it was live
      obtain ⟨e, he, hnot⟩ : ∃ e ∈ r.deduper.seen.entries, e ∉ kept := by
        by_contra! hall
        have hnodup : r.deduper.seen.entries.Nodup := r.deduper.seen.nodup.of_map
        have hle := (List.subperm_of_subset hnodup hall).length_le
        rw [JsMap.size] at hfull
        omega
      obtain ⟨t', haccepted, hexp⟩ := h.held e he
      have hlater := hlive e.1 (List.mem_map_of_mem he) t' haccepted
      have hearlier := hexpired e he hnot
      omega
    · -- the first key has gone
      have hrest : (r.call t key).deduper.seen.keys = rest ++ [key] := by
        rw [hkeys hentries, List.map_append, List.map_tail]
        rw [JsMap.keys] at hfirst
        rw [hfirst]
        rfl
      have hmem : first ∈ r.deduper.seen.keys := hfirst ▸ List.mem_cons_self
      have hnodup := r.deduper.seen.nodup
      rw [show r.deduper.seen.entries.map Prod.fst = first :: rest from hfirst,
        List.nodup_cons] at hnodup
      have hkne : key ≠ k := fun heq => hkey (heq ▸ hfirst ▸ List.mem_cons_of_mem _ hk)
      refine hage first t₁ k t₂ hmem ?_ ht₁ (hlive first hmem t₁ ht₁) ?_ ?_
      · rw [hrest, List.mem_append, List.mem_singleton, not_or]
        exact ⟨hnodup.1, fun heq => hkey (heq ▸ hmem)⟩
      · rw [hrest]
        exact List.mem_append_left _ hk
      · rw [lastAccepted_call_of_ne r t hkne, ht₂]
  -- from the order to the eviction, by what the call does
  · intro holdest a ta b tb ha hgone hta hlive hb htb
    obtain ⟨e, he, rfl⟩ := List.mem_map.mp ha
    have hexp := h.held_key hta he rfl
    rcases hcases with ⟨exp, -, -, hcall⟩ | ⟨before, exp, after, hold, -, -, hentries⟩ |
      ⟨hkey, hnew, kept, hentries, -, -, hwhy⟩
    · -- a duplicate takes nothing away
      rw [call, hcall] at hgone
      exact absurd ha hgone
    · -- nor does a key that is held
      rw [hkeys hentries] at hgone
      rw [hold] at he
      refine absurd ?_ hgone
      rcases List.mem_append.mp he with he | he
      · exact List.mem_map_of_mem (List.mem_append_left _ he)
      · rcases List.mem_cons.mp he with rfl | he
        · simp
        · exact List.mem_map_of_mem (List.mem_append_right _ (List.mem_cons_of_mem _ he))
    rw [hkeys hentries, List.map_append, List.mem_append, not_or] at hgone
    rcases hwhy with hexpired | ⟨hfull, hall, rfl⟩
    · -- what has gone had expired
      have hearlier := hexpired e he fun hkept => hgone.1 (List.mem_map_of_mem hkept)
      omega
    · -- the first key has gone, as one of a full map of live ones
      obtain ⟨e', es, hentries'⟩ := List.exists_cons_of_ne_nil (List.ne_nil_of_mem he)
      rw [hentries', List.tail_cons] at hgone hentries
      rw [hentries'] at he
      obtain rfl : e = e' := by
        rcases List.mem_cons.mp he with heq | hmem
        · exact heq
        · exact absurd (List.mem_map_of_mem hmem) hgone.1
      rw [hkeys hentries, List.map_append, List.mem_append] at hb
      rcases hb with hb | hb
      · have hbkey : key ≠ b := by
          rintro rfl
          rw [JsMap.keys, hentries'] at hkey
          exact hkey (List.mem_cons_of_mem _ hb)
        rw [lastAccepted_call_of_ne r t hbkey] at htb
        refine holdest hkey (hfull.trans h.max.symm) ?_ e.1 (es.map Prod.fst)
          (by rw [JsMap.keys, hentries', List.map_cons]) b hb ta tb hta htb
        intro k hk t' ht'
        obtain ⟨e'', he'', rfl⟩ := List.mem_map.mp hk
        have hexp'' := h.held_key ht' he'' rfl
        have hlive'' := hall e'' he''
        show t < t' + ttlMs
        omega
      · obtain rfl := List.mem_singleton.mp hb
        rw [lastAccepted_call_new hnew, Option.some.injEq] at htb
        have hle := lastAccepted_le hclock hta
        simp only at hle
        omega

/-- **Evicts by age**: over any calls, no eviction takes a key that is within its time while it
keeps one that was last accepted earlier, exactly if whenever a new key meets a full map of live
ones the first of these is the oldest. -/
theorem evicts_by_age_iff (httl : 0 < ttlMs) (hmax : 1 ≤ maxEntries) :
    Run step (EvictsByAge ttlMs) (start ttlMs maxEntries) calls r ↔
      Run step (OldestFirst ttlMs) (start ttlMs maxEntries) calls r := by
  constructor
  · refine Run.mono_of_invariant historyInv_start (historyInv_step httl hmax)
      fun r c r' hinv hage hs => ?_
    exact (evictsByAge_iff httl hmax hinv (step_eq_some.mp hs).1).mp hage
  · refine Run.mono_of_invariant historyInv_start (historyInv_step httl hmax)
      fun r c r' hinv holdest hs => ?_
    exact (evictsByAge_iff httl hmax hinv (step_eq_some.mp hs).1).mpr holdest

theorem sample_evicts_by_age : ∃ r, Run step (fun _ _ => True) (start 10 2) sampleCalls r ∧
    (Run step (EvictsByAge 10) (start 10 2) sampleCalls r ↔
      Run step (OldestFirst 10) (start 10 2) sampleCalls r) := by
  obtain ⟨r, hrun, -⟩ : ∃ r, Run step (fun _ _ => True) (start 10 2) sampleCalls r ∧
      r.deduper.seen.size = 2 := by
    apply Run.exists_of_any
    decide +kernel
  exact ⟨r, hrun, evicts_by_age_iff (by simp) (by simp)⟩

/-- The mark of `a` has expired when it comes again, and `a` keeps its place before `b`. -/
def renewedCalls : List (Nat × String) := [(0, "a"), (5, "b"), (12, "a")]

/-- The third key then takes the place of `a`, which was accepted at 12, and not that of `b`,
which was accepted at 5. -/
theorem renewed_key_goes_first : ∃ r,
    Run step (fun _ _ => True) (start 10 2) (renewedCalls ++ [(13, "c")]) r ∧
      ¬ Run step (EvictsByAge 10) (start 10 2) (renewedCalls ++ [(13, "c")]) r := by
  obtain ⟨r, hrun, hheld, ha, hb, hgone, hkept, hb', hclock⟩ :
      ∃ r, Run step (fun _ _ => True) (start 10 2) renewedCalls r ∧
        "a" ∈ r.deduper.seen.keys ∧ lastAccepted r.log "a" = some 12 ∧
        lastAccepted r.log "b" = some 5 ∧ "a" ∉ (r.call 13 "c").deduper.seen.keys ∧
        "b" ∈ (r.call 13 "c").deduper.seen.keys ∧
        lastAccepted (r.call 13 "c").log "b" = some 5 ∧ ∀ c' ∈ r.log, c'.time ≤ 13 := by
    apply Run.exists_of_any
    decide +kernel
  refine ⟨r.call 13 "c", hrun.snoc trivial (step_eq_some.mpr ⟨hclock, rfl⟩), fun hall => ?_⟩
  obtain ⟨r₁, hrun₁, hlast⟩ := hall.exists_of_append
  obtain rfl := hrun.eq_of_run hrun₁
  have hle := hlast.of_single.1 "a" 12 "b" 5 hheld hgone ha (by simp) hkept hb'
  simp at hle

/-- The call does not renew a mark that has expired while its key was held. -/
def RenewsNone (r : DeduperRun) (c : Nat × String) : Prop :=
  ∀ exp, r.deduper.seen.get c.2 = some exp → c.1 < exp

/-- The map stands in the order of age. -/
def Sorted (r : DeduperRun) : Prop := r.deduper.seen.entries.Pairwise fun e e' => e.2 ≤ e'.2

theorem sorted_call (httl : 0 < ttlMs) (hmax : 0 < maxEntries)
    (h : HistoryInv ttlMs maxEntries r) (hsorted : Sorted r)
    (hclock : ∀ c' ∈ r.log, c'.time ≤ c.1) (hnone : RenewsNone r c) :
    Sorted (r.call c.1 c.2) := by
  rcases InMemoryDeduper.checkAndSet_cases (h.ttl ▸ httl) (h.max ▸ hmax)
      (h.max ▸ h.bounded) c.1 c.2 with
    ⟨exp, -, -, hcall⟩ | ⟨before, exp, after, hold, hexp, -, -⟩ |
      ⟨-, -, kept, hentries, hsub, -, -⟩
  · rw [Sorted, call, hcall]
    exact hsorted
  · have hlater := hnone exp (JsMap.get_of_entries hold)
    omega
  · -- the new key is the youngest
    rw [Sorted, call, hentries, List.pairwise_append]
    refine ⟨List.Pairwise.sublist hsub hsorted, List.pairwise_singleton _ _,
      fun e he e' he' => ?_⟩
    obtain rfl := List.mem_singleton.mp he'
    obtain ⟨t, haccepted, hexp⟩ := h.held e (hsub.subset he)
    have hle := lastAccepted_le hclock haccepted
    have httl' := h.ttl
    simp only
    omega

theorem oldestFirst_of_sorted (h : HistoryInv ttlMs maxEntries r) (hsorted : Sorted r) :
    OldestFirst ttlMs r c := by
  intro _ _ _ first rest hfirst k hk t₁ t₂ ht₁ ht₂
  obtain ⟨e, es, hentries, rfl, rfl⟩ := List.map_eq_cons_iff.mp hfirst
  obtain ⟨e', he', rfl⟩ := List.mem_map.mp hk
  rw [Sorted, hentries, List.pairwise_cons] at hsorted
  have hle := hsorted.1 e' he'
  have hexp := h.held_key ht₁ (hentries ▸ List.mem_cons_self) rfl
  have hexp' := h.held_key ht₂ (hentries ▸ List.mem_cons_of_mem _ he') rfl
  omega

/-- As long as no expired mark is renewed while its key is held, evictions go by age. -/
theorem evicts_by_age_of_renewsNone (httl : 0 < ttlMs) (hmax : 0 < maxEntries)
    (hrun : Run step RenewsNone (start ttlMs maxEntries) calls r) :
    Run step (EvictsByAge ttlMs) (start ttlMs maxEntries) calls r := by
  refine hrun.mono_of_invariant (I := fun r => HistoryInv ttlMs maxEntries r ∧ Sorted r)
    ⟨historyInv_start, List.Pairwise.nil⟩ ?_ ?_
  · rintro r c r' ⟨hinv, hsorted⟩ hnone hs
    obtain ⟨hclock, rfl⟩ := step_eq_some.mp hs
    exact ⟨historyInv_call httl hmax hinv c.1 c.2,
      sorted_call httl hmax hinv hsorted hclock hnone⟩
  · rintro r c r' ⟨hinv, hsorted⟩ - hs
    obtain ⟨hclock, -⟩ := step_eq_some.mp hs
    exact (evictsByAge_iff httl hmax hinv hclock).mpr (oldestFirst_of_sorted hinv hsorted)

end DeduperRun

end FleetTracking.Ingestion
