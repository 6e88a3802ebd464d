import FleetTracking.Lib.Ending
import FleetTracking.Lib.Execution

/-!
# Runs in Lockstep

Two systems of interleaved calls whose shared states are related may differ in what no call
gets to see. If every call only asks for what is the same in related states, then the events
of a run are possible in the other system too, every call gets the same answers, and ends with
the same result. Moves of the environment that change nothing but what is not seen can be left
out of one of the two runs.

1. `World.Same`: an operation with the same result, and related states after it.
2. `World.Blind`: code all whose operations are such, with its rules.
3. `exec_blind`: a call that runs to completion, in both.
4. `follow_blind`: the run without the hidden moves.
-/

namespace Async

open Transition

variable {S : Sig} {ι κ ρ σ χ η α β : Type}

/-- In related states the operation settles with the same result, and they stay related. -/
def World.Same (W : World S ι κ σ χ) (R : σ → σ → Prop) (op : S.Op) : Prop :=
  ∀ i c x s s' out, R s s' → W.settle i c op x s = some out →
    ∃ t', W.settle i c op x s' = some (t', out.2) ∧ R out.1 t'

/-- In related states the action returns the same, and they stay related. -/
def World.SameAct (W : World S ι κ σ χ) (R : σ → σ → Prop) (a : S.Act) : Prop :=
  ∀ i c s s', R s s' →
    (W.act i c a s').2 = (W.act i c a s).2 ∧ R (W.act i c a s).1 (W.act i c a s').1

/-- The code does not see in which of two related states it runs; `Q` holds of what it returns. -/
def World.Blind (W : World S ι κ σ χ) (R : σ → σ → Prop) (Q : α → Prop) : Async S α → Prop
  | .pure a => Q a
  | .throw _ => True
  | .await op k => W.Same R op ∧
      ∀ i c x s s' out, R s s' → W.settle i c op x s = some out → W.Blind R Q (k out.2)
  | .act a k => W.SameAct R a ∧ ∀ i c s s', R s s' → W.Blind R Q (k (W.act i c a s).2)

section Rules

variable {W : World S ι κ σ χ} {R : σ → σ → Prop} {Q : α → Prop} {Q' : β → Prop}

theorem blind_pure {a : α} (h : Q a) : W.Blind R Q (Pure.pure a) := h

theorem blind_throw {e : S.Err} : W.Blind R Q (MonadExcept.throw e : Async S α) := trivial

theorem World.Blind.bind {x : Async S α} {f : α → Async S β} (hx : W.Blind R Q x)
    (hf : ∀ a, Q a → W.Blind R Q' (f a)) : W.Blind R Q' (x >>= f) := by
  induction x with
  | pure a => exact hf a hx
  | throw e => exact trivial
  | await op k ih =>
    rw [await_bind]
    exact ⟨hx.1, fun i c y s s' out hR hs => ih out.2 (hx.2 i c y s s' out hR hs)⟩
  | act a k ih =>
    rw [act_bind]
    exact ⟨hx.1, fun i c s s' hR => ih _ (hx.2 i c s s' hR)⟩

theorem World.Blind.mono {x : Async S α} {Q' : α → Prop} (hx : W.Blind R Q x)
    (h : ∀ a, Q a → Q' a) : W.Blind R Q' x := by
  rw [← bind_pure x]
  exact hx.bind fun a ha => blind_pure (h a ha)

theorem World.Blind.map {x : Async S α} {f : α → β} (hx : W.Blind R Q x)
    (hf : ∀ a, Q a → Q' (f a)) : W.Blind R Q' (f <$> x) := by
  rw [← bind_pure_comp]
  exact hx.bind fun a ha => blind_pure (hf a ha)

theorem World.Blind.attempt {x : Async S α} {h : S.Err → Async S α} (hx : W.Blind R Q x)
    (hh : ∀ e, W.Blind R Q (h e)) : W.Blind R Q (tryCatchThe S.Err x h) := by
  induction x with
  | pure a => exact hx
  | throw e => exact hh e
  | await op k ih =>
    exact ⟨hx.1, fun i c y s s' out hR hs => ih out.2 (hx.2 i c y s s' out hR hs)⟩
  | act a k ih => exact ⟨hx.1, fun i c s s' hR => ih _ (hx.2 i c s s' hR)⟩

/-- Await one operation. -/
theorem blind_perform {op : S.Op} {Q : S.Res op → Prop} (h : W.Same R op)
    (hQ : ∀ i c x s s' t r, R s s' → W.settle i c op x s = some (t, .ok r) → Q r) :
    W.Blind R Q (perform op) := by
  refine ⟨h, fun i c x s s' out hR hs => ?_⟩
  obtain ⟨t, r⟩ := out
  cases r with
  | ok r => exact hQ i c x s s' t r hR hs
  | error e => exact trivial

/-- Perform one action. -/
theorem blind_action {a : S.Act} (h : W.SameAct R a) :
    W.Blind R (fun _ => True) (action a) := ⟨h, fun _ _ _ _ _ => trivial⟩

end Rules

/-- Blind code that runs to completion does so in both states, with the same result. -/
theorem exec_blind {W : World S ι κ σ χ} {R : σ → σ → Prop} {Q : α → Prop} {i : ι} {c : κ}
    {ω : Nat → χ} {x : Async S α} {n : Nat} {s s' : σ} {out : Except S.Err α × Nat × σ}
    (hx : W.Blind R Q x) (hR : R s s') (hout : W.exec i c ω x n s = some out) :
    ∃ t', W.exec i c ω x n s' = some (out.1, out.2.1, t') ∧ R out.2.2 t' := by
  induction x generalizing n s s' with
  | pure a =>
    obtain rfl := Option.some_inj.mp hout
    exact ⟨s', rfl, hR⟩
  | throw e =>
    obtain rfl := Option.some_inj.mp hout
    exact ⟨s', rfl, hR⟩
  | await op k ih =>
    obtain ⟨next, hsettle, hrest⟩ := Option.bind_eq_some_iff.mp hout
    obtain ⟨t', hsettle', hR'⟩ := hx.1 i c (ω n) s s' next hR hsettle
    have hcode := hx.2 i c (ω n) s s' next hR hsettle
    simp only [World.exec, hsettle', Option.bind_some]
    exact ih next.2 hcode hR' hrest
  | act a k ih =>
    obtain ⟨hret, hR'⟩ := hx.1 i c s s' hR
    have hcode := hx.2 i c s s' hR
    simp only [World.exec, hret]
    exact ih _ hcode hR' hout

/-! ## One event -/

/-- The code of a call in progress is blind, from where it stands. -/
def World.BlindThread (W : World S ι κ σ χ) (R : σ → σ → Prop) (th : Thread S κ ρ) : Prop :=
  match th.reply with
  | none => W.Blind R (fun _ => True) (.await th.op th.next)
  | some r => W.Blind R (fun _ => True) (th.next r)

/-- The halt of blind code. -/
def World.BlindHalt (W : World S ι κ σ χ) (R : σ → σ → Prop) : Halt S ρ → Prop
  | .finished _ => True
  | .awaiting op k => W.Blind R (fun _ => True) (.await op k)

section Steps

variable {W : World S ι κ σ χ} {R : σ → σ → Prop}

/-- Blind code runs to the same `await`, or to the same end. -/
theorem advance_blind {i : ι} {c : κ} {code : Async S ρ} {s s' : σ} (past : List (Seen S))
    (hcode : W.Blind R (fun _ => True) code) (hR : R s s') :
    (W.advance i c code past s').2 = (W.advance i c code past s).2 ∧
      R (W.advance i c code past s).1 (W.advance i c code past s').1 ∧
      W.BlindHalt R (W.advance i c code past s).2.2 := by
  induction code generalizing past s s' with
  | pure a => exact ⟨rfl, hR, trivial⟩
  | throw e => exact ⟨rfl, hR, trivial⟩
  | await op k => exact ⟨rfl, hR, hcode⟩
  | act a k ih =>
    obtain ⟨hret, hR'⟩ := hcode.1 i c s s' hR
    have hrest := ih (W.act i c a s).2 (past ++ [.did a (W.act i c a s).2])
      (hcode.2 i c s s' hR) hR'
    simp only [World.advance, hret]
    exact hrest

end Steps

/-- Two histories that agree on all but the shared state, of calls that are blind. -/
structure World.InStep [DecidableEq ι] (W : World S ι κ σ χ) (R : σ → σ → Prop)
    (h h' : History S κ ρ σ ι) : Prop where
  shared : R h.config.shared h'.config.shared
  threads : h'.config.threads = h.config.threads
  ended : h'.ended = h.ended
  blind : ∀ i th, h.config.threads.lookup i = some th → W.BlindThread R th

section Follow

variable [DecidableEq ι] {sys : System S ι κ ρ σ χ η} {R : σ → σ → Prop}
  {h h' h₁ : History S κ ρ σ ι} {s s' : σ} {i : ι} {c : κ}

/-- Call `i` runs on. -/
theorem inStep_run (hin : sys.InStep R h h') {code : Async S ρ} (past : List (Seen S))
    (hcode : sys.Blind R (fun _ => True) code) :
    sys.InStep R
      ⟨sys.run i c code past h.config, h.ended ++
        ((sys.advance i c code past h.config.shared).2.2.result.map (i, c, ·)).toList⟩
      ⟨sys.run i c code past h'.config, h'.ended ++
        ((sys.advance i c code past h'.config.shared).2.2.result.map (i, c, ·)).toList⟩ := by
  obtain ⟨hsame, hR, hhalt⟩ := advance_blind (i := i) (c := c) past hcode hin.shared
  -- blind code comes to the same `await` or the same end
  rcases hadv : sys.advance i c code past h.config.shared with ⟨t, past₁, halt⟩
  rcases hadv' : sys.advance i c code past h'.config.shared with ⟨t', past', halt'⟩
  rw [hadv, hadv'] at hsame
  rw [hadv, hadv'] at hR
  rw [hadv] at hhalt
  cases hsame
  simp only [System.run, hadv, hadv', hin.threads, hin.ended]
  cases halt with
  -- the call is taken off both lists of threads
  | finished r =>
    refine ⟨hR, rfl, rfl, fun j th hj => ?_⟩
    by_cases hji : j = i
    · rw [hji, AList.lookup_erase] at hj
      cases hj
    · rw [AList.lookup_erase_ne hji] at hj
      exact hin.blind j th hj
  | awaiting op k =>
    refine ⟨hR, rfl, rfl, fun j th hj => ?_⟩
    rcases lookup_insert_iff.mp hj with ⟨-, rfl⟩ | ⟨-, hj⟩
    · exact hhalt
    · exact hin.blind j th hj

/-- **The step in lockstep**: an event of the calls, or one of the environment that both states
see. -/
theorem follow_inStep (hin : sys.InStep R h h') {e : Event κ χ η ι}
    (hs : sys.follow h e = some h₁)
    (hstart : ∀ i c, e = .start i c → sys.Blind R (fun _ => True) (sys.code c))
    (henv : ∀ m s s' t, e = .env m → R s s' → sys.env m s = some t →
      ∃ t', sys.env m s' = some t' ∧ R t t') :
    ∃ h₁', sys.follow h' e = some h₁' ∧ sys.InStep R h₁ h₁' := by
  obtain ⟨cfg, hstep, rfl⟩ := Option.map_eq_some_iff.mp hs
  -- the threads are the same, so the same event is possible in the other history
  cases e with
  | start i c =>
    cases hl : h.config.threads.lookup i with
    | some th =>
      simp only [System.step, hl] at hstep
      cases hstep
    | none =>
      simp only [System.step, hl] at hstep
      cases hstep
      have hrun := inStep_run (i := i) (c := c) hin [] (hstart i c rfl)
      simp only [System.ends, hl]
      refine ⟨_, ?_, hrun⟩
      simp [System.follow, System.step, System.ends, hin.threads, hl]
  | settle i x =>
    cases hl : h.config.threads.lookup i with
    | none =>
      simp only [System.step, hl] at hstep
      cases hstep
    | some th =>
      obtain ⟨c, past, op, k, reply⟩ := th
      cases reply with
      | some r =>
        simp only [System.step, hl] at hstep
        cases hstep
      | none =>
        simp only [System.step, hl] at hstep
        cases hset : sys.settle i c op x h.config.shared with
        | none =>
          rw [hset] at hstep
          cases hstep
        | some out =>
          obtain ⟨t, r⟩ := out
          rw [hset] at hstep
          cases hstep
          -- the operation has the same result there
          have hblind : sys.Blind R (fun _ => True) (.await op k) := hin.blind i _ hl
          obtain ⟨t', hset', hR⟩ := hblind.1 i c x _ _ _ hin.shared hset
          have hnext := hblind.2 i c x _ _ _ hin.shared hset
          let answered : Thread S κ ρ := ⟨c, past ++ [.answered op r], op, k, some r⟩
          refine ⟨⟨⟨t', h'.config.threads.insert i answered⟩, h'.ended⟩, ?_, ?_⟩
          · simp [System.follow, System.step, System.ends, hin.threads, hl, hset', answered]
          · refine ⟨hR, by rw [hin.threads], by simp [System.ends, hin.ended], fun j th hj => ?_⟩
            rcases lookup_insert_iff.mp hj with ⟨-, rfl⟩ | ⟨-, hj⟩
            · exact hnext
            · exact hin.blind j th hj
  | resume i =>
    cases hl : h.config.threads.lookup i with
    | none =>
      simp only [System.step, hl] at hstep
      cases hstep
    | some th =>
      obtain ⟨c, past, op, k, reply⟩ := th
      cases reply with
      | none =>
        simp only [System.step, hl] at hstep
        cases hstep
      | some r =>
        simp only [System.step, hl] at hstep
        cases hstep
        -- the call runs on with the same answer
        have hblind : sys.Blind R (fun _ => True) (k r) := hin.blind i _ hl
        have hrun := inStep_run (i := i) (c := c) hin past hblind
        simp only [System.ends, hl]
        refine ⟨_, ?_, hrun⟩
        simp [System.follow, System.step, System.ends, hin.threads, hl]
  | env m =>
    obtain ⟨t, ht, rfl⟩ := Option.map_eq_some_iff.mp hstep
    obtain ⟨t', ht', hR⟩ := henv m _ _ t rfl hin.shared ht
    refine ⟨⟨⟨t', h'.config.threads⟩, h'.ended⟩, ?_, hR, hin.threads, ?_, hin.blind⟩
    · simp [System.follow, System.step, System.ends, ht']
    · simp [System.ends, hin.ended]

/-- A hidden move of the environment, in one of the two runs. -/
theorem hidden_inStep (hin : sys.InStep R h h') {m : η} (hs : sys.follow h (.env m) = some h₁)
    (henv : ∀ s s' t, R s s' → sys.env m s = some t → R t s') : sys.InStep R h₁ h' := by
  obtain ⟨cfg, hstep, rfl⟩ := Option.map_eq_some_iff.mp hs
  obtain ⟨t, ht, rfl⟩ := Option.map_eq_some_iff.mp hstep
  exact ⟨henv _ _ t hin.shared ht, hin.threads, by simp [System.ends, hin.ended], hin.blind⟩

/-! ## Runs -/

/-- The events without the hidden moves of the environment. -/
def Event.shown (hidden : η → Bool) : Event κ χ η ι → Bool
  | .env m => !hidden m
  | _ => true

/-- **Runs in lockstep**: from a related state, the events without the hidden moves lead to the
same calls in progress, and to the same results of those that are over. -/
theorem follow_blind {ok : History S κ ρ σ ι → Event κ χ η ι → Prop} {hidden : η → Bool}
    {es : List (Event κ χ η ι)} (hrun : Run sys.follow ok (History.start s) es h) (hR : R s s')
    (hcode : ∀ h i c, ok h (.start i c) → sys.Blind R (fun _ => True) (sys.code c))
    (hseen : ∀ m s s' t, hidden m = false → R s s' → sys.env m s = some t →
      ∃ t', sys.env m s' = some t' ∧ R t t')
    (hhidden : ∀ m s s' t, hidden m = true → R s s' → sys.env m s = some t → R t s') :
    ∃ h', Run sys.follow (fun _ _ => True) (History.start s') (es.filter (Event.shown hidden)) h' ∧
      sys.InStep R h h' := by
  induction hrun with
  | nil => exact ⟨_, .nil, hR, rfl, rfl, fun i th hi => by cases hi⟩
  | @snoc es h h₁ e hpre hok hs ih =>
    obtain ⟨h', hrun', hin⟩ := ih
    rw [List.filter_append]
    by_cases hshown : Event.shown hidden e = true
    · obtain ⟨h₁', hs', hin'⟩ := follow_inStep hin hs (fun i c he => hcode h i c (he ▸ hok))
        fun m s s' t he => hseen m s s' t (by simpa [he, Event.shown] using hshown)
      rw [List.filter_cons_of_pos hshown, List.filter_nil]
      exact ⟨h₁', hrun'.snoc trivial hs', hin'⟩
    · rw [List.filter_cons_of_neg hshown, List.filter_nil, List.append_nil]
      cases e with
      | env m =>
        have hm : hidden m = true := by simpa [Event.shown] using hshown
        exact ⟨h', hrun', hidden_inStep hin hs (fun s s' t => hhidden m s s' t hm)⟩
      | start i c => exact absurd rfl hshown
      | settle i x => exact absurd rfl hshown
      | resume i => exact absurd rfl hshown

end Follow

end Async
