import FleetTracking.Lib.Ending

/-!
# Typestates for Interleaved Calls

What a call may do next depends on what it has done so far. A `Typestate` abstracts the
past of a call to a *phase* and says which operations and actions are allowed in which
phase. That a function follows its typestate is a property of its code alone,
`Typestate.Conforms`, with one rule for each construct of the language; it is a weakest
precondition in which the phase is the only state.

The invariant rule `Follows.invariant` lifts this to every interleaving: an invariant
that relates the shared state to the phases of the running calls, and to the calls that are
over, holds in every state reached, if one operation, one action, the start and the end of
one call preserve it. In these obligations the code of the calls no longer occurs.
`Preserves.invariant` is the rule for invariants that do not speak about the calls that are
over.

## Main results

- `Typestate.conforms_bind`, `Conforms.bind`, `conforms_attempt`, …: the rules.
- `Typestate.Follows.invariant`, `Typestate.Preserves.invariant`: the invariant rules for
  interleaved runs.
-/

namespace Async

variable {S : Sig} {κ ρ σ χ η ι α β : Type}

/-- The phases of a call and what it may do in each of them. -/
structure Typestate (S : Sig) (κ ρ : Type) where
  -- The phases.
  Phase : Type
  -- The phase in which a call starts.
  init : κ → Phase
  -- The phase after one more thing was seen.
  next : Phase → Seen S → Phase
  -- The operations that may be awaited in a phase.
  may : Phase → S.Op → Prop
  -- The actions that may be performed in a phase.
  mayAct : Phase → S.Act → Prop
  -- The results with which a call may end in a phase.
  done : Phase → Except S.Err ρ → Prop

namespace Typestate

variable (T : Typestate S κ ρ)

/-- From phase `q` on, `x` only does what the typestate allows, and where it ends, `post`
holds of the phase and the result. -/
def Conforms (x : Async S α) (q : T.Phase) (post : T.Phase → Except S.Err α → Prop) : Prop :=
  match x with
  | .pure a => post q (.ok a)
  | .throw e => post q (.error e)
  | .await op k => T.may q op ∧ ∀ r, Conforms (k r) (T.next q (.answered op r)) post
  | .act a k => T.mayAct q a ∧ ∀ r, Conforms (k r) (T.next q (.did a r)) post

/-- The condition under which `f` may take over from a computation that ended. -/
def andThen (f : α → Async S β) (post : T.Phase → Except S.Err β → Prop) (q : T.Phase) :
    Except S.Err α → Prop
  | .ok a => T.Conforms (f a) q post
  | .error e => post q (.error e)

/-- The condition under which the handler `h` may take over from a computation that ended. -/
def orElse (h : S.Err → Async S α) (post : T.Phase → Except S.Err α → Prop) (q : T.Phase) :
    Except S.Err α → Prop
  | .ok a => post q (.ok a)
  | .error e => T.Conforms (h e) q post

/-! ## Rules -/

section Rules

variable {T} {q : T.Phase} {post post' : T.Phase → Except S.Err α → Prop}

@[simp] theorem conforms_pure {a : α} :
    T.Conforms (Pure.pure a : Async S α) q post ↔ post q (.ok a) := Iff.rfl

@[simp] theorem conforms_throw {e : S.Err} :
    T.Conforms (MonadExcept.throw e : Async S α) q post ↔ post q (.error e) := Iff.rfl

theorem conforms_bind {x : Async S α} {f : α → Async S β}
    {post : T.Phase → Except S.Err β → Prop} :
    T.Conforms (x >>= f) q post ↔ T.Conforms x q (T.andThen f post) := by
  induction x generalizing q with
  | pure a => exact Iff.rfl
  | throw e => exact Iff.rfl
  | await op k ih =>
    simp only [await_bind, Conforms]
    exact and_congr_right fun _ => forall_congr' fun r => ih r
  | act a k ih =>
    simp only [act_bind, Conforms]
    exact and_congr_right fun _ => forall_congr' fun r => ih r

theorem conforms_attempt {x : Async S α} {h : S.Err → Async S α} :
    T.Conforms (tryCatchThe S.Err x h) q post ↔ T.Conforms x q (T.orElse h post) := by
  induction x generalizing q with
  | pure a => exact Iff.rfl
  | throw e => exact Iff.rfl
  | await op k ih => exact and_congr_right fun _ => forall_congr' fun r => ih r
  | act a k ih => exact and_congr_right fun _ => forall_congr' fun r => ih r

theorem Conforms.mono {x : Async S α} (h : T.Conforms x q post)
    (himp : ∀ q r, post q r → post' q r) : T.Conforms x q post' := by
  induction x generalizing q with
  | pure a => exact himp _ _ h
  | throw e => exact himp _ _ h
  | await op k ih => exact ⟨h.1, fun r => ih r (h.2 r)⟩
  | act a k ih => exact ⟨h.1, fun r => ih r (h.2 r)⟩

/-- Await one operation. -/
theorem conforms_perform {op : S.Op} {post : T.Phase → Except S.Err (S.Res op) → Prop} :
    T.Conforms (perform op) q post ↔
      T.may q op ∧ ∀ r, post (T.next q (.answered op r)) r := by
  refine and_congr_right fun _ => forall_congr' fun r => ?_
  cases r with
  | ok a => exact Iff.rfl
  | error e => exact Iff.rfl

/-- Await one operation: what it answers, and how it fails. -/
theorem Conforms.perform_cases {op : S.Op} {post : T.Phase → Except S.Err (S.Res op) → Prop}
    (hmay : T.may q op) (hok : ∀ a, post (T.next q (.answered op (.ok a))) (.ok a))
    (herr : ∀ e, post (T.next q (.answered op (.error e))) (.error e)) :
    T.Conforms (perform op) q post := by
  refine conforms_perform.mpr ⟨hmay, fun r => ?_⟩
  cases r with
  | ok a => exact hok a
  | error e => exact herr e

/-- Perform one action. -/
theorem conforms_action {a : S.Act} {post : T.Phase → Except S.Err (S.Ret a) → Prop} :
    T.Conforms (action a) q post ↔
      T.mayAct q a ∧ ∀ r, post (T.next q (.did a r)) (.ok r) := Iff.rfl

theorem conforms_ofExcept {x : Except S.Err α} :
    T.Conforms (ofExcept x) q post ↔ post q x := by
  cases x with
  | ok a => exact Iff.rfl
  | error e => exact Iff.rfl

/-- Sequencing, from what the first part leaves behind. -/
theorem Conforms.bind {x : Async S α} {f : α → Async S β} {mid : T.Phase → Except S.Err α → Prop}
    {post : T.Phase → Except S.Err β → Prop} (hx : T.Conforms x q mid)
    (hok : ∀ q' a, mid q' (.ok a) → T.Conforms (f a) q' post)
    (herr : ∀ q' e, mid q' (.error e) → post q' (.error e)) : T.Conforms (x >>= f) q post := by
  apply conforms_bind.mpr
  apply hx.mono
  intro q' r hr
  cases r with
  | ok a => exact hok q' a hr
  | error e => exact herr q' e hr

/-- Handling errors, from what the body leaves behind. -/
theorem Conforms.attempt {x : Async S α} {h : S.Err → Async S α}
    {mid : T.Phase → Except S.Err α → Prop} (hx : T.Conforms x q mid)
    (hok : ∀ q' a, mid q' (.ok a) → post q' (.ok a))
    (herr : ∀ q' e, mid q' (.error e) → T.Conforms (h e) q' post) :
    T.Conforms (tryCatchThe S.Err x h) q post := by
  apply conforms_attempt.mpr
  apply hx.mono
  intro q' r hr
  cases r with
  | ok a => exact hok q' a hr
  | error e => exact herr q' e hr

/-- Await an operation and go on. -/
theorem Conforms.perform_bind {op : S.Op} {f : S.Res op → Async S β}
    {post : T.Phase → Except S.Err β → Prop} (hmay : T.may q op)
    (hok : ∀ a, T.Conforms (f a) (T.next q (.answered op (.ok a))) post)
    (herr : ∀ e, post (T.next q (.answered op (.error e))) (.error e)) :
    T.Conforms (perform op >>= f) q post := by
  apply conforms_bind.mpr
  apply conforms_perform.mpr
  refine ⟨hmay, fun r => ?_⟩
  cases r with
  | ok a => exact hok a
  | error e => exact herr e

/-- Perform an action and go on. -/
theorem Conforms.action_bind {a : S.Act} {f : S.Ret a → Async S β}
    {post : T.Phase → Except S.Err β → Prop} (hmay : T.mayAct q a)
    (hk : ∀ r, T.Conforms (f r) (T.next q (.did a r)) post) :
    T.Conforms (action a >>= f) q post :=
  ⟨hmay, hk⟩

end Rules

/-! ## Phases of the running calls -/

variable {T} [DecidableEq ι]

/-- The phase a call is in. -/
def phaseOf (T : Typestate S κ ρ) (th : Thread S κ ρ) : T.Phase :=
  th.past.foldl T.next (T.init th.call)

/-- The calls in progress with their phases. -/
def phases (T : Typestate S κ ρ) (cfg : Config S κ ρ σ ι) (i : ι) : Option (κ × T.Phase) :=
  (cfg.threads.lookup i).map fun th => (th.call, T.phaseOf th)

/-- The code a running call has still to do conforms to the typestate at its phase. -/
def Threaded (T : Typestate S κ ρ) (th : Thread S κ ρ) : Prop :=
  match th.reply with
  | none => T.may (T.phaseOf th) th.op ∧
      ∀ r, T.Conforms (th.next r) (T.next (T.phaseOf th) (.answered th.op r)) T.done
  | some r => T.Conforms (th.next r) (T.phaseOf th) T.done

theorem phases_of_lookup {cfg : Config S κ ρ σ ι} {i : ι} {th : Thread S κ ρ}
    (h : cfg.threads.lookup i = some th) : T.phases cfg i = some (th.call, T.phaseOf th) := by
  simp only [phases, h, Option.map_some]

theorem phases_insert (cfg : Config S κ ρ σ ι) (s : σ) (i : ι) (th : Thread S κ ρ) :
    T.phases ⟨s, cfg.threads.insert i th⟩ =
      Function.update (T.phases cfg) i (some (th.call, T.phaseOf th)) := by
  funext j
  by_cases hj : j = i
  · subst hj
    simp [phases, AList.lookup_insert]
  · simp [phases, AList.lookup_insert_ne hj, Function.update_of_ne hj]

theorem phases_erase (cfg : Config S κ ρ σ ι) (s : σ) (i : ι) :
    T.phases ⟨s, cfg.threads.erase i⟩ = Function.update (T.phases cfg) i none := by
  funext j
  by_cases hj : j = i
  · subst hj
    simp [phases, AList.lookup_erase]
  · simp [phases, AList.lookup_erase_ne hj, Function.update_of_ne hj]

/-- The calls in progress after call `i` has moved. -/
theorem update_some_iff {ω : Type} {ph : ι → Option ω} {i j : ι} {x y : ω} :
    Function.update ph i (some x) j = some y ↔ (j = i ∧ x = y) ∨ (j ≠ i ∧ ph j = some y) := by
  by_cases hj : j = i
  · subst hj
    simp
  · simp [hj]

/-- The calls in progress after call `i` has ended. -/
theorem update_none_iff {ω : Type} {ph : ι → Option ω} {i j : ι} {y : ω} :
    Function.update ph i none j = some y ↔ j ≠ i ∧ ph j = some y := by
  by_cases hj : j = i
  · subst hj
    simp
  · simp [hj]

theorem phaseOf_snoc (c : κ) (past : List (Seen S)) (e : Seen S) :
    (past ++ [e]).foldl T.next (T.init c) = T.next (past.foldl T.next (T.init c)) e := by
  rw [List.foldl_append, List.foldl_cons, List.foldl_nil]

/-! ## The invariant rule -/

/-- What has to be shown for an invariant `J` of the shared state, the phases, and the calls that
are over. -/
structure Follows (sys : System S ι κ ρ σ χ η) (T : Typestate S κ ρ)
    (ok : History S κ ρ σ ι → Event κ χ η ι → Prop)
    (J : σ → (ι → Option (κ × T.Phase)) → List (Ended S κ ρ ι) → Prop) : Prop where
  -- Every call follows the typestate.
  code : ∀ c, T.Conforms (sys.code c) (T.init c) T.done
  -- A call starts.
  start : ∀ h i c, J h.config.shared (T.phases h.config) h.ended →
    h.config.threads.lookup i = none → ok h (.start i c) →
    J h.config.shared (Function.update (T.phases h.config) i (some (c, T.init c))) h.ended
  -- A call performs an action.
  act : ∀ s ph ended i c q a, J s ph ended → ph i = some (c, q) → T.mayAct q a →
    J (sys.act i c a s).1
      (Function.update ph i (some (c, T.next q (.did a (sys.act i c a s).2)))) ended
  -- The operation a call awaits takes effect.
  settle : ∀ h i th x s' r, J h.config.shared (T.phases h.config) h.ended →
    h.config.threads.lookup i = some th → T.may (T.phaseOf th) th.op → ok h (.settle i x) →
    sys.settle i th.call th.op x h.config.shared = some (s', r) →
    J s' (Function.update (T.phases h.config) i
      (some (th.call, T.next (T.phaseOf th) (.answered th.op r)))) h.ended
  -- A call ends.
  finish : ∀ s ph ended i c q r, J s ph ended → ph i = some (c, q) → T.done q r →
    J s (Function.update ph i none) (ended ++ [(i, c, r)])
  -- The environment moves.
  env : ∀ h e s', J h.config.shared (T.phases h.config) h.ended → ok h (.env e) →
    sys.env e h.config.shared = some s' → J s' (T.phases h.config) h.ended

/-- The invariant of the rule: `J`, and every running call conforms at its phase. -/
def GoodHistory (T : Typestate S κ ρ)
    (J : σ → (ι → Option (κ × T.Phase)) → List (Ended S κ ρ ι) → Prop)
    (h : History S κ ρ σ ι) : Prop :=
  J h.config.shared (T.phases h.config) h.ended ∧
    ∀ i th, h.config.threads.lookup i = some th → T.Threaded th

section Rule

variable {sys : System S ι κ ρ σ χ η}
  {ok : History S κ ρ σ ι → Event κ χ η ι → Prop}
  {J : σ → (ι → Option (κ × T.Phase)) → List (Ended S κ ρ ι) → Prop}

/-- Running synchronous code preserves the invariant. The induction is on the code: each action is
one step of the invariant. -/
private theorem advance_follows (hp : Follows sys T ok J) {i : ι} {c : κ}
    (code : Async S ρ) (past : List (Seen S)) (s : σ) (ph : ι → Option (κ × T.Phase))
    (ended : List (Ended S κ ρ ι))
    (hcode : T.Conforms code (past.foldl T.next (T.init c)) T.done)
    (hJ : J s (Function.update ph i (some (c, past.foldl T.next (T.init c)))) ended) :
    match sys.advance i c code past s with
    | (s', _, .finished r) => J s' (Function.update ph i none) (ended ++ [(i, c, r)])
    | (s', past', .awaiting op k) =>
      J s' (Function.update ph i (some (c, past'.foldl T.next (T.init c)))) ended ∧
        T.Threaded ⟨c, past', op, k, none⟩ := by
  induction code generalizing past s with
  | pure a =>
    have h := hp.finish s _ ended i c _ _ hJ (Function.update_self ..) hcode
    rwa [Function.update_idem] at h
  | throw e =>
    have h := hp.finish s _ ended i c _ _ hJ (Function.update_self ..) hcode
    rwa [Function.update_idem] at h
  | await op k ih => exact ⟨hJ, hcode⟩
  | act a k ih =>
    have h := hp.act s _ ended i c _ a hJ (Function.update_self ..) hcode.1
    rw [Function.update_idem, ← phaseOf_snoc] at h
    have hk := hcode.2 (sys.act i c a s).2
    rw [← phaseOf_snoc] at hk
    exact ih _ _ _ hk h

private theorem run_follows (hp : Follows sys T ok J) {h : History S κ ρ σ ι} {i : ι} {c : κ}
    {code : Async S ρ} {past : List (Seen S)}
    (hcode : T.Conforms code (past.foldl T.next (T.init c)) T.done)
    (hJ : J h.config.shared (Function.update (T.phases h.config) i
      (some (c, past.foldl T.next (T.init c)))) h.ended)
    (hth : ∀ j th, h.config.threads.lookup j = some th → T.Threaded th) :
    GoodHistory T J ⟨sys.run i c code past h.config, h.ended ++
      ((sys.advance i c code past h.config.shared).2.2.result.map (i, c, ·)).toList⟩ := by
  -- what runs up to the next await keeps the invariant; the halt says whether the call is over
  have hadvance := advance_follows hp code past _ _ _ hcode hJ
  rcases hadv : sys.advance i c code past h.config.shared with ⟨s', past', halt⟩
  rw [hadv] at hadvance
  simp only [System.run, hadv]
  cases halt with
  | finished r =>
    refine ⟨?_, fun j th hj => ?_⟩
    · rw [phases_erase]
      exact hadvance
    · have hji : j ≠ i := by
        rintro rfl
        simp at hj
      rw [AList.lookup_erase_ne hji] at hj
      exact hth j th hj
  | awaiting op k =>
    refine ⟨?_, fun j th hj => ?_⟩
    · rw [phases_insert]
      simpa [Halt.result, phaseOf] using hadvance.1
    · rcases lookup_insert_iff.mp hj with ⟨-, rfl⟩ | ⟨-, hj⟩
      · exact hadvance.2
      · exact hth j th hj

/-- One event preserves the invariant. -/
theorem follow_good (hp : Follows sys T ok J) {h h' : History S κ ρ σ ι} {e : Event κ χ η ι}
    (hg : GoodHistory T J h) (hok : ok h e) (hs : sys.follow h e = some h') :
    GoodHistory T J h' := by
  obtain ⟨hJ, hth⟩ := hg
  obtain ⟨cfg, hstep, rfl⟩ := Option.map_eq_some_iff.mp hs
  cases e with
  | start i c =>
    simp only [System.step] at hstep
    split at hstep
    case h_1 hnone =>
      cases hstep
      simp only [System.ends, hnone]
      -- a new thread runs from the call's code to its first await
      exact run_follows hp (hp.code c) (hp.start h i c hJ hnone hok) hth
    case h_2 => cases hstep
  | settle i x =>
    simp only [System.step] at hstep
    split at hstep
    case h_1 c past op k hi =>
      have hmay := hth i _ hi
      split at hstep
      case h_1 s r hset =>
        cases hstep
        simp only [System.ends, Option.toList_none, List.append_nil]
        -- the answer moves the phase of i; the threads beside it are as they were
        refine ⟨?_, fun j th hj => ?_⟩
        · rw [phases_insert, phaseOf, phaseOf_snoc]
          exact hp.settle h i _ x s r hJ hi hmay.1 hok hset
        · rcases lookup_insert_iff.mp hj with ⟨-, rfl⟩ | ⟨-, hj⟩
          · simp only [Threaded, phaseOf, phaseOf_snoc]
            exact hmay.2 r
          · exact hth j th hj
      case h_2 => cases hstep
    case h_2 => cases hstep
  | resume i =>
    simp only [System.step] at hstep
    split at hstep
    case h_1 c past op k r hi =>
      cases hstep
      simp only [System.ends, hi]
      refine run_follows hp (hth i _ hi) ?_ hth
      -- resuming moves no phase: the answer is in the past already
      have hself : Function.update (T.phases h.config) i
          (some (c, past.foldl T.next (T.init c))) = T.phases h.config := by
        rw [Function.update_eq_self_iff]
        exact (phases_of_lookup hi).symm
      rw [hself]
      exact hJ
    case h_2 => cases hstep
  | env e =>
    obtain ⟨s', henv, rfl⟩ := Option.map_eq_some_iff.mp hstep
    simp only [System.ends, Option.toList_none, List.append_nil]
    exact ⟨hp.env h e s' hJ hok henv, hth⟩

/-- **Invariant rule for interleaved calls and their results.** -/
theorem Follows.invariant (hp : Follows sys T ok J) {s₀ : σ} (hinit : J s₀ (fun _ => none) [])
    {es : List (Event κ χ η ι)} {h : History S κ ρ σ ι}
    (hrun : Transition.Run sys.follow ok (History.start s₀) es h) :
    J h.config.shared (T.phases h.config) h.ended := by
  have hstart : GoodHistory T J (History.start s₀) := by
    refine ⟨hinit, fun i th hi => ?_⟩
    simp [History.start, Config.start] at hi
  exact (hrun.invariant hstart fun _ _ _ hg hok hs => follow_good hp hg hok hs).1

end Rule

/-! ## Invariants of the calls in progress -/

/-- What has to be shown for an invariant `J` of the shared state and the phases: that it
is preserved by everything a call can do in the phase it is in. -/
structure Preserves (sys : System S ι κ ρ σ χ η) (T : Typestate S κ ρ)
    (ok : Config S κ ρ σ ι → Event κ χ η ι → Prop)
    (J : σ → (ι → Option (κ × T.Phase)) → Prop) : Prop where
  -- Every call follows the typestate.
  code : ∀ c, T.Conforms (sys.code c) (T.init c) T.done
  -- A call starts.
  start : ∀ cfg i c, J cfg.shared (T.phases cfg) → cfg.threads.lookup i = none →
    ok cfg (.start i c) →
    J cfg.shared (Function.update (T.phases cfg) i (some (c, T.init c)))
  -- A call performs an action.
  act : ∀ s ph i c q a, J s ph → ph i = some (c, q) → T.mayAct q a →
    J (sys.act i c a s).1
      (Function.update ph i (some (c, T.next q (.did a (sys.act i c a s).2))))
  -- The operation a call awaits takes effect.
  settle : ∀ cfg i th x s' r, J cfg.shared (T.phases cfg) → cfg.threads.lookup i = some th →
    T.may (T.phaseOf th) th.op → ok cfg (.settle i x) →
    sys.settle i th.call th.op x cfg.shared = some (s', r) →
    J s' (Function.update (T.phases cfg) i
      (some (th.call, T.next (T.phaseOf th) (.answered th.op r))))
  -- A call ends.
  finish : ∀ s ph i c q r, J s ph → ph i = some (c, q) → T.done q r →
    J s (Function.update ph i none)
  -- The environment moves.
  env : ∀ cfg e s', J cfg.shared (T.phases cfg) → ok cfg (.env e) →
    sys.env e cfg.shared = some s' → J s' (T.phases cfg)

/-- The invariant of the rule: `J`, and every running call conforms at its phase. -/
def Good (T : Typestate S κ ρ) (J : σ → (ι → Option (κ × T.Phase)) → Prop)
    (cfg : Config S κ ρ σ ι) : Prop :=
  J cfg.shared (T.phases cfg) ∧ ∀ i th, cfg.threads.lookup i = some th → T.Threaded th

section Rule

variable {sys : System S ι κ ρ σ χ η} {ok : Config S κ ρ σ ι → Event κ χ η ι → Prop}
  {J : σ → (ι → Option (κ × T.Phase)) → Prop}

/-- The rule without the calls that are over. -/
theorem Preserves.follows (hp : Preserves sys T ok J) :
    Follows sys T (fun h e => ok h.config e) fun s ph _ => J s ph where
  code := hp.code
  start h := hp.start h.config
  act s ph _ := hp.act s ph
  settle h := hp.settle h.config
  finish s ph _ := hp.finish s ph
  env h := hp.env h.config

/-- One event preserves the invariant. -/
theorem step_good (hp : Preserves sys T ok J) {cfg cfg' : Config S κ ρ σ ι}
    {e : Event κ χ η ι} (hg : Good T J cfg) (hok : ok cfg e)
    (hs : sys.step cfg e = some cfg') : Good T J cfg' := by
  have hgood : GoodHistory T (fun s ph _ => J s ph) ⟨cfg, []⟩ := hg
  have hfollow : sys.follow ⟨cfg, []⟩ e = some ⟨cfg', [] ++ (sys.ends cfg e).toList⟩ := by
    rw [System.follow, hs, Option.map_some]
  exact follow_good hp.follows hgood hok hfollow

theorem good_start {s₀ : σ} (hinit : J s₀ fun _ => none) : Good T J (Config.start s₀) := by
  refine ⟨hinit, fun i th hi => ?_⟩
  simp [Config.start] at hi

/-- **Invariant rule for interleaved calls.** An invariant of the shared state and the
phases that holds when no call runs and is preserved by what calls and environment can do
holds in every state of every admitted interleaving. -/
theorem Preserves.invariant (hp : Preserves sys T ok J) {s₀ : σ} (hinit : J s₀ fun _ => none)
    {es : List (Event κ χ η ι)} {cfg : Config S κ ρ σ ι}
    (hrun : Transition.Run sys.step ok (Config.start s₀) es cfg) :
    J cfg.shared (T.phases cfg) :=
  (hrun.invariant (good_start hinit) fun _ _ _ hg hok hs => step_good hp hg hok hs).1

/-- A call whose operation takes effect was awaiting one that its phase allows. -/
theorem may_of_settle {cfg cfg' : Config S κ ρ σ ι} (hth : ∀ i th, cfg.threads.lookup i = some th →
      T.Threaded th) {i : ι} {x : χ} {th : Thread S κ ρ} (hi : cfg.threads.lookup i = some th)
    (hs : sys.step cfg (.settle i x) = some cfg') :
    T.may (T.phaseOf th) th.op ∧
      ∃ r, sys.settle i th.call th.op x cfg.shared = some (cfg'.shared, r) := by
  have hthread := hth i th hi
  obtain ⟨c, past, op, k, reply⟩ := th
  simp only [System.step, hi] at hs
  cases reply with
  | some r => cases hs
  | none =>
    simp only at hs
    split at hs
    case h_1 s r hset =>
      cases hs
      exact ⟨hthread.1, r, hset⟩
    case h_2 => cases hs

/-- **Exactness rule for interleaved calls.** If every step that leads to `P` meets the
condition, `P` holds all along an interleaving exactly if all its steps do. -/
theorem Preserves.always_iff (hp : Preserves sys T ok J) {P : Config S κ ρ σ ι → Prop} {s₀ : σ}
    {ok' : Config S κ ρ σ ι → Event κ χ η ι → Prop}
    (hinit : J s₀ fun _ => none) (hP : ∀ cfg, Good T J cfg → P cfg)
    (hback : ∀ cfg e cfg', Good T J cfg → ok' cfg e → sys.step cfg e = some cfg' → P cfg' →
      ok cfg e)
    {es : List (Event κ χ η ι)} {cfg : Config S κ ρ σ ι}
    (hrun : Transition.Run sys.step ok' (Config.start s₀) es cfg) :
    Transition.Always sys.step ok' (Config.start s₀) es P ↔
      Transition.Run sys.step ok (Config.start s₀) es cfg :=
  hrun.always_iff (good_start hinit) hP (fun _ _ _ hg hok hs => step_good hp hg hok hs) hback

end Rule

end Typestate

end Async
