import FleetTracking.Lib.Execution

/-!
# What Calls Run to Completion Do

`World.Ends` is a weakest precondition for calls that run from start to end with nothing in
between: whatever the outcomes of their operations, as far as `may` allows them, a property
holds of the result and of the state where the call is over.

1. The rules: one for each construct of the language.
2. `Ends.of_exec`: what the rules prove holds of every execution.
3. `World.Maintains`: a property of the state that a call keeps, with the same rules.
-/

namespace Async

variable {S : Sig} {ι κ σ χ α β : Type}

/-- Where `x`, started in `s`, is over, `Q` holds of its result and the state. -/
def World.Ends (W : World S ι κ σ χ) (i : ι) (c : κ) (may : χ → Prop)
    (Q : Except S.Err α → σ → Prop) : Async S α → σ → Prop
  | .pure a, s => Q (.ok a) s
  | .throw e, s => Q (.error e) s
  | .await op k, s =>
    ∀ x, may x → ∀ out, W.settle i c op x s = some out → W.Ends i c may Q (k out.2) out.1
  | .act a k, s => W.Ends i c may Q (k (W.act i c a s).2) (W.act i c a s).1

section Rules

variable {W : World S ι κ σ χ} {i : ι} {c : κ} {may : χ → Prop} {s : σ}

/-- What must hold where a computation ends that `f` continues. -/
def World.thenEnds (W : World S ι κ σ χ) (i : ι) (c : κ) (may : χ → Prop) (f : α → Async S β)
    (Q : Except S.Err β → σ → Prop) : Except S.Err α → σ → Prop
  | .ok a, s => W.Ends i c may Q (f a) s
  | .error e, s => Q (.error e) s

/-- What must hold where a computation ends whose errors `h` handles. -/
def World.elseEnds (W : World S ι κ σ χ) (i : ι) (c : κ) (may : χ → Prop) (h : S.Err → Async S α)
    (Q : Except S.Err α → σ → Prop) : Except S.Err α → σ → Prop
  | .ok a, s => Q (.ok a) s
  | .error e, s => W.Ends i c may Q (h e) s

@[simp] theorem ends_pure {Q : Except S.Err α → σ → Prop} {a : α} :
    W.Ends i c may Q (Pure.pure a) s ↔ Q (.ok a) s := Iff.rfl

@[simp] theorem ends_throw {Q : Except S.Err α → σ → Prop} {e : S.Err} :
    W.Ends i c may Q (MonadExcept.throw e) s ↔ Q (.error e) s := Iff.rfl

theorem ends_bind {x : Async S α} {f : α → Async S β} {Q : Except S.Err β → σ → Prop} :
    W.Ends i c may Q (x >>= f) s ↔ W.Ends i c may (W.thenEnds i c may f Q) x s := by
  induction x generalizing s with
  | pure a => exact Iff.rfl
  | throw e => exact Iff.rfl
  | await op k ih =>
    simp only [await_bind, World.Ends]
    exact forall_congr' fun x => imp_congr_right fun _ => forall_congr' fun out =>
      imp_congr_right fun _ => ih out.2
  | act a k ih =>
    simp only [act_bind, World.Ends]
    exact ih _

theorem ends_attempt {x : Async S α} {h : S.Err → Async S α} {Q : Except S.Err α → σ → Prop} :
    W.Ends i c may Q (tryCatchThe S.Err x h) s ↔
      W.Ends i c may (W.elseEnds i c may h Q) x s := by
  induction x generalizing s with
  | pure a => exact Iff.rfl
  | throw e => exact Iff.rfl
  | await op k ih =>
    exact forall_congr' fun x => imp_congr_right fun _ => forall_congr' fun out =>
      imp_congr_right fun _ => ih out.2
  | act a k ih => exact ih _

theorem Ends.mono {x : Async S α} {Q Q' : Except S.Err α → σ → Prop} (h : W.Ends i c may Q x s)
    (himp : ∀ r s', Q r s' → Q' r s') : W.Ends i c may Q' x s := by
  induction x generalizing s with
  | pure a => exact himp _ _ h
  | throw e => exact himp _ _ h
  | await op k ih => exact fun x hx out hout => ih out.2 (h x hx out hout)
  | act a k ih => exact ih _ h

/-- Sequencing, from what the first part leaves behind. -/
theorem Ends.bind {x : Async S α} {f : α → Async S β} {mid : Except S.Err α → σ → Prop}
    {Q : Except S.Err β → σ → Prop} (hx : W.Ends i c may mid x s)
    (hok : ∀ a s', mid (.ok a) s' → W.Ends i c may Q (f a) s')
    (herr : ∀ e s', mid (.error e) s' → Q (.error e) s') : W.Ends i c may Q (x >>= f) s := by
  apply ends_bind.mpr
  apply Ends.mono hx
  intro r s' hr
  cases r with
  | ok a => exact hok a s' hr
  | error e => exact herr e s' hr

/-- Await one operation. -/
theorem ends_perform {op : S.Op} {Q : Except S.Err (S.Res op) → σ → Prop} :
    W.Ends i c may Q (perform op) s ↔
      ∀ x, may x → ∀ out, W.settle i c op x s = some out → Q out.2 out.1 := by
  refine forall_congr' fun x => imp_congr_right fun _ => forall_congr' fun out =>
    imp_congr_right fun _ => ?_
  cases out.2 with
  | ok a => exact Iff.rfl
  | error e => exact Iff.rfl

theorem ends_ofExcept {x : Except S.Err α} {Q : Except S.Err α → σ → Prop} :
    W.Ends i c may Q (ofExcept x) s ↔ Q x s := by
  cases x with
  | ok a => exact Iff.rfl
  | error e => exact Iff.rfl

/-- What the rules prove holds of every execution. -/
theorem Ends.of_exec {x : Async S α} {Q : Except S.Err α → σ → Prop} {ω : Nat → χ} {n n' : Nat}
    {r : Except S.Err α} {s' : σ} (h : W.Ends i c may Q x s) (hω : ∀ n, may (ω n))
    (hexec : W.exec i c ω x n s = some (r, n', s')) : Q r s' := by
  induction x generalizing n s with
  | pure a =>
    cases hexec
    exact h
  | throw e =>
    cases hexec
    exact h
  | await op k ih =>
    obtain ⟨out, hout, hrest⟩ := Option.bind_eq_some_iff.mp hexec
    exact ih out.2 (h (ω n) (hω n) out hout) hrest
  | act a k ih => exact ih _ h hexec

end Rules

/-! ## Invariants -/

/-- Wherever `I` holds where `x` starts, it holds where `x` is over. -/
def World.Maintains (W : World S ι κ σ χ) (i : ι) (c : κ) (may : χ → Prop) (I : σ → Prop)
    (x : Async S α) : Prop :=
  ∀ s, I s → W.Ends i c may (fun _ s' => I s') x s

section Maintains

variable {W : World S ι κ σ χ} {i : ι} {c : κ} {may : χ → Prop} {I : σ → Prop}

theorem maintains_pure (a : α) : W.Maintains i c may I (Pure.pure a : Async S α) :=
  fun _ hs => hs

theorem maintains_throw (e : S.Err) :
    W.Maintains i c may I (MonadExcept.throw e : Async S α) := fun _ hs => hs

theorem maintains_bind {x : Async S α} {f : α → Async S β} (hx : W.Maintains i c may I x)
    (hf : ∀ a, W.Maintains i c may I (f a)) : W.Maintains i c may I (x >>= f) :=
  fun s hs => Ends.bind (hx s hs) (fun a s' hs' => hf a s' hs') fun _ _ hs' => hs'

theorem maintains_attempt {x : Async S α} {h : S.Err → Async S α}
    (hx : W.Maintains i c may I x) (hh : ∀ e, W.Maintains i c may I (h e)) :
    W.Maintains i c may I (tryCatchThe S.Err x h) := by
  intro s hs
  apply ends_attempt.mpr
  apply Ends.mono (hx s hs)
  intro r s' hs'
  cases r with
  | ok a => exact hs'
  | error e => exact hh e s' hs'

theorem maintains_perform {op : S.Op}
    (h : ∀ s x out, I s → may x → W.settle i c op x s = some out → I out.1) :
    W.Maintains i c may I (perform op) :=
  fun s hs => ends_perform.mpr fun x hx out hout => h s x out hs hx hout

/-- What every operation and every action keeps, every call keeps. -/
theorem maintains_of_forall
    (hop : ∀ op s x out, I s → may x → W.settle i c op x s = some out → I out.1)
    (hact : ∀ a s, I s → I (W.act i c a s).1) (x : Async S α) : W.Maintains i c may I x := by
  induction x with
  | pure a => exact maintains_pure a
  | throw e => exact maintains_throw e
  | await op k ih =>
    exact fun s hs x hx out hout => ih out.2 out.1 (hop op s x out hs hx hout)
  | act a k ih => exact fun s hs => ih _ _ (hact a s hs)

theorem maintains_ofExcept (x : Except S.Err α) : W.Maintains i c may I (ofExcept x) :=
  fun _ hs => ends_ofExcept.mpr hs

end Maintains

end Async
