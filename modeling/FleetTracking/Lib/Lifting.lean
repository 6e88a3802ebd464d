import FleetTracking.Lib.Completion

/-!
# Code over a Part of a Signature

A program may use only some of the operations and actions that there are, and see only a component
of the state. It is then a program over all of them as well.

1. `Sig.part`, `lift`: the smaller signature, and its programs over the larger one.
2. `lift_bind`, `lift_attempt`, …: lifting goes through the constructs of the language.
3. `Component`, `ends_lift`: lifted code does to its component what it does alone.
-/

/-- The part of a signature with these operations and actions. -/
@[reducible] def Sig.part (T : Sig) {O A : Type} (op : O → T.Op) (act : A → T.Act) : Sig :=
  ⟨O, fun o => T.Res (op o), A, fun a => T.Ret (act a), T.Err⟩

namespace Async

variable {T : Sig} {O A α β : Type}

/-- Code over a part of a signature, as code over the signature. -/
def lift (op : O → T.Op) (act : A → T.Act) : Async (T.part op act) α → Async T α
  | .pure a => .pure a
  | .throw e => .throw e
  | .await o k => .await (op o) fun r => lift op act (k r)
  | .act a k => .act (act a) fun r => lift op act (k r)

/-! ## The constructs of the language -/

section Rules

variable (op : O → T.Op) (act : A → T.Act)

@[simp] theorem lift_pure (a : α) : lift op act (pure a) = pure a := rfl

@[simp] theorem lift_throw (e : T.Err) :
    lift op act (throw e : Async (T.part op act) α) = throw e := rfl

@[simp] theorem lift_bind (x : Async (T.part op act) α) (f : α → Async (T.part op act) β) :
    lift op act (x >>= f) = lift op act x >>= fun a => lift op act (f a) := by
  induction x with
  | pure a => rfl
  | throw e => rfl
  | await o k ih =>
    simp only [await_bind, lift]
    congr 1
    funext r
    exact ih r
  | act a k ih =>
    simp only [act_bind, lift]
    congr 1
    funext r
    exact ih r

@[simp] theorem lift_attempt (x : Async (T.part op act) α)
    (h : T.Err → Async (T.part op act) α) :
    lift op act (tryCatchThe (T.part op act).Err x h) =
      tryCatchThe T.Err (lift op act x) fun e => lift op act (h e) := by
  induction x with
  | pure a => rfl
  | throw e => rfl
  | await o k ih => exact congrArg (Async.await (op o)) (funext ih)
  | act a k ih => exact congrArg (Async.act (act a)) (funext ih)

@[simp] theorem lift_perform (o : O) :
    lift op act (perform (S := T.part op act) o) = perform (op o) := by
  simp only [perform, lift]
  congr 1
  funext r
  cases r with
  | ok a => rfl
  | error e => rfl

@[simp] theorem lift_action (a : A) :
    lift op act (action (S := T.part op act) a) = action (act a) := rfl

@[simp] theorem lift_ofExcept (x : Except T.Err α) :
    lift op act (ofExcept (S := T.part op act) x) = ofExcept x := by
  cases x with
  | ok a => rfl
  | error e => rfl

end Rules

/-! ## What lifted code does -/

/-- A component of a state. -/
structure Component (σ τ : Type) where
  get : τ → σ
  put : σ → τ → τ
  get_put : ∀ s t, get (put s t) = s
  put_get : ∀ t, put (get t) t = t
  put_put : ∀ s s' t, put s' (put s t) = put s' t

section Ends

variable {ι κ σ τ χ : Type} (op : O → T.Op) (act : A → T.Act)
  {W : World (T.part op act) ι κ σ χ} {V : World T ι κ τ χ} {may : χ → Prop} {i : ι} {c : κ}

/-- **Lifted code does to its component what it does alone**, if its operations and actions do. -/
theorem ends_lift (C : Component σ τ)
    (hsettle : ∀ o y t, V.settle i c (op o) y t =
      (W.settle i c o y (C.get t)).map fun out => (C.put out.1 t, out.2))
    (hact : ∀ a t, V.act i c (act a) t =
      (C.put (W.act i c a (C.get t)).1 t, (W.act i c a (C.get t)).2))
    {x : Async (T.part op act) α} {t : τ} {Q : Except T.Err α → τ → Prop} :
    V.Ends i c may Q (lift op act x) t ↔
      W.Ends i c may (fun r s => Q r (C.put s t)) x (C.get t) := by
  induction x generalizing t with
  | pure a => simp only [lift, World.Ends, C.put_get]
  | throw e => simp only [lift, World.Ends, C.put_get]
  | await o k ih =>
    simp only [lift, World.Ends, hsettle, Option.map_eq_some_iff, forall_exists_index, and_imp,
      forall_apply_eq_imp_iff₂, ih, C.get_put, C.put_put]
  | act a k ih => simp only [lift, World.Ends, hact, ih, C.get_put, C.put_put]

end Ends

end Async
