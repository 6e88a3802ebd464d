import FleetTracking.Auth.AuthService

/-!
# Rules for the Logins

What a call of `AuthService` does to its store when it is run to completion.

1. `lift_bind`, …: code of the API as code of `AuthService`; `ends_lift`: what it does.
2. `AuthStore.Ends`: a request that only reads, a request that writes, a step.
-/

namespace FleetTracking.Auth

open Async ControlPlane

/-- Where `x`, started in `s`, is over, `Q` holds of its result and the store. -/
abbrev AuthStore.Ends {α : Type} (D : AuthDeployment) (may : Outcome → Prop)
    (Q : Except ApiError α → AuthStore → Prop) (x : AuthM α) (s : AuthStore) : Prop :=
  (AuthStore.world D).Ends 0 () may Q x s

section Lift

variable {α β : Type}

@[simp] theorem lift_pure (a : α) : lift (pure a : Api α) = pure a := rfl

@[simp] theorem lift_throw (e : ApiError) : lift (throw e : Api α) = throw e := rfl

@[simp] theorem lift_bind (x : Api α) (f : α → Api β) :
    lift (x >>= f) = lift x >>= fun a => lift (f a) :=
  Async.lift_bind (T := authSig) AuthOp.api AuthAct.api x f

theorem lift_request (op : ApiOp) : lift (Api.request op) = request (.api op) :=
  Async.lift_perform (T := authSig) AuthOp.api AuthAct.api op

/-- The store of the API. -/
def apiStore : Component Store AuthStore where
  get s := s.store
  put store s := { s with store }
  get_put _ _ := rfl
  put_get _ := rfl
  put_put _ _ _ := rfl

/-- A request of the API takes effect on its part of the store. -/
theorem settle_api (s : AuthStore) (i : Nat) (op : ApiOp) (x : Outcome) :
    s.settle i (.api op) x =
      ({ s with store := (s.store.settle i op x).1 }, (s.store.settle i op x).2) := by
  cases x with
  | resolves reply => rfl
  | rejects e applied =>
    cases applied with
    | false => rfl
    | true => rfl

/-- **Code of the API does to its part of the store what it does alone.** -/
theorem ends_lift {D : AuthDeployment} {may : Outcome → Prop} {x : Api α} {s : AuthStore}
    {Q : Except ApiError α → AuthStore → Prop} :
    AuthStore.Ends D may Q (lift x) s ↔
      Store.Ends D.toApiDeployment may (fun r store => Q r { s with store }) x s.store := by
  apply Async.ends_lift (T := authSig) AuthOp.api AuthAct.api apiStore
  · intro op y s
    show some (s.settle 0 (.api op) y) = _
    rw [settle_api]
    rfl
  · intro a s
    rfl

end Lift

/-! ## Requests and steps -/

section Rules

variable {α β : Type} {D : AuthDeployment} {may : Outcome → Prop} {s : AuthStore}

/-- What the rules show holds of every call run to completion. -/
theorem AuthStore.Ends.of_complete {x : AuthM α} {Q : Except ApiError α → AuthStore → Prop}
    {ω : Nat → Outcome} {r : Except ApiError α} {s' : AuthStore} (h : AuthStore.Ends D may Q x s)
    (hω : ∀ n, may (ω n)) (hx : AuthStore.complete D ω x s = some (r, s')) : Q r s' := by
  obtain ⟨⟨r', n, s''⟩, hexec, hout⟩ := Option.map_eq_some_iff.mp hx
  cases hout
  exact Async.Ends.of_exec h hω hexec

/-- The requests of the logins. -/
def AuthStore.requests (D : AuthDeployment) : Requests (AuthStore.world D) where
  note := AuthStore.noteRead
  effect := AuthStore.effect
  answer := AuthStore.answer
  settle_eq i op x s := by
    cases x with
    | resolves reply => rfl
    | rejects e b => rfl

/-- A request that leaves the store as it is. -/
theorem ends_read {op : AuthOp} {f : op.Res → AuthM β} {Q : Except ApiError β → AuthStore → Prop}
    (hnote : s.noteRead 0 op = s) (heffect : s.effect op = s)
    (hok : ∀ reply, AuthStore.Ends D may Q (f (s.answer reply op)) s)
    (herr : ∀ e, Q (.error e) s) : AuthStore.Ends D may Q (request op >>= f) s :=
  (AuthStore.requests D).ends_read hnote heffect hok fun e _ _ => herr e

/-- A request that writes; one that rejects may have written all the same. -/
theorem ends_write {op : AuthOp} {f : op.Res → AuthM β} {Q : Except ApiError β → AuthStore → Prop}
    (hnote : s.noteRead 0 op = s)
    (hok : ∀ reply, AuthStore.Ends D may Q (f (s.answer reply op)) (s.effect op))
    (herr : ∀ e, may (.rejects e false) → Q (.error e) s)
    (hlate : ∀ e, may (.rejects e true) → Q (.error e) (s.effect op)) :
    AuthStore.Ends D may Q (request op >>= f) s :=
  (AuthStore.requests D).ends_write hnote hok herr hlate

/-- A step made at once. -/
theorem ends_step {a : AuthAct} {f : a.Ret → AuthM β} {Q : Except ApiError β → AuthStore → Prop}
    (h : AuthStore.Ends D may Q (f (s.act D a).2) (s.act D a).1) :
    AuthStore.Ends D may Q (step a >>= f) s := h

/-- The clock is read. -/
theorem ends_now {f : Nat → AuthM β} {Q : Except ApiError β → AuthStore → Prop}
    (h : AuthStore.Ends D may Q (f s.now) s) : AuthStore.Ends D may Q (dateNow >>= f) s := h

/-- A request that resolves, in an execution. -/
theorem exec_resolves {op : AuthOp} {f : op.Res → AuthM β} {ω : Nat → Outcome} {n : Nat}
    {reply : String} (h : ω n = .resolves reply) (hnote : s.noteRead 0 op = s) :
    (AuthStore.world D).exec 0 () ω (request op >>= f) n s =
      (AuthStore.world D).exec 0 () ω (f (s.answer reply op)) (n + 1) (s.effect op) := by
  show ((AuthStore.world D).settle 0 () op (ω n) s).bind _ = _
  simp only [AuthStore.world, AuthStore.settle, hnote, h, Option.bind_some]
  rfl

/-- A step made at once, in an execution. -/
theorem exec_step {a : AuthAct} {f : a.Ret → AuthM β} {ω : Nat → Outcome} {n : Nat} :
    (AuthStore.world D).exec 0 () ω (step a >>= f) n s =
      (AuthStore.world D).exec 0 () ω (f (s.act D a).2) n (s.act D a).1 := rfl

theorem exec_now {f : Nat → AuthM β} {ω : Nat → Outcome} {n : Nat} :
    (AuthStore.world D).exec 0 () ω (dateNow >>= f) n s =
      (AuthStore.world D).exec 0 () ω (f s.now) n s := rfl

/-- A request that rejects, in an execution. -/
theorem exec_rejects {op : AuthOp} {f : op.Res → AuthM β} {ω : Nat → Outcome} {n : Nat}
    {e : ApiError} {applied : Bool} (h : ω n = .rejects e applied) (hnote : s.noteRead 0 op = s) :
    (AuthStore.world D).exec 0 () ω (request op >>= f) n s =
      some (.error e, n + 1, if applied then s.effect op else s) := by
  show ((AuthStore.world D).settle 0 () op (ω n) s).bind _ = _
  simp only [AuthStore.world, AuthStore.settle, hnote, h, Option.bind_some]
  rfl

end Rules

end FleetTracking.Auth
