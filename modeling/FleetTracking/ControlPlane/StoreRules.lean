import FleetTracking.ControlPlane.Immobilizer
import FleetTracking.ControlPlane.Store

/-!
# Rules for the Services

How to show what a service of the API does to the store when it is run to completion: the
rules of `World.Ends` at the requests and the steps of the API, and what the helpers do that
the services share.

1. `Api.lift_bind`, …: code of the `Backend` as code of the API.
2. `Requests`: a request that only reads, a request that writes.
3. `Store.Ends`: the requests and the steps of the API; `Store.Maintains`.
4. `findById_eq_some_iff`, …: what the queries of the devices find.
5. `ends_scopeFor`, `ends_getScoped`: the access checks leave the store as it is.
-/

namespace FleetTracking.ControlPlane

open Async

/-! ## Lifted code -/

namespace Api

variable {α β : Type}

@[simp] theorem lift_pure (a : α) : lift (pure a) = pure a := rfl

@[simp] theorem lift_throw (e : ApiError) : lift (throw e : Cp α) = throw e := rfl

@[simp] theorem lift_bind (x : Cp α) (f : α → Cp β) :
    lift (x >>= f) = lift x >>= fun a => lift (f a) :=
  Async.lift_bind (T := apiSig) ApiOp.backend ApiAct.backend x f

@[simp] theorem lift_attempt (x : Cp α) (h : ApiError → Cp α) :
    lift (tryCatch x h) = tryCatch (lift x) fun e => lift (h e) :=
  Async.lift_attempt (T := apiSig) ApiOp.backend ApiAct.backend x h

theorem lift_request (op : CpOp) :
    lift (ControlPlane.request op) = Api.request (.backend op) :=
  Async.lift_perform (T := apiSig) ApiOp.backend ApiAct.backend op

@[simp] theorem lift_step (a : CpAct) :
    lift (ControlPlane.step a) = Api.step (.backend a) := rfl

@[simp] theorem lift_ofExcept (x : Except ApiError α) :
    lift (ofExcept (S := cpSig) x) = ofExcept (S := apiSig) x :=
  Async.lift_ofExcept (T := apiSig) ApiOp.backend ApiAct.backend x

end Api

/-! ## Requests -/

/-- What a request results in, by its outcome. -/
def Outcome.result {α : Type} (x : Outcome) (answer : String → α) : Except ApiError α :=
  match x with
  | .resolves reply => .ok (answer reply)
  | .rejects e _ => .error e

/-- A world whose requests have an `Outcome`: what is noted before a request, what it does, and what
it answers. -/
structure Requests {Op Act σ : Type} {Res : Op → Type} {Ret : Act → Type}
    (W : World ⟨Op, Res, Act, Ret, ApiError⟩ Nat Unit σ Outcome) where
  note : σ → Nat → Op → σ
  effect : σ → Op → σ
  answer : σ → String → (op : Op) → Res op
  settle_eq : ∀ i op x s, W.settle i () op x s =
    some (if x.takesEffect then effect (note s i op) op else note s i op,
      x.result fun reply => answer (note s i op) reply op)

section Requests

variable {Op Act σ β : Type} {Res : Op → Type} {Ret : Act → Type}
  {W : World ⟨Op, Res, Act, Ret, ApiError⟩ Nat Unit σ Outcome} {may : Outcome → Prop} {s : σ}
  {op : Op} {f : Res op → Async ⟨Op, Res, Act, Ret, ApiError⟩ β}
  {Q : Except ApiError β → σ → Prop}

/-- A request that leaves the state as it is. -/
theorem Requests.ends_read (R : Requests W) (hnote : R.note s 0 op = s) (heffect : R.effect s op = s)
    (hok : ∀ reply, W.Ends 0 () may Q (f (R.answer s reply op)) s)
    (herr : ∀ e b, may (.rejects e b) → Q (.error e) s) :
    W.Ends 0 () may Q (perform op >>= f) s := by
  refine ends_bind.mpr (ends_perform.mpr fun x hx out hout => ?_)
  rw [R.settle_eq, hnote, heffect, ite_self, Option.some.injEq] at hout
  subst hout
  cases x with
  | resolves reply => exact hok reply
  | rejects e b => exact herr e b hx

/-- A request that writes; one that rejects may have written all the same. -/
theorem Requests.ends_write (R : Requests W) (hnote : R.note s 0 op = s)
    (hok : ∀ reply, W.Ends 0 () may Q (f (R.answer s reply op)) (R.effect s op))
    (herr : ∀ e, may (.rejects e false) → Q (.error e) s)
    (hlate : ∀ e, may (.rejects e true) → Q (.error e) (R.effect s op)) :
    W.Ends 0 () may Q (perform op >>= f) s := by
  refine ends_bind.mpr (ends_perform.mpr fun x hx out hout => ?_)
  rw [R.settle_eq, hnote, Option.some.injEq] at hout
  subst hout
  cases x with
  | resolves reply => exact hok reply
  | rejects e b =>
    cases b with
    | false => exact herr e hx
    | true => exact hlate e hx

end Requests

/-! ## Requests and steps of the API -/

/-- The requests of the API. -/
def Store.requests (D : ApiDeployment) : Requests (Store.world D) where
  note := Store.noteRead
  effect := Store.effect
  answer := Store.answer
  settle_eq i op x s := by
    cases x with
    | resolves reply => rfl
    | rejects e b => rfl

/-- Where `x`, started in `s`, is over, `Q` holds of its result and the store. -/
abbrev Store.Ends {α : Type} (D : ApiDeployment) (may : Outcome → Prop)
    (Q : Except ApiError α → Store → Prop) (x : Api α) (s : Store) : Prop :=
  (Store.world D).Ends 0 () may Q x s

section Rules

variable {α β : Type} {D : ApiDeployment} {may : Outcome → Prop} {s : Store}

@[simp] theorem world_act (i : Nat) (a : ApiAct) : (Store.world D).act i () a s = s.act D a := rfl

/-- What the rules show holds of every call run to completion. -/
theorem Store.Ends.of_complete {x : Api α} {Q : Except ApiError α → Store → Prop}
    {ω : Nat → Outcome} {r : Except ApiError α} {s' : Store} (h : Store.Ends D may Q x s)
    (hω : ∀ n, may (ω n)) (hx : Store.complete D ω x s = some (r, s')) : Q r s' := by
  obtain ⟨⟨r', n, s''⟩, hexec, hout⟩ := Option.map_eq_some_iff.mp hx
  cases hout
  exact Async.Ends.of_exec h hω hexec

/-- Every call of the API comes to an end. -/
theorem exists_complete (D : ApiDeployment) (ω : Nat → Outcome) (x : Api α) (s : Store) :
    ∃ out, s.complete D ω x = some out := by
  obtain ⟨out, hout⟩ := exists_exec (Store.world D) 0 () ω (fun _ _ _ => ⟨_, rfl⟩) x 0 s
  exact ⟨_, by rw [Store.complete, hout]; rfl⟩

/-- A request that leaves the store as it is. -/
theorem ends_read {op : ApiOp} {f : op.Res → Api β} {Q : Except ApiError β → Store → Prop}
    (hnote : s.noteRead 0 op = s) (heffect : s.effect op = s)
    (hok : ∀ reply, Store.Ends D may Q (f (s.answer reply op)) s)
    (herr : ∀ e b, may (.rejects e b) → Q (.error e) s) :
    Store.Ends D may Q (Api.request op >>= f) s :=
  (Store.requests D).ends_read hnote heffect hok herr

/-- A request that writes; one that rejects may have written all the same. -/
theorem ends_write {op : ApiOp} {f : op.Res → Api β} {Q : Except ApiError β → Store → Prop}
    (hnote : s.noteRead 0 op = s)
    (hok : ∀ reply, Store.Ends D may Q (f (s.answer reply op)) (s.effect op))
    (herr : ∀ e, may (.rejects e false) → Q (.error e) s)
    (hlate : ∀ e, may (.rejects e true) → Q (.error e) (s.effect op)) :
    Store.Ends D may Q (Api.request op >>= f) s :=
  (Store.requests D).ends_write hnote hok herr hlate

/-- Every request resolves: the in-memory repositories never reject. -/
def resolves (x : Outcome) : Prop := x.isOk = true

theorem not_resolves {e : ApiError} {b : Bool} : ¬ resolves (.rejects e b) := Bool.false_ne_true

theorem resolves_always (reply : String) : ∀ n : Nat, resolves ((fun _ => .resolves reply) n) :=
  fun _ => rfl

/-- `ends_read` where every request resolves. -/
theorem resolves_read {op : ApiOp} {f : op.Res → Api β} {Q : Except ApiError β → Store → Prop}
    (hnote : s.noteRead 0 op = s) (heffect : s.effect op = s)
    (hok : ∀ reply, Store.Ends D resolves Q (f (s.answer reply op)) s) :
    Store.Ends D resolves Q (Api.request op >>= f) s :=
  ends_read hnote heffect hok fun _ _ hx => absurd hx not_resolves

/-- `ends_write` where every request resolves. -/
theorem resolves_write {op : ApiOp} {f : op.Res → Api β} {Q : Except ApiError β → Store → Prop}
    (hnote : s.noteRead 0 op = s)
    (hok : ∀ reply, Store.Ends D resolves Q (f (s.answer reply op)) (s.effect op)) :
    Store.Ends D resolves Q (Api.request op >>= f) s :=
  ends_write hnote hok (fun _ hx => absurd hx not_resolves) fun _ hx => absurd hx not_resolves

/-- A step made at once. -/
theorem ends_step {a : ApiAct} {f : a.Ret → Api β} {Q : Except ApiError β → Store → Prop}
    (h : Store.Ends D may Q (f (s.act D a).2) (s.act D a).1) :
    Store.Ends D may Q (Api.step a >>= f) s := h

/-- A call that keeps `I`, whatever the outcomes of its requests. -/
abbrev Store.Maintains (D : ApiDeployment) (I : Store → Prop) (x : Api α) : Prop :=
  (Store.world D).Maintains 0 () (fun _ => True) I x

/-- A request keeps `I`. -/
theorem maintains_request {op : ApiOp} {I : Store → Prop} (hnote : ∀ s, I s → I (s.noteRead 0 op))
    (heffect : ∀ s, I s → I (s.effect op)) : Store.Maintains D I (Api.request op) := by
  refine maintains_perform fun s x out hs _ hout => ?_
  have hsettle : s.settle 0 op x = out := Option.some_inj.mp hout
  rw [← hsettle]
  simp only [Store.settle]
  split
  · exact heffect _ (hnote s hs)
  · exact hnote s hs

/-- Requests draw no ids. -/
theorem effect_drawn (s : Store) (op : ApiOp) : (s.effect op).drawn = s.drawn := by
  unfold Store.effect
  split <;> first | rfl | (split <;> rfl)

/-- Ids are drawn in order. -/
theorem drawn_le {x : Api α} {ω : Nat → Outcome} {r : Except ApiError α} {s' : Store}
    (hx : s.complete D ω x = some (r, s')) : s.drawn ≤ s'.drawn := by
  have hkeep : Store.Maintains D (fun s' => s.drawn ≤ s'.drawn) x := by
    refine maintains_of_forall (fun op s₁ y out hs₁ _ hout => ?_) (fun a s₁ hs₁ => ?_) x
    · have hsettle : s₁.settle 0 op y = out := Option.some_inj.mp hout
      have hnote : (s₁.noteRead 0 op).drawn = s₁.drawn := by
        cases op with
        | backend op => rfl
        | _ => rfl
      rw [← hsettle]
      simp only [Store.settle]
      split
      · rw [effect_drawn, hnote]
        exact hs₁
      · rw [hnote]
        exact hs₁
    · cases a with
      | randomUUID => exact Nat.le_succ_of_le hs₁
      | _ => exact hs₁
  have hends : Store.Ends D (fun _ => True) (fun _ s' => s.drawn ≤ s'.drawn) x s := hkeep s le_rfl
  exact Store.Ends.of_complete hends (fun _ => trivial) hx

end Rules

/-! ## Queries of the devices -/

namespace DeviceTable

variable {t : DeviceTable} {d : Device} {tenantId id imei : String} {includeDeleted : Bool}

theorem findById_eq_some_iff : t.findById tenantId id includeDeleted = some d ↔
    d ∈ t.rows ∧ d.id = id ∧ d.tenantId = tenantId ∧ (includeDeleted ∨ d.deletedAt = none) := by
  constructor
  · intro h
    exact ⟨List.mem_of_find?_eq_some h, by simpa [findById] using List.find?_some h⟩
  · intro ⟨hd, hid, htenant, hlive⟩
    cases hfind : t.findById tenantId id includeDeleted with
    | none =>
      have hne := List.find?_eq_none.mp hfind d hd
      simp [hid, htenant, hlive] at hne
    | some e =>
      have he : e.id = id ∧ e.tenantId = tenantId ∧ (includeDeleted ∨ e.deletedAt = none) := by
        simpa [findById] using List.find?_some hfind
      rw [Table.eq_of_key (List.mem_of_find?_eq_some hfind) hd (he.1.trans hid.symm)]

theorem findByImei_eq_none_iff :
    t.findByImei imei = none ↔ ∀ d ∈ t.rows, d.deletedAt = none → d.imei ≠ imei := by
  simp only [findByImei, List.find?_eq_none, decide_eq_true_eq, not_and]
  exact forall₂_congr fun d _ => ⟨fun h hlive himei => h himei hlive, fun h himei hlive =>
    h hlive himei⟩

theorem mem_activeImeis :
    imei ∈ t.activeImeis ↔ ∃ d ∈ t.rows, d.sends = true ∧ d.imei = imei := by
  simp [activeImeis, and_assoc]

/-- What `restore` does with a deleted device. -/
theorem restore_eq (hfound : t.findById tenantId id true = some d) (hdeleted : d.deletedAt ≠ none) :
    t.restore tenantId id =
      if t.findByImei d.imei = none then some { d with deletedAt := none } else none := by
  unfold restore
  rw [hfound]
  by_cases hfree : t.findByImei d.imei = none
  · simp [Option.filter, hdeleted, hfree]
  · simp [Option.filter, hfree]

end DeviceTable

/-! ## Access checks -/

section Access

variable {D : ApiDeployment} {may : Outcome → Prop} {s : Store} {user : AuthUser}

/-- `scopeFor` reads the departments. -/
theorem ends_scopeFor {β : Type} {f : Option (List String) → Api β}
    {Q : Except ApiError β → Store → Prop}
    (hok : Store.Ends D may Q (f (user.scope s.backend.orgUnits)) s)
    (herr : ∀ e b, may (.rejects e b) → Q (.error e) s) :
    Store.Ends D may Q (Api.lift (scopeFor user) >>= f) s := by
  unfold scopeFor
  unfold AuthUser.scope at hok
  cases hdep : user.departmentId.filter truthy with
  | none =>
    rw [hdep] at hok
    exact hok
  | some departmentId =>
    rw [hdep] at hok
    simp only [Api.lift_bind, Api.lift_pure, bind_assoc, pure_bind]
    rw [Api.lift_request]
    exact ends_read rfl rfl (fun _ => hok) herr

/-- The device that `getScoped` finds: one of the user's tenant and departments. -/
def Store.scoped (s : Store) (user : AuthUser) (id : String) (includeDeleted : Bool) :
    Option Device :=
  (s.backend.devices.findById user.tenantId id includeDeleted).filter fun d =>
    ¬ outOfScope (user.scope s.backend.orgUnits) d

/-- `getScoped` finds the device, or it throws. -/
theorem ends_getScoped {β : Type} {id : String} {includeDeleted : Bool} {f : Device → Api β}
    {Q : Except ApiError β → Store → Prop}
    (hok : ∀ d, s.scoped user id includeDeleted = some d → Store.Ends D may Q (f d) s)
    (herr : ∀ e, Q (.error e) s) :
    Store.Ends D may Q (Api.lift (getScoped user id includeDeleted) >>= f) s := by
  simp only [getScoped, Api.lift_bind, bind_assoc]
  rw [Api.lift_request]
  refine ends_read rfl rfl (fun _ => ?_) fun e _ _ => herr e
  simp only [Store.answer, Backend.answer]
  unfold Store.scoped at hok
  cases hfound : s.backend.devices.findById user.tenantId id includeDeleted with
  | none => exact herr _
  | some d =>
    simp only [Api.lift_bind, bind_assoc]
    refine ends_scopeFor ?_ fun e _ _ => herr e
    rw [hfound] at hok
    by_cases hout : outOfScope (user.scope s.backend.orgUnits) d = true
    · rw [if_pos hout]
      exact herr _
    · rw [if_neg hout]
      exact hok d (by simp [Option.filter, hout])

end Access

end FleetTracking.ControlPlane
