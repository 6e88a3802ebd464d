import FleetTracking.ControlPlane.StoreRules
import FleetTracking.Lib.Typestate

/-!
# Calls of the API that Overlap

The services of the API await their stores, and other calls run meanwhile.

- `apiCalls`: the system of the calls of some services.
- `settle_cases`: how a request turns out, and what it does to the store.
-/

namespace FleetTracking.ControlPlane

open Async

/-- The calls `code`, interleaved at their awaits, while time passes. -/
def apiCalls {κ ρ : Type} (D : ApiDeployment) (code : κ → Api ρ) :
    System apiSig Nat κ ρ Store Outcome EnvMove where
  settle i _ op x s := some (s.settle i op x)
  act _ _ a s := s.act D a
  code := code
  env e s := some { s with backend := s.backend.env e }

/-- What a request returns when it turns out so. -/
def Store.result (s : Store) (op : ApiOp) : Outcome → Except ApiError op.Res
  | .resolves reply => .ok (s.answer reply op)
  | .rejects e _ => .error e

section Settle

variable {κ ρ : Type} {D : ApiDeployment} {code : κ → Api ρ} {s s' : Store} {i : Nat} {c : κ}
  {op : ApiOp} {x : Outcome} {r : Except ApiError op.Res}

/-- A request resolves with its answer, or it rejects; a request that rejects may have taken
effect. -/
theorem settle_cases (h : (apiCalls D code).settle i c op x s = some (s', r)) :
    (s' = if x.takesEffect then (s.noteRead i op).effect op else s.noteRead i op) ∧
      ∀ a, r = .ok a → ∃ reply, x = .resolves reply ∧ a = (s.noteRead i op).answer reply op := by
  obtain ⟨hs', hr⟩ := Prod.mk.inj (Option.some_inj.mp h)
  refine ⟨hs'.symm, fun a ha => ?_⟩
  subst hr
  cases x with
  | resolves reply => exact ⟨reply, rfl, (Except.ok.inj ha).symm⟩
  | rejects e applied => cases ha

/-- What a request that turned out has returned. -/
theorem settle_result (h : (apiCalls D code).settle i c op x s = some (s', r)) :
    r = (s.noteRead i op).result op x := by
  obtain ⟨-, hr⟩ := Prod.mk.inj (Option.some_inj.mp h)
  subst hr
  cases x with
  | resolves reply => rfl
  | rejects e applied => rfl

/-- A request that leaves the store as it is. -/
theorem settle_read (h : (apiCalls D code).settle i c op x s = some (s', r))
    (hnote : s.noteRead i op = s) (heffect : s.effect op = s) :
    s' = s ∧ ∀ a, r = .ok a → ∃ reply, a = s.answer reply op := by
  obtain ⟨hs', hr⟩ := settle_cases h
  rw [hnote, heffect, ite_self] at hs'
  refine ⟨hs', fun a ha => ?_⟩
  obtain ⟨reply, -, hreply⟩ := hr a ha
  exact ⟨reply, by rw [hreply, hnote]⟩

end Settle

end FleetTracking.ControlPlane
