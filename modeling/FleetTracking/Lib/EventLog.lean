import Mathlib.Data.List.Basic

/-!
# Logs of Events

A log lists what has happened, oldest first. A guarantee of the form "whenever this
happens, that has happened before" says of every entry something about the entries before
it: the log is `Causal`.

## Main results

- `causal_append`: a log extended by a step is causal if the step adds entries that are
  justified where they are added.
- `Causal.append_of_mono`: for conditions that stay true as the log grows, it is enough to
  look at the log before the step.
-/

namespace EventLog

variable {α : Type*} {P : List α → α → Prop} {log step : List α}

/-- Of every entry `e`, `P before e` holds, where `before` lists what has happened earlier. -/
def Causal (P : List α → α → Prop) (log : List α) : Prop :=
  ∀ before e after, log = before ++ e :: after → P before e

@[simp] theorem causal_nil : Causal P [] := by
  intro before e after h
  simp at h

/-- The log before a step, and what the step adds to it. -/
theorem causal_append :
    Causal P (log ++ step) ↔ Causal P log ∧ Causal (fun before e => P (log ++ before) e) step := by
  constructor
  · intro h
    refine ⟨fun before e after heq => ?_, fun before e after heq => ?_⟩
    · apply h before e (after ++ step)
      simp [heq]
    · apply h (log ++ before) e after
      simp [heq]
  · intro h before e after heq
    obtain ⟨hlog, hstep⟩ := h
    rcases List.append_eq_append_iff.mp heq with ⟨mid, hbefore, hafter⟩ | ⟨mid, hbefore, hafter⟩
    · rw [hbefore]
      exact hstep mid e after hafter
    · cases mid with
      | nil =>
        rw [List.append_nil] at hbefore
        have hfirst : P (log ++ []) e := hstep [] e after hafter.symm
        rwa [List.append_nil, hbefore] at hfirst
      | cons e' mid =>
        rw [List.cons_append, List.cons.injEq] at hafter
        obtain ⟨rfl, -⟩ := hafter
        exact hlog before e mid hbefore

/-- Entries that are always justified. -/
theorem causal_of_forall (h : ∀ e ∈ step, ∀ before, P before e) : Causal P step := by
  intro before e after heq
  apply h e
  simp [heq]

/-- A condition that stays true as the log grows is checked against the log before the step. -/
theorem Causal.append_of_mono (h : Causal P log)
    (hmono : ∀ before more e, P before e → P (before ++ more) e) (hstep : ∀ e ∈ step, P log e) :
    Causal P (log ++ step) := by
  refine causal_append.mpr ⟨h, causal_of_forall fun e he before => ?_⟩
  exact hmono log before e (hstep e he)

/-- One more entry. -/
theorem Causal.snoc {e : α} (h : Causal P log) (he : P log e) : Causal P (log ++ [e]) := by
  refine causal_append.mpr ⟨h, fun before e' after heq => ?_⟩
  cases before with
  | nil =>
    rw [List.nil_append, List.cons.injEq] at heq
    rw [List.append_nil, ← heq.1]
    exact he
  | cons e'' before => simp at heq

end EventLog
