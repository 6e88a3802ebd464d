import Mathlib.Data.List.Forall2
import Mathlib.Logic.Relation

/-!
# Runs of an Executable Transition System

A system is given by a partial step function `step : σ → ε → Option σ`: an event
that is not enabled in a state has no successor. A *run* is a finite list of events,
each enabled where it is taken and each meeting a side condition `ok` on the state
before it. Properties of every state of every run are proved by the invariant rule
`Run.invariant`.

## Main results

- `Run.invariant`: what holds initially and is preserved by every admitted step
  holds in the last state of every run (hence in every state reached).
- `Run.mono`, `Run.mono_of_invariant`: a run under a stronger condition is a run under a weaker one.
- `Run.strengthen`: a run that ends well met every condition that ending well takes.
- `Run.always_iff`: a property holds all along a run exactly if every step meets a condition.
- `Run.exists_of_append`: a run is cut in two.
- `Run.paired`: a relation between two runs that are taken side by side.
- `Run.of_foldlM`: an execution computed by `List.foldlM` is a run.
-/

namespace Transition

variable {σ ε : Type*}

/-- A finite run from `s₀`: every event is enabled and meets `ok` where it is taken. -/
inductive Run (step : σ → ε → Option σ) (ok : σ → ε → Prop) (s₀ : σ) : List ε → σ → Prop where
  -- The empty run stays where it starts.
  | nil : Run step ok s₀ [] s₀
  -- A run goes on with an admitted event.
  | snoc {es : List ε} {s s' : σ} {e : ε} :
      Run step ok s₀ es s → ok s e → step s e = some s' → Run step ok s₀ (es ++ [e]) s'

/-- `P` holds in every state on the way. -/
def Always (step : σ → ε → Option σ) (ok : σ → ε → Prop) (s₀ : σ) (es : List ε) (P : σ → Prop) :
    Prop :=
  ∀ es₁ s₁, es₁ <+: es → Run step ok s₀ es₁ s₁ → P s₁

namespace Run

variable {step : σ → ε → Option σ} {ok ok' : σ → ε → Prop} {s₀ s : σ} {es : List ε}

/-- **Invariant rule.** -/
theorem invariant {I : σ → Prop} (hinit : I s₀)
    (hstep : ∀ s e s', I s → ok s e → step s e = some s' → I s')
    (hrun : Run step ok s₀ es s) : I s := by
  induction hrun with
  | nil => exact hinit
  | snoc _ hok hs ih => exact hstep _ _ _ ih hok hs

/-- A run whose steps meet `ok` is a run under any weaker condition. -/
theorem mono (h : ∀ s e, ok s e → ok' s e) (hrun : Run step ok s₀ es s) :
    Run step ok' s₀ es s := by
  induction hrun with
  | nil => exact .nil
  | snoc _ hok hs ih => exact .snoc ih (h _ _ hok) hs

/-- An invariant of the runs may be assumed as a side condition. -/
theorem with_invariant {I : σ → Prop} (hinit : I s₀)
    (hstep : ∀ s e s', I s → ok s e → step s e = some s' → I s')
    (hrun : Run step ok s₀ es s) : Run step (fun s e => ok s e ∧ I s) s₀ es s := by
  induction hrun with
  | nil => exact .nil
  | snoc hpre hok hs ih => exact .snoc ih ⟨hok, hpre.invariant hinit hstep⟩ hs

/-- Under an invariant of its runs, a condition may be replaced by one that every step meets. -/
theorem mono_of_invariant {I : σ → Prop} (hinit : I s₀)
    (hstep : ∀ s e s', I s → ok s e → step s e = some s' → I s')
    (h : ∀ s e s', I s → ok s e → step s e = some s' → ok' s e)
    (hrun : Run step ok s₀ es s) : Run step ok' s₀ es s := by
  induction hrun with
  | nil => exact .nil
  | snoc hpre hok hs ih => exact .snoc ih (h _ _ _ (hpre.invariant hinit hstep) hok hs) hs

/-- A run can be continued by another one. -/
theorem append {es₂ : List ε} {s₂ : σ} (h₁ : Run step ok s₀ es s)
    (h₂ : Run step ok s es₂ s₂) : Run step ok s₀ (es ++ es₂) s₂ := by
  induction h₂ with
  | nil => simpa using h₁
  | snoc _ hok hs ih =>
    rw [← List.append_assoc]
    exact .snoc ih hok hs

/-- One admitted event is a run. -/
theorem single {e : ε} (hok : ok s₀ e) (hs : step s₀ e = some s) : Run step ok s₀ [e] s :=
  .snoc .nil hok hs

/-- A run extended at its front. -/
theorem cons {e : ε} {s₁ : σ} (hok : ok s₀ e) (hs : step s₀ e = some s₁)
    (hrun : Run step ok s₁ es s) : Run step ok s₀ (e :: es) s :=
  append (single hok hs) hrun

/-- A run under a decidable condition, computed by folding the guarded step function. -/
theorem of_foldlM [∀ s e, Decidable (ok s e)]
    (h : es.foldlM (fun s e => if ok s e then step s e else none) s₀ = some s) :
    Run step ok s₀ es s := by
  induction es generalizing s₀ with
  | nil =>
    simp only [List.foldlM_nil, Option.pure_def, Option.some.injEq] at h
    subst h
    exact .nil
  | cons e es ih =>
    rw [List.foldlM_cons, Option.bind_eq_bind] at h
    obtain ⟨s₁, hs₁, hrest⟩ := Option.bind_eq_some_iff.mp h
    by_cases hok : ok s₀ e
    · rw [if_pos hok] at hs₁
      exact cons hok hs₁ (ih hrest)
    · simp [hok] at hs₁

/-- The state after an event that is admitted; a computation by `advance` goes from state to state
and leaves no continuation behind it. -/
def advance (step : σ → ε → Option σ) (ok : σ → ε → Prop) [∀ s e, Decidable (ok s e)] :
    Option σ → ε → Option σ
  | some s, e => if ok s e then step s e else none
  | none, _ => none

@[simp] theorem advance_some [∀ s e, Decidable (ok s e)] (s : σ) (e : ε) :
    advance step ok (some s) e = if ok s e then step s e else none := rfl

/-- A property of the outcome of a run that is computed event by event. -/
theorem exists_of_foldl [∀ s e, Decidable (ok s e)] {p : σ → Prop}
    (h : ∃ s, es.foldl (advance step ok) (some s₀) = some s ∧ p s) :
    ∃ s, Run step ok s₀ es s ∧ p s := by
  have hnone : ∀ es : List ε, es.foldl (advance step ok) none = none := by
    intro es
    induction es with
    | nil => rfl
    | cons e es ih => exact ih
  have hfold : ∀ (es : List ε) (s₀ : σ), es.foldl (advance step ok) (some s₀) =
      es.foldlM (fun s e => if ok s e then step s e else none) s₀ := by
    intro es
    induction es with
    | nil => exact fun s₀ => rfl
    | cons e es ih =>
      intro s₀
      rw [List.foldl_cons, advance_some, List.foldlM_cons]
      cases hs : (if ok s₀ e then step s₀ e else none) with
      | none => exact hnone es
      | some s => exact ih s
  obtain ⟨s, hs, hp⟩ := h
  exact ⟨s, of_foldlM (hfold es s₀ ▸ hs), hp⟩

/-- A property of the outcome of a computed run that can be tested. -/
theorem exists_of_any [∀ s e, Decidable (ok s e)] {p : σ → Prop} [DecidablePred p]
    (h : (es.foldlM (fun s e => if ok s e then step s e else none) s₀).any (fun s => p s) = true) :
    ∃ s, Run step ok s₀ es s ∧ p s := by
  obtain ⟨s, hs, hp⟩ := (Option.any_eq_true _ _).mp h
  exact ⟨s, of_foldlM hs, of_decide_eq_true hp⟩

/-- A run that ends in `P` meets `ok` at all its steps, if it is known of every step that leads
to `P` that it comes from `P` and meets `ok`. -/
theorem strengthen {P : σ → Prop}
    (hback : ∀ s e s', ok' s e → step s e = some s' → P s' → P s ∧ ok s e)
    (hrun : Run step ok' s₀ es s) (hP : P s) : Run step ok s₀ es s := by
  induction hrun with
  | nil => exact .nil
  | snoc _ hok hs ih =>
    obtain ⟨hP, hok⟩ := hback _ _ _ hok hs hP
    exact .snoc (ih hP) hok hs

/-- The events lead to one state. -/
theorem eq_of_run {s' : σ} (hrun : Run step ok s₀ es s) (hrun' : Run step ok' s₀ es s') :
    s = s' := by
  induction hrun generalizing s' with
  | nil =>
    generalize hnil : ([] : List ε) = l at hrun'
    cases hrun' with
    | nil => rfl
    | snoc _ _ _ =>
      exact absurd hnil.symm (List.append_ne_nil_of_right_ne_nil _ (List.cons_ne_nil _ _))
  | snoc _ _ hs ih =>
    generalize hsnoc : _ ++ [_] = l at hrun'
    cases hrun' with
    | nil => exact absurd hsnoc (List.append_ne_nil_of_right_ne_nil _ (List.cons_ne_nil _ _))
    | snoc hpre _ hs' =>
      obtain ⟨rfl, heq⟩ := List.append_inj' hsnoc rfl
      obtain rfl := (List.cons.inj heq).1
      obtain rfl := ih hpre
      exact Option.some_inj.mp (hs.symm.trans hs')

/-- A run of one event takes that event. -/
theorem of_single {e : ε} (hrun : Run step ok s₀ [e] s) : ok s₀ e ∧ step s₀ e = some s := by
  generalize hall : [e] = l at hrun
  cases hrun with
  | nil => cases hall
  | snoc hpre hok hs =>
    obtain ⟨hfront, heq⟩ := List.append_inj' (show [] ++ [e] = _ from hall) rfl
    obtain rfl := (List.cons.inj heq).1
    subst hfront
    obtain rfl := hpre.eq_of_run (.nil : Run step ok s₀ [] s₀)
    exact ⟨hok, hs⟩

/-- A run is cut in two. -/
theorem exists_of_append {es₂ : List ε} (hrun : Run step ok s₀ (es ++ es₂) s) :
    ∃ s₁, Run step ok s₀ es s₁ ∧ Run step ok s₁ es₂ s := by
  generalize hall : es ++ es₂ = l at hrun
  induction hrun generalizing es₂ with
  | nil =>
    obtain ⟨rfl, rfl⟩ := List.append_eq_nil_iff.mp hall
    exact ⟨s₀, .nil, .nil⟩
  | snoc hpre hok hs ih =>
    rcases List.eq_nil_or_concat es₂ with rfl | ⟨es₂, e, rfl⟩
    · rw [List.append_nil] at hall
      exact ⟨_, hall ▸ .snoc hpre hok hs, .nil⟩
    · rw [List.concat_eq_append, ← List.append_assoc] at hall
      obtain ⟨hfront, heq⟩ := List.append_inj' hall rfl
      obtain rfl := (List.cons.inj heq).1
      obtain ⟨s₁, hrun₁, hrun₂⟩ := ih hfront
      exact ⟨s₁, hrun₁, List.concat_eq_append ▸ .snoc hrun₂ hok hs⟩

/-- **Two runs side by side.** A relation between the states that events which belong together
preserve holds between the last ones. -/
theorem paired {E : ε → ε → Prop} {R : σ → σ → Prop} {es' : List ε} {s₀' s' : σ}
    (hrun : Run step ok s₀ es s) (hrun' : Run step ok' s₀' es' s') (hes : List.Forall₂ E es es')
    (hinit : R s₀ s₀') (hstep : ∀ s s' e e' t t', R s s' → ok s e → E e e' →
      step s e = some t → step s' e' = some t' → R t t') : R s s' := by
  induction hes generalizing s₀ s₀' with
  | nil =>
    obtain rfl := hrun.eq_of_run (.nil : Run step ok s₀ [] s₀)
    obtain rfl := hrun'.eq_of_run (.nil : Run step ok' s₀' [] s₀')
    exact hinit
  | @cons e e' es es' he hes ih =>
    -- the first event of each run, and what remains of both
    have hcut : Run step ok s₀ ([e] ++ es) s := hrun
    have hcut' : Run step ok' s₀' ([e'] ++ es') s' := hrun'
    obtain ⟨s₁, hfirst, hrest⟩ := hcut.exists_of_append
    obtain ⟨s₁', hfirst', hrest'⟩ := hcut'.exists_of_append
    obtain ⟨hok, hs⟩ := hfirst.of_single
    obtain ⟨-, hs'⟩ := hfirst'.of_single
    exact ih hrest hrest' (hstep _ _ _ _ _ _ hinit hok he hs hs')

/-- The beginning of a run is a run. -/
theorem exists_of_isPrefix {es₁ : List ε} (hrun : Run step ok s₀ es s) (h : es₁ <+: es) :
    ∃ s₁, Run step ok s₀ es₁ s₁ := by
  obtain ⟨es₂, rfl⟩ := h
  obtain ⟨s₁, hrun₁, -⟩ := hrun.exists_of_append
  exact ⟨s₁, hrun₁⟩

/-- **Exactness rule.** As long as `I` holds, a step leads to `P` exactly if it meets `ok`. Then `P`
holds all along a run exactly if all its steps meet `ok`. -/
theorem always_iff {I P : σ → Prop} (hinit : I s₀) (hP : ∀ s, I s → P s)
    (hstep : ∀ s e s', I s → ok s e → step s e = some s' → I s')
    (hback : ∀ s e s', I s → ok' s e → step s e = some s' → P s' → ok s e)
    (hrun : Run step ok' s₀ es s) :
    Always step ok' s₀ es P ↔ Run step ok s₀ es s := by
  constructor
  · intro hall
    induction hrun with
    | nil => exact .nil
    | snoc hpre hok hs ih =>
      have hrun := ih fun es₁ s₁ hpre => hall es₁ s₁ (hpre.trans (List.prefix_append _ _))
      have hlast := hall _ _ (List.prefix_refl _) (.snoc hpre hok hs)
      exact .snoc hrun (hback _ _ _ (hrun.invariant hinit hstep) hok hs hlast) hs
  · intro hgood es₁ s₁ hpre hrun₁
    obtain ⟨s₂, hrun₂⟩ := hgood.exists_of_isPrefix hpre
    obtain rfl := hrun₁.eq_of_run hrun₂
    exact hP _ (hrun₂.invariant hinit hstep)

end Run

end Transition
