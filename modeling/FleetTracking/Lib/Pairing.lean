import Mathlib.Logic.Function.Basic

/-!
# Links Stored on Both Sides

A link between two kinds of things is often stored twice: each `a` has a field for its `b`, each
`b` a field for its `a`. The two fields agree when they are inverse to each other as partial
functions.

- `Mutual`: the fields agree.
- `Mutual.update_iff`: writing a link on both sides keeps them in agreement exactly if neither
  side was linked to another one.
-/

namespace Pairing

variable {α β : Type*} {f : α → Option β} {g : β → Option α} {a : α} {b : β}

/-- `a` points to `b` exactly if `b` points to `a`. -/
def Mutual (f : α → Option β) (g : β → Option α) : Prop :=
  ∀ a b, f a = some b ↔ g b = some a

/-- Neither side is linked to another one. -/
def Unengaged (f : α → Option β) (g : β → Option α) (a : α) (b : β) : Prop :=
  (∀ b', f a = some b' → b' = b) ∧ ∀ a', g b = some a' → a' = a

variable [DecidableEq α] [DecidableEq β]

instance : Decidable (Unengaged f g a b) :=
  decidable_of_iff ((f a = none ∨ f a = some b) ∧ (g b = none ∨ g b = some a)) <| by
    unfold Unengaged
    refine and_congr ?_ ?_
    · cases f a <;> simp
    · cases g b <;> simp

omit [DecidableEq β] in
theorem update_eq_some_iff {a' : α} {b' : β} :
    Function.update f a (some b) a' = some b' ↔ a' = a ∧ b' = b ∨ a' ≠ a ∧ f a' = some b' := by
  by_cases h : a' = a
  · subst h
    simp [eq_comm]
  · simp [h]

/-- **Writing both sides of a link.** What either side was linked to before has to be let go. -/
theorem Mutual.update_iff (h : Mutual f g) :
    Mutual (Function.update f a (some b)) (Function.update g b (some a)) ↔ Unengaged f g a b := by
  constructor
  · intro hnew
    constructor
    · intro b' hb'
      by_contra hne
      -- `b'` still points to `a`, which now points to `b`.
      have hback := (hnew a b').mpr
        (update_eq_some_iff.mpr (Or.inr ⟨hne, (h a b').mp hb'⟩))
      rw [Function.update_self] at hback
      exact hne (Option.some.inj hback).symm
    · intro a' ha'
      by_contra hne
      have hback := (hnew a' b).mp
        (update_eq_some_iff.mpr (Or.inr ⟨hne, (h a' b).mpr ha'⟩))
      rw [Function.update_self] at hback
      exact hne (Option.some.inj hback).symm
  · intro ⟨ha, hb⟩ a' b'
    rw [update_eq_some_iff, update_eq_some_iff]
    constructor
    · rintro (⟨rfl, rfl⟩ | ⟨hne, hf⟩)
      · exact Or.inl ⟨rfl, rfl⟩
      · refine Or.inr ⟨?_, (h a' b').mp hf⟩
        rintro rfl
        exact hne (hb a' ((h a' b').mp hf))
    · rintro (⟨rfl, rfl⟩ | ⟨hne, hg⟩)
      · exact Or.inl ⟨rfl, rfl⟩
      · refine Or.inr ⟨?_, (h a' b').mpr hg⟩
        rintro rfl
        exact hne (ha b' ((h a' b').mpr hg))

end Pairing
