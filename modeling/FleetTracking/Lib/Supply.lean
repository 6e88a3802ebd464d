import Mathlib.Data.Finset.Basic
import Mathlib.Logic.Function.Basic

/-!
# Names from a Supply

Parties draw names from a supply that gives out no name twice. A party holds a name from when it
is drawn until it is used, and no other party has it meanwhile.

- `Supply`: what holds of the names that were used and of those that are held.
- `Supply.draw`, `use`, `drop`: a name is drawn, used, or given up.
- `heldBy`: what is held, read off the states the parties are in.
-/

section HeldBy

variable {ω α ι : Type*}

/-- What the parties hold, when each is in some state that says so. -/
def heldBy (f : ω → Option α) (ph : ι → Option ω) (i : ι) : Option α := (ph i).bind f

variable [DecidableEq ι] {f : ω → Option α} {ph : ι → Option ω} {i : ι} {x : ω}

theorem heldBy_update : heldBy f (Function.update ph i (some x)) =
    Function.update (heldBy f ph) i (f x) := by
  funext j
  by_cases hj : j = i
  · subst hj
    simp [heldBy]
  · simp [heldBy, hj]

theorem heldBy_erase :
    heldBy f (Function.update ph i none) = Function.update (heldBy f ph) i none := by
  funext j
  by_cases hj : j = i
  · subst hj
    simp [heldBy]
  · simp [heldBy, hj]

/-- A party goes on, and holds what it held. -/
theorem heldBy_same {y : ω} (hi : ph i = some y) (hxy : f x = f y) :
    heldBy f (Function.update ph i (some x)) = heldBy f ph := by
  rw [heldBy_update, Function.update_eq_self_iff, hxy, heldBy, hi, Option.bind_some]

/-- A party starts, and holds nothing. -/
theorem heldBy_idle (hi : ph i = none) (hx : f x = none) :
    heldBy f (Function.update ph i (some x)) = heldBy f ph := by
  rw [heldBy_update, Function.update_eq_self_iff, hx, heldBy, hi, Option.bind_none]

end HeldBy

/-- The first `n` names were drawn; `held` are the names that the parties hold. -/
structure Supply {α ι : Type*} (name : Nat → α) (n : Nat) (used : α → Prop)
    (held : ι → Option α) : Prop where
  -- What is used or held is not drawn again.
  usedOld : ∀ a, used a → ∀ m, n ≤ m → a ≠ name m
  heldOld : ∀ i a, held i = some a → ∀ m, n ≤ m → a ≠ name m
  unused : ∀ i a, held i = some a → ¬ used a
  apart : ∀ i j a, held i = some a → held j = some a → i = j

namespace Supply

variable {α ι : Type*} {name : Nat → α} {n n' : Nat} {used used' : α → Prop}
  {held : ι → Option α} {i : ι} {a : α}

/-- A name that was drawn is not drawn again. -/
theorem old_of_drawn (hname : Function.Injective name) (h : ∃ m < n, a = name m) (m : Nat)
    (hm : n ≤ m) : a ≠ name m := by
  obtain ⟨k, hk, rfl⟩ := h
  intro heq
  have hkm : k = m := hname heq
  omega

/-- Nobody holds a name yet. -/
theorem start (h : ∀ a, used a → ∀ m, n ≤ m → a ≠ name m) :
    Supply name n used (fun _ : ι => none) where
  usedOld := h
  heldOld _ _ hi := nomatch hi
  unused _ _ hi := nomatch hi
  apart _ _ _ hi := nomatch hi

/-- More names were drawn, and no other ones are used. -/
theorem mono (h : Supply name n used held) (hn : n ≤ n') (hused : ∀ a, used' a → used a) :
    Supply name n' used' held where
  usedOld a ha m hm := h.usedOld a (hused a ha) m (hn.trans hm)
  heldOld i a hi m hm := h.heldOld i a hi m (hn.trans hm)
  unused i a hi ha := h.unused i a hi (hused a ha)
  apart := h.apart

/-- The next name is one that nobody holds, and that is not used. -/
theorem fresh (h : Supply name n used held) : ¬ used (name n) ∧ ∀ i, held i ≠ some (name n) :=
  ⟨fun hused => h.usedOld _ hused n le_rfl rfl, fun i hi => h.heldOld i _ hi n le_rfl rfl⟩

variable [DecidableEq ι]

/-- A party gives its name up. -/
theorem drop (h : Supply name n used held) (i : ι) :
    Supply name n used (Function.update held i none) := by
  have hother : ∀ j a, Function.update held i none j = some a → held j = some a := by
    intro j a hj
    by_cases hji : j = i
    · subst hji
      simp at hj
    · rwa [Function.update_of_ne hji] at hj
  exact ⟨h.usedOld, fun j a hj => h.heldOld j a (hother j a hj),
    fun j a hj => h.unused j a (hother j a hj),
    fun j k a hj hk => h.apart j k a (hother j a hj) (hother k a hk)⟩

/-- A party draws the next name. -/
theorem draw (h : Supply name n used held) (hname : Function.Injective name) (i : ι) :
    Supply name (n + 1) used (Function.update held i (some (name n))) := by
  obtain ⟨hunused, hfree⟩ := h.fresh
  have hcases : ∀ j a, Function.update held i (some (name n)) j = some a →
      (j = i ∧ a = name n) ∨ (j ≠ i ∧ held j = some a) := by
    intro j a hj
    by_cases hji : j = i
    · subst hji
      rw [Function.update_self] at hj
      exact Or.inl ⟨rfl, (Option.some_inj.mp hj).symm⟩
    · rw [Function.update_of_ne hji] at hj
      exact Or.inr ⟨hji, hj⟩
  have hmore := h.mono (Nat.le_succ n) fun a ha => ha
  refine ⟨hmore.usedOld, fun j a hj => ?_, fun j a hj => ?_, fun j k a hj hk => ?_⟩
  · rcases hcases j a hj with ⟨-, rfl⟩ | ⟨-, hj⟩
    · exact old_of_drawn hname ⟨n, Nat.lt_succ_self n, rfl⟩
    · exact hmore.heldOld j a hj
  · rcases hcases j a hj with ⟨-, rfl⟩ | ⟨-, hj⟩
    · exact hunused
    · exact h.unused j a hj
  · rcases hcases j a hj with ⟨rfl, rfl⟩ | ⟨-, hheld⟩
    · rcases hcases k _ hk with ⟨rfl, -⟩ | ⟨-, hk⟩
      · rfl
      · exact absurd hk (hfree k)
    · rcases hcases k a hk with ⟨rfl, rfl⟩ | ⟨-, hk⟩
      · exact absurd hheld (hfree j)
      · exact h.apart j k a hheld hk

/-- A party uses its name. -/
theorem use (h : Supply name n used held) (hi : held i = some a)
    (hused : ∀ b, used' b → b = a ∨ used b) :
    Supply name n used' (Function.update held i none) := by
  have hdrop := h.drop i
  refine ⟨fun b hb => ?_, hdrop.heldOld, fun j b hj hb => ?_, hdrop.apart⟩
  · rcases hused b hb with rfl | hb
    · exact h.heldOld i b hi
    · exact h.usedOld b hb
  · rcases hused b hb with rfl | hb
    · by_cases hji : j = i
      · subst hji
        simp at hj
      · rw [Function.update_of_ne hji] at hj
        exact hji (h.apart j i b hj hi)
    · exact hdrop.unused j b hj hb

end Supply
