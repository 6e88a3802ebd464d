import Mathlib.Data.List.Pairwise

/-!
# Greedy Segmentation of a List

A list is cut into segments from left to right. A segment starts at the first element after the
previous one that may start a segment, and it ends at the first later element that closes it. What
is between the segments is left out, and so is a segment that is never closed.

## Main results

- `Greedy.unique`: a list has one greedy segmentation.
- `Greedy.sublist`: the segments are disjoint parts of the list, in its order.
-/

namespace Segments

variable {α : Type*} {starts : α → Prop} {closes : List α → Prop}

/-- The segments of a list. -/
inductive Greedy (starts : α → Prop) (closes : List α → Prop) : List α → List (List α) → Prop where
  -- Nothing starts a segment.
  | idle {l : List α} : (∀ a ∈ l, ¬ starts a) → Greedy starts closes l []
  -- A segment starts and is never closed.
  | pending {before l : List α} {a : α} : (∀ b ∈ before, ¬ starts b) → starts a →
      (∀ l', l' <+: l → ¬ closes (a :: l')) → Greedy starts closes (before ++ a :: l) []
  -- A segment starts, and `z` is the first element that closes it.
  | segment {before middle l : List α} {a z : α} {segments : List (List α)} :
      (∀ b ∈ before, ¬ starts b) → starts a → (∀ l', l' <+: middle → ¬ closes (a :: l')) →
      closes (a :: (middle ++ [z])) → Greedy starts closes l segments →
      Greedy starts closes (before ++ a :: (middle ++ z :: l)) ((a :: (middle ++ [z])) :: segments)

/-- The first element with a property, and what is before and after it. -/
theorem first_unique {p : α → Prop} {before before' l l' : List α} {a a' : α}
    (h : before ++ a :: l = before' ++ a' :: l') (hbefore : ∀ b ∈ before, ¬ p b) (ha : p a)
    (hbefore' : ∀ b ∈ before', ¬ p b) (ha' : p a') : a = a' ∧ l = l' := by
  induction before generalizing before' with
  | nil =>
    cases before' with
    | nil => exact List.cons.inj h
    | cons b before' =>
      obtain rfl := (List.cons.inj h).1
      exact absurd ha (hbefore' a List.mem_cons_self)
  | cons b before ih =>
    cases before' with
    | nil =>
      obtain rfl := (List.cons.inj h).1
      exact absurd ha' (hbefore b List.mem_cons_self)
    | cons b' before' =>
      exact ih (List.cons.inj h).2 (fun b hb => hbefore b (List.mem_cons_of_mem _ hb))
        fun b hb => hbefore' b (List.mem_cons_of_mem _ hb)

/-- The first element that closes a segment, and what is before and after it. -/
theorem close_unique {a z z' : α} {middle middle' l l' : List α}
    (h : middle ++ z :: l = middle' ++ z' :: l')
    (hopen : ∀ l'', l'' <+: middle → ¬ closes (a :: l'')) (hclose : closes (a :: (middle ++ [z])))
    (hopen' : ∀ l'', l'' <+: middle' → ¬ closes (a :: l''))
    (hclose' : closes (a :: (middle' ++ [z']))) : middle = middle' ∧ z = z' ∧ l = l' := by
  rcases List.append_eq_append_iff.mp h with ⟨mid, rfl, hrest⟩ | ⟨mid, rfl, hrest⟩
  · cases mid with
    | nil => exact ⟨by simp, List.cons.inj hrest⟩
    | cons b mid =>
      -- the other segment goes on after it was closed
      obtain rfl := (List.cons.inj hrest).1
      exact absurd hclose (hopen' _ ⟨mid, by simp⟩)
  · cases mid with
    | nil =>
      obtain ⟨rfl, rfl⟩ := List.cons.inj hrest
      exact ⟨by simp, rfl, rfl⟩
    | cons b mid =>
      obtain rfl := (List.cons.inj hrest).1
      exact absurd hclose' (hopen _ ⟨mid, by simp⟩)

theorem prefix_closed (middle : List α) (z : α) (l : List α) :
    middle ++ [z] <+: middle ++ z :: l :=
  ⟨l, by simp⟩

namespace Greedy

/-- **A list has one greedy segmentation.** -/
theorem unique {l : List α} {segments segments' : List (List α)}
    (h : Greedy starts closes l segments) (h' : Greedy starts closes l segments') :
    segments = segments' := by
  induction h generalizing segments' with
  | idle hnone =>
    cases h' with
    | idle _ => rfl
    | pending _ ha _ => exact absurd ha (hnone _ (by simp))
    | segment _ ha _ _ _ => exact absurd ha (hnone _ (by simp))
  | pending hbefore ha hopen =>
    generalize hl : _ ++ _ :: _ = l at h'
    cases h' with
    | idle hnone => exact absurd ha (hnone _ (by simp [← hl]))
    | pending _ _ _ => rfl
    | segment hbefore' ha' _ hclose _ =>
      -- both begin at the first start; one closes there and the other never does
      obtain ⟨rfl, rfl⟩ := first_unique hl hbefore ha hbefore' ha'
      exact absurd hclose (hopen _ (prefix_closed ..))
  | segment hbefore ha hopen hclose hrest ih =>
    generalize hl : _ ++ _ :: _ = l at h'
    cases h' with
    | idle hnone => exact absurd ha (hnone _ (by simp [← hl]))
    | pending hbefore' ha' hopen' =>
      obtain ⟨rfl, rfl⟩ := first_unique hl hbefore ha hbefore' ha'
      exact absurd hclose (hopen' _ (prefix_closed ..))
    | segment hbefore' ha' hopen' hclose' hrest' =>
      -- the same start, then the same close, then the rest
      obtain ⟨rfl, heq⟩ := first_unique hl hbefore ha hbefore' ha'
      obtain ⟨rfl, rfl, rfl⟩ := close_unique heq hopen hclose hopen' hclose'
      rw [ih hrest']

/-- What does not start a segment is left out. -/
theorem skip {l : List α} {segments : List (List α)} {b : α} (hb : ¬ starts b)
    (h : Greedy starts closes l segments) : Greedy starts closes (b :: l) segments := by
  cases h with
  | idle hnone => exact .idle (List.forall_mem_cons.mpr ⟨hb, hnone⟩)
  | pending hbefore ha hopen =>
    rw [← List.cons_append]
    exact .pending (List.forall_mem_cons.mpr ⟨hb, hbefore⟩) ha hopen
  | segment hbefore ha hopen hclose hrest =>
    rw [← List.cons_append]
    exact .segment (List.forall_mem_cons.mpr ⟨hb, hbefore⟩) ha hopen hclose hrest

/-- **The segments are disjoint parts of the list, in its order.** -/
theorem sublist {l : List α} {segments : List (List α)} (h : Greedy starts closes l segments) :
    segments.flatten.Sublist l := by
  induction h with
  | idle _ => exact List.nil_sublist _
  | pending _ _ _ => exact List.nil_sublist _
  | @segment before middle l a z segments _ _ _ _ _ ih =>
    have hsplit : before ++ a :: (middle ++ z :: l) = before ++ (a :: (middle ++ [z]) ++ l) := by
      simp
    rw [List.flatten_cons, hsplit]
    exact (((List.Sublist.refl _).append ih)).trans (List.sublist_append_right before _)

end Greedy

end Segments
