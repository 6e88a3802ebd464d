import Mathlib.Data.List.Basic

/-!
# Lines

A file of lines that only ever grows at its end, and that may be cut off anywhere.

- `flatten`: the text of some lines.
- `complete`: the lines of a text that end in a line break.
- `exists_cut`: the beginning of a text is some of its lines and a part of the next one.
- `complete_cut`: what is read of it are these lines.
-/

namespace Lines

/-- Lines with a line break after each. -/
def flatten (ls : List (List Char)) : List Char := ls.flatMap (· ++ ['\n'])

/-- The lines of a text, up to the last line break; `line` is what is read of the first one, with
the last character first. -/
def completeFrom (line : List Char) : List Char → List (List Char)
  | [] => []
  | c :: cs => if c = '\n' then line.reverse :: completeFrom [] cs else completeFrom (c :: line) cs

/-- The lines of a text, without what follows the last line break. -/
def complete (cs : List Char) : List (List Char) := completeFrom [] cs

section Cut

variable {l rest : List Char} {ls : List (List Char)}

theorem completeFrom_append (line : List Char) (h : '\n' ∉ l) :
    completeFrom line (l ++ rest) = completeFrom (l.reverse ++ line) rest := by
  induction l generalizing line with
  | nil => rfl
  | cons c l ih =>
    have hc : c ≠ '\n' := by
      rintro rfl
      exact h List.mem_cons_self
    rw [List.cons_append, completeFrom, if_neg hc, ih _ fun hm => h (List.mem_cons_of_mem _ hm)]
    simp

/-- A line that is complete is read. -/
theorem complete_cons (h : '\n' ∉ l) : complete (l ++ '\n' :: rest) = l :: complete rest := by
  rw [complete, completeFrom_append [] h, List.append_nil, completeFrom, if_pos rfl,
    List.reverse_reverse, complete]

/-- Nothing is read of a line that is not complete. -/
theorem complete_of_not_mem (h : '\n' ∉ rest) : complete rest = [] := by
  have hread : completeFrom [] (rest ++ []) = completeFrom (rest.reverse ++ []) [] :=
    completeFrom_append [] h
  rwa [List.append_nil] at hread

/-- **What is read of a text that was cut off.** -/
theorem complete_cut (hls : ∀ l ∈ ls, '\n' ∉ l) (htail : '\n' ∉ rest) :
    complete (flatten ls ++ rest) = ls := by
  induction ls with
  | nil => exact complete_of_not_mem htail
  | cons l ls ih =>
    have hrest := ih fun l' hl' => hls l' (List.mem_cons_of_mem _ hl')
    rw [flatten, List.flatMap_cons, List.append_assoc, List.append_assoc, List.singleton_append,
      complete_cons (hls l List.mem_cons_self), ← flatten, hrest]

/-- Where a text may be cut off: between two lines, or inside of one. -/
theorem exists_cut (hls : ∀ l ∈ ls, '\n' ∉ l) {cut : List Char} (h : cut <+: flatten ls) :
    ∃ k rest, k ≤ ls.length ∧ cut = flatten (ls.take k) ++ rest ∧ '\n' ∉ rest := by
  induction ls generalizing cut with
  | nil =>
    obtain rfl := List.prefix_nil.mp h
    exact ⟨0, [], Nat.le_refl 0, rfl, List.not_mem_nil⟩
  | cons l ls ih =>
    have hl := hls l List.mem_cons_self
    rw [flatten, List.flatMap_cons, List.append_assoc, List.singleton_append] at h
    by_cases hshort : cut.length ≤ l.length
    · -- inside of the first line
      have hcut : cut <+: l := List.prefix_of_prefix_length_le h (List.prefix_append ..) hshort
      exact ⟨0, cut, Nat.zero_le _, rfl, fun hm => hl (hcut.subset hm)⟩
    · have hfirst : l ++ ['\n'] <+: l ++ '\n' :: ls.flatMap (· ++ ['\n']) :=
        ⟨ls.flatMap (· ++ ['\n']), by simp⟩
      have hline : l ++ ['\n'] <+: cut := by
        apply List.prefix_of_prefix_length_le hfirst h
        rw [List.length_append, List.length_singleton]
        omega
      obtain ⟨cut', rfl⟩ := hline
      rw [List.append_assoc, List.singleton_append, List.prefix_append_right_inj,
        List.cons_prefix_cons] at h
      obtain ⟨k, rest, hk, rfl, hrest⟩ := ih (fun l' hl' => hls l' (List.mem_cons_of_mem _ hl')) h.2
      refine ⟨k + 1, rest, ?_, ?_, hrest⟩
      · rw [List.length_cons]
        omega
      · simp [flatten]

/-- As many line breaks as lines. -/
theorem count_flatten (hls : ∀ l ∈ ls, '\n' ∉ l) : (flatten ls).count '\n' = ls.length := by
  induction ls with
  | nil => rfl
  | cons l ls ih =>
    have hrest := ih fun l' hl' => hls l' (List.mem_cons_of_mem _ hl')
    rw [flatten] at hrest
    simp [flatten, List.count_eq_zero_of_not_mem (hls l List.mem_cons_self), hrest]

end Cut

end Lines
