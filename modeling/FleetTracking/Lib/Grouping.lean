import FleetTracking.Lib.JsMap

/-!
# Groups

The elements of a list by a key, in a map from each key to its elements.

1. `ofPairs`: the loop that appends each value to the list of its key.
2. `groupBy`: the same, with a key for each element.
3. `get_ofPairs`, `get_groupBy`: what is found under a key are the elements with it, in their order.
4. `perm_flatMap_filter`: the groups together are the list.
-/

namespace Grouping

variable {κ ν : Type} [DecidableEq κ] (key : ν → κ)

/-- The values of a list of pairs, under their keys. -/
def ofPairs (l : List (κ × ν)) : JsMap κ (List ν) :=
  l.foldl (fun m e => m.set e.1 ((m.get e.1).getD [] ++ [e.2])) JsMap.empty

/-- **What is found under a key**, of pairs. -/
theorem get_ofPairs (l : List (κ × ν)) (k : κ) :
    ((ofPairs l).get k).getD [] = (l.filter fun e => e.1 = k).map Prod.snd := by
  -- from any map that the loop starts with
  have hfold : ∀ m : JsMap κ (List ν),
      ((l.foldl (fun m e => m.set e.1 ((m.get e.1).getD [] ++ [e.2])) m).get k).getD [] =
        (m.get k).getD [] ++ (l.filter fun e => e.1 = k).map Prod.snd := by
    induction l with
    | nil => simp
    | cons e l ih =>
      intro m
      rw [List.foldl_cons, ih]
      by_cases hk : e.1 = k
      · subst hk
        simp
      · simp [hk, JsMap.get_set_of_ne _ _ (Ne.symm hk)]
  unfold ofPairs
  rw [hfold]
  simp

/-- The elements of a list, under their keys. -/
def groupBy (l : List ν) : JsMap κ (List ν) :=
  l.foldl (fun m v => m.set (key v) ((m.get (key v)).getD [] ++ [v])) JsMap.empty

/-- **What is found under a key.** -/
theorem get_groupBy (l : List ν) (k : κ) :
    ((groupBy key l).get k).getD [] = l.filter (key · = k) := by
  have hpairs : groupBy key l = ofPairs (l.map fun v => (key v, v)) := by
    rw [ofPairs, List.foldl_map]
    rfl
  rw [hpairs, get_ofPairs, List.filter_map, List.map_map]
  exact List.map_id _

/-- **The groups together are the list**, if every key is listed, once. Induction on the keys: the
elements with the first one, and then the others. -/
theorem perm_flatMap_filter {keys : List κ} (hkeys : keys.Nodup) {l : List ν}
    (hl : ∀ v ∈ l, key v ∈ keys) : (keys.flatMap fun k => l.filter (key · = k)).Perm l := by
  induction keys generalizing l with
  | nil =>
    cases l with
    | nil => exact List.Perm.refl _
    | cons v l => exact absurd (hl v List.mem_cons_self) List.not_mem_nil
  | cons k ks ih =>
    obtain ⟨hk, hks⟩ := List.nodup_cons.mp hkeys
    -- the other keys do not see the elements with the first one
    have hothers : (ks.flatMap fun k' => l.filter (key · = k')) =
        ks.flatMap fun k' => (l.filter fun v => !decide (key v = k)).filter (key · = k') := by
      refine List.flatMap_congr fun k' hk' => ?_
      rw [List.filter_filter]
      refine List.filter_congr fun v _ => ?_
      have hne : k' ≠ k := fun heq => hk (heq ▸ hk')
      by_cases hv : key v = k' <;> simp [hv, hne]
    rw [List.flatMap_cons, hothers]
    have hrest := ih hks (l := l.filter fun v => !decide (key v = k)) fun v hv => by
      obtain ⟨hv, hne⟩ := List.mem_filter.mp hv
      exact (List.mem_cons.mp (hl v hv)).resolve_left (by simpa using hne)
    exact (hrest.append_left _).trans (List.filter_append_perm _ l)

end Grouping
