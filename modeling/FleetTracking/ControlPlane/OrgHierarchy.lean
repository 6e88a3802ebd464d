import FleetTracking.ControlPlane.Org
import FleetTracking.Lib.Grouping
import Mathlib.Order.Bounds.Defs

/-!
# The Loop over the Departments

`descendantIds` as the source has it: a map from each parent to its children, a stack, and the set
of what was visited.

1. `Org.childrenMap`, `Org.descendantIds`, `Org.wouldCreateCycle`: the functions.
2. `Org.descendantIds_eq`: the loop ends, with what `descendantIds` of the model gives.
3. `Org.descendantIds_isLeast`: this is the least set that holds the root and is closed under
   children, in whatever order the nodes come.
-/

namespace FleetTracking.ControlPlane

namespace Org

/-- `childrenMap`: the ids of the children, under each parent. -/
def childrenMap (units : List OrgUnit) : JsMap String (List String) :=
  units.foldl (fun m u =>
    match u.parentId.filter truthy with
    | none => m
    | some parentId => m.set parentId ((m.get parentId).getD [] ++ [u.id])) JsMap.empty

/-- The loop of `descendantIds`, with the top of the stack first; `none` where it has not ended
after `fuel` rounds. -/
def descendantIds (units : List OrgUnit) (rootId : String) (fuel : Nat) : Option (List String) :=
  Worklist.loop (fun id => ((childrenMap units).get id).getD []) fuel [rootId] []

variable {units : List OrgUnit}

theorem childrenMap_eq (units : List OrgUnit) :
    childrenMap units = Grouping.ofPairs (ControlPlane.childrenMap units) := by
  rw [ControlPlane.childrenMap, Grouping.ofPairs, List.foldl_filterMap]
  unfold childrenMap
  congr 1
  funext m u
  cases u.parentId.filter truthy with
  | none => rfl
  | some parentId => rfl

/-- The children of a parent, in the order of the units. -/
theorem get_childrenMap (units : List OrgUnit) (a : String) :
    ((childrenMap units).get a).getD [] =
      Worklist.children (ControlPlane.childrenMap units) a := by
  rw [childrenMap_eq, Grouping.get_ofPairs]
  rfl

/-- **The loop ends** as the model says. -/
theorem descendantIds_eq (units : List OrgUnit) (rootId : String) {fuel : Nat}
    (hfuel : units.length + 1 < fuel) :
    descendantIds units rootId fuel = some (ControlPlane.descendantIds units rootId) := by
  refine Worklist.loop_eq_closure (get_childrenMap units) rootId (lt_of_le_of_lt ?_ hfuel)
  exact Nat.succ_le_succ (List.length_filterMap_le _ _)

/-- A set of ids that holds the children of all that it holds. -/
def Closed (units : List OrgUnit) (S : Set String) : Prop :=
  ∀ u ∈ units, ∀ p, u.parentId = some p → p ≠ "" → p ∈ S → u.id ∈ S

/-- Whatever the children lead to is in every closed set. -/
theorem Closed.reach {S : Set String} (h : Closed units S) {a b : String} (ha : a ∈ S)
    (hreach : Relation.ReflTransGen (Child units) a b) : b ∈ S := by
  induction hreach with
  | refl => exact ha
  | tail _ hchild ih =>
    obtain ⟨hne, u, hu, rfl, hparent⟩ := hchild
    exact h u hu _ hparent hne ih

theorem closed_descendantIds (units : List OrgUnit) (rootId : String) :
    Closed units {id | id ∈ ControlPlane.descendantIds units rootId} := by
  intro u hu p hparent hne hp
  exact mem_descendantIds.mpr ((mem_descendantIds.mp hp).tail ⟨hne, u, hu, rfl, hparent⟩)

/-- **What the loop computes.** Whatever the nodes and the root, the loop ends, with the least set
that holds the root and is closed under children; the nodes in another order give the same set. -/
theorem descendantIds_isLeast (units : List OrgUnit) (rootId : String) :
    ∃ out, (∃ n, ∀ fuel ≥ n, descendantIds units rootId fuel = some out) ∧
      IsLeast {S | rootId ∈ S ∧ Closed units S} {id | id ∈ out} ∧
      ∀ units', units'.Perm units →
        ∃ out', (∃ n, ∀ fuel ≥ n, descendantIds units' rootId fuel = some out') ∧
          {id | id ∈ out'} = {id | id ∈ out} := by
  refine ⟨ControlPlane.descendantIds units rootId,
    ⟨units.length + 2, fun fuel hfuel => descendantIds_eq units rootId hfuel⟩, ⟨?_, ?_⟩, ?_⟩
  · exact ⟨mem_descendantIds_self units rootId, closed_descendantIds units rootId⟩
  · rintro S ⟨hroot, hclosed⟩ id hid
    exact hclosed.reach hroot (mem_descendantIds.mp hid)
  · intro units' hperm
    refine ⟨ControlPlane.descendantIds units' rootId,
      ⟨units'.length + 2, fun fuel hfuel => descendantIds_eq units' rootId hfuel⟩, ?_⟩
    exact Set.Subset.antisymm (fun id => (descendantIds_mono hperm.subset rootId ·))
      fun id => (descendantIds_mono hperm.symm.subset rootId ·)

/-- `wouldCreateCycle`: is the new parent the node itself, or below it? -/
def wouldCreateCycle (units : List OrgUnit) (nodeId : String) (newParentId : Option String)
    (fuel : Nat) : Option Bool :=
  match newParentId with
  | none => some false
  | some newParentId =>
    if newParentId = nodeId then some true
    else (descendantIds units nodeId fuel).map fun ids => decide (newParentId ∈ ids)

/-- The new parent is the node or below it. -/
theorem wouldCreateCycle_eq (units : List OrgUnit) (nodeId parentId : String) {fuel : Nat}
    (hfuel : units.length + 1 < fuel) :
    wouldCreateCycle units nodeId (some parentId) fuel =
      some (decide (parentId ∈ ControlPlane.descendantIds units nodeId)) := by
  rw [wouldCreateCycle, descendantIds_eq units nodeId hfuel, Option.map_some]
  split
  case isTrue heq =>
    subst heq
    simp [mem_descendantIds_self]
  case isFalse => rfl

end Org

end FleetTracking.ControlPlane
