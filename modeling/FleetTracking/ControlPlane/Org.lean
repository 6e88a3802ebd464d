import FleetTracking.ControlPlane.Entities
import FleetTracking.Lib.Worklist

/-!
# Departments

The departments of a tenant form a tree through their parents. A user of a department may
access the devices of its subtree; a user without one, those of the whole tenant.

- `descendantIds`: the subtree of a department.
- `mem_descendantIds`: it holds exactly the departments reached through children, whatever
  the shape of the units.
- `AuthUser.scope`, `outOfScope`: what a user may access.
-/

namespace FleetTracking.ControlPlane

/-- The test `if (id)` on an id: the empty string counts as no id. -/
def truthy (id : String) : Bool := id ≠ ""

/-- `childrenMap`: the units under their parents. -/
def childrenMap (units : List OrgUnit) : List (String × String) :=
  units.filterMap fun u => (u.parentId.filter truthy).map fun parentId => (parentId, u.id)

/-- `descendantIds`: the ids in the subtree of `rootId`, which is one of them. -/
def descendantIds (units : List OrgUnit) (rootId : String) : List String :=
  Worklist.closure (childrenMap units) rootId

/-- A device outside the departments the user may access. -/
def outOfScope (scope : Option (List String)) (d : Device) : Bool :=
  match scope, d.departmentId with
  | none, _ => false
  | some _, none => true
  | some ids, some departmentId => departmentId ∉ ids

/-- The departments a user may access, `none` for the whole tenant. -/
def AuthUser.scope (user : AuthUser) (orgUnits : List OrgUnit) : Option (List String) :=
  (user.departmentId.filter truthy).map fun departmentId =>
    descendantIds (orgUnits.filter fun u => u.tenantId = user.tenantId) departmentId

/-! ## The subtree of a department -/

/-- The unit `b` has the parent `a`. -/
def Child (units : List OrgUnit) (a b : String) : Prop :=
  a ≠ "" ∧ ∃ u ∈ units, u.id = b ∧ u.parentId = some a

theorem mem_childrenMap {units : List OrgUnit} {a b : String} :
    (a, b) ∈ childrenMap units ↔ Child units a b := by
  unfold childrenMap Child truthy
  simp only [List.mem_filterMap, Option.map_eq_some_iff, Option.filter_eq_some_iff,
    decide_eq_true_eq, Prod.mk.injEq]
  constructor
  · rintro ⟨u, hu, c, ⟨hparent, hne⟩, rfl, rfl⟩
    exact ⟨hne, u, hu, rfl, hparent⟩
  · rintro ⟨hne, u, hu, rfl, hparent⟩
    exact ⟨u, hu, a, ⟨hparent, hne⟩, rfl, rfl⟩

/-- **The subtree is what the children lead to**, whatever the shape of the units. -/
theorem mem_descendantIds {units : List OrgUnit} {a b : String} :
    b ∈ descendantIds units a ↔ Relation.ReflTransGen (Child units) a b := by
  unfold descendantIds
  rw [Worklist.mem_closure]
  have hrel : (fun x y => (x, y) ∈ childrenMap units) = Child units := by
    funext x y
    exact propext mem_childrenMap
  rw [hrel]

theorem mem_descendantIds_self (units : List OrgUnit) (a : String) : a ∈ descendantIds units a :=
  mem_descendantIds.mpr .refl

/-- Fewer units, fewer descendants. -/
theorem descendantIds_mono {units units' : List OrgUnit} (h : units ⊆ units') (a : String) :
    descendantIds units a ⊆ descendantIds units' a := by
  apply Worklist.closure_mono
  intro e he
  obtain ⟨x, y⟩ := e
  obtain ⟨hne, u, hu, hid, hparent⟩ := mem_childrenMap.mp he
  exact mem_childrenMap.mpr ⟨hne, u, h hu, hid, hparent⟩

end FleetTracking.ControlPlane
