import FleetTracking.ControlPlane.DepartmentForest
import FleetTracking.ControlPlane.DeviceScope
import FleetTracking.ControlPlane.OrgHierarchy
import FleetTracking.Web.DeviceTree

/-!
# Three Checks for a Cycle

A department may not be moved into itself or below itself. The service walks up from the proposed
parent, the engine walks down from the department, and the web application looks for the target in
the tree that it shows.

1. `find`, `contains`, `canDropGroup`: the check of the web application.
2. `canDropGroup_eq_false_iff`: it refuses what is below the department in the tree.
3. `reply_update_iff`: the service answers 400 if the department is met on the way up.
4. `cycle_checks_agree`.
-/

namespace FleetTracking.Web.DeviceTree

open ControlPlane Forest Relation

/-! ## The check in the tree -/

mutual

/-- `contains`: is the target in the subtree? -/
def contains (targetId : String) : TreeNode → Bool
  | ⟨id, _, _, children, _, _⟩ => id = targetId || containsAny targetId children

/-- `children.some(contains)`. -/
def containsAny (targetId : String) : List TreeNode → Bool
  | [] => false
  | n :: ns => contains targetId n || containsAny targetId ns

end

mutual

/-- What `find` finds at a node of its list. -/
def findAt (dragId : String) : TreeNode → Option TreeNode
  | ⟨id, name, real, children, devices, subtreeDevices⟩ =>
    if id = dragId then some ⟨id, name, real, children, devices, subtreeDevices⟩
    else find dragId children

/-- `find`: the first node with the id, in the list or below it. -/
def find (dragId : String) : List TreeNode → Option TreeNode
  | [] => none
  | n :: ns =>
    match findAt dragId n with
    | some hit => some hit
    | none => find dragId ns

end

/-- A group may not be dropped into itself or any of its own descendants. -/
def canDropGroup (dragId targetId : String) (nodes : List TreeNode) : Bool :=
  if dragId = targetId then false
  else
    match find dragId nodes with
    | none => true
    | some subtree => !contains targetId subtree

mutual

/-- The search goes through the nodes in preorder. -/
theorem findAt_eq (dragId : String) : ∀ n : TreeNode, findAt dragId n =
    n.nodes.find? (·.id = dragId)
  | ⟨id, name, real, children, devices, subtreeDevices⟩ => by
    rw [findAt, TreeNode.nodes, List.find?_cons]
    by_cases hid : id = dragId
    · simp [hid]
    · simp [hid, find_eq dragId children]

theorem find_eq (dragId : String) : ∀ ns : List TreeNode, find dragId ns =
    (TreeNode.allNodes ns).find? (·.id = dragId)
  | [] => rfl
  | n :: ns => by
    rw [find, TreeNode.allNodes, List.find?_append, findAt_eq dragId n, find_eq dragId ns]
    cases n.nodes.find? (·.id = dragId) <;> rfl

end

mutual

theorem contains_eq (targetId : String) : ∀ n : TreeNode, contains targetId n =
    n.nodes.any (·.id = targetId)
  | ⟨id, name, real, children, devices, subtreeDevices⟩ => by
    rw [contains, TreeNode.nodes, List.any_cons, containsAny_eq targetId children]

theorem containsAny_eq (targetId : String) : ∀ ns : List TreeNode, containsAny targetId ns =
    (TreeNode.allNodes ns).any (·.id = targetId)
  | [] => rfl
  | n :: ns => by
    rw [containsAny, TreeNode.allNodes, List.any_append, contains_eq targetId n,
      containsAny_eq targetId ns]

end

section Tree

variable {departments : List OrgUnit} (h : Acyclic departments) (visible : List Device)
include h

/-- The node of a department is found. -/
theorem find_tree {g : OrgUnit} (hg : g ∈ departments) :
    find g.id ((rootsOf departments).map (tree h visible) ++ ungrouped departments visible) =
      some (tree h visible g) := by
  have hmem : ∀ n, n ∈ TreeNode.allNodes ((rootsOf departments).map (tree h visible) ++
      ungrouped departments visible) ↔
        n ∈ departments.map (tree h visible) ++ ungrouped departments visible :=
    fun n => (allNodes_perm h visible).mem_iff
  rw [find_eq]
  cases hfind : List.find? _ _ with
  | none =>
    have hnode := (hmem (tree h visible g)).mpr (List.mem_append_left _ (List.mem_map_of_mem hg))
    have hne := List.find?_eq_none.mp hfind _ hnode
    simp at hne
  | some n =>
    have hid : n.id = g.id := by simpa using List.find?_some hfind
    rcases List.mem_append.mp ((hmem n).mp (List.mem_of_find?_eq_some hfind)) with hn | hn
    · obtain ⟨g', hg', rfl⟩ := List.mem_map.mp hn
      rw [id_tree] at hid
      rw [h.eq_of_id hg' hg hid]
    · exact absurd ((mem_ungrouped hn).1.symm.trans hid).symm (h.grouped g hg)

/-- **The tree refuses what is below the department.** -/
theorem canDropGroup_eq_false_iff {g t : OrgUnit} (hg : g ∈ departments) (ht : t ∈ departments) :
    canDropGroup g.id t.id
        ((rootsOf departments).map (tree h visible) ++ ungrouped departments visible) = false ↔
      ReflTransGen (Under departments) g.id t.id := by
  unfold canDropGroup
  rw [find_tree h visible hg]
  split
  case isTrue hid => exact iff_of_true rfl (hid ▸ .refl)
  case isFalse =>
    dsimp only
    rw [Bool.not_eq_false', contains_eq, nodes_tree, List.any_map, List.any_eq_true]
    constructor
    · rintro ⟨c, hc, hid⟩
      have hid : c.id = t.id := by simpa using hid
      exact hid ▸ ((h.mem_below hg).mp hc).2
    · intro hpath
      exact ⟨t, (h.mem_below hg).mpr ⟨ht, hpath⟩, by simp⟩

end Tree

/-! ## The walks over the parents -/

section Walks

variable {units : List OrgUnit}

/-- From a department on, it makes no difference that parents need not exist. -/
theorem transGen_under_of_child {a b : String} (ha : ∃ u ∈ units, u.id = a)
    (hpath : TransGen (Child units) a b) : TransGen (Under units) a b := by
  induction hpath with
  | single hchild =>
    obtain ⟨_, u, hu, hid, hparent⟩ := hchild
    exact .single ⟨u, hu, hid, hparent, ha⟩
  | tail hpath hchild ih =>
    obtain ⟨_, _, ⟨_, p, hp, hpid, _⟩⟩ := TransGen.tail'_iff.mp hpath
    obtain ⟨_, u, hu, hid, hparent⟩ := hchild
    exact ih.tail ⟨u, hu, hid, hparent, p, hp, hpid⟩

theorem Acyclic.child_of_under (h : Acyclic units) {a b : String} (hunder : Under units a b) :
    Child units a b := by
  obtain ⟨u, hu, hid, hparent, p, hp, rfl⟩ := hunder
  exact ⟨h.named p hp, u, hu, hid, hparent⟩

/-- What is below a department. -/
theorem Acyclic.reach_child_iff (h : Acyclic units) {u : OrgUnit} (hu : u ∈ units) {b : String} :
    ReflTransGen (Child units) u.id b ↔ ReflTransGen (Under units) u.id b := by
  rw [reflTransGen_iff_eq_or_transGen, reflTransGen_iff_eq_or_transGen]
  refine or_congr_right ⟨transGen_under_of_child ⟨u, hu, rfl⟩, ?_⟩
  exact TransGen.mono (fun _ _ => h.child_of_under) _ _

theorem Acyclic.acyclic_child (h : Acyclic units) : Forest.Acyclic (Child units) := by
  intro a hcycle
  -- whoever is on a cycle is a child, and so a department
  obtain ⟨_, _, ⟨_, u, hu, hid, _⟩⟩ := TransGen.tail'_iff.mp hcycle
  exact h.acyclic a (transGen_under_of_child ⟨u, hu, hid⟩ hcycle)

theorem Acyclic.pairwise (h : Acyclic units) : units.Pairwise fun u v => u.id ≠ v.id :=
  List.pairwise_map.mp h.distinct

/-- **The walk up from the target** meets the department if the target is below it. -/
theorem Acyclic.mem_ancestors_iff (h : Acyclic units) {u t : OrgUnit} (hu : u ∈ units)
    (ht : t ∈ units) : u.id ∈ ancestors units (units.length + 1) (some t.id) ↔
      ReflTransGen (Under units) u.id t.id := by
  obtain ⟨fuel, hclimb⟩ := exists_climb h.acyclic_child (some t.id)
  have hsome : (some t.id).filter truthy = some t.id := by simp [truthy, h.named t ht]
  rw [hsome] at hclimb
  rw [Forest.mem_climb hclimb, ← h.reach_child_iff hu]
  constructor
  · exact ReflTransGen.mono (fun _ _ => child_of_parentLink) _ _
  · exact ReflTransGen.mono (fun _ _ => parentLink_of_child h.pairwise) _ _

end Walks

/-! ## The service -/

section Service

variable {D : ApiDeployment} {s : Store} {tenantId : String}

/-- The call answers 400. -/
def Refused (D : ApiDeployment) (s : Store) (tenantId id target : String)
    (name : Option String) : Prop :=
  ∃ message, s.reply D (DepartmentsService.update tenantId id
    { name, parentId := some (some target) }) = some (.error (.badRequest message))

/-- **The service answers 400** if the department is the target, or met on the way up from it. -/
theorem refused_iff {units : List OrgUnit}
    (hunits : s.backend.orgUnits.filter (fun u => u.tenantId = tenantId) = units)
    {u t : OrgUnit} (hu : u ∈ units) (ht : t ∈ units) (name : Option String) :
    Refused D s tenantId u.id t.id name ↔
      t.id = u.id ∨ u.id ∈ ancestors units (units.length + 1) (some t.id) := by
  have hfound : ∀ v ∈ units, (findUnit s.backend.orgUnits tenantId v.id).isSome = true := by
    intro v hv
    rw [← hunits] at hv
    obtain ⟨hv, htenant⟩ := List.mem_filter.mp hv
    rw [findUnit, List.find?_isSome]
    exact ⟨v, hv, by simpa using htenant⟩
  have hends : Store.Ends D resolves (fun r _ => (∃ message, r = .error (.badRequest message)) ↔
      t.id = u.id ∨ u.id ∈ ancestors units (units.length + 1) (some t.id))
      (DepartmentsService.update tenantId u.id { name, parentId := some (some t.id) }) s := by
    simp only [DepartmentsService.update, DepartmentsService.checkParent]
    refine resolves_read rfl rfl fun _ => ?_
    rw [show s.answer _ (.orgUnitsFindById tenantId u.id) =
      findUnit s.backend.orgUnits tenantId u.id from rfl, if_pos (hfound u hu)]
    by_cases hself : t.id = u.id
    · rw [if_pos hself]
      exact iff_of_true ⟨_, rfl⟩ (Or.inl hself)
    · rw [if_neg hself]
      simp only [bind_assoc]
      refine resolves_read rfl rfl fun _ => ?_
      rw [show s.answer _ (.orgUnitsFindById tenantId t.id) =
        findUnit s.backend.orgUnits tenantId t.id from rfl, if_pos (hfound t ht)]
      simp only [bind_assoc]
      refine resolves_read rfl rfl fun _ => ?_
      rw [show s.answer _ (.backend (.orgUnitsList tenantId)) = units from hunits]
      by_cases hmet : u.id ∈ ancestors units (units.length + 1) (some t.id)
      · rw [if_pos hmet]
        exact iff_of_true ⟨_, rfl⟩ (Or.inr hmet)
      · rw [if_neg hmet, pure_bind]
        simp only [OrgUnitRepository.update, bind_assoc]
        refine resolves_read rfl rfl fun _ => ?_
        -- whatever the update answers, it is no 400
        cases s.answer _ (.orgUnitsFindById tenantId u.id) with
        | none => exact iff_of_false (by rintro ⟨_, heq⟩; cases heq) (not_or.mpr ⟨hself, hmet⟩)
        | some o =>
          simp only [bind_assoc, pure_bind]
          refine resolves_write rfl fun _ => ?_
          exact iff_of_false (by rintro ⟨_, heq⟩; cases heq) (not_or.mpr ⟨hself, hmet⟩)
  obtain ⟨r, _, hreply, hiff⟩ := exists_reply hends
  rw [← hiff, Refused, hreply]
  simp only [Option.some.injEq]

/-- **The three checks agree.** For departments of one tenant whose parents have no cycle, and need
not exist, and for every two of them, equal or not. -/
theorem cycle_checks_agree (D : ApiDeployment) (s : Store) (tenantId : String)
    (units : List OrgUnit)
    (hunits : s.backend.orgUnits.filter (fun u => u.tenantId = tenantId) = units)
    (h : Acyclic units) {u t : OrgUnit} (hu : u ∈ units) (ht : t ∈ units) (name : Option String)
    (devices : List Device) (shown : Device → Bool) :
    (∃ met, (∃ fuel, walk units u.id fuel (some t.id) = some met) ∧
      (Refused D s tenantId u.id t.id name ↔ met = true)) ∧
    (∃ cyclic, (∃ n, ∀ fuel ≥ n,
        Org.wouldCreateCycle units u.id (some t.id) fuel = some cyclic) ∧
      (Refused D s tenantId u.id t.id name ↔ cyclic = true)) ∧
    ∃ roots, (∃ n, ∀ fuel ≥ n, deviceTree units devices shown fuel = some roots) ∧
      (Refused D s tenantId u.id t.id name ↔ canDropGroup u.id t.id roots = false) := by
  -- all three are compared with the same relation: the target lies at or below the unit
  have hrefused : Refused D s tenantId u.id t.id name ↔
      ReflTransGen (Under units) u.id t.id := by
    rw [refused_iff hunits hu ht, h.mem_ancestors_iff hu ht]
    exact ⟨fun h => h.elim (fun hid => hid ▸ .refl) id, Or.inr⟩
  refine ⟨?_, ?_, ?_⟩
  · refine ⟨_, exists_walk h.acyclic_child u.id (some t.id), ?_⟩
    rw [hrefused, decide_eq_true_iff, h.mem_ancestors_iff hu ht]
  · refine ⟨_, ⟨units.length + 2,
      fun fuel hfuel => Org.wouldCreateCycle_eq units u.id t.id hfuel⟩, ?_⟩
    rw [hrefused, decide_eq_true_iff, mem_descendantIds, h.reach_child_iff hu]
  · refine ⟨_, exists_deviceTree h devices shown, ?_⟩
    rw [hrefused, canDropGroup_eq_false_iff h _ hu ht]

/-- A store with the sample departments. -/
def sampleStore : Store :=
  let backend := Backend.new Table.empty
  Store.new { backend with orgUnits := sampleDepartments }

/-- The fleet is not moved below its vans. -/
theorem sample_checks_agree : ∃ roots,
    (∃ n, ∀ fuel ≥ n, deviceTree sampleDepartments [] (fun _ => true) fuel = some roots) ∧
      (Refused sampleApi sampleStore "acme" "fleet" "vans" none ↔
        canDropGroup "fleet" "vans" roots = false) :=
  (cycle_checks_agree sampleApi sampleStore "acme" sampleDepartments (by decide)
    acyclic_sampleDepartments (u := sampleFleet) (t := sampleVans) (by decide) (by decide) none []
    fun _ => true).2.2

end Service

end FleetTracking.Web.DeviceTree
