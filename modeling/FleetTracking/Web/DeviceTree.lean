import FleetTracking.ControlPlane.Org
import FleetTracking.Lib.Branching
import FleetTracking.Lib.Grouping

/-!
# The Device Tree

`DeviceTree`: the devices of a tenant under their departments, as the web application shows them.

1. `TreeNode`, `build`, `deviceTree`: the tree; which devices are shown is a parameter.
2. `branching`: the departments and their children, where the parents have no cycle.
3. `subtreeDevices_tree`, `nodes_tree`: what a node has, from the departments below it.
4. `deviceTree_correct`: the tree has each device once, and each department.
-/

namespace FleetTracking.Web

open ControlPlane Forest Grouping Relation

/-! ## The tree -/

/-- The id of the node for devices without a department. -/
def UNGROUPED : String := "__ungrouped__"

structure TreeNode where
  id : String
  name : String
  -- The node for devices without a department is not.
  real : Bool
  children : List TreeNode
  devices : List Device
  -- Devices in this node and everything beneath it.
  subtreeDevices : List Device

namespace DeviceTree

variable (departments : List OrgUnit)

/-- `known.has(id)`. -/
def known (id : String) : Bool := departments.any (·.id = id)

/-- The key in `byParent`: a department whose parent vanished is shown at the root. -/
def parentKey (g : OrgUnit) : String :=
  (g.parentId.filter fun p => truthy p && known departments p).getD ""

/-- The key in `devicesByGroup`. -/
def groupKey (d : Device) : String :=
  (d.departmentId.filter fun p => truthy p && known departments p).getD UNGROUPED

def byParent : JsMap String (List OrgUnit) := groupBy (parentKey departments) departments

def devicesByGroup (visible : List Device) : JsMap String (List Device) :=
  groupBy (groupKey departments) visible

/-- The node of a department, from those of its children. -/
def makeNode (visible : List Device) (g : OrgUnit) (children : List TreeNode) : TreeNode :=
  let own := ((devicesByGroup departments visible).get g.id).getD []
  { id := g.id, name := g.name, real := true, children, devices := own
    subtreeDevices := own ++ children.flatMap TreeNode.subtreeDevices }

/-- `build`; `none` where the recursion has not ended at depth `fuel`. -/
def build (visible : List Device) (fuel : Nat) (g : OrgUnit) : Option TreeNode :=
  grow (fun g => ((byParent departments).get g.id).getD []) (makeNode departments visible) fuel g

/-- The node `Ungrouped`, where there is something to tell it from, or in it. -/
def ungrouped (visible : List Device) : List TreeNode :=
  let loose := ((devicesByGroup departments visible).get UNGROUPED).getD []
  if 0 < loose.length ∨ 0 < departments.length then
    [{ id := UNGROUPED, name := "Ungrouped", real := false, children := []
       devices := loose, subtreeDevices := loose }]
  else []

/-- `roots`, for the devices that pass the filter of states and the search. -/
def deviceTree (devices : List Device) (shown : Device → Bool) (fuel : Nat) :
    Option (List TreeNode) := do
  let visible := devices.filter shown
  let tree ← (((byParent departments).get "").getD []).mapM (build departments visible fuel)
  some (tree ++ ungrouped departments visible)

end DeviceTree

mutual

/-- All nodes of a subtree, in preorder. -/
def TreeNode.nodes : TreeNode → List TreeNode
  | ⟨id, name, real, children, devices, subtreeDevices⟩ =>
    ⟨id, name, real, children, devices, subtreeDevices⟩ :: TreeNode.allNodes children

/-- All nodes of some subtrees. -/
def TreeNode.allNodes : List TreeNode → List TreeNode
  | [] => []
  | n :: ns => n.nodes ++ TreeNode.allNodes ns

end

namespace TreeNode

theorem allNodes_eq (ns : List TreeNode) : allNodes ns = ns.flatMap nodes := by
  induction ns with
  | nil => rfl
  | cons n ns ih => rw [allNodes, ih, List.flatMap_cons]

theorem nodes_eq (n : TreeNode) : n.nodes = n :: n.children.flatMap nodes := by
  cases n
  rw [nodes, allNodes_eq]

end TreeNode

/-! ## The departments -/

namespace DeviceTree

/-- `a` is the parent of `b`, and a department. -/
def Under (departments : List OrgUnit) (a b : String) : Prop :=
  ∃ g ∈ departments, g.id = b ∧ g.parentId = some a ∧ ∃ p ∈ departments, p.id = a

/-- Departments with ids of their own, whose parents have no cycle. Parents need not exist. -/
structure Acyclic (departments : List OrgUnit) : Prop where
  distinct : (departments.map OrgUnit.id).Nodup
  named : ∀ g ∈ departments, g.id ≠ ""
  grouped : ∀ g ∈ departments, g.id ≠ UNGROUPED
  acyclic : Forest.Acyclic (Under departments)

variable {departments : List OrgUnit}

theorem known_iff {id : String} : known departments id = true ↔ ∃ p ∈ departments, p.id = id := by
  simp [known]

/-- Departments with one id are one. -/
theorem Acyclic.eq_of_id (h : Acyclic departments) {g g' : OrgUnit} (hg : g ∈ departments)
    (hg' : g' ∈ departments) (hid : g.id = g'.id) : g = g' :=
  List.inj_on_of_nodup_map h.distinct hg hg' hid

/-- The key of a department that has a department for its parent. -/
theorem parentKey_eq_iff {g : OrgUnit} {a : String} (ha : a ≠ "") :
    parentKey departments g = a ↔ g.parentId = some a ∧ ∃ p ∈ departments, p.id = a := by
  unfold parentKey
  cases hparent : g.parentId with
  | none => simpa [Option.filter] using Ne.symm ha
  | some p =>
    by_cases hp : (truthy p && known departments p) = true
    · obtain ⟨_, hknown⟩ := Bool.and_eq_true_iff.mp hp
      rw [Option.filter_some, if_pos hp, Option.getD_some]
      constructor
      · rintro rfl
        exact ⟨rfl, known_iff.mp hknown⟩
      · rintro ⟨heq, _⟩
        exact Option.some.inj heq
    · rw [Option.filter_some, if_neg hp, Option.getD_none]
      refine iff_of_false (Ne.symm ha) ?_
      rintro ⟨heq, hknown⟩
      obtain rfl := Option.some.inj heq
      exact hp (by simp [truthy, ha, known_iff.mpr hknown])

/-- The children of a department. -/
def childrenOf (departments : List OrgUnit) (g : OrgUnit) : List OrgUnit :=
  ((byParent departments).get g.id).getD []

theorem childrenOf_eq (g : OrgUnit) :
    childrenOf departments g = departments.filter (parentKey departments · = g.id) :=
  get_groupBy _ _ _

theorem mem_childrenOf {g c : OrgUnit} :
    c ∈ childrenOf departments g ↔ c ∈ departments ∧ parentKey departments c = g.id := by
  rw [childrenOf_eq, List.mem_filter, decide_eq_true_iff]

/-- A child is under its parent. -/
theorem under_of_mem_childrenOf (h : Acyclic departments) {g c : OrgUnit} (hg : g ∈ departments)
    (hc : c ∈ childrenOf departments g) : Under departments g.id c.id := by
  obtain ⟨hc, hkey⟩ := mem_childrenOf.mp hc
  obtain ⟨hparent, hknown⟩ := (parentKey_eq_iff (h.named g hg)).mp hkey
  exact ⟨c, hc, rfl, hparent, hknown⟩

/-- **The departments are a branching.** -/
theorem Acyclic.branching (h : Acyclic departments) :
    Branching departments (childrenOf departments) where
  closed g c hc := (mem_childrenOf.mp hc).1
  nodup g := by
    rw [childrenOf_eq]
    exact (h.distinct.of_map _).filter _
  unique g hg g' hg' c hc hc' := by
    refine h.eq_of_id hg hg' ?_
    rw [← (mem_childrenOf.mp hc).2, (mem_childrenOf.mp hc').2]
  acyclic g hcycle := by
    -- whoever is on a cycle is a child, and so a department
    have hlift : ∀ {g c}, g ∈ departments →
        TransGen (fun g c => c ∈ childrenOf departments g) g c →
          TransGen (Under departments) g.id c.id := by
      intro g c hg hpath
      induction hpath with
      | single hc => exact .single (under_of_mem_childrenOf h hg hc)
      | tail hpath hc ih =>
        obtain ⟨_, _, hd⟩ := TransGen.tail'_iff.mp hpath
        exact ih.tail (under_of_mem_childrenOf h (mem_childrenOf.mp hd).1 hc)
    obtain ⟨_, _, hg⟩ := TransGen.tail'_iff.mp hcycle
    exact h.acyclic _ (hlift (mem_childrenOf.mp hg).1 hcycle)

/-- What is below a department. -/
theorem Acyclic.mem_below (h : Acyclic departments) {g c : OrgUnit} (hg : g ∈ departments) :
    c ∈ h.branching.below g ↔ c ∈ departments ∧ ReflTransGen (Under departments) g.id c.id := by
  rw [h.branching.mem_below]
  constructor
  · intro hpath
    induction hpath with
    | refl => exact ⟨hg, .refl⟩
    | tail _ hc ih =>
      exact ⟨(mem_childrenOf.mp hc).1, ih.2.tail (under_of_mem_childrenOf h ih.1 hc)⟩
  · rintro ⟨hc, hpath⟩
    generalize hid : c.id = id at hpath
    induction hpath generalizing c with
    | refl => rw [h.eq_of_id hc hg hid]
    | tail _ hstep ih =>
      obtain ⟨c', hc', hid', hparent, p, hp, rfl⟩ := hstep
      obtain rfl := h.eq_of_id hc hc' (hid.trans hid'.symm)
      refine (ih hp rfl).tail (mem_childrenOf.mpr ⟨hc, ?_⟩)
      exact (parentKey_eq_iff (h.named p hp)).mpr ⟨hparent, p, hp, rfl⟩

/-- The departments that are shown at the root. -/
def rootsOf (departments : List OrgUnit) : List OrgUnit := ((byParent departments).get "").getD []

theorem mem_rootsOf (h : Acyclic departments) {g : OrgUnit} :
    g ∈ rootsOf departments ↔
      g ∈ departments ∧ ∀ p ∈ departments, g ∉ childrenOf departments p := by
  have hroots : rootsOf departments = departments.filter (parentKey departments · = "") :=
    get_groupBy _ _ _
  rw [hroots, List.mem_filter, decide_eq_true_iff]
  refine and_congr_right fun hg => ⟨fun hkey p hp hchild => ?_, fun hnone => ?_⟩
  · exact h.named p hp ((mem_childrenOf.mp hchild).2.symm.trans hkey)
  · by_contra hne
    obtain ⟨_, p, hp, hid⟩ := (parentKey_eq_iff hne).mp rfl
    exact hnone p hp (mem_childrenOf.mpr ⟨hg, hid.symm⟩)

/-- The roots and all below them are the departments. -/
theorem perm_below (h : Acyclic departments) :
    ((rootsOf departments).flatMap h.branching.below).Perm departments := by
  have hnodup : departments.Nodup := h.distinct.of_map _
  refine h.branching.perm_flatMap_below hnodup ?_ fun g => mem_rootsOf h
  rw [rootsOf, byParent, get_groupBy]
  exact hnodup.filter _

/-! ## The groups of the devices -/

/-- The key of a device that has a department. -/
theorem groupKey_eq_iff (h : Acyclic departments) {d : Device} {g : OrgUnit} (hg : g ∈ departments) :
    groupKey departments d = g.id ↔ d.departmentId = some g.id := by
  unfold groupKey
  cases hdep : d.departmentId with
  | none => simpa [Option.filter] using (h.grouped g hg).symm
  | some x =>
    by_cases hx : (truthy x && known departments x) = true
    · rw [Option.filter_some, if_pos hx, Option.getD_some, Option.some_inj]
    · rw [Option.filter_some, if_neg hx, Option.getD_none]
      refine iff_of_false (h.grouped g hg).symm fun heq => hx ?_
      rw [Option.some.inj heq, truthy, known_iff.mpr ⟨g, hg, rfl⟩]
      simpa using h.named g hg

/-- The key of a device without one, or with one that is gone. -/
theorem groupKey_eq_ungrouped_iff (h : Acyclic departments) {d : Device} :
    groupKey departments d = UNGROUPED ↔ ¬ ∃ g ∈ departments, d.departmentId = some g.id := by
  constructor
  · rintro hkey ⟨g, hg, hdep⟩
    exact h.grouped g hg (((groupKey_eq_iff h hg).mpr hdep).symm.trans hkey)
  · intro hnone
    unfold groupKey
    cases hfilter : d.departmentId.filter fun p => truthy p && known departments p with
    | none => rfl
    | some x =>
      obtain ⟨hdep, hx⟩ := Option.filter_eq_some_iff.mp hfilter
      obtain ⟨g, hg, rfl⟩ := known_iff.mp (Bool.and_eq_true_iff.mp hx).2
      exact absurd ⟨g, hg, hdep⟩ hnone

/-- A device belongs to a department, or to `Ungrouped`. -/
theorem groupKey_cases (h : Acyclic departments) (d : Device) :
    groupKey departments d = UNGROUPED ∨ ∃ g ∈ departments, groupKey departments d = g.id := by
  by_cases hdep : ∃ g ∈ departments, d.departmentId = some g.id
  · obtain ⟨g, hg, hdep⟩ := hdep
    exact Or.inr ⟨g, hg, (groupKey_eq_iff h hg).mpr hdep⟩
  · exact Or.inl ((groupKey_eq_ungrouped_iff h).mpr hdep)

/-- What the node `Ungrouped` has. -/
theorem mem_ungrouped {visible : List Device} {n : TreeNode}
    (hn : n ∈ ungrouped departments visible) : n.id = UNGROUPED ∧
      n.subtreeDevices = visible.filter (groupKey departments · = UNGROUPED) := by
  unfold ungrouped at hn
  dsimp only at hn
  split at hn
  case isTrue =>
    rw [List.mem_singleton.mp hn]
    exact ⟨rfl, get_groupBy _ _ _⟩
  case isFalse => cases hn

/-- Where the node is left out, it has no devices. -/
theorem flatMap_ungrouped (departments : List OrgUnit) (visible : List Device) :
    (ungrouped departments visible).flatMap TreeNode.subtreeDevices =
      visible.filter (groupKey departments · = UNGROUPED) := by
  unfold ungrouped
  rw [devicesByGroup, get_groupBy]
  dsimp only
  split
  case isTrue => exact List.flatMap_singleton _ _
  case isFalse hempty =>
    have hnone : ¬ 0 < (visible.filter (groupKey departments · = UNGROUPED)).length :=
      fun hpos => hempty (Or.inl hpos)
    exact (List.length_eq_zero_iff.mp (Nat.eq_zero_of_not_pos hnone)).symm

/-! ## The nodes -/

section Nodes

variable (h : Acyclic departments) (visible : List Device)

/-- The node of a department. -/
noncomputable def tree : OrgUnit → TreeNode := h.branching.fold (makeNode departments visible)

/-- The devices of a department. -/
def own (departments : List OrgUnit) (visible : List Device) (g : OrgUnit) : List Device :=
  visible.filter (groupKey departments · = g.id)

theorem tree_eq (g : OrgUnit) : tree h visible g =
    makeNode departments visible g ((childrenOf departments g).map (tree h visible)) :=
  h.branching.fold_eq _ g

@[simp] theorem id_tree (g : OrgUnit) : (tree h visible g).id = g.id := by
  rw [tree_eq, makeNode]

@[simp] theorem children_tree (g : OrgUnit) :
    (tree h visible g).children = (childrenOf departments g).map (tree h visible) := by
  rw [tree_eq, makeNode]

/-- A node has the devices of the departments below it. -/
theorem subtreeDevices_tree (g : OrgUnit) : (tree h visible g).subtreeDevices =
    (h.branching.below g).flatMap (own departments visible) := by
  refine h.branching.eq_flatMap_below (f := fun g => (tree h visible g).subtreeDevices)
    (fun g => ?_) g
  rw [tree_eq, makeNode, devicesByGroup, get_groupBy, List.flatMap_map]
  rfl

/-- The nodes of a tree are those of the departments below. -/
theorem nodes_tree (g : OrgUnit) :
    (tree h visible g).nodes = (h.branching.below g).map (tree h visible) := by
  rw [← List.flatMap_pure_eq_map]
  refine h.branching.eq_flatMap_below (f := fun g => (tree h visible g).nodes) (fun g => ?_) g
  rw [TreeNode.nodes_eq, children_tree, List.flatMap_map]
  rfl

/-- **The tree is built**: a node for each department without a parent, and `Ungrouped`. -/
theorem exists_deviceTree (devices : List Device) (shown : Device → Bool) :
    ∃ n, ∀ fuel ≥ n, deviceTree departments devices shown fuel =
      some ((rootsOf departments).map (tree h (devices.filter shown)) ++
        ungrouped departments (devices.filter shown)) := by
  obtain ⟨n, hn⟩ := Branching.exists_mapM_grow (l := rootsOf departments) fun g _ =>
    h.branching.exists_grow (makeNode departments (devices.filter shown)) g
  refine ⟨n, fun fuel hfuel => ?_⟩
  exact congrArg (·.bind fun tree => some (tree ++ ungrouped departments (devices.filter shown)))
    (hn fuel hfuel)

/-- A node of the tree is that of a department, or `Ungrouped`. -/
theorem allNodes_perm :
    (TreeNode.allNodes ((rootsOf departments).map (tree h visible) ++
      ungrouped departments visible)).Perm
        (departments.map (tree h visible) ++ ungrouped departments visible) := by
  have hroots : ((rootsOf departments).map (tree h visible)).flatMap TreeNode.nodes =
      ((rootsOf departments).flatMap h.branching.below).map (tree h visible) := by
    rw [List.flatMap_map, List.map_flatMap]
    exact List.flatMap_congr fun g _ => nodes_tree h visible g
  have hungrouped : (ungrouped departments visible).flatMap TreeNode.nodes =
      ungrouped departments visible := by
    unfold ungrouped
    dsimp only
    split
    · rfl
    · rfl
  rw [TreeNode.allNodes_eq, List.flatMap_append, hroots, hungrouped]
  exact ((perm_below h).map _).append_right _

/-- The devices of the whole tree are those that are shown. -/
theorem subtreeDevices_perm :
    (((rootsOf departments).map (tree h visible) ++ ungrouped departments visible).flatMap
      TreeNode.subtreeDevices).Perm visible := by
  -- under the roots stands every department once, each with its own devices
  have hroots : ((rootsOf departments).map (tree h visible)).flatMap TreeNode.subtreeDevices =
      ((rootsOf departments).flatMap h.branching.below).flatMap (own departments visible) := by
    rw [List.flatMap_map, List.flatMap_assoc]
    exact List.flatMap_congr fun g _ => subtreeDevices_tree h visible g
  have hgroups : departments.flatMap (own departments visible) ++
      (ungrouped departments visible).flatMap TreeNode.subtreeDevices =
        (departments.map OrgUnit.id ++ [UNGROUPED]).flatMap fun k =>
          visible.filter (groupKey departments · = k) := by
    rw [flatMap_ungrouped, List.flatMap_append, List.flatMap_map, List.flatMap_singleton]
    rfl
  -- the departments' ids and the key of the ungrouped are all different
  have hkeys : (departments.map OrgUnit.id ++ [UNGROUPED]).Nodup := by
    refine h.distinct.append (List.nodup_singleton _) ?_
    rw [List.disjoint_singleton]
    intro hmem
    obtain ⟨g, hg, hid⟩ := List.mem_map.mp hmem
    exact h.grouped g hg hid
  rw [List.flatMap_append, hroots]
  refine (((perm_below h).flatMap_right _).append_right _).trans ?_
  rw [hgroups]
  refine perm_flatMap_filter _ hkeys fun d _ => ?_
  -- every device has one of these keys, so the groups together are the list
  rcases groupKey_cases h d with hkey | ⟨g, hg, hkey⟩
  · rw [hkey]
    exact List.mem_append_right _ (List.mem_singleton.mpr rfl)
  · rw [hkey]
    exact List.mem_append_left _ (List.mem_map_of_mem hg)

/-- What the node of a department has: the devices of the department and of those below it. -/
theorem mem_subtreeDevices_tree {g : OrgUnit} (hg : g ∈ departments) {d : Device} :
    d ∈ (tree h visible g).subtreeDevices ↔ d ∈ visible ∧
      ∃ c ∈ departments, d.departmentId = some c.id ∧ ReflTransGen (Under departments) g.id c.id := by
  rw [subtreeDevices_tree, List.mem_flatMap]
  constructor
  · rintro ⟨c, hc, hd⟩
    obtain ⟨hd, hkey⟩ := List.mem_filter.mp hd
    obtain ⟨hc, hpath⟩ := (h.mem_below hg).mp hc
    exact ⟨hd, c, hc, (groupKey_eq_iff h hc).mp (of_decide_eq_true hkey), hpath⟩
  · rintro ⟨hd, c, hc, hdep, hpath⟩
    refine ⟨c, (h.mem_below hg).mpr ⟨hc, hpath⟩, List.mem_filter.mpr ⟨hd, ?_⟩⟩
    exact decide_eq_true ((groupKey_eq_iff h hc).mpr hdep)

theorem nodup_subtreeDevices_tree (hvisible : visible.Nodup) {g : OrgUnit} (hg : g ∈ departments) :
    (tree h visible g).subtreeDevices.Nodup := by
  rw [subtreeDevices_tree, List.nodup_flatMap]
  refine ⟨fun c _ => hvisible.filter _, ?_⟩
  refine (h.branching.nodup_below hg).pairwise_of_forall_ne fun c hc c' hc' hne => ?_
  rw [Function.onFun_apply, List.disjoint_left]
  intro d hd hd'
  have hkey : groupKey departments d = c.id := of_decide_eq_true (List.mem_filter.mp hd).2
  have hkey' : groupKey departments d = c'.id := of_decide_eq_true (List.mem_filter.mp hd').2
  exact hne (h.eq_of_id ((h.mem_below hg).mp hc).1 ((h.mem_below hg).mp hc').1
    (hkey.symm.trans hkey'))

end Nodes

/-- **The device tree shows every device once.** For devices and departments with ids of their own,
and departments whose parents have no cycle: each department has one node, with the devices that
are assigned to it or to a department below it, and `Ungrouped` has those of no department. -/
theorem deviceTree_correct (departments : List OrgUnit) (h : Acyclic departments)
    (devices : List Device) (hdevices : (devices.map Device.id).Nodup) (shown : Device → Bool) :
    ∃ roots, (∃ n, ∀ fuel ≥ n, deviceTree departments devices shown fuel = some roots) ∧
      (roots.flatMap TreeNode.subtreeDevices).Perm (devices.filter shown) ∧
      (∀ g ∈ departments, (TreeNode.allNodes roots).countP (·.id = g.id) = 1) ∧
      ∀ n ∈ TreeNode.allNodes roots, n.subtreeDevices.Nodup ∧
        (((∃ g ∈ departments, n.id = g.id) ∧ ∀ d, d ∈ n.subtreeDevices ↔ d ∈ devices.filter shown ∧
          ∃ c ∈ departments, d.departmentId = some c.id ∧
            ReflTransGen (Under departments) n.id c.id) ∨
        (n.id = UNGROUPED ∧ ∀ d, d ∈ n.subtreeDevices ↔ d ∈ devices.filter shown ∧
          ¬ ∃ c ∈ departments, d.departmentId = some c.id)) := by
  have hvisible : (devices.filter shown).Nodup := (hdevices.of_map _).filter _
  refine ⟨_, exists_deviceTree h devices shown, subtreeDevices_perm h _, ?_, ?_⟩
  · intro g hg
    -- a department has one node in the forest and none among the ungrouped
    have hone : departments.countP (·.id = g.id) = 1 := by
      have hcount := List.count_eq_one_of_mem h.distinct (List.mem_map_of_mem (f := OrgUnit.id) hg)
      rw [List.count, List.countP_map] at hcount
      exact hcount
    have hnone : (ungrouped departments (devices.filter shown)).countP (·.id = g.id) = 0 := by
      rw [List.countP_eq_zero]
      intro n hn
      rw [(mem_ungrouped hn).1]
      simpa using (h.grouped g hg).symm
    rw [(allNodes_perm h _).countP_eq, List.countP_append, hnone, List.countP_map]
    simpa [Function.comp_def] using hone
  · intro n hn
    -- a node is that of a department or the one for the ungrouped devices
    rcases List.mem_append.mp ((allNodes_perm h _).mem_iff.mp hn) with hn | hn
    · obtain ⟨g, hg, rfl⟩ := List.mem_map.mp hn
      refine ⟨nodup_subtreeDevices_tree h _ hvisible hg, Or.inl ⟨⟨g, hg, id_tree h _ g⟩, ?_⟩⟩
      intro d
      rw [id_tree]
      exact mem_subtreeDevices_tree h _ hg
    · obtain ⟨hid, hdevices⟩ := mem_ungrouped hn
      rw [hdevices]
      refine ⟨hvisible.filter _, Or.inr ⟨hid, fun d => ?_⟩⟩
      rw [List.mem_filter, decide_eq_true_iff, groupKey_eq_ungrouped_iff h]

def sampleFleet : OrgUnit :=
  { id := "fleet", tenantId := "acme", name := "Fleet", parentId := none }

def sampleVans : OrgUnit :=
  { id := "vans", tenantId := "acme", name := "Vans", parentId := some "fleet" }

/-- Two departments, and one whose parent is gone. -/
def sampleDepartments : List OrgUnit :=
  [sampleVans, sampleFleet,
    { id := "trucks", tenantId := "acme", name := "Trucks", parentId := some "gone" }]

theorem acyclic_sampleDepartments : Acyclic sampleDepartments where
  distinct := by decide
  named := by decide
  grouped := by decide
  acyclic a hcycle := by
    have hunder : ∀ a b, Under sampleDepartments a b → a = "fleet" ∧ b = "vans" := by
      rintro a b ⟨g, hg, rfl, hparent, p, hp, rfl⟩
      simp only [sampleDepartments, List.mem_cons, List.not_mem_nil, or_false] at hg hp
      rcases hg with rfl | rfl | rfl <;> rcases hp with rfl | rfl | rfl <;>
        simp_all [sampleVans, sampleFleet]
    obtain ⟨b, hab, _⟩ := TransGen.head'_iff.mp hcycle
    obtain ⟨c, _, hca⟩ := TransGen.tail'_iff.mp hcycle
    exact absurd ((hunder a b hab).1.symm.trans (hunder c a hca).2) (by decide)

/-- A device of a department. -/
def sampleVan : Device :=
  { id := "d1", tenantId := "acme", imei := "356307042441013", name := none, model := "FTC927"
    assetType := .car, status := .active, vehicleId := none, departmentId := some "vans"
    deletedAt := none }

/-- A device whose department is gone. -/
def sampleSold : Device :=
  { sampleVan with id := "d2", imei := "356307042441014", departmentId := some "sold" }

/-- The device of the inner department is in the node of the outer one, the other one is not in
the node of any department. -/
theorem sample_deviceTree : ∃ roots,
    (∃ n, ∀ fuel ≥ n, deviceTree sampleDepartments [sampleVan, sampleSold] (fun _ => true) fuel =
      some roots) ∧
    (roots.flatMap TreeNode.subtreeDevices).Perm [sampleVan, sampleSold] ∧
    (∃ n ∈ TreeNode.allNodes roots, n.id = "fleet" ∧ ∀ d, d ∈ n.subtreeDevices ↔ d = sampleVan) ∧
    ∃ n ∈ TreeNode.allNodes roots, n.id = UNGROUPED ∧ ∀ d, d ∈ n.subtreeDevices ↔ d = sampleSold := by
  obtain ⟨roots, hbuilt, hperm, hone, hnodes⟩ := deviceTree_correct sampleDepartments
    acyclic_sampleDepartments [sampleVan, sampleSold] (by decide) fun _ => true
  have hgone : ∀ c ∈ sampleDepartments, sampleSold.departmentId ≠ some c.id := by decide
  refine ⟨roots, hbuilt, hperm, ?_, ?_⟩
  · have hfleet := hone sampleFleet (by simp [sampleDepartments])
    obtain ⟨n, hn, hid⟩ := List.countP_pos_iff.mp (hfleet.symm ▸ Nat.one_pos)
    have hid : n.id = "fleet" := of_decide_eq_true hid
    refine ⟨n, hn, hid, fun d => ?_⟩
    rcases (hnodes n hn).2 with ⟨-, hdevices⟩ | ⟨hungrouped, -⟩
    · have hbelow : ReflTransGen (Under sampleDepartments) "fleet" "vans" :=
        .single ⟨sampleVans, by simp [sampleDepartments], rfl, rfl, sampleFleet,
          by simp [sampleDepartments], rfl⟩
      rw [hdevices, hid]
      constructor
      · rintro ⟨hd, c, hc, hdep, -⟩
        simp only [List.filter_true, List.mem_cons, List.not_mem_nil, or_false] at hd
        rcases hd with rfl | rfl
        · rfl
        · exact absurd hdep (hgone c hc)
      · rintro rfl
        exact ⟨by simp, sampleVans, by simp [sampleDepartments], rfl, hbelow⟩
    · exact absurd (hid.symm.trans hungrouped) (by decide)
  · have hsold : sampleSold ∈ roots.flatMap TreeNode.subtreeDevices := hperm.mem_iff.mpr (by simp)
    obtain ⟨n, hn, hmem⟩ := List.mem_flatMap.mp hsold
    have hn : n ∈ TreeNode.allNodes roots := by
      rw [TreeNode.allNodes_eq, List.mem_flatMap]
      exact ⟨n, hn, n.nodes_eq ▸ List.mem_cons_self⟩
    rcases (hnodes n hn).2 with ⟨-, hdevices⟩ | ⟨hungrouped, hdevices⟩
    · obtain ⟨-, c, hc, hdep, -⟩ := (hdevices _).mp hmem
      exact absurd hdep (hgone c hc)
    · refine ⟨n, hn, hungrouped, fun d => ?_⟩
      rw [hdevices]
      constructor
      · rintro ⟨hd, hnone⟩
        simp only [List.filter_true, List.mem_cons, List.not_mem_nil, or_false] at hd
        rcases hd with rfl | rfl
        · exact absurd ⟨sampleVans, by simp [sampleDepartments], rfl⟩ hnone
        · rfl
      · rintro rfl
        exact (hdevices _).mp hmem

end DeviceTree

end FleetTracking.Web
