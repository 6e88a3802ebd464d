import FleetTracking.ControlPlane.Account
import FleetTracking.Lib.Forest

/-!
# The Departments Stay a Forest

Two loops of the source follow the parents of departments and remember nothing: the check in
`DepartmentsService.update` walks up from the proposed parent, and `remove` collects what is below
a department. In a cycle of parents neither would end.

1. `parentOf`, `walk`, `doomedLoop`: the loops as the source has them, with fuel.
2. `UnitForest`: what the units keep; `UnitForest.create`, `move`, `remove`: what each write does.
3. `exists_walk`, `exists_doomedLoop`: the loops end in a forest, with the answers that
   `ancestors` and `doomed` give.
4. `departments_forest`: every reachable state is a forest.
-/

namespace FleetTracking.ControlPlane

open Async Relation Transition

/-! ## The loops of the source -/

/-- `parentOf.get(hop)`. -/
def parentOf (all : List OrgUnit) (hop : String) : Option String :=
  (all.find? fun u => u.id = hop).bind OrgUnit.parentId

/-- The walk of `update`: does it meet `id` on the way up from `hop`? `none` where it has not ended
after `fuel` rounds. -/
def walk (all : List OrgUnit) (id : String) : Nat → Option String → Option Bool
  | 0, _ => none
  | fuel + 1, hop =>
    match hop.filter truthy with
    | none => some false
    | some hop => if hop = id then some true else walk all id fuel (parentOf all hop)

/-- The units of the tenant that are pushed for `parentId`. -/
def pushed (units : List OrgUnit) (tenantId parentId : String) : List String :=
  (units.filter fun child => child.tenantId = tenantId ∧ child.parentId = some parentId).map
    OrgUnit.id

/-- The loop of `remove`: `doomed` grows while `i` walks over it. `none` where it has not ended
after `fuel` rounds. -/
def doomedLoop (units : List OrgUnit) (tenantId : String) :
    Nat → Nat → List String → Option (List String)
  | 0, _, _ => none
  | fuel + 1, i, doomed =>
    match doomed[i]? with
    | none => some doomed
    | some parentId =>
      doomedLoop units tenantId fuel (i + 1) (doomed ++ pushed units tenantId parentId)

/-! ## Forests of units -/

/-- The units are a forest, within each tenant. -/
structure UnitForest (units : List OrgUnit) : Prop where
  distinct : units.Pairwise fun u v => u.id ≠ v.id
  named : ∀ u ∈ units, u.id ≠ ""
  parents : ∀ u ∈ units, ∀ p, u.parentId = some p → p ≠ "" →
    ∃ v ∈ units, v.id = p ∧ v.tenantId = u.tenantId
  acyclic : Forest.Acyclic (Child units)

/-- The units of a tenant. -/
abbrev unitsOf (units : List OrgUnit) (tenantId : String) : List OrgUnit :=
  units.filter fun u => u.tenantId = tenantId

theorem unitForest_nil : UnitForest [] where
  distinct := .nil
  named _ hu := absurd hu List.not_mem_nil
  parents _ hu := absurd hu List.not_mem_nil
  acyclic a h := by
    obtain ⟨b, -, -, u, hu, -⟩ := TransGen.tail'_iff.mp h
    cases hu

section Forest

variable {units : List OrgUnit} {tenantId id a b : String}

theorem child_mono {units' : List OrgUnit} (h : units' ⊆ units) (hchild : Child units' a b) :
    Child units a b := by
  obtain ⟨hne, u, hu, hid, hparent⟩ := hchild
  exact ⟨hne, u, h hu, hid, hparent⟩

theorem child_of_unitsOf (h : Child (unitsOf units tenantId) a b) : Child units a b :=
  child_mono (List.filter_subset_self _) h

/-- The ancestors of a unit are units of its tenant. -/
theorem UnitForest.reach_unitsOf (h : UnitForest units) (hreach : ReflTransGen (Child units) a b)
    {v : OrgUnit} (hv : v ∈ units) (hid : v.id = b) (htenant : v.tenantId = tenantId) :
    ReflTransGen (Child (unitsOf units tenantId)) a b := by
  induction hreach generalizing v with
  | refl => exact .refl
  | tail _ hchild ih =>
    obtain ⟨hne, u, hu, huid, hparent⟩ := hchild
    obtain rfl := eq_of_pairwise h.distinct hv hu (hid.trans huid.symm)
    obtain ⟨w, hw, hwid, hwtenant⟩ := h.parents v hv _ hparent hne
    refine (ih hw hwid (hwtenant.trans htenant)).tail ⟨hne, v, ?_, hid, hparent⟩
    exact List.mem_filter.mpr ⟨hv, by simpa using htenant⟩

theorem findUnit_of_mem {u : OrgUnit} (hdistinct : units.Pairwise fun u v => u.id ≠ v.id)
    (hu : u ∈ units) : findUnit units u.tenantId u.id = some u := by
  cases hfind : findUnit units u.tenantId u.id with
  | none =>
    have hne := List.find?_eq_none.mp hfind u hu
    simp at hne
  | some v =>
    obtain ⟨hv, hid, -⟩ := findUnit_eq_some hfind
    rw [eq_of_pairwise hdistinct hv hu hid]

/-- A unit without children is above nothing. -/
theorem eq_of_childless (hnone : ∀ u ∈ units, u.parentId ≠ some a)
    (h : ReflTransGen (Child units) a b) : b = a := by
  rcases ReflTransGen.cases_head h with heq | ⟨c, ⟨-, u, hu, -, hparent⟩, -⟩
  · exact heq.symm
  · exact absurd hparent (hnone u hu)

/-! ## What the writes do -/

/-- A new unit, under a parent of its tenant, if it has one. -/
theorem UnitForest.create (h : UnitForest units) {u : OrgUnit} (hnew : ∀ v ∈ units, v.id ≠ u.id)
    (hne : u.id ≠ "")
    (hparent : ∀ p, u.parentId = some p → p ≠ "" →
      ∃ v ∈ units, v.id = p ∧ v.tenantId = u.tenantId) :
    UnitForest (putRow OrgUnit.id units u) where
  distinct := pairwise_putRow h.distinct u
  named v hv := by
    rcases mem_putRow.mp hv with rfl | ⟨hv, -⟩
    · exact hne
    · exact h.named v hv
  parents v hv p hp hpne := by
    have hfound : ∃ w ∈ units, w.id = p ∧ w.tenantId = v.tenantId := by
      rcases mem_putRow.mp hv with rfl | ⟨hv, -⟩
      · exact hparent p hp hpne
      · exact h.parents v hv p hp hpne
    obtain ⟨w, hw, hwid, hwtenant⟩ := hfound
    exact ⟨w, mem_putRow.mpr (Or.inr ⟨hw, hnew w hw⟩), hwid, hwtenant⟩
  acyclic := by
    -- Nothing is below the new unit yet.
    have hchildless : ∀ v ∈ units, v.parentId ≠ some u.id := by
      intro v hv hp
      obtain ⟨w, hw, hwid, -⟩ := h.parents v hv u.id hp hne
      exact hnew w hw hwid
    by_cases hp : ∃ p, u.parentId = some p ∧ p ≠ ""
    · obtain ⟨p, hp, hpne⟩ := hp
      refine Forest.acyclic_link (p := p) (x := u.id) h.acyclic (fun hreach => ?_) ?_
      · obtain ⟨w, hw, hwid, -⟩ := hparent p hp hpne
        exact hnew w hw (hwid.trans (eq_of_childless hchildless hreach))
      · intro a b ⟨hane, v, hv, hvid, hvparent⟩
        rcases mem_putRow.mp hv with rfl | ⟨hv, -⟩
        · exact Or.inr ⟨Option.some_inj.mp (hvparent.symm.trans hp), hvid.symm⟩
        · exact Or.inl ⟨hane, v, hv, hvid, hvparent⟩
    · refine h.acyclic.mono fun a b ⟨hane, v, hv, hvid, hvparent⟩ => ?_
      rcases mem_putRow.mp hv with rfl | ⟨hv, -⟩
      · exact absurd ⟨a, hvparent, hane⟩ hp
      · exact ⟨hane, v, hv, hvid, hvparent⟩

/-- **A move closes no cycle**: the unit `u` is given the parent `p` of its tenant, which is not
below `u`. -/
theorem UnitForest.move (h : UnitForest units) {u : OrgUnit} (hu : u ∈ units) (patch : OrgUnitPatch)
    (hparent : ∀ p, patch.parentId = some (some p) → p ≠ "" →
      (∃ v ∈ units, v.id = p ∧ v.tenantId = u.tenantId) ∧
        ¬ ReflTransGen (Child units) u.id p) :
    UnitForest (putRow OrgUnit.id units (patch.apply u)) where
  distinct := pairwise_putRow h.distinct _
  named v hv := by
    rcases mem_putRow.mp hv with rfl | ⟨hv, -⟩
    · exact h.named u hu
    · exact h.named v hv
  parents v hv p hp hpne := by
    have hfound : ∃ w ∈ units, w.id = p ∧ w.tenantId = v.tenantId := by
      rcases mem_putRow.mp hv with rfl | ⟨hv, -⟩
      · cases hpatch : patch.parentId with
        | none => exact h.parents u hu p (by simpa [OrgUnitPatch.apply, hpatch] using hp) hpne
        | some parentId =>
          have hq : parentId = some p := by simpa [OrgUnitPatch.apply, hpatch] using hp
          exact (hparent p (hpatch.trans (congrArg some hq)) hpne).1
      · exact h.parents v hv p hp hpne
    obtain ⟨w, hw, hwid, hwtenant⟩ := hfound
    -- the parent may be the unit that moves: its row is the patched one then
    by_cases hwu : w.id = u.id
    · obtain rfl := eq_of_pairwise h.distinct hw hu hwu
      exact ⟨patch.apply w, mem_putRow.mpr (Or.inl rfl), hwid, hwtenant⟩
    · exact ⟨w, mem_putRow.mpr (Or.inr ⟨hw, hwu⟩), hwid, hwtenant⟩
  acyclic := by
    by_cases hp : ∃ p, patch.parentId = some (some p) ∧ p ≠ ""
    · obtain ⟨p, hp, hpne⟩ := hp
      -- the new edge ends at a unit below which the new parent does not lie
      refine Forest.acyclic_link (p := p) (x := u.id) h.acyclic (hparent p hp hpne).2 ?_
      intro a b ⟨hane, v, hv, hvid, hvparent⟩
      rcases mem_putRow.mp hv with rfl | ⟨hv, -⟩
      · have hap : some p = some a := by simpa [OrgUnitPatch.apply, hp] using hvparent
        exact Or.inr ⟨(Option.some_inj.mp hap).symm, hvid.symm⟩
      · exact Or.inl ⟨hane, v, hv, hvid, hvparent⟩
    · refine h.acyclic.mono fun a b ⟨hane, v, hv, hvid, hvparent⟩ => ?_
      rcases mem_putRow.mp hv with rfl | ⟨hv, -⟩
      · cases hpatch : patch.parentId with
        | none => exact ⟨hane, u, hu, hvid, by simpa [OrgUnitPatch.apply, hpatch] using hvparent⟩
        | some parentId =>
          have hq : parentId = some a := by simpa [OrgUnitPatch.apply, hpatch] using hvparent
          exact absurd ⟨a, hpatch.trans (congrArg some hq), hane⟩ hp
      · exact ⟨hane, v, hv, hvid, hvparent⟩

/-- What goes with a unit: what its children lead to, in its tenant. -/
theorem mem_doomed_iff : b ∈ doomed units tenantId a ↔
    ReflTransGen (fun x y => y ∈ pushed units tenantId x) a b := by
  unfold doomed
  rw [Worklist.mem_closure]
  have hrel : (fun x y => (x, y) ∈ (unitsOf units tenantId).filterMap fun u =>
      u.parentId.map fun parentId => (parentId, u.id)) =
      fun x y => y ∈ pushed units tenantId x := by
    funext x y
    simp only [pushed, List.mem_filterMap, List.mem_map, List.mem_filter, decide_eq_true_eq,
      Option.map_eq_some_iff, Prod.mk.injEq, eq_iff_iff]
    constructor
    · rintro ⟨u, ⟨hu, htenant⟩, p, hp, rfl, rfl⟩
      exact ⟨u, ⟨hu, htenant, hp⟩, rfl⟩
    · rintro ⟨u, ⟨hu, htenant, hp⟩, rfl⟩
      exact ⟨u, ⟨hu, htenant⟩, x, hp, rfl, rfl⟩
  rw [hrel]

theorem mem_pushed : b ∈ pushed units tenantId a ↔
    ∃ u ∈ units, u.tenantId = tenantId ∧ u.parentId = some a ∧ u.id = b := by
  simp [pushed, and_assoc]

/-- A unit goes with all that is below it. -/
theorem UnitForest.remove (h : UnitForest units) (hid : ∃ u, findUnit units tenantId id = some u) :
    UnitForest (units.filter fun u => u.id ∉ doomed units tenantId id) where
  distinct := h.distinct.filter _
  named u hu := h.named u (List.mem_filter.mp hu).1
  parents u hu p hp hpne := by
    obtain ⟨hu, hkept⟩ := List.mem_filter.mp hu
    obtain ⟨v, hv, hvid, hvtenant⟩ := h.parents u hu p hp hpne
    refine ⟨v, List.mem_filter.mpr ⟨hv, ?_⟩, hvid, hvtenant⟩
    simp only [decide_not, Bool.not_eq_eq_eq_not, Bool.not_true, decide_eq_false_iff_not] at hkept ⊢
    intro hgone
    -- The parent goes, so it is of the tenant, and its child goes too.
    have htenant : v.tenantId = tenantId := by
      rcases mem_doomed hgone with heq | ⟨w, hw, hwtenant, hwid⟩
      · obtain ⟨w, hfound⟩ := hid
        obtain ⟨hw, hwid, hwtenant⟩ := findUnit_eq_some hfound
        rw [eq_of_pairwise h.distinct hv hw (heq.trans hwid.symm)]
        exact hwtenant
      · rw [eq_of_pairwise h.distinct hv hw hwid.symm]
        exact hwtenant
    refine hkept (mem_doomed_iff.mpr ((mem_doomed_iff.mp hgone).tail ?_))
    exact mem_pushed.mpr ⟨u, hu, hvtenant.symm.trans htenant, hp.trans (congrArg some hvid.symm), rfl⟩
  acyclic := h.acyclic.mono fun _ _ hchild => child_mono (List.filter_subset_self _) hchild

/-! ## The loops end -/

/-- The parent that the walk follows, if there is one. -/
def parentLink (all : List OrgUnit) (x : String) : Option String := (parentOf all x).filter truthy

theorem child_of_parentLink {all : List OrgUnit} (h : Forest.Link (parentLink all) a b) :
    Child all a b := by
  obtain ⟨hparent, htruthy⟩ := Option.filter_eq_some_iff.mp h
  obtain ⟨u, hfind, hp⟩ := Option.bind_eq_some_iff.mp hparent
  have hid : u.id = b := by simpa using List.find?_some hfind
  exact ⟨by simpa [truthy] using htruthy, u, List.mem_of_find?_eq_some hfind, hid, hp⟩

theorem parentLink_of_child {all : List OrgUnit}
    (hdistinct : all.Pairwise fun u v => u.id ≠ v.id) (h : Child all a b) :
    Forest.Link (parentLink all) a b := by
  obtain ⟨hne, u, hu, hid, hp⟩ := h
  have hfind : (all.find? fun u => u.id = b) = some u :=
    Table.get_eq_some_iff (t := ⟨all, hdistinct⟩).mpr ⟨hu, hid⟩
  refine Option.filter_eq_some_iff.mpr ⟨?_, by simpa [truthy] using hne⟩
  rw [parentOf, hfind, Option.bind_some, hp]

/-- The walk is a climb that stops at `id`. -/
theorem walk_of_climb {all : List OrgUnit} {fuel : Nat} {hop : Option String} {l : List String}
    (h : Forest.climb (parentLink all) fuel (hop.filter truthy) = some l) :
    walk all id fuel hop = some (decide (id ∈ l)) := by
  induction fuel generalizing hop l with
  | zero => cases h
  | succ fuel ih =>
    cases hhop : hop.filter truthy with
    | none =>
      rw [hhop] at h
      obtain rfl := Option.some_inj.mp h
      simp [walk, hhop]
    | some x =>
      rw [hhop] at h
      obtain ⟨rest, hrest, rfl⟩ := Option.map_eq_some_iff.mp h
      simp only [walk, hhop]
      by_cases hx : x = id
      · simp [hx]
      · have hne : id ≠ x := fun heq => hx heq.symm
        rw [if_neg hx, ih hrest]
        simp [hne]

/-- So are the ancestors. -/
theorem ancestors_of_climb {all : List OrgUnit} {fuel n : Nat} {hop : Option String}
    {l : List String} (h : Forest.climb (parentLink all) fuel (hop.filter truthy) = some l)
    (hn : l.length ≤ n) : ancestors all n hop = l := by
  induction fuel generalizing hop l n with
  | zero => cases h
  | succ fuel ih =>
    cases hhop : hop.filter truthy with
    | none =>
      rw [hhop] at h
      obtain rfl := Option.some_inj.mp h
      cases n with
      | zero => rfl
      | succ n => simp [ancestors, hhop]
    | some x =>
      rw [hhop] at h
      obtain ⟨rest, hrest, rfl⟩ := Option.map_eq_some_iff.mp h
      cases n with
      | zero => simp at hn
      | succ n =>
        have htail := ih (n := n) hrest (by simpa using hn)
        simp only [ancestors, hhop]
        rw [← htail]
        rfl

/-- In units without a cycle the walk ends. What it met are the ancestors of the first unit. -/
theorem exists_climb {all : List OrgUnit} (h : Forest.Acyclic (Child all)) (hop : Option String) :
    ∃ fuel, Forest.climb (parentLink all) fuel (hop.filter truthy) =
      some (ancestors all (all.length + 1) hop) := by
  have hlinks : Forest.Acyclic (Forest.Link (parentLink all)) :=
    h.mono fun _ _ => child_of_parentLink
  obtain ⟨l, hl⟩ := @Forest.exists_climb _ _ _ hlinks (all.map OrgUnit.id) (fun a b hab => by
    obtain ⟨-, u, hu, hid, -⟩ := child_of_parentLink hab
    exact List.mem_map.mpr ⟨u, hu, hid⟩) (hop.filter truthy)
  have hlength := Forest.length_climb hl
  rw [List.length_map] at hlength
  exact ⟨_, hl.trans (congrArg some (ancestors_of_climb hl (by omega)).symm)⟩

/-- **The walk of `update` ends**, with the answer that the check takes. -/
theorem exists_walk {all : List OrgUnit} (h : Forest.Acyclic (Child all)) (id : String)
    (hop : Option String) :
    ∃ fuel, walk all id fuel hop = some (decide (id ∈ ancestors all (all.length + 1) hop)) := by
  obtain ⟨fuel, hclimb⟩ := exists_climb h hop
  exact ⟨fuel, walk_of_climb hclimb⟩

/-- A unit that the walk does not meet is not above its start. -/
theorem UnitForest.not_reach_of_ancestors (h : UnitForest units) {p : String} (hne : p ≠ "")
    {v : OrgUnit} (hv : findUnit units tenantId p = some v)
    (hnot : id ∉ ancestors (unitsOf units tenantId) ((unitsOf units tenantId).length + 1) (some p)) :
    ¬ ReflTransGen (Child units) id p := by
  intro hreach
  obtain ⟨hv, hvid, htenant⟩ := findUnit_eq_some hv
  obtain ⟨fuel, hclimb⟩ := exists_climb
    (h.acyclic.mono fun _ _ => @child_of_unitsOf _ tenantId _ _) (some p)
  have hsome : (some p).filter truthy = some p := by simp [truthy, hne]
  rw [hsome] at hclimb
  refine hnot ((Forest.mem_climb hclimb).mpr ?_)
  have hdistinct : (unitsOf units tenantId).Pairwise fun u v => u.id ≠ v.id := h.distinct.filter _
  exact ReflTransGen.mono (fun _ _ => parentLink_of_child hdistinct) _ _
    (h.reach_unitsOf hreach hv hvid htenant)

/-- A unit that the walk meets is a unit of the tenant, above the start. -/
theorem UnitForest.reach_of_ancestors (h : UnitForest units) {p : String} {v : OrgUnit}
    (hv : findUnit units tenantId p = some v)
    (hmem : id ∈ ancestors (unitsOf units tenantId) ((unitsOf units tenantId).length + 1) (some p)) :
    (∃ u, findUnit units tenantId id = some u) ∧ ReflTransGen (Child units) id p := by
  obtain ⟨hvmem, hvid, -⟩ := findUnit_eq_some hv
  obtain ⟨fuel, hclimb⟩ := exists_climb
    (h.acyclic.mono fun _ _ => @child_of_unitsOf _ tenantId _ _) (some p)
  have hne : p ≠ "" := hvid ▸ h.named v hvmem
  have hsome : (some p).filter truthy = some p := by simp [truthy, hne]
  rw [hsome] at hclimb
  have hreach : ReflTransGen (Child (unitsOf units tenantId)) id p :=
    ReflTransGen.mono (fun _ _ => child_of_parentLink) _ _ ((Forest.mem_climb hclimb).mp hmem)
  refine ⟨?_, ReflTransGen.mono (fun _ _ => child_of_unitsOf) _ _ hreach⟩
  rcases ReflTransGen.cases_head hreach with rfl | ⟨c, ⟨hane, u, hu, -, hparent⟩, -⟩
  · exact ⟨v, hv⟩
  · obtain ⟨hu, htenant⟩ := List.mem_filter.mp hu
    obtain ⟨w, hw, rfl, hwtenant⟩ := h.parents u hu id hparent hane
    obtain rfl : w.tenantId = tenantId := hwtenant.trans (by simpa using htenant)
    exact ⟨w, findUnit_of_mem h.distinct hw⟩

/-- The loop of `remove` collects what is below the departments it has not come to. -/
theorem doomedLoop_eq {fuel i : Nat} {l : List String} :
    doomedLoop units tenantId fuel i l =
      Forest.drain (pushed units tenantId) fuel (l.drop i) (l.take i) := by
  induction fuel generalizing i l with
  | zero => rfl
  | succ fuel ih =>
    unfold doomedLoop
    by_cases hi : i < l.length
    · rw [List.getElem?_eq_getElem hi, List.drop_eq_getElem_cons hi, Forest.drain]
      simp only
      rw [ih, List.drop_append_of_le_length (by omega), List.take_append_of_le_length (by omega),
        List.take_succ_eq_append_getElem hi]
    · rw [List.getElem?_eq_none (by omega), List.drop_of_length_le (by omega),
        List.take_of_length_le (by omega)]
      rfl

/-- Below a unit, what is pushed are its descendants. -/
theorem UnitForest.reach_pushed (h : UnitForest units) (hne : a ≠ "") :
    ReflTransGen (Forest.Below (pushed units tenantId)) a b ↔
      ReflTransGen (Child (unitsOf units tenantId)) a b := by
  constructor
  · intro hreach
    have hboth : ReflTransGen (Child (unitsOf units tenantId)) a b ∧ b ≠ "" := by
      induction hreach with
      | refl => exact ⟨.refl, hne⟩
      | tail _ hbelow ih =>
        obtain ⟨u, hu, htenant, hparent, rfl⟩ := mem_pushed.mp hbelow
        have hmem : u ∈ unitsOf units tenantId := List.mem_filter.mpr ⟨hu, by simpa using htenant⟩
        exact ⟨ih.1.tail ⟨ih.2, u, hmem, rfl, hparent⟩, h.named u hu⟩
    exact hboth.1
  · intro hreach
    refine ReflTransGen.mono (fun x y hchild => ?_) _ _ hreach
    obtain ⟨-, u, hu, hid, hparent⟩ := hchild
    obtain ⟨hu, htenant⟩ := List.mem_filter.mp hu
    exact mem_pushed.mpr ⟨u, hu, by simpa using htenant, hparent, hid⟩

/-- What goes with a unit is its subtree. -/
theorem UnitForest.mem_doomed_iff_descendant (h : UnitForest units) (hne : a ≠ "") :
    b ∈ doomed units tenantId a ↔ b ∈ descendantIds (unitsOf units tenantId) a := by
  rw [mem_doomed_iff, mem_descendantIds]
  exact h.reach_pushed hne

/-- The loop of `remove` ends where no unit has the id of another and the first one is not below
itself. -/
theorem exists_doomedLoop_of_root (hdistinct : units.Pairwise fun u v => u.id ≠ v.id)
    (hroot : ¬ TransGen (Forest.Below (pushed units tenantId)) id id) :
    ∃ l, doomedLoop units tenantId (units.length + 2) 0 [id] = some l ∧
      ∀ x, x ∈ l ↔ ReflTransGen (Forest.Below (pushed units tenantId)) id x := by
  have honce : ∀ x y c, c ∈ pushed units tenantId x → c ∈ pushed units tenantId y → x = y := by
    intro x y c hx hy
    obtain ⟨u, hu, -, hux, hid⟩ := mem_pushed.mp hx
    obtain ⟨v, hv, -, hvy, rfl⟩ := mem_pushed.mp hy
    rw [eq_of_pairwise hdistinct hu hv hid] at hux
    exact Option.some_inj.mp (hux.symm.trans hvy)
  have hnodup : ∀ x, (pushed units tenantId x).Nodup := fun x =>
    List.pairwise_map.mpr (hdistinct.filter _)
  have hnodes : ∀ x, pushed units tenantId x ⊆ units.map OrgUnit.id := by
    intro x y hy
    obtain ⟨u, hu, -, -, rfl⟩ := mem_pushed.mp hy
    exact List.mem_map.mpr ⟨u, hu, rfl⟩
  obtain ⟨l, hl, hmem⟩ := Forest.exists_drain hroot honce hnodup hnodes
  rw [List.length_map] at hl
  exact ⟨l, doomedLoop_eq.trans hl, hmem⟩

/-- **The loop of `remove` ends**, and what it collects is the subtree. -/
theorem UnitForest.exists_doomedLoop (h : UnitForest units) (hne : id ≠ "") :
    ∃ fuel l, doomedLoop units tenantId fuel 0 [id] = some l ∧
      ∀ x, x ∈ l ↔ x ∈ descendantIds (unitsOf units tenantId) id := by
  have hroot : ¬ TransGen (Forest.Below (pushed units tenantId)) id id := by
    intro hcycle
    obtain ⟨c, hreach, hbelow⟩ := TransGen.tail'_iff.mp hcycle
    obtain ⟨u, hu, -, hparent, hid⟩ := mem_pushed.mp hbelow
    have hreach := (h.reach_pushed hne).mp hreach
    have hcne : c ≠ "" := by
      rcases ReflTransGen.cases_tail hreach with rfl | ⟨d, -, -, v, hv, rfl, -⟩
      · exact hne
      · exact h.named v (List.mem_filter.mp hv).1
    have hchild : Child units c id := ⟨hcne, u, hu, hid, hparent⟩
    exact h.acyclic id
      (TransGen.tail' (ReflTransGen.mono (fun _ _ => child_of_unitsOf) _ _ hreach) hchild)
  obtain ⟨l, hl, hmem⟩ := exists_doomedLoop_of_root h.distinct hroot
  refine ⟨_, l, hl, fun x => ?_⟩
  rw [hmem, mem_descendantIds]
  exact h.reach_pushed hne

end Forest

/-! ## The calls -/

/-- The calls of `DepartmentsService` that write. -/
inductive DepartmentCall where
  | create (dto : CreateDepartmentDto)
  | update (id : String) (dto : OrgUnitPatch)
  | remove (id : String)

/-- The code of a call by a user of the tenant. -/
def DepartmentCall.code (tenantId : String) : DepartmentCall → Api Unit
  | .create dto => ignore (DepartmentsService.create tenantId dto)
  | .update id dto => ignore (DepartmentsService.update tenantId id dto)
  | .remove id => DepartmentsService.remove tenantId id

/-- A call with the outcomes of its requests. -/
structure DepartmentEvent where
  tenantId : String
  call : DepartmentCall
  ω : Nat → Outcome

/-- The call is run to completion. -/
def Store.departments (D : ApiDeployment) (s : Store) (e : DepartmentEvent) : Option Store :=
  (s.complete D e.ω (e.call.code e.tenantId)).map Prod.snd

/-- The departments are a forest, and their ids were drawn. -/
structure Store.Forest (D : ApiDeployment) (s : Store) : Prop where
  units : UnitForest s.backend.orgUnits
  drawn : s.Unused D (s.backend.orgUnits.map OrgUnit.id)

section Calls

variable {D : ApiDeployment} {s s' : Store} {tenantId id : String}

theorem forest_create (huuid : ∀ n, D.uuid n ≠ "") (h : s.Forest D) (dto : CreateDepartmentDto) :
    Store.Ends D (fun _ => True) (fun _ s' => s'.Forest D)
      ((DepartmentCall.create dto).code tenantId) s := by
  simp only [DepartmentCall.code, ignore, DepartmentsService.create, bind_assoc]
  refine ends_checkExists (fun hfound => ends_step ?_) fun _ => h
  have hleads : Store.Forest D { s with
      drawn := s.drawn + 1
      backend.orgUnits := putRow OrgUnit.id s.backend.orgUnits
        ⟨D.uuid s.drawn, tenantId, dto.name, dto.parentId⟩ } := by
    have hnew : ∀ v ∈ s.backend.orgUnits, v.id ≠ D.uuid s.drawn := fun v hv =>
      h.drawn v.id (List.mem_map.mpr ⟨v, hv, rfl⟩) _ le_rfl
    refine ⟨h.units.create hnew (huuid _) fun p hp hne => ?_, ?_⟩
    · obtain ⟨v, hv⟩ := hfound p hp hne
      exact ⟨v, findUnit_eq_some hv⟩
    · refine unused_putRow (fun x hx n hn => h.drawn x hx n (Nat.le_of_succ_le hn)) fun n hn heq => ?_
      have hlt : s.drawn < n := hn
      exact absurd (D.fresh heq) hlt.ne
  have hdrawn : Store.Forest D { s with drawn := s.drawn + 1 } :=
    ⟨h.units, fun x hx n hn => h.drawn x hx n (Nat.le_of_succ_le hn)⟩
  exact ends_write rfl (fun _ => hleads) (fun _ _ => hdrawn) fun _ _ => hleads

theorem forest_update (h : s.Forest D) (id : String) (dto : OrgUnitPatch) :
    Store.Ends D (fun _ => True) (fun _ s' => s'.Forest D)
      ((DepartmentCall.update id dto).code tenantId) s := by
  simp only [DepartmentCall.code, ignore, DepartmentsService.update, bind_assoc]
  refine ends_read rfl rfl (fun reply => ?_) fun _ _ _ => h
  split
  case isTrue hsome =>
    obtain ⟨u, hfound⟩ := Option.isSome_iff_exists.mp hsome
    have hfound : findUnit s.backend.orgUnits tenantId id = some u := hfound
    obtain ⟨hu, hid, htenant⟩ := findUnit_eq_some hfound
    simp only [bind_assoc]
    -- the service looks for the unit among the ancestors of the new parent
    refine ends_checkParent (fun hchecked => ?_) fun _ => h
    have hleads : (s.effect (.orgUnitsSet (dto.apply u))).Forest D := by
      refine ⟨h.units.move hu dto fun p hp hne => ?_, unused_replace h.drawn hu rfl⟩
      obtain ⟨⟨v, hv⟩, hnot⟩ := hchecked p hp
      obtain ⟨hvmem, hvid, hvtenant⟩ := findUnit_eq_some hv
      refine ⟨⟨v, hvmem, hvid, hvtenant.trans htenant.symm⟩, ?_⟩
      rw [hid]
      exact h.units.not_reach_of_ancestors hne hv (hnot _ rfl)
    -- the repository reads the row once more before it writes
    simp only [OrgUnitRepository.update, bind_assoc]
    refine ends_read rfl rfl (fun _ => ?_) fun _ _ _ => h
    simp only [Store.answer, hfound, bind_assoc]
    exact ends_write rfl (fun _ => hleads) (fun _ _ => h) fun _ _ => hleads
  case isFalse => exact h

/-- What `remove` leaves. -/
theorem removed_eq (h : s.Forest D) (tenantId id : String) :
    (s.effect (.orgUnitsRemove tenantId id)).Forest D ∧
      ((removeUnit s.backend.orgUnits tenantId id).isSome →
        (s.effect (.orgUnitsRemove tenantId id)).backend.orgUnits =
          s.backend.orgUnits.filter fun u =>
            u.id ∉ descendantIds (unitsOf s.backend.orgUnits tenantId) id) := by
  simp only [Store.effect, removeUnit]
  cases hfound : findUnit s.backend.orgUnits tenantId id with
  | none => exact ⟨h, fun hsome => absurd hsome Bool.false_ne_true⟩
  | some u =>
    obtain ⟨hu, hid, -⟩ := findUnit_eq_some hfound
    refine ⟨⟨h.units.remove ⟨u, hfound⟩, unused_filter h.drawn⟩, fun _ => ?_⟩
    refine List.filter_congr fun v _ => ?_
    have hne : id ≠ "" := hid ▸ h.units.named u hu
    rw [decide_eq_decide]
    exact not_congr (h.units.mem_doomed_iff_descendant hne)

theorem forest_remove (h : s.Forest D) (id : String) :
    Store.Ends D (fun _ => True) (fun r s' => s'.Forest D ∧ (r = .ok () →
        s'.backend.orgUnits = s.backend.orgUnits.filter fun u =>
          u.id ∉ descendantIds (unitsOf s.backend.orgUnits tenantId) id))
      (DepartmentsService.remove tenantId id) s := by
  obtain ⟨hforest, hleft⟩ := removed_eq h tenantId id
  simp only [DepartmentsService.remove]
  refine ends_write rfl (fun _ => ?_) (fun _ _ => ⟨h, fun hr => (by cases hr)⟩)
    fun _ _ => ⟨hforest, fun hr => (by cases hr)⟩
  split
  case isTrue hremoved => exact ⟨hforest, fun _ => hleft hremoved⟩
  case isFalse => exact ⟨hforest, fun hr => (by cases hr)⟩

/-- Every call keeps the forest. -/
theorem forest_step (huuid : ∀ n, D.uuid n ≠ "") (h : s.Forest D) {e : DepartmentEvent}
    (hstep : s.departments D e = some s') : s'.Forest D := by
  obtain ⟨⟨r, s''⟩, hcomplete, rfl⟩ := Option.map_eq_some_iff.mp hstep
  have hends : Store.Ends D (fun _ => True) (fun _ s' => s'.Forest D)
      (e.call.code e.tenantId) s := by
    cases hcall : e.call with
    | create dto => exact forest_create huuid h dto
    | update id dto => exact forest_update h id dto
    | remove id => exact Ends.mono (forest_remove h id) fun _ _ hr => hr.1
  exact hends.of_complete (fun _ => trivial) hcomplete

end Calls

/-! ## Every reachable state -/

/-- What is promised of the departments. -/
structure Store.DepartmentLaws (D : ApiDeployment) (s : Store) : Prop where
  -- A unit is at the top, or its parent is a unit of its tenant.
  parents : ∀ u ∈ s.backend.orgUnits, u.parentId = none ∨ u.parentId = some "" ∨
    ∃ v ∈ s.backend.orgUnits, v.tenantId = u.tenantId ∧ u.parentId = some v.id
  -- No unit is above itself.
  acyclic : ∀ x, ¬ TransGen (Child s.backend.orgUnits) x x
  -- The walk of `update` ends, with the answer that its check takes.
  walk : ∀ tenantId id parentId, ∃ fuel, walk (unitsOf s.backend.orgUnits tenantId) id fuel
    (some parentId) = some (decide (id ∈ ancestors (unitsOf s.backend.orgUnits tenantId)
      ((unitsOf s.backend.orgUnits tenantId).length + 1) (some parentId)))
  -- The loop of `remove` ends, with what goes with the unit.
  worklist : ∀ tenantId id u, findUnit s.backend.orgUnits tenantId id = some u →
    ∃ fuel l, doomedLoop s.backend.orgUnits tenantId fuel 0 [id] = some l ∧
      ∀ x, x ∈ l ↔ x ∈ doomed s.backend.orgUnits tenantId id
  -- A `remove` that returns has deleted the subtree, and nothing else.
  removes : ∀ tenantId id ω s', s.complete D ω (DepartmentsService.remove tenantId id) =
    some (.ok (), s') → s'.backend.orgUnits = s.backend.orgUnits.filter fun u =>
      u.id ∉ descendantIds (unitsOf s.backend.orgUnits tenantId) id

theorem Store.Forest.laws {D : ApiDeployment} {s : Store} (h : s.Forest D) :
    s.DepartmentLaws D where
  parents u hu := by
    cases hparent : u.parentId with
    | none => exact Or.inl rfl
    | some p =>
      by_cases hne : p = ""
      · exact Or.inr (Or.inl (by rw [hne]))
      · obtain ⟨v, hv, hid, htenant⟩ := h.units.parents u hu p hparent hne
        exact Or.inr (Or.inr ⟨v, hv, htenant, by rw [hid]⟩)
  acyclic := h.units.acyclic
  walk tenantId id parentId :=
    exists_walk (h.units.acyclic.mono fun _ _ => child_of_unitsOf) id (some parentId)
  worklist tenantId id u hfound := by
    obtain ⟨hu, hid, -⟩ := findUnit_eq_some hfound
    have hne : id ≠ "" := hid ▸ h.units.named u hu
    obtain ⟨fuel, l, hl, hmem⟩ := @UnitForest.exists_doomedLoop _ tenantId _ h.units hne
    exact ⟨fuel, l, hl, fun x => (hmem x).trans (h.units.mem_doomed_iff_descendant hne).symm⟩
  removes tenantId id ω s' hcomplete :=
    ((forest_remove h id).of_complete (fun _ => trivial) hcomplete).2 rfl

/-- **The departments stay a forest.** In every run of complete calls, by users of any tenants
and with any arguments, that starts without departments; no id drawn is empty. -/
theorem departments_forest (D : ApiDeployment) (huuid : ∀ n, D.uuid n ≠ "") (s₀ : Store)
    (hempty : s₀.backend.orgUnits = []) {es : List DepartmentEvent} {s : Store}
    (hrun : Run (Store.departments D) (fun _ _ => True) s₀ es s) : s.DepartmentLaws D := by
  have hinit : s₀.Forest D := by
    refine ⟨hempty ▸ unitForest_nil, fun x hx => ?_⟩
    rw [hempty] at hx
    cases hx
  exact (hrun.invariant hinit fun _ _ _ h _ hs => forest_step huuid h hs).laws

/-- Two departments, the second below the first, which cannot move below it and takes it along
when it is removed. -/
theorem sample_forest : ∃ s s',
    Run (Store.departments sampleApi) (fun _ _ => True) (Store.new (Backend.new Table.empty))
      [⟨"acme", .create ⟨"North", none⟩, fun _ => .resolves ""⟩,
        ⟨"acme", .create ⟨"Depot", some "x"⟩, fun _ => .resolves ""⟩,
        ⟨"acme", .update "x" { parentId := some (some "xx") }, fun _ => .resolves ""⟩] s ∧
    s.backend.orgUnits = [⟨"x", "acme", "North", none⟩, ⟨"xx", "acme", "Depot", some "x"⟩] ∧
    s.DepartmentLaws sampleApi ∧
    Store.departments sampleApi s ⟨"acme", .remove "x", fun _ => .resolves ""⟩ = some s' ∧
    s'.backend.orgUnits = [] := by
  have hrun : Run (Store.departments sampleApi) (fun _ _ => True)
      (Store.new (Backend.new Table.empty))
      [⟨"acme", .create ⟨"North", none⟩, fun _ => .resolves ""⟩,
        ⟨"acme", .create ⟨"Depot", some "x"⟩, fun _ => .resolves ""⟩,
        ⟨"acme", .update "x" { parentId := some (some "xx") }, fun _ => .resolves ""⟩] _ :=
    .cons trivial rfl (.cons trivial rfl (.single trivial rfl))
  have huuid : ∀ n, sampleApi.uuid n ≠ "" := by
    intro n h
    have hlength := congrArg String.length h
    simp [sampleApi] at hlength
  exact ⟨_, _, hrun, rfl, departments_forest sampleApi huuid _ rfl hrun, rfl, rfl⟩

end FleetTracking.ControlPlane
