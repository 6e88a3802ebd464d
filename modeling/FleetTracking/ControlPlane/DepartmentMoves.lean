import FleetTracking.ControlPlane.DepartmentForest
import FleetTracking.ControlPlane.Overlap

/-!
# Departments Moved at the Same Time

`DepartmentsService.update` walks up from the proposed parent on a list it has read, and writes
several awaits later. Two moves that overlap may each pass the walk and close a cycle together;
then the walk of a later move does not end. And the row that is written is the one that was read,
so that a change of the name may bring back a parent that the unit no longer has.

1. `MovePhase`, `moveCalls`: what an update has found when it writes.
2. `StillFree`: where the units have changed since they were read, the walk would still pass.
3. `moves_acyclic_iff`: the departments stay a forest exactly as long as it does.
-/

namespace FleetTracking.ControlPlane

open Async Relation Transition Typestate

/-! ## Updates under way -/

/-- A call of `DepartmentsService.update`. -/
structure MoveCall where
  id : String
  dto : OrgUnitPatch

/-- The updates of a tenant, interleaved at their awaits. -/
abbrev departmentMoves (D : ApiDeployment) (tenantId : String) :
    System apiSig Nat MoveCall OrgUnit Store Outcome EnvMove :=
  apiCalls D fun c => DepartmentsService.update tenantId c.id c.dto

/-- How far an update has come. -/
structure MovePhase where
  call : MoveCall
  -- The units that were looked up and found.
  found : List String := []
  -- The last of them: its id, and its row.
  row : Option (String × OrgUnit) := none
  -- The units of the tenant, as listed.
  all : Option (List OrgUnit) := none

namespace MovePhase

/-- One more thing has been seen. -/
def next (q : MovePhase) : Seen apiSig → MovePhase
  | .answered (.orgUnitsFindById _ id) (.ok (some u)) =>
    { q with found := id :: q.found, row := some (id, u) }
  | .answered (.backend (.orgUnitsList _)) (.ok all) => { q with all := some all }
  | _ => q

/-- What an update may await: it writes the row that it has read last, and only when the proposed
parent was found and the walk up from it on the list has passed. -/
def may (tenantId : String) (q : MovePhase) : ApiOp → Prop
  | .orgUnitsFindById tenant _ => tenant = tenantId
  | .backend (.orgUnitsList tenant) => tenant = tenantId
  | .orgUnitsSet u => (∃ o, q.row = some (q.call.id, o) ∧ u = q.call.dto.apply o) ∧
      ∀ p, q.call.dto.parentId = some (some p) → p ∈ q.found ∧
        ∃ all, q.all = some all ∧ q.call.id ∉ ancestors all (all.length + 1) (some p)
  | _ => False

end MovePhase

/-- The typestate of the updates. -/
def moveCalls (tenantId : String) : Typestate apiSig MoveCall OrgUnit where
  Phase := MovePhase
  init c := { call := c }
  next := MovePhase.next
  may := MovePhase.may tenantId
  mayAct _ _ := False
  done _ _ := True

/-! ## The condition -/

/-- The walk of `update` passes on the units as they are. -/
def Store.PassesWalk (s : Store) (tenantId id p : String) : Prop :=
  id ∉ ancestors (unitsOf s.backend.orgUnits tenantId)
    ((unitsOf s.backend.orgUnits tenantId).length + 1) (some p)

instance (s : Store) (tenantId id p : String) : Decidable (s.PassesWalk tenantId id p) :=
  inferInstanceAs (Decidable (_ ∉ _))

/-- Other updates have changed what this one relies on since it was read: a move its list, a change
of the name the parent that it writes back. -/
def MovePhase.Overtaken (q : MovePhase) (tenantId : String) (s : Store) (u : OrgUnit) : Prop :=
  match q.call.dto.parentId with
  | some _ => q.all ≠ some (unitsOf s.backend.orgUnits tenantId)
  | none => (findUnit s.backend.orgUnits tenantId u.id).bind OrgUnit.parentId ≠ u.parentId

instance (q : MovePhase) (tenantId : String) (s : Store) (u : OrgUnit) :
    Decidable (q.Overtaken tenantId s u) := by
  unfold MovePhase.Overtaken
  split <;> infer_instance

/-- The row that a request writes. -/
def ApiOp.unit : ApiOp → Option OrgUnit
  | .orgUnitsSet u => some u
  | _ => none

/-- How far a call in progress has come. -/
def movePhase (tenantId : String) (th : Thread apiSig MoveCall OrgUnit) : MovePhase :=
  (moveCalls tenantId).phaseOf th

/-- When an update that was overtaken takes effect, the walk from the parent that it writes would
pass on the units as they are. -/
def StillFree (tenantId : String) (cfg : Config apiSig MoveCall OrgUnit Store Nat) :
    Event MoveCall Outcome EnvMove Nat → Prop
  | .settle i x => x.takesEffect = true → ∀ th ∈ cfg.threads.lookup i,
      ∀ u ∈ th.op.unit, ∀ p ∈ u.parentId, (movePhase tenantId th).Overtaken tenantId cfg.shared u →
        cfg.shared.PassesWalk tenantId u.id p
  | _ => True

instance (tenantId : String) (cfg : Config apiSig MoveCall OrgUnit Store Nat) :
    (e : Event MoveCall Outcome EnvMove Nat) → Decidable (StillFree tenantId cfg e)
  | .settle i x => inferInstanceAs (Decidable (x.takesEffect = true →
      ∀ th ∈ cfg.threads.lookup i, ∀ u ∈ th.op.unit, ∀ p ∈ u.parentId,
        (movePhase tenantId th).Overtaken tenantId cfg.shared u →
          cfg.shared.PassesWalk tenantId u.id p))
  | .start _ _ | .resume _ | .env _ => .isTrue trivial

/-! ## The invariant -/

section Units

variable {units : List OrgUnit} {tenantId id p : String} {u : OrgUnit}

/-- A row with the id and the tenant of another one is that one with some fields replaced. -/
theorem apply_of_same {w : OrgUnit} (hid : w.id = u.id) (htenant : w.tenantId = u.tenantId) :
    OrgUnitPatch.apply { name := some w.name, parentId := some w.parentId } u = w := by
  obtain ⟨id, tenantId, name, parentId⟩ := w
  obtain rfl : id = u.id := hid
  obtain rfl : tenantId = u.tenantId := htenant
  rfl

/-- A unit that is rewritten can still be found. -/
theorem exists_findUnit_putRow (hdistinct : units.Pairwise fun u v => u.id ≠ v.id) (hu : u ∈ units)
    {w : OrgUnit} (hid : w.id = u.id) (htenant : w.tenantId = u.tenantId)
    (h : ∃ v, findUnit units tenantId p = some v) :
    ∃ v, findUnit (putRow OrgUnit.id units w) tenantId p = some v := by
  obtain ⟨v, hv⟩ := h
  obtain ⟨hmem, rfl, rfl⟩ := findUnit_eq_some hv
  have hdistinct' := pairwise_putRow hdistinct w
  by_cases hvid : v.id = u.id
  · obtain rfl := eq_of_pairwise hdistinct hmem hu hvid
    have hrow : w ∈ putRow OrgUnit.id units w := mem_putRow.mpr (Or.inl rfl)
    exact ⟨w, hid ▸ htenant ▸ findUnit_of_mem hdistinct' hrow⟩
  · exact ⟨_, findUnit_of_mem hdistinct' (mem_putRow.mpr (Or.inr ⟨hmem, hid ▸ hvid⟩))⟩

/-- Under a parent that is below it, a unit is in a cycle. -/
theorem UnitForest.cyclic_of_reach (h : UnitForest units) {w : OrgUnit} (hid : w.id = u.id)
    (hp : w.parentId = some p) (hne : p ≠ "") (hreach : ReflTransGen (Child units) u.id p) :
    ¬ Forest.Acyclic (Child (putRow OrgUnit.id units w)) := by
  intro hacyclic
  -- The way down to `p` does not use the link to `u`, so it is still there.
  have hkept : ∀ b, ReflTransGen (Child units) u.id b →
      ReflTransGen (Child (putRow OrgUnit.id units w)) u.id b := by
    intro b hb
    induction hb with
    | refl => exact .refl
    | tail hab hchild ih =>
      obtain ⟨hane, v, hv, hvid, hparent⟩ := hchild
      by_cases hvu : v.id = u.id
      · have hcycle := TransGen.tail' hab ⟨hane, v, hv, hvu, hparent⟩
        exact absurd hcycle (h.acyclic u.id)
      · exact ih.tail ⟨hane, v, mem_putRow.mpr (Or.inr ⟨hv, hid ▸ hvu⟩), hvid, hparent⟩
  have hlink : Child (putRow OrgUnit.id units w) p u.id :=
    ⟨hne, w, mem_putRow.mpr (Or.inl rfl), hid, hp⟩
  exact hacyclic u.id (TransGen.tail' (hkept p hreach) hlink)

end Units

section Moves

variable {D : ApiDeployment} {tenantId : String}

/-- The write of an update, once the proposed parent was found: the row is read again. -/
theorem conforms_write {c : MoveCall} {q : MovePhase} {f : Option OrgUnit → Api OrgUnit}
    (hcall : q.call = c) (hfound : ∀ p, c.dto.parentId = some (some p) → p ∈ q.found ∧
      ∃ all, q.all = some all ∧ c.id ∉ ancestors all (all.length + 1) (some p))
    (hf : ∀ updated q', (moveCalls tenantId).Conforms (f updated) q' fun _ _ => True) :
    (moveCalls tenantId).Conforms (OrgUnitRepository.update tenantId c.id c.dto >>= f) q
      fun _ _ => True := by
  subst hcall
  simp only [OrgUnitRepository.update, bind_assoc]
  refine Conforms.perform_bind rfl (fun found => ?_) fun _ => trivial
  cases found with
  | none => exact hf none _
  | some o =>
    simp only [bind_assoc, pure_bind]
    refine Conforms.perform_bind ⟨⟨o, rfl, rfl⟩, fun p hp => ?_⟩ (fun next => hf (some next) _)
      fun _ => trivial
    obtain ⟨hmem, hall⟩ := hfound p hp
    exact ⟨List.mem_cons_of_mem _ hmem, hall⟩

/-- Every update follows the typestate. -/
theorem conforms_update (c : MoveCall) :
    (moveCalls tenantId).Conforms (DepartmentsService.update tenantId c.id c.dto)
      { call := c } fun _ _ => True := by
  unfold DepartmentsService.update
  refine Conforms.perform_bind rfl (fun current => ?_) fun _ => trivial
  split
  case isFalse => trivial
  case isTrue hsome =>
    obtain ⟨u, rfl⟩ := Option.isSome_iff_exists.mp hsome
    unfold DepartmentsService.checkParent
    split
    -- a new parent: it is looked up, and the walk from it is over the units listed last
    case h_1 p hp =>
      split
      case isTrue => trivial
      case isFalse =>
        simp only [bind_assoc]
        refine Conforms.perform_bind rfl (fun parent => ?_) fun _ => trivial
        split
        case isFalse => trivial
        case isTrue hparent =>
          obtain ⟨v, rfl⟩ := Option.isSome_iff_exists.mp hparent
          simp only [bind_assoc]
          refine Conforms.perform_bind rfl (fun all => ?_) fun _ => trivial
          split
          case isTrue => trivial
          case isFalse hnot =>
            refine conforms_write (by rfl) (fun p' hp' => ?_) fun updated q' => ?_
            · obtain rfl : p = p' := by simpa [hp] using hp'
              exact ⟨List.mem_cons_self, all, rfl, hnot⟩
            · cases updated with
              | none => trivial
              | some u => trivial
    -- no parent is set, so nothing is to be walked
    case h_2 hnone =>
      refine conforms_write (by rfl) (fun p hp => absurd hp (hnone p)) fun updated q' => ?_
      cases updated with
      | none => trivial
      | some u => trivial

/-- A row that was read is still there, perhaps with other fields, and so is the parent that it
had. -/
structure StillThere (tenantId : String) (s : Store) (id : String) (o : OrgUnit) : Prop where
  sameId : o.id = id
  sameTenant : o.tenantId = tenantId
  row : ∃ v, findUnit s.backend.orgUnits tenantId id = some v
  parent : ∀ p, o.parentId = some p → p ≠ "" → ∃ v, findUnit s.backend.orgUnits tenantId p = some v

/-- The departments are a forest, and what the updates have found is still there. -/
structure MovesInv (tenantId : String) (s : Store)
    (ph : Nat → Option (MoveCall × MovePhase)) : Prop where
  units : UnitForest s.backend.orgUnits
  found : ∀ i c q, ph i = some (c, q) →
    (∀ x ∈ q.found, ∃ v, findUnit s.backend.orgUnits tenantId x = some v) ∧
      ∀ id o, q.row = some (id, o) → StillThere tenantId s id o

variable {s s' : Store} {ph : Nat → Option (MoveCall × MovePhase)} {i : Nat} {c : MoveCall}
  {q q' : MovePhase} {u : OrgUnit}

/-- An update goes on, and the units that were found stay. -/
theorem MovesInv.move (h : MovesInv tenantId s ph) (hunits : UnitForest s'.backend.orgUnits)
    (hkeep : ∀ x, (∃ v, findUnit s.backend.orgUnits tenantId x = some v) →
      ∃ v, findUnit s'.backend.orgUnits tenantId x = some v)
    (hq : (∀ x ∈ q.found, ∃ v, findUnit s.backend.orgUnits tenantId x = some v) ∧
      ∀ id o, q.row = some (id, o) → StillThere tenantId s id o) :
    MovesInv tenantId s' (Function.update ph i (some (c, q))) where
  units := hunits
  found j c' q' hj := by
    have hold : (∀ x ∈ q'.found, ∃ v, findUnit s.backend.orgUnits tenantId x = some v) ∧
        ∀ id o, q'.row = some (id, o) → StillThere tenantId s id o := by
      rcases update_some_iff.mp hj with ⟨-, heq⟩ | ⟨-, hj⟩
      · cases heq
        exact hq
      · exact h.found j c' q' hj
    refine ⟨fun x hx => hkeep x (hold.1 x hx), fun id o ho => ?_⟩
    have hthere := hold.2 id o ho
    exact { hthere with
      row := hkeep _ hthere.row
      parent := fun p hp hne => hkeep p (hthere.parent p hp hne) }

/-- What is written: the unit as it is stored, and the parent that it is to have. -/
theorem MovesInv.written (h : MovesInv tenantId s ph) (hi : ph i = some (c, q))
    (hmay : q.may tenantId (.orgUnitsSet u)) :
    (∃ v, findUnit s.backend.orgUnits tenantId u.id = some v) ∧ u.tenantId = tenantId ∧
      ∀ p, u.parentId = some p → p ≠ "" →
        ∃ v, findUnit s.backend.orgUnits tenantId p = some v := by
  obtain ⟨⟨o, hrow, rfl⟩, hparent⟩ := hmay
  obtain ⟨hfound, hread⟩ := h.found i c q hi
  have hthere := hread _ o hrow
  refine ⟨?_, hthere.sameTenant, fun p hp hne => ?_⟩
  · rw [show (q.call.dto.apply o).id = q.call.id from hthere.sameId]
    exact hthere.row
  · cases hdto : q.call.dto.parentId with
    | none =>
      -- the parent is the one that was read with the row
      refine hthere.parent p ?_ hne
      simpa [OrgUnitPatch.apply, hdto] using hp
    | some parentId =>
      obtain rfl : parentId = some p := by simpa [OrgUnitPatch.apply, hdto] using hp
      exact hfound p (hparent p hdto).1

/-- An update that was not overtaken, or whose walk would still pass, gives its unit no parent that
is below it. -/
theorem MovesInv.not_reach (h : MovesInv tenantId s ph) (hi : ph i = some (c, q))
    (hmay : q.may tenantId (.orgUnitsSet u)) {p : String} (hp : u.parentId = some p) (hne : p ≠ "")
    (hfree : q.Overtaken tenantId s u → s.PassesWalk tenantId u.id p) :
    ¬ ReflTransGen (Child s.backend.orgUnits) u.id p := by
  obtain ⟨⟨w, hw⟩, htenant, hexists⟩ := h.written hi hmay
  obtain ⟨v, hv⟩ := hexists p hp hne
  by_cases hover : q.Overtaken tenantId s u
  · exact h.units.not_reach_of_ancestors hne hv (hfree hover)
  · obtain ⟨⟨o, hrow, rfl⟩, hparent⟩ := hmay
    unfold MovePhase.Overtaken at hover
    cases hdto : q.call.dto.parentId with
    | none =>
      -- the unit already has this parent
      rw [hdto] at hover
      obtain ⟨hwmem, hwid, -⟩ := findUnit_eq_some hw
      have hlink : Child s.backend.orgUnits p (q.call.dto.apply o).id := by
        refine ⟨hne, w, hwmem, hwid, ?_⟩
        have hsame := not_not.mp hover
        rw [hw] at hsame
        exact hsame.trans hp
      exact fun hreach => h.units.acyclic _ (TransGen.tail' hreach hlink)
    | some parentId =>
      -- the walk has passed on the units as they are
      rw [hdto] at hover
      obtain rfl : parentId = some p := by simpa [OrgUnitPatch.apply, hdto] using hp
      obtain ⟨-, all, hall, hnot⟩ := hparent p hdto
      obtain rfl := Option.some_inj.mp (hall.symm.trans (not_not.mp hover))
      rw [show (q.call.dto.apply o).id = q.call.id from ((h.found i c q hi).2 _ o hrow).sameId]
      exact h.units.not_reach_of_ancestors hne hv hnot

/-- The write of an update takes effect. -/
theorem MovesInv.write (h : MovesInv tenantId s ph) (hi : ph i = some (c, q))
    (hmay : q.may tenantId (.orgUnitsSet u))
    (hfree : ∀ p ∈ u.parentId, q.Overtaken tenantId s u → s.PassesWalk tenantId u.id p) :
    UnitForest (s.effect (.orgUnitsSet u)).backend.orgUnits ∧
      ∀ x, (∃ v, findUnit s.backend.orgUnits tenantId x = some v) →
        ∃ v, findUnit (s.effect (.orgUnitsSet u)).backend.orgUnits tenantId x = some v := by
  obtain ⟨⟨w, hw⟩, htenant, hexists⟩ := h.written hi hmay
  obtain ⟨hwmem, hwid, hwtenant⟩ := findUnit_eq_some hw
  have htenant' := htenant.trans hwtenant.symm
  refine ⟨?_, fun x hx => exists_findUnit_putRow h.units.distinct hwmem hwid.symm htenant' hx⟩
  have hmoved := h.units.move hwmem { name := some u.name, parentId := some u.parentId }
    fun p hp hne => ?_
  · rwa [apply_of_same hwid.symm htenant'] at hmoved
  · have hp : u.parentId = some p := Option.some_inj.mp hp
    obtain ⟨v, hv⟩ := hexists p hp hne
    obtain ⟨hvmem, hvid, hvtenant⟩ := findUnit_eq_some hv
    refine ⟨⟨v, hvmem, hvid, hvtenant.trans hwtenant.symm⟩, ?_⟩
    rw [hwid]
    exact h.not_reach hi hmay hp hne (hfree p hp)

/-- A unit that was looked up is there, and so is its parent. -/
theorem stillThere_of_found (hunits : UnitForest s.backend.orgUnits) {id : String} {o : OrgUnit}
    (ho : findUnit s.backend.orgUnits tenantId id = some o) : StillThere tenantId s id o := by
  obtain ⟨hmem, hid, htenant⟩ := findUnit_eq_some ho
  refine ⟨hid, htenant, ⟨o, ho⟩, fun p hp hne => ?_⟩
  obtain ⟨v, hv, rfl, hvtenant⟩ := hunits.parents o hmem p hp hne
  exact ⟨v, hvtenant.trans htenant ▸ findUnit_of_mem hunits.distinct hv⟩

/-- Every step keeps the invariant, as long as the walks would still pass. -/
theorem moves_preserves :
    Preserves (departmentMoves D tenantId) (moveCalls tenantId) (StillFree tenantId)
      (MovesInv tenantId) where
  code := conforms_update
  start cfg i c h _ _ := h.move h.units (fun _ hx => hx)
    ⟨fun _ hx => absurd hx List.not_mem_nil, fun _ _ ho => nomatch ho⟩
  act _ _ _ _ _ _ _ _ hmay := hmay.elim
  settle cfg i th x s' r h hth hmay hok hs := by
    have hi := phases_of_lookup (T := moveCalls tenantId) hth
    have hold := h.found i _ _ hi
    have hfree : x.takesEffect = true → ∀ u ∈ th.op.unit, ∀ p ∈ u.parentId,
        ((moveCalls tenantId).phaseOf th).Overtaken tenantId cfg.shared u →
          cfg.shared.PassesWalk tenantId u.id p := fun hx => hok hx th hth
    obtain ⟨c, past, op, k, reply⟩ := th
    revert hi hmay hold hfree
    generalize (moveCalls tenantId).phaseOf ⟨c, past, op, k, reply⟩ = q
    intro hmay hi hold hfree
    -- a move reads and then writes one unit; what it has read is noted in its phase
    cases op with
    | orgUnitsFindById tenant id =>
      obtain ⟨rfl, hr⟩ := settle_read hs rfl rfl
      refine h.move h.units (fun _ hx => hx) ?_
      cases r with
      | error e => exact hold
      | ok found =>
        cases found with
        | none => exact hold
        | some v =>
          obtain ⟨_, hanswer⟩ := hr _ rfl
          obtain rfl : tenant = tenantId := hmay
          refine ⟨fun y hy => ?_, fun id' o ho => ?_⟩
          · rcases List.mem_cons.mp hy with rfl | hy
            · exact ⟨v, hanswer.symm⟩
            · exact hold.1 y hy
          · cases ho
            exact stillThere_of_found h.units hanswer.symm
    -- the list of units is what the walk goes over
    | backend op =>
      cases op with
      | orgUnitsList tenant =>
        obtain ⟨rfl, -⟩ := settle_read hs rfl rfl
        cases r with
        | error e => exact h.move h.units (fun _ hx => hx) hold
        | ok all => exact h.move h.units (fun _ hx => hx) hold
      | _ => exact hmay.elim
    -- the write: only here the parents change
    | orgUnitsSet u =>
      obtain ⟨hs', -⟩ := settle_cases hs
      by_cases hx : x.takesEffect = true
      · rw [if_pos hx] at hs'
        subst hs'
        obtain ⟨hunits, hkeep⟩ := h.write hi hmay (hfree hx u rfl)
        exact h.move hunits hkeep hold
      · rw [if_neg hx] at hs'
        subst hs'
        exact h.move h.units (fun _ hx => hx) hold
    | _ => exact hmay.elim
  finish s ph i c q r h _ _ :=
    ⟨h.units, fun j c' q' hj => h.found j c' q' (update_none_iff.mp hj).2⟩
  env cfg e s' h _ hs := by
    obtain rfl := Option.some_inj.mp hs
    cases e with
    | elapse ms => exact ⟨h.units, fun j c' q' hj => ⟨(h.found j c' q' hj).1, fun id o ho =>
        { (h.found j c' q' hj).2 id o ho with }⟩⟩
    | expire tenantId deviceId => exact ⟨h.units, fun j c' q' hj => ⟨(h.found j c' q' hj).1,
        fun id o ho => { (h.found j c' q' hj).2 id o ho with }⟩⟩

/-- The walks of later updates end. -/
def Store.Walkable (tenantId : String) (s : Store) : Prop :=
  Forest.Acyclic (Child s.backend.orgUnits) ∧
    ∀ id hop, ∃ fuel b, walk (unitsOf s.backend.orgUnits tenantId) id fuel (some hop) = some b

/-- A step that leaves the departments without a cycle has met the condition. -/
theorem stillFree_of_acyclic {cfg cfg' : Config apiSig MoveCall OrgUnit Store Nat}
    {e : Event MoveCall Outcome EnvMove Nat}
    (hg : Good (moveCalls tenantId) (MovesInv tenantId) cfg)
    (hs : (departmentMoves D tenantId).step cfg e = some cfg')
    (hP : Forest.Acyclic (Child cfg'.shared.backend.orgUnits)) : StillFree tenantId cfg e := by
  obtain ⟨h, hthreads⟩ := hg
  cases e with
  | start _ _ => trivial
  | resume _ => trivial
  | env _ => trivial
  | settle i x =>
    intro hx th hth u hu p hp _ hmem
    have hi := phases_of_lookup (T := moveCalls tenantId) hth
    obtain ⟨hmay, r, hsettle⟩ := may_of_settle hthreads hth hs
    obtain ⟨hs', -⟩ := settle_cases hsettle
    rw [if_pos hx] at hs'
    obtain ⟨c, past, op, k, reply⟩ := th
    cases op with
    | orgUnitsSet w =>
      cases hu
      -- the walk would not start from an empty parent
      have hne : p ≠ "" := by
        rintro rfl
        exact List.not_mem_nil hmem
      obtain ⟨⟨w, hw⟩, -, hexists⟩ := h.written hi hmay
      obtain ⟨v, hv⟩ := hexists p hp hne
      obtain ⟨-, hreach⟩ := h.units.reach_of_ancestors hv hmem
      rw [hs'] at hP
      exact h.units.cyclic_of_reach rfl hp hne hreach hP
    | _ => cases hu

/-- **Moves at the same time.** However the updates of a tenant are interleaved, starting from a
forest: the departments have no cycle in any state on the way, and the walks of later updates end,
if and only if no update takes effect that was overtaken since it read what it relies on, and whose
walk would not pass any more. -/
theorem moves_acyclic_iff (D : ApiDeployment) (tenantId : String) (s₀ : Store)
    (hforest : UnitForest s₀.backend.orgUnits)
    {es : List (Event MoveCall Outcome EnvMove Nat)}
    {cfg : Config apiSig MoveCall OrgUnit Store Nat}
    (hrun : Run (departmentMoves D tenantId).step (fun _ _ => True) (Config.start s₀) es cfg) :
    Always (departmentMoves D tenantId).step (fun _ _ => True) (Config.start s₀) es
        (fun cfg => cfg.shared.Walkable tenantId) ↔
      Run (departmentMoves D tenantId).step (StillFree tenantId) (Config.start s₀) es cfg := by
  have hinit : MovesInv tenantId s₀ fun _ => none := ⟨hforest, fun _ _ _ hi => nomatch hi⟩
  refine moves_preserves.always_iff hinit (fun cfg hg => ?_)
    (fun cfg e cfg' hg _ hs hP => stillFree_of_acyclic hg hs hP.1) hrun
  have hacyclic := hg.1.units.acyclic
  refine ⟨hacyclic, fun id hop => ?_⟩
  obtain ⟨fuel, hwalk⟩ := exists_walk (hacyclic.mono fun _ _ => child_of_unitsOf) id (some hop)
  exact ⟨fuel, _, hwalk⟩

/-- Two groups, each to be moved below the other, and a third one. -/
def sampleGroups : Store :=
  Store.new { Backend.new Table.empty with orgUnits := [⟨"north", "acme", "North", none⟩,
    ⟨"south", "acme", "South", none⟩, ⟨"depot", "acme", "Depot", none⟩] }

theorem sampleGroups_forest : UnitForest sampleGroups.backend.orgUnits where
  distinct := by decide
  named := by decide
  parents := by decide
  acyclic a h := by
    obtain ⟨b, -, -, u, hu, -, hparent⟩ := TransGen.tail'_iff.mp h
    have hnone : ∀ u ∈ sampleGroups.backend.orgUnits, u.parentId = none := by decide
    rw [hnone u hu] at hparent
    cases hparent

/-- The steps of a call that nothing overlaps with. -/
def alone (i : Nat) (c : MoveCall) (requests : Nat) :
    List (Event MoveCall Outcome EnvMove Nat) :=
  .start i c :: (List.replicate requests [.settle i (.resolves ""), .resume i]).flatten

/-- The second move starts when the first one has ended. -/
def movesInTurn : List (Event MoveCall Outcome EnvMove Nat) :=
  alone 0 ⟨"north", { parentId := some (some "south") }⟩ 5 ++
    alone 1 ⟨"south", { parentId := some (some "north") }⟩ 3

/-- Both moves have read the list, and their units, before either writes. -/
def movesAtOnce : List (Event MoveCall Outcome EnvMove Nat) :=
  ([.start 0 ⟨"north", { parentId := some (some "south") }⟩, .start 1 ⟨"south",
    { parentId := some (some "north") }⟩] :
    List (Event MoveCall Outcome EnvMove Nat)) ++
    ((List.replicate 4 [.settle 0 (.resolves ""), .resume 0, .settle 1 (.resolves ""),
      .resume 1]).flatten :
      List (Event MoveCall Outcome EnvMove Nat)) ++
    ([.settle 0 (.resolves ""), .settle 1 (.resolves "")] :
      List (Event MoveCall Outcome EnvMove Nat))

/-- The southern group is below the northern one when its name is changed; before that is written,
it becomes a root group, and the northern group is moved below it. -/
def renamedMeanwhile : List (Event MoveCall Outcome EnvMove Nat) :=
  alone 0 ⟨"south", { parentId := some (some "north") }⟩ 5 ++
    alone 1 ⟨"south", { name := some "South" }⟩ 2 ++
    alone 2 ⟨"south", { parentId := some none }⟩ 3 ++
    alone 3 ⟨"north", { parentId := some (some "south") }⟩ 5 ++
    ([.settle 1 (.resolves "")] : List (Event MoveCall Outcome EnvMove Nat))

/-- In turn, the second move is refused. -/
theorem sample_moves_acyclic : ∃ cfg,
    Run (departmentMoves sampleApi "acme").step (fun _ _ => True) (Config.start sampleGroups)
      movesInTurn cfg ∧
    Always (departmentMoves sampleApi "acme").step (fun _ _ => True) (Config.start sampleGroups)
      movesInTurn (fun cfg => cfg.shared.Walkable "acme") ∧
    cfg.shared.backend.orgUnits.map OrgUnit.parentId = [some "south", none, none] := by
  have hexists : ∃ cfg, Run (departmentMoves sampleApi "acme").step (StillFree "acme")
      (Config.start sampleGroups) movesInTurn cfg ∧
      cfg.shared.backend.orgUnits.map OrgUnit.parentId = [some "south", none, none] := by
    apply Run.exists_of_any
    decide +kernel
  obtain ⟨cfg, hgood, hend⟩ := hexists
  have hrun := hgood.mono fun _ _ _ => True.intro
  exact ⟨cfg, hrun, (moves_acyclic_iff sampleApi "acme" sampleGroups sampleGroups_forest hrun).mpr
    hgood, hend⟩

/-- In a cycle the walk never ends. -/
theorem walk_cycle {all : List OrgUnit} {a b id : String} (ha : a ≠ "" ∧ a ≠ id)
    (hb : b ≠ "" ∧ b ≠ id) (hab : parentOf all a = some b) (hba : parentOf all b = some a)
    (fuel : Nat) : walk all id fuel (some a) = none ∧ walk all id fuel (some b) = none := by
  induction fuel with
  | zero => exact ⟨rfl, rfl⟩
  | succ fuel ih =>
    have hsome : ∀ x, x ≠ "" → (some x).filter truthy = some x := by
      intro x hx
      simp [truthy, hx]
    simp [walk, hsome a ha.1, hsome b hb.1, ha.2, hb.2, hab, hba, ih.1, ih.2]

/-- **Updates close a cycle.** Two moves each pass their walk, or a change of the name brings back a
parent that was changed; then the walk of a later update, of the third group, does not end. -/
theorem moves_close_cycle : UnitForest sampleGroups.backend.orgUnits ∧
    ∀ es ∈ [movesAtOnce, renamedMeanwhile], ∃ cfg,
      Run (departmentMoves sampleApi "acme").step (fun _ _ => True) (Config.start sampleGroups)
        es cfg ∧
      ¬ Forest.Acyclic (Child cfg.shared.backend.orgUnits) ∧
      ∀ fuel, walk (unitsOf cfg.shared.backend.orgUnits "acme") "depot" fuel (some "north") =
        none := by
  -- both runs end with north below south and south below north
  have hexists : ∀ es ∈ [movesAtOnce, renamedMeanwhile], ∃ cfg,
      Run (departmentMoves sampleApi "acme").step (fun _ _ => True) (Config.start sampleGroups)
        es cfg ∧
      cfg.shared.backend.orgUnits = [⟨"north", "acme", "North", some "south"⟩,
        ⟨"south", "acme", "South", some "north"⟩, ⟨"depot", "acme", "Depot", none⟩] := by
    intro es hes
    apply Run.exists_of_any
    revert es
    decide +kernel
  refine ⟨sampleGroups_forest, fun es hes => ?_⟩
  obtain ⟨cfg, hrun, hunits⟩ := hexists es hes
  refine ⟨cfg, hrun, ?_, ?_⟩
  · rw [hunits]
    intro hacyclic
    refine hacyclic "north" (.tail (.single (b := "south") ⟨by decide, ?_⟩) ⟨by decide, ?_⟩)
    · exact ⟨_, List.mem_cons_of_mem _ List.mem_cons_self, rfl, rfl⟩
    · exact ⟨_, List.mem_cons_self, rfl, rfl⟩
  · rw [hunits]
    -- the next check for a cycle would not come to an end
    exact fun fuel => (walk_cycle (b := "south") (by decide) (by decide) rfl rfl fuel).1

end Moves

end FleetTracking.ControlPlane
