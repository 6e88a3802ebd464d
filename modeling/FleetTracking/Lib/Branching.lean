import FleetTracking.Lib.Forest
import Mathlib.Data.List.Perm.Basic
import Mathlib.Data.List.Perm.Subperm
import Mathlib.Order.WellFounded

/-!
# Trees Grown from Their Roots

A recursion that makes a value for each node from the values of its children. It ends where
finitely many nodes have no cycle, and where each node has one parent at most it comes to every
node once.

1. `grow`: the recursion, with fuel.
2. `Branching`: children without a cycle, each with one parent.
3. `fold`, `exists_grow`: the recursion ends, with a value that satisfies its equation.
4. `below`: the nodes of a tree, in preorder; `mem_below`, `nodup_flatMap_below`.
5. `perm_flatMap_below`: the trees of the roots have each node once.
-/

namespace Forest

open Relation

variable {α β γ : Type*}

/-! ## Growing -/

/-- A value for a node from those of its children; `none` where the recursion has not ended at
depth `fuel`. -/
def grow (next : α → List α) (make : α → List β → β) : Nat → α → Option β
  | 0, _ => none
  | fuel + 1, a => ((next a).mapM (grow next make fuel)).map (make a)

/-- Without a cycle, and with finitely many nodes that are below others, there is no endless
descent. -/
theorem wellFounded_of_acyclic {r : α → α → Prop} (h : Acyclic r) (nodes : List α)
    (hnodes : ∀ a b, r a b → a ∈ nodes) : WellFounded r := by
  classical
  -- the nodes strictly before one
  refine Subrelation.wf (fun {a b} hab => ?_)
    (measure fun b => (nodes.toFinset.filter fun a => TransGen r a b).card).wf
  refine Finset.card_lt_card (Finset.ssubset_iff_subset_ne.mpr ⟨fun x hx => ?_, fun heq => ?_⟩)
  · obtain ⟨hx, hxa⟩ := Finset.mem_filter.mp hx
    exact Finset.mem_filter.mpr ⟨hx, hxa.tail hab⟩
  · have hmem : a ∈ nodes.toFinset.filter fun x => TransGen r x b :=
      Finset.mem_filter.mpr ⟨List.mem_toFinset.mpr (hnodes a b hab), .single hab⟩
    rw [← heq] at hmem
    exact h a (Finset.mem_filter.mp hmem).2

/-- Finitely many nodes below others; no node comes twice among its siblings, or below two parents,
or below itself. -/
structure Branching (nodes : List α) (next : α → List α) : Prop where
  closed : ∀ a, ∀ b ∈ next a, b ∈ nodes
  nodup : ∀ a, (next a).Nodup
  unique : ∀ a ∈ nodes, ∀ a' ∈ nodes, ∀ b, b ∈ next a → b ∈ next a' → a = a'
  acyclic : Acyclic fun a b => b ∈ next a

namespace Branching

variable {nodes : List α} {next : α → List α} (h : Branching nodes next)
include h

theorem wellFounded : WellFounded fun b a => b ∈ next a := by
  refine wellFounded_of_acyclic (fun a ha => ?_) nodes fun b a hb => h.closed a b hb
  exact h.acyclic a (transGen_swap.mp ha)

/-- The value of a node. -/
noncomputable def fold (make : α → List β → β) : α → β :=
  h.wellFounded.fix fun a rec => make a ((next a).attach.map fun b => rec b.1 b.2)

theorem fold_eq (make : α → List β → β) (a : α) :
    h.fold make a = make a ((next a).map (h.fold make)) := by
  unfold fold
  rw [h.wellFounded.fix_eq]
  exact congrArg (make a) List.attach_map_val

omit h in
/-- If the recursion ends for each element of a list, it ends for all of them. -/
theorem exists_mapM_grow {make : α → List β → β} {f : α → β} {l : List α}
    (hl : ∀ a ∈ l, ∃ n, ∀ fuel ≥ n, grow next make fuel a = some (f a)) :
    ∃ n, ∀ fuel ≥ n, l.mapM (grow next make fuel) = some (l.map f) := by
  induction l with
  | nil => exact ⟨0, fun _ _ => rfl⟩
  | cons a l ih =>
    rw [List.forall_mem_cons] at hl
    obtain ⟨m, hm⟩ := hl.1
    obtain ⟨n, hn⟩ := ih hl.2
    refine ⟨max m n, fun fuel hfuel => ?_⟩
    rw [List.mapM_cons, hm fuel (le_of_max_le_left hfuel), hn fuel (le_of_max_le_right hfuel)]
    rfl

/-- **The recursion ends.** -/
theorem exists_grow (make : α → List β → β) (a : α) :
    ∃ n, ∀ fuel ≥ n, grow next make fuel a = some (h.fold make a) := by
  induction a using h.wellFounded.induction with
  | _ a ih =>
    obtain ⟨n, hn⟩ := exists_mapM_grow ih
    refine ⟨n + 1, fun fuel hfuel => ?_⟩
    obtain ⟨fuel, rfl⟩ := Nat.exists_eq_add_of_le' (Nat.le_trans (Nat.le_add_left 1 n) hfuel)
    rw [grow, hn fuel (Nat.le_of_succ_le_succ hfuel), h.fold_eq]
    rfl

/-! ## The nodes of a tree -/

/-- A node and all that is below it, in preorder. -/
noncomputable def below (a : α) : List α := h.fold (fun a ls => a :: ls.flatten) a

theorem below_eq (a : α) : h.below a = a :: (next a).flatMap h.below := by
  unfold below
  rw [h.fold_eq, List.flatMap_def]

/-- What is collected from the nodes on the way. -/
theorem eq_flatMap_below {f own : α → List γ} (hf : ∀ a, f a = own a ++ (next a).flatMap f)
    (a : α) : f a = (h.below a).flatMap own := by
  induction a using h.wellFounded.induction with
  | _ a ih =>
    rw [hf, h.below_eq, List.flatMap_cons, List.flatMap_assoc, List.flatMap_congr ih]

theorem mem_below {a b : α} : b ∈ h.below a ↔ ReflTransGen (fun a b => b ∈ next a) a b := by
  induction a using h.wellFounded.induction with
  | _ a ih =>
    rw [h.below_eq, List.mem_cons, List.mem_flatMap]
    constructor
    · rintro (rfl | ⟨c, hc, hb⟩)
      · exact .refl
      · exact .head hc ((ih c hc).mp hb)
    · intro hab
      rcases ReflTransGen.cases_head hab with rfl | ⟨c, hc, hcb⟩
      · exact Or.inl rfl
      · exact Or.inr ⟨c, hc, (ih c hc).mpr hcb⟩

theorem mem_nodes_of_reach {a b : α} (ha : a ∈ nodes)
    (hab : ReflTransGen (fun a b => b ∈ next a) a b) : b ∈ nodes := by
  rcases ReflTransGen.cases_tail hab with rfl | ⟨c, _, hb⟩
  · exact ha
  · exact h.closed c b hb

/-- Of two nodes above a third one, one is above the other. Induction on the path from the first. -/
theorem comparable {a a' b : α} (ha : a ∈ nodes) (ha' : a' ∈ nodes)
    (hab : ReflTransGen (fun a b => b ∈ next a) a b)
    (hab' : ReflTransGen (fun a b => b ∈ next a) a' b) :
    ReflTransGen (fun a b => b ∈ next a) a a' ∨ ReflTransGen (fun a b => b ∈ next a) a' a := by
  induction hab with
  | refl => exact Or.inr hab'
  | @tail m b ham hmb ih =>
    rcases ReflTransGen.cases_tail hab' with rfl | ⟨m', ham', hmb'⟩
    · exact Or.inl (ham.tail hmb)
    · have hm := h.mem_nodes_of_reach ha ham
      have hm' := h.mem_nodes_of_reach ha' ham'
      obtain rfl := h.unique m hm m' hm' b hmb hmb'
      exact ih ham'

/-- Nodes of which none is below another. -/
def Apart (next : α → List α) (l : List α) : Prop :=
  ∀ a ∈ l, ∀ b ∈ l, ¬ TransGen (fun a b => b ∈ next a) a b

/-- Siblings are apart: what is above one of them is above their parent. -/
theorem apart_next {a : α} (ha : a ∈ nodes) : Apart next (next a) := by
  intro c hc c' hc' hbelow
  obtain ⟨d, hcd, hdc'⟩ := TransGen.tail'_iff.mp hbelow
  have hd := h.mem_nodes_of_reach (h.closed a c hc) hcd
  obtain rfl := h.unique d hd a ha c' hdc' hc'
  exact h.acyclic d (.head' hc hcd)

/-- The trees of nodes that are apart have no node twice. -/
theorem nodup_flatMap_of_apart {l : List α} (hl : l.Nodup) (hnodes : ∀ a ∈ l, a ∈ nodes)
    (hapart : Apart next l) (hbelow : ∀ a ∈ l, (h.below a).Nodup) : (l.flatMap h.below).Nodup := by
  rw [List.nodup_flatMap]
  refine ⟨hbelow, hl.pairwise_of_forall_ne fun a ha a' ha' hne => ?_⟩
  rw [Function.onFun_apply, List.disjoint_left]
  intro b hb hb'
  have hcomparable := h.comparable (hnodes a ha) (hnodes a' ha') (h.mem_below.mp hb)
    (h.mem_below.mp hb')
  rcases hcomparable with hreach | hreach
  · rcases reflTransGen_iff_eq_or_transGen.mp hreach with rfl | hlt
    · exact hne rfl
    · exact hapart a ha a' ha' hlt
  · rcases reflTransGen_iff_eq_or_transGen.mp hreach with rfl | hlt
    · exact hne rfl
    · exact hapart a' ha' a ha hlt

/-- **A tree has no node twice.** -/
theorem nodup_below {a : α} (ha : a ∈ nodes) : (h.below a).Nodup := by
  induction a using h.wellFounded.induction with
  | _ a ih =>
    rw [h.below_eq, List.nodup_cons]
    constructor
    · intro hmem
      obtain ⟨c, hc, hca⟩ := List.mem_flatMap.mp hmem
      exact h.acyclic a (.head' hc (h.mem_below.mp hca))
    · exact h.nodup_flatMap_of_apart (h.nodup a) (h.closed a) (h.apart_next ha) fun c hc =>
        ih c hc (h.closed a c hc)

/-- **The trees of the roots have each node once**, if the roots are the nodes without a parent. -/
theorem perm_flatMap_below {roots : List α} (hnodes : nodes.Nodup) (hroots : roots.Nodup)
    (hroot : ∀ b, b ∈ roots ↔ b ∈ nodes ∧ ∀ a ∈ nodes, b ∉ next a) :
    (roots.flatMap h.below).Perm nodes := by
  have hapart : Apart next roots := by
    intro a ha b hb hlt
    obtain ⟨c, hac, hcb⟩ := TransGen.tail'_iff.mp hlt
    exact ((hroot b).mp hb).2 c (h.mem_nodes_of_reach ((hroot a).mp ha).1 hac) hcb
  -- walking up from a node ends at a root
  have hup : WellFounded fun a b => a ∈ nodes ∧ b ∈ next a := by
    refine wellFounded_of_acyclic (fun a ha => ?_) nodes fun a b hab => hab.1
    exact h.acyclic a (TransGen.mono (fun _ _ hab => hab.2) a a ha)
  have hreached : ∀ b, b ∈ nodes →
      ∃ a ∈ roots, ReflTransGen (fun a b => b ∈ next a) a b := by
    intro b
    induction b using hup.induction with
    | _ b ih =>
      intro hb
      by_cases hparent : ∃ a ∈ nodes, b ∈ next a
      · obtain ⟨a, ha, hab⟩ := hparent
        obtain ⟨root, hmem, hreach⟩ := ih a ⟨ha, hab⟩ ha
        exact ⟨root, hmem, hreach.tail hab⟩
      · exact ⟨b, (hroot b).mpr ⟨hb, fun a ha hab => hparent ⟨a, ha, hab⟩⟩, .refl⟩
  have hnodup : (roots.flatMap h.below).Nodup :=
    h.nodup_flatMap_of_apart hroots (fun a ha => ((hroot a).mp ha).1) hapart fun a ha =>
      h.nodup_below ((hroot a).mp ha).1
  rw [List.perm_ext_iff_of_nodup hnodup hnodes]
  intro b
  rw [List.mem_flatMap]
  constructor
  · rintro ⟨a, ha, hb⟩
    exact h.mem_nodes_of_reach ((hroot a).mp ha).1 (h.mem_below.mp hb)
  · intro hb
    obtain ⟨a, ha, hab⟩ := hreached b hb
    exact ⟨a, ha, h.mem_below.mpr hab⟩

end Branching

end Forest
