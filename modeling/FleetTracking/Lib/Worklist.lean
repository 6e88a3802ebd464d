import Mathlib.Data.List.Basic
import Mathlib.Logic.Relation

/-!
# Reachability with a Worklist

The nodes that can be reached in a finite graph, found with a stack: take a node from the
stack, skip it if it was visited, else visit it and push its children. The graph is any
list of edges; it may have cycles, and edges that occur twice.

1. `visit`: the loop.
2. `visit_sound`: only nodes that can be reached are visited.
3. `visit_closed`: enough fuel visits the children of every node that was visited.
4. `mem_closure`: what is visited is exactly what can be reached.
5. `loop_eq_closure`: the loop ends, whatever its fuel beyond that.
-/

namespace Worklist

variable {α : Type*} [DecidableEq α]

/-- The children of a node, in the order of the edges. -/
def children (edges : List (α × α)) (a : α) : List α :=
  (edges.filter fun e => e.1 = a).map Prod.snd

/-- The loop: what is visited is kept in `out`, in order. -/
def visit (edges : List (α × α)) : Nat → List α → List α → List α
  | 0, _, out => out
  | _ + 1, [], out => out
  | fuel + 1, a :: stack, out =>
    if a ∈ out then visit edges fuel stack out
    else visit edges fuel ((children edges a).reverse ++ stack) (out ++ [a])

/-- The nodes visited from one node. Each edge is pushed at most once. -/
def closure (edges : List (α × α)) (a : α) : List α := visit edges (edges.length + 1) [a] []

variable {edges : List (α × α)}

theorem mem_children {a b : α} : b ∈ children edges a ↔ (a, b) ∈ edges := by
  unfold children
  simp

/-- Only what can be reached is visited: a property of the nodes on the stack that the edges
preserve holds of all nodes visited. Induction on the rounds of the loop. -/
theorem visit_sound {P : α → Prop} (hedges : ∀ a b, P a → (a, b) ∈ edges → P b) (fuel : Nat)
    (stack out : List α) (hstack : ∀ a ∈ stack, P a) (hout : ∀ a ∈ out, P a) :
    ∀ a ∈ visit edges fuel stack out, P a := by
  induction fuel generalizing stack out with
  | zero => exact hout
  | succ fuel ih =>
    cases stack with
    | nil => exact hout
    | cons a stack =>
      have ha : P a := hstack a List.mem_cons_self
      have hrest : ∀ b ∈ stack, P b := fun b hb => hstack b (List.mem_cons_of_mem a hb)
      unfold visit
      split
      · exact ih stack out hrest hout
      · apply ih
        · intro b hb
          rcases List.mem_append.mp hb with hb | hb
          · exact hedges a b ha (mem_children.mp (List.mem_reverse.mp hb))
          · exact hrest b hb
        · intro b hb
          rcases List.mem_append.mp hb with hb | hb
          · exact hout b hb
          · rw [List.mem_singleton.mp hb]
            exact ha

/-- What was visited stays visited. -/
theorem subset_visit (fuel : Nat) (stack out : List α) : out ⊆ visit edges fuel stack out := by
  induction fuel generalizing stack out with
  | zero => exact List.Subset.refl out
  | succ fuel ih =>
    cases stack with
    | nil => exact List.Subset.refl out
    | cons a stack =>
      unfold visit
      split
      · exact ih stack out
      · exact List.Subset.trans (List.subset_append_left out [a]) (ih _ _)

/-- The rounds that are still to come: the nodes on the stack, and the edges whose source was
not visited yet. -/
def work (edges : List (α × α)) (stack out : List α) : Nat :=
  stack.length + (edges.filter fun e => e.1 ∉ out).length

/-- Visiting a node moves its edges onto the stack. -/
theorem work_visit {a : α} {stack out : List α} (ha : a ∉ out) :
    work edges ((children edges a).reverse ++ stack) (out ++ [a]) + 1 =
      work edges (a :: stack) out := by
  have hcount : ∀ l : List (α × α),
      (l.filter fun e => e.1 = a).length + (l.filter fun e => e.1 ∉ out ++ [a]).length =
        (l.filter fun e => e.1 ∉ out).length := by
    intro l
    induction l with
    | nil => rfl
    | cons e l ih =>
      by_cases he : e.1 = a
      · have hnot : e.1 ∉ out := he ▸ ha
        simp [he, ha] at ih ⊢
        omega
      · by_cases hmem : e.1 ∈ out
        · simp [he, hmem] at ih ⊢
          omega
        · simp [he, hmem] at ih ⊢
          omega
  have h := hcount edges
  simp only [work, children, List.length_append, List.length_reverse, List.length_map,
    List.length_cons]
  omega

/-- The children of what was visited are visited, or on the stack. -/
def Pending (edges : List (α × α)) (stack out : List α) : Prop :=
  ∀ a ∈ out, ∀ b, (a, b) ∈ edges → b ∈ out ∨ b ∈ stack

/-- With enough fuel the stack is worked off, and what is visited is closed under children. -/
theorem visit_closed (fuel : Nat) (stack out : List α) (hfuel : work edges stack out ≤ fuel)
    (hpending : Pending edges stack out) :
    stack ⊆ visit edges fuel stack out ∧
      ∀ a ∈ visit edges fuel stack out, ∀ b, (a, b) ∈ edges →
        b ∈ visit edges fuel stack out := by
  induction fuel generalizing stack out with
  | zero =>
    have hnil : stack = [] := by
      apply List.eq_nil_of_length_eq_zero
      unfold work at hfuel
      omega
    subst hnil
    exact ⟨List.nil_subset _, fun a ha b hb => (hpending a ha b hb).resolve_right List.not_mem_nil⟩
  | succ fuel ih =>
    cases stack with
    | nil =>
      exact ⟨List.nil_subset _,
        fun a ha b hb => (hpending a ha b hb).resolve_right List.not_mem_nil⟩
    | cons a stack =>
      unfold visit
      split
      -- a node that is already out is dropped from the stack
      case isTrue ha =>
        have hless : work edges stack out ≤ fuel := by
          unfold work at hfuel ⊢
          rw [List.length_cons] at hfuel
          omega
        obtain ⟨hstack, hclosed⟩ := ih stack out hless fun b hb c hc => by
          rcases hpending b hb c hc with hout | hin
          · exact Or.inl hout
          · rcases List.mem_cons.mp hin with rfl | hin
            · exact Or.inl ha
            · exact Or.inr hin
        exact ⟨List.cons_subset.mpr ⟨subset_visit fuel stack out ha, hstack⟩, hclosed⟩
      case isFalse ha =>
        -- visiting a spends its edges, so the measure goes down
        have hless : work edges ((children edges a).reverse ++ stack) (out ++ [a]) ≤ fuel := by
          have hwork : work edges ((children edges a).reverse ++ stack) (out ++ [a]) + 1 =
              work edges (a :: stack) out := work_visit ha
          omega
        obtain ⟨hstack, hclosed⟩ := ih ((children edges a).reverse ++ stack) (out ++ [a]) hless
          fun b hb c hc => by
            rcases List.mem_append.mp hb with hb | hb
            · rcases hpending b hb c hc with hout | hin
              · exact Or.inl (List.mem_append_left _ hout)
              · rcases List.mem_cons.mp hin with rfl | hin
                · exact Or.inl (List.mem_append_right _ List.mem_cons_self)
                · exact Or.inr (List.mem_append_right _ hin)
            · rw [List.mem_singleton.mp hb] at hc
              have hchild : c ∈ (children edges a).reverse :=
                List.mem_reverse.mpr (mem_children.mpr hc)
              exact Or.inr (List.mem_append_left _ hchild)
        have hmem : a ∈ visit edges fuel ((children edges a).reverse ++ stack) (out ++ [a]) :=
          subset_visit fuel _ _ (List.mem_append_right _ List.mem_cons_self)
        refine ⟨List.cons_subset.mpr ⟨hmem, fun b hb => ?_⟩, hclosed⟩
        exact hstack (List.mem_append_right _ hb)

/-- **What is visited is what can be reached.** -/
theorem mem_closure {a b : α} :
    b ∈ closure edges a ↔ Relation.ReflTransGen (fun x y => (x, y) ∈ edges) a b := by
  constructor
  · apply visit_sound (P := Relation.ReflTransGen (fun x y => (x, y) ∈ edges) a)
    · intro x y hx hxy
      exact hx.tail hxy
    · intro x hx
      rw [List.mem_singleton.mp hx]
    · intro x hx
      cases hx
  · intro h
    have hfuel : work edges [a] [] ≤ edges.length + 1 := by
      simp [work, Nat.add_comm]
    obtain ⟨hroot, hclosed⟩ := visit_closed (edges.length + 1) [a] [] hfuel fun _ h => by cases h
    induction h with
    | refl => exact hroot List.mem_cons_self
    | tail _ hxy ih => exact hclosed _ ih _ hxy

/-- Fewer edges, fewer nodes. -/
theorem closure_mono {edges' : List (α × α)} (h : edges ⊆ edges') (a : α) :
    closure edges a ⊆ closure edges' a := by
  intro b hb
  exact mem_closure.mpr ((mem_closure.mp hb).lift id fun _ _ hxy => h hxy)

/-! ## The end of the loop -/

/-- The loop with the children as a function; `none` where it has not ended after `fuel` rounds. -/
def loop (next : α → List α) : Nat → List α → List α → Option (List α)
  | 0, _, _ => none
  | _ + 1, [], out => some out
  | fuel + 1, a :: stack, out =>
    if a ∈ out then loop next fuel stack out
    else loop next fuel ((next a).reverse ++ stack) (out ++ [a])

/-- More rounds than there is work are enough, and find the same. Induction on the rounds. -/
theorem loop_eq_visit {next : α → List α} (hnext : ∀ a, next a = children edges a) {fuel n : Nat}
    {stack out : List α} (hfuel : work edges stack out < fuel) (hn : work edges stack out ≤ n) :
    loop next fuel stack out = some (visit edges n stack out) := by
  induction fuel generalizing n stack out with
  | zero => exact absurd hfuel (Nat.not_lt_zero _)
  | succ fuel ih =>
    cases stack with
    | nil => cases n <;> rfl
    | cons a stack =>
      obtain ⟨n, rfl⟩ : ∃ m, n = m + 1 := by
        refine Nat.exists_eq_succ_of_ne_zero fun hzero => ?_
        simp [work, hzero] at hn
      by_cases ha : a ∈ out
      · have hless : work edges stack out + 1 = work edges (a :: stack) out := by
          simp only [work, List.length_cons]
          omega
        rw [loop, if_pos ha, visit, if_pos ha]
        exact ih (by omega) (by omega)
      · have hless : work edges ((children edges a).reverse ++ stack) (out ++ [a]) + 1 =
            work edges (a :: stack) out := work_visit ha
        rw [loop, if_neg ha, visit, if_neg ha, hnext]
        exact ih (by omega) (by omega)

/-- **The loop ends** with the nodes that can be reached. -/
theorem loop_eq_closure {next : α → List α} (hnext : ∀ a, next a = children edges a) (a : α)
    {fuel : Nat} (hfuel : edges.length + 1 < fuel) :
    loop next fuel [a] [] = some (closure edges a) := by
  have hwork : work edges [a] [] = edges.length + 1 := by
    simp [work, Nat.add_comm]
  exact loop_eq_visit hnext (hwork ▸ hfuel) (Nat.le_of_eq hwork)

end Worklist
