import Mathlib.Data.Finset.Card
import Mathlib.Logic.Relation

/-!
# Walks in a Forest

Two loops over parent links, neither of which remembers what it has visited: one walks up from a
node to its root, the other collects the nodes below one. Both end where the links have no
cycle.

1. `acyclic_link`: a link from a node to one that is not below it closes no cycle.
2. `climb`: walking up; it ends, and finds the ancestors.
3. `drain`: collecting what is below; it ends, and finds what can be reached.
-/

namespace Forest

open Relation

variable {α : Type*}

/-! ## Cycles -/

/-- No node is below itself. -/
def Acyclic (r : α → α → Prop) : Prop := ∀ a, ¬ TransGen r a a

theorem Acyclic.mono {r r' : α → α → Prop} (h : Acyclic r) (hsub : ∀ a b, r' a b → r a b) :
    Acyclic r' :=
  fun a ha => h a (TransGen.mono hsub a a ha)

/-- A path that may use the link from `p` to `x`, cut at that link. -/
theorem path_cases {r r' : α → α → Prop} {p x : α} (hnot : ¬ ReflTransGen r x p)
    (hlink : ∀ a b, r' a b → r a b ∨ (a = p ∧ b = x)) {a b : α} (h : TransGen r' a b) :
    TransGen r a b ∨ (ReflTransGen r a p ∧ ReflTransGen r x b) := by
  induction h with
  | single hab =>
    rcases hlink _ _ hab with hab | ⟨rfl, rfl⟩
    · exact Or.inl (.single hab)
    · exact Or.inr ⟨.refl, .refl⟩
  | tail _ hbc ih =>
    rcases hlink _ _ hbc with hbc | ⟨rfl, rfl⟩
    · exact ih.imp (fun h => h.tail hbc) fun h => ⟨h.1, h.2.tail hbc⟩
    · rcases ih with ih | ⟨-, hx⟩
      · exact Or.inr ⟨ih.to_reflTransGen, .refl⟩
      · exact absurd hx hnot

/-- **A new link closes no cycle** if it leads to a node that its end is not below. -/
theorem acyclic_link {r r' : α → α → Prop} {p x : α} (h : Acyclic r)
    (hnot : ¬ ReflTransGen r x p) (hlink : ∀ a b, r' a b → r a b ∨ (a = p ∧ b = x)) :
    Acyclic r' := by
  intro a ha
  rcases path_cases hnot hlink ha with ha | ⟨hap, hxa⟩
  · exact h a ha
  · exact hnot (hxa.trans hap)

/-! ## Walking up -/

/-- The parents from a node on; `none` where the loop has not ended after `fuel` rounds. -/
def climb (parent : α → Option α) : Nat → Option α → Option (List α)
  | 0, _ => none
  | _ + 1, none => some []
  | fuel + 1, some a => (climb parent fuel (parent a)).map (a :: ·)

variable {parent : α → Option α}

/-- `a` is the parent of `b`. -/
def Link (parent : α → Option α) (a b : α) : Prop := parent b = some a

/-- Walking up finds the node and its ancestors. -/
theorem mem_climb {fuel : Nat} {a b : α} {l : List α}
    (h : climb parent fuel (some a) = some l) :
    b ∈ l ↔ ReflTransGen (Link parent) b a := by
  -- one link up for each unit of fuel
  induction fuel generalizing a l with
  | zero => cases h
  | succ fuel ih =>
    obtain ⟨rest, hrest, rfl⟩ := Option.map_eq_some_iff.mp h
    rw [List.mem_cons]
    constructor
    · rintro (rfl | hb)
      · exact .refl
      · cases hparent : parent a with
        | none =>
          cases fuel with
          | zero => cases hrest
          | succ fuel =>
            rw [hparent] at hrest
            obtain rfl := Option.some_inj.mp hrest
            cases hb
        | some c =>
          rw [hparent] at hrest
          exact ((ih hrest).mp hb).tail hparent
    · intro hba
      rcases ReflTransGen.cases_tail hba with heq | ⟨c, hbc, hca⟩
      · exact Or.inl heq.symm
      · right
        have hparent : parent a = some c := hca
        rw [hparent] at hrest
        exact (ih hrest).mpr hbc

/-- Every round but the last visits one node. -/
theorem length_climb {fuel : Nat} {hop : Option α} {l : List α}
    (h : climb parent fuel hop = some l) : l.length < fuel := by
  induction fuel generalizing hop l with
  | zero => cases h
  | succ fuel ih =>
    cases hop with
    | none =>
      obtain rfl := Option.some_inj.mp h
      exact Nat.succ_pos fuel
    | some a =>
      obtain ⟨rest, hrest, rfl⟩ := Option.map_eq_some_iff.mp h
      rw [List.length_cons]
      exact Nat.succ_lt_succ (ih hrest)

/-- The walk ends: what has been visited is below the next node, so it does not come back.
Induction on the rounds that are left. -/
private theorem exists_climb_from [DecidableEq α] (h : Acyclic (Link parent)) {nodes : List α}
    (hnodes : ∀ a b, parent a = some b → a ∈ nodes) (fuel : Nat) (hop : Option α)
    (visited : Finset α) (hsub : visited ⊆ nodes.toFinset)
    (hbelow : ∀ a, hop = some a → ∀ b ∈ visited, TransGen (Link parent) a b)
    (hfuel : nodes.toFinset.card + 2 ≤ fuel + visited.card) :
    ∃ l, climb parent fuel hop = some l := by
  induction fuel generalizing hop visited with
  | zero =>
    have hcard := Finset.card_le_card hsub
    omega
  | succ fuel ih =>
    cases hop with
    | none => exact ⟨[], rfl⟩
    | some a =>
      -- whatever was visited lies below a, so a visited a closes a cycle
      have hnew : a ∉ visited := fun ha => h a (hbelow a rfl a ha)
      cases hparent : parent a with
      | none =>
        cases fuel with
        | zero =>
          have hcard := Finset.card_le_card hsub
          omega
        | succ fuel => exact ⟨[a], by simp [climb, hparent]⟩
      | some b =>
        have hmem : a ∈ nodes.toFinset := List.mem_toFinset.mpr (hnodes a b hparent)
        obtain ⟨l, hl⟩ := ih (some b) (insert a visited)
          (Finset.insert_subset hmem hsub) (fun c hc d hd => by
            obtain rfl := Option.some_inj.mp hc
            rcases Finset.mem_insert.mp hd with rfl | hd
            · exact .single hparent
            · exact .head hparent (hbelow a rfl d hd))
          (by rw [Finset.card_insert_of_notMem hnew]; omega)
        exact ⟨a :: l, by simp [climb, hparent, hl]⟩

/-- **Walking up ends** where there is no cycle and finitely many nodes have a parent. -/
theorem exists_climb [DecidableEq α] (h : Acyclic (Link parent)) {nodes : List α}
    (hnodes : ∀ a b, parent a = some b → a ∈ nodes) (hop : Option α) :
    ∃ l, climb parent (nodes.length + 2) hop = some l := by
  refine exists_climb_from h hnodes _ hop ∅ (Finset.empty_subset _)
    (fun _ _ _ hb => absurd hb (Finset.notMem_empty _)) ?_
  have hcard := nodes.toFinset_card_le
  simp only [Finset.card_empty]
  omega

/-! ## Collecting what is below -/

/-- What is below the nodes that are pending, added to what is done; `none` where the loop has not
ended after `fuel` rounds. -/
def drain (children : α → List α) : Nat → List α → List α → Option (List α)
  | 0, _, _ => none
  | _ + 1, [], done => some done
  | fuel + 1, a :: pending, done => drain children fuel (pending ++ children a) (done ++ [a])

/-- `b` is a child of `a`. -/
def Below (children : α → List α) (a b : α) : Prop := b ∈ children a

section Drain

variable {children : α → List α}

/-- Only what can be reached is collected. -/
theorem drain_sound {P : α → Prop} (hchildren : ∀ a b, P a → b ∈ children a → P b) {fuel : Nat}
    {pending done l : List α} (h : drain children fuel pending done = some l)
    (hpending : ∀ a ∈ pending, P a) (hdone : ∀ a ∈ done, P a) : ∀ a ∈ l, P a := by
  induction fuel generalizing pending done with
  | zero => cases h
  | succ fuel ih =>
    cases pending with
    | nil =>
      obtain rfl := Option.some_inj.mp h
      exact hdone
    | cons a pending =>
      have ha := hpending a List.mem_cons_self
      refine ih h (fun b hb => ?_) fun b hb => ?_
      · rcases List.mem_append.mp hb with hb | hb
        · exact hpending b (List.mem_cons_of_mem a hb)
        · exact hchildren a b ha hb
      · rcases List.mem_append.mp hb with hb | hb
        · exact hdone b hb
        · rw [List.mem_singleton.mp hb]
          exact ha

/-- What is pending or done is collected, and so are the children of all that is. -/
theorem drain_closed {fuel : Nat} {pending done l : List α}
    (h : drain children fuel pending done = some l)
    (hclosed : ∀ a ∈ done, ∀ b ∈ children a, b ∈ done ++ pending) :
    done ++ pending ⊆ l ∧ ∀ a ∈ l, ∀ b ∈ children a, b ∈ l := by
  induction fuel generalizing pending done with
  | zero => cases h
  | succ fuel ih =>
    cases pending with
    | nil =>
      obtain rfl := Option.some_inj.mp h
      rw [List.append_nil] at hclosed ⊢
      exact ⟨List.Subset.refl _, hclosed⟩
    | cons a pending =>
      have hsub : done ++ a :: pending ⊆ done ++ [a] ++ (pending ++ children a) := by
        intro b hb
        simp only [List.mem_append, List.mem_cons] at hb ⊢
        tauto
      obtain ⟨hl, hall⟩ := ih h fun b hb c hc => by
        rcases List.mem_append.mp hb with hb | hb
        · exact hsub (hclosed b hb c hc)
        · rw [List.mem_singleton.mp hb] at hc
          simp [hc]
      exact ⟨fun b hb => hl (hsub hb), hall⟩

/-- The loop ends: nothing is pushed twice, since every node has one parent and the first one is
not below itself. Induction on the rounds that are left. -/
private theorem exists_drain_from {root : α} {nodes : List α}
    (hroot : ¬ TransGen (Below children) root root)
    (honce : ∀ a b c, c ∈ children a → c ∈ children b → a = b)
    (hnodup : ∀ a, (children a).Nodup) (hnodes : ∀ a, children a ⊆ nodes) (fuel : Nat)
    (pending done : List α) (hfresh : (done ++ pending).Nodup)
    (hfrom : ∀ a ∈ done ++ pending, a = root ∨ ∃ b ∈ done, a ∈ children b)
    (hreach : ∀ a ∈ done ++ pending, ReflTransGen (Below children) root a)
    (hfuel : nodes.length + 2 ≤ fuel + done.length) :
    ∃ l, drain children fuel pending done = some l := by
  classical
  induction fuel generalizing pending done with
  | zero =>
    -- the entries are distinct and all below the root, so there are no more of them than nodes
    have hsub : done ++ pending ⊆ root :: nodes := by
      intro a ha
      rcases hfrom a ha with rfl | ⟨b, -, hb⟩
      · exact List.mem_cons_self
      · exact List.mem_cons_of_mem _ (hnodes b hb)
    have hlength := (hfresh.subperm hsub).length_le
    simp only [List.length_append, List.length_cons] at hlength
    omega
  | succ fuel ih =>
    cases pending with
    | nil => exact ⟨done, rfl⟩
    | cons a pending =>
      have ha : a ∈ done ++ a :: pending := List.mem_append_right _ List.mem_cons_self
      have hadone : a ∉ done := by
        intro hmem
        have hdisj := List.disjoint_of_nodup_append hfresh
        exact hdisj hmem List.mem_cons_self
      -- a child seen before would be the root (a cycle) or have a second parent
      have hnew : ∀ c ∈ children a, c ∉ done ++ a :: pending := by
        intro c hc hmem
        rcases hfrom c hmem with rfl | ⟨b, hb, hcb⟩
        · exact hroot (TransGen.tail' (hreach a ha) hc)
        · exact hadone (honce a b c hc hcb ▸ hb)
      -- what the queue holds next is what it held, with the children of its head behind
      have hperm : done ++ [a] ++ (pending ++ children a) =
          (done ++ a :: pending) ++ children a := by simp
      refine ih (pending ++ children a) (done ++ [a]) ?_ ?_ ?_ ?_
      · rw [hperm, List.nodup_append]
        refine ⟨hfresh, hnodup a, fun b hb c hc hbc => ?_⟩
        subst hbc
        exact hnew b hc hb
      · intro c hc
        rw [hperm] at hc
        rcases List.mem_append.mp hc with hc | hc
        · refine (hfrom c hc).imp_right fun h => ?_
          obtain ⟨b, hb, hcb⟩ := h
          exact ⟨b, List.mem_append_left _ hb, hcb⟩
        · exact Or.inr ⟨a, List.mem_append_right _ List.mem_cons_self, hc⟩
      · intro c hc
        rw [hperm] at hc
        rcases List.mem_append.mp hc with hc | hc
        · exact hreach c hc
        · exact (hreach a ha).tail hc
      · rw [List.length_append, List.length_singleton]
        omega

/-- **Collecting ends**, and finds exactly what can be reached, where every node has one parent,
there are finitely many, and the first one is not below itself. -/
theorem exists_drain {root : α} {nodes : List α} (hroot : ¬ TransGen (Below children) root root)
    (honce : ∀ a b c, c ∈ children a → c ∈ children b → a = b)
    (hnodup : ∀ a, (children a).Nodup) (hnodes : ∀ a, children a ⊆ nodes) :
    ∃ l, drain children (nodes.length + 2) [root] [] = some l ∧
      ∀ a, a ∈ l ↔ ReflTransGen (Below children) root a := by
  obtain ⟨l, hl⟩ := exists_drain_from hroot honce hnodup hnodes (nodes.length + 2) [root] []
    (List.nodup_singleton root) (fun a ha => Or.inl (List.mem_singleton.mp ha))
    (fun a ha => by rw [List.mem_singleton.mp ha]) (by simp)
  refine ⟨l, hl, fun a => ⟨?_, fun ha => ?_⟩⟩
  · refine drain_sound (P := ReflTransGen (Below children) root) (fun a b ha hb => ha.tail hb) hl
      (fun a ha => ?_) (fun a ha => absurd ha List.not_mem_nil) a
    rw [List.mem_singleton.mp ha]
  · obtain ⟨hin, hclosed⟩ := drain_closed hl fun a ha => absurd ha List.not_mem_nil
    induction ha with
    | refl => exact hin List.mem_cons_self
    | tail _ hbc ih => exact hclosed _ ih _ hbc

end Drain

end Forest
