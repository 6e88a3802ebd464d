import Mathlib.Data.List.Rotate

/-!
# Parity along Paths

The exclusive or of a test over the edges of a path, and of a closed path through the vertices of a
ring.

1. `along`: the parity of a path; a path can be cut at a vertex, and walked backwards.
2. `around`: the parity of a ring; where it begins and which way it is walked make no difference.
3. `around_diagonal`: a diagonal from the first vertex cuts a ring in two.
4. `around_concat_head`: the first vertex may be repeated at the end.
-/

namespace ClosedPath

variable {α : Type*} (cross : α → α → Bool)

/-- The exclusive or of the edges from `p` along the path. -/
def along : α → List α → Bool
  | _, [] => false
  | p, q :: path => cross p q ^^ along q path

/-- The exclusive or of the edges of a ring, with the one from the last vertex to the first. -/
def around : List α → Bool
  | [] => false
  | p :: ring => along cross p (ring ++ [p])

@[simp] theorem along_nil (p : α) : along cross p [] = false := rfl

@[simp] theorem along_cons (p q : α) (path : List α) :
    along cross p (q :: path) = (cross p q ^^ along cross q path) := rfl

@[simp] theorem around_nil : around cross [] = false := rfl

theorem around_cons (p : α) (ring : List α) :
    around cross (p :: ring) = along cross p (ring ++ [p]) := rfl

/-- A path cut at a vertex. -/
theorem along_append_cons (p q : α) (path path' : List α) :
    along cross p (path ++ q :: path') =
      (along cross p (path ++ [q]) ^^ along cross q path') := by
  induction path generalizing p with
  | nil => simp
  | cons r path ih => simp [ih r]

/-! ## Rings -/

/-- A ring cut at two vertices: the path between them, and the path back. -/
theorem around_append (p q : α) (path path' : List α) :
    around cross (p :: (path ++ q :: path')) =
      (along cross p (path ++ [q]) ^^ along cross q (path' ++ [p])) := by
  rw [around_cons, List.append_assoc, List.cons_append, along_append_cons]

theorem around_rotate_one (ring : List α) : around cross (ring.rotate 1) = around cross ring := by
  cases ring with
  | nil => rfl
  | cons p ring =>
    rw [List.rotate_cons_succ, List.rotate_zero]
    cases ring with
    | nil => rfl
    | cons q ring =>
      -- the edge from `p` to `q` comes last, and not first
      calc around cross (q :: ring ++ [p])
          = (along cross q (ring ++ [p]) ^^ along cross p [q]) := around_append cross q p ring []
        _ = (along cross p [q] ^^ along cross q (ring ++ [p])) := Bool.xor_comm _ _
        _ = around cross (p :: q :: ring) := (around_append cross p q [] ring).symm

/-- **A ring may begin anywhere.** -/
theorem around_rotate (ring : List α) (n : Nat) :
    around cross (ring.rotate n) = around cross ring := by
  induction n with
  | zero => rw [List.rotate_zero]
  | succ n ih => rw [← List.rotate_rotate, around_rotate_one, ih]

section Symmetric

variable {cross} (hsymm : ∀ p q, cross p q = cross q p)
include hsymm

/-- A path walked backwards. -/
theorem along_reverse (p q : α) (path : List α) :
    along cross p (path ++ [q]) = along cross q (path.reverse ++ [p]) := by
  induction path generalizing p with
  | nil => simp [hsymm p q]
  | cons r path ih =>
    calc along cross p (r :: path ++ [q])
        = (cross p r ^^ along cross r (path ++ [q])) := rfl
      _ = (along cross q (path.reverse ++ [r]) ^^ along cross r [p]) := by
          rw [ih r, hsymm p r, Bool.xor_comm]
          simp
      _ = along cross q (path.reverse ++ r :: [p]) := (along_append_cons cross q r _ [p]).symm
      _ = along cross q ((r :: path).reverse ++ [p]) := by simp

/-- **A ring may be walked either way.** -/
theorem around_reverse (ring : List α) : around cross ring.reverse = around cross ring := by
  cases ring with
  | nil => rfl
  | cons p ring =>
    -- the reversed ring, begun at the same vertex
    have hrotate : (p :: ring.reverse).rotate 1 = (p :: ring).reverse := by
      rw [List.rotate_cons_succ, List.rotate_zero, List.reverse_cons]
    rw [← hrotate, around_rotate, around_cons, around_cons, along_reverse hsymm,
      List.reverse_reverse]

/-- **A diagonal cuts a ring in two**, and is an edge of both. -/
theorem around_diagonal (p q : α) (path path' : List α) :
    around cross (p :: (path ++ q :: path')) =
      (around cross (p :: (path ++ [q])) ^^ around cross (p :: q :: path')) := by
  have hleft : around cross (p :: (path ++ [q])) = (along cross p (path ++ [q]) ^^ cross q p) := by
    simpa using around_append cross p q path []
  have hright : around cross (p :: q :: path') = (cross p q ^^ along cross q (path' ++ [p])) := rfl
  rw [hleft, hright, around_append, hsymm q p]
  cases cross p q <;> simp

end Symmetric

/-- **A ring may be closed**, if an edge from a vertex to itself is not crossed. -/
theorem around_concat_head {p : α} (hself : cross p p = false) (ring : List α) :
    around cross (p :: ring ++ [p]) = around cross (p :: ring) := by
  calc around cross (p :: (ring ++ [p]))
      = (along cross p (ring ++ [p]) ^^ along cross p [p]) := around_append cross p p ring []
    _ = around cross (p :: ring) := by simp [hself, around_cons]

end ClosedPath
