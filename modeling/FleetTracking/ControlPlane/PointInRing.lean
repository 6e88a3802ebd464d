import FleetTracking.ControlPlane.AlertEngine
import FleetTracking.Lib.ClosedPath
import Mathlib.Tactic.FieldSimp

/-!
# Points in Rings

Ray casting over exact coordinates, for rings of any length: horizontal edges, repeated vertices
and points on an edge included.

1. `crosses_comm`, `crosses_self`: an edge is crossed whichever way it is walked.
2. `pointInRing_eq_around`: the loop is the parity of the closed path.
3. `divide`, `checkedPointInRing`: the loop with a division that fails on a zero.
4. `closedRing`, `openRing`: a ring as it is written to the database, and read from it.
5. `pointInRing_laws`: what does not change the result, and what it is over a diagonal.
-/

namespace FleetTracking.ControlPlane

open ClosedPath

variable (lon lat : ℚ)

/-! ## The edges -/

/-- The abscissa at which an edge meets a latitude, from either end. -/
theorem abscissa_comm {i j : ℚ × ℚ} (h : i.2 ≠ j.2) :
    (j.1 - i.1) * (lat - i.2) / (j.2 - i.2) + i.1 =
      (i.1 - j.1) * (lat - j.2) / (i.2 - j.2) + j.1 := by
  have hji : j.2 - i.2 ≠ 0 := sub_ne_zero.mpr h.symm
  have hij : i.2 - j.2 ≠ 0 := sub_ne_zero.mpr h
  field_simp
  ring

/-- An edge that is crossed has ends at different latitudes. -/
theorem ne_of_above_ne {i j : ℚ × ℚ} (h : (decide (lat < i.2) != decide (lat < j.2)) = true) :
    i.2 ≠ j.2 := by
  intro heq
  simp [heq] at h

/-- **An edge is crossed whichever way it is walked.** -/
theorem crosses_comm (i j : ℚ × ℚ) : crosses lon lat i j = crosses lon lat j i := by
  unfold crosses
  rw [bne_comm]
  cases habove : decide (lat < j.2) != decide (lat < i.2) with
  | false => rfl
  | true => rw [abscissa_comm lat (ne_of_above_ne lat habove).symm]

/-- An edge from a vertex to itself is not crossed. -/
theorem crosses_self (i : ℚ × ℚ) : crosses lon lat i i = false := by
  simp [crosses]

/-! ## The loop -/

/-- The loop, from any vertex and any parity on. -/
theorem foldl_crosses (ring : List (ℚ × ℚ)) (inside : Bool) (j : ℚ × ℚ) :
    (ring.foldl (fun (acc : Bool × (ℚ × ℚ)) i => (acc.1 != crosses lon lat i acc.2, i))
      (inside, j)).1 = (inside ^^ along (crosses lon lat) j ring) := by
  induction ring generalizing inside j with
  | nil => simp
  | cons i ring ih =>
    rw [List.foldl_cons, ih, along_cons, crosses_comm lon lat j i]
    cases inside <;> cases crosses lon lat i j <;> simp

/-- **The loop is the parity of the closed path.** -/
theorem pointInRing_eq_around (ring : List (ℚ × ℚ)) :
    pointInRing lon lat ring = around (crosses lon lat) ring := by
  unfold pointInRing
  cases hlast : ring.getLast? with
  | none => simp [List.getLast?_eq_none_iff.mp hlast]
  | some last =>
    obtain ⟨init, rfl⟩ := List.getLast?_eq_some_iff.mp hlast
    -- the loop begins with the edge from the last vertex to the first
    have hbegin : (init ++ [last]).rotate init.length = last :: init := by
      rw [List.rotate_append_length_eq, List.singleton_append]
    calc (List.foldl _ (false, last) (init ++ [last])).1
        = along (crosses lon lat) last (init ++ [last]) := by
          rw [foldl_crosses, Bool.false_xor]
      _ = around (crosses lon lat) (last :: init) := (around_cons _ last init).symm
      _ = around (crosses lon lat) (init ++ [last]) := by
          rw [← hbegin, around_rotate]

/-! ## Division -/

/-- A division; `none` if the divisor is zero. -/
def divide (a b : ℚ) : Option ℚ :=
  if b = 0 then none else some (a / b)

/-- `crosses`, where `&&` evaluates its right side only if the left side holds. -/
def checkedCrosses (i j : ℚ × ℚ) : Option Bool :=
  if decide (lat < i.2) != decide (lat < j.2) then do
    let quotient ← divide ((j.1 - i.1) * (lat - i.2)) (j.2 - i.2)
    some (decide (lon < quotient + i.1))
  else some false

/-- `pointInRing`; `none` if it divides by zero. -/
def checkedPointInRing (ring : List (ℚ × ℚ)) : Option Bool :=
  match ring.getLast? with
  | none => some false
  | some last => do
    let acc ← ring.foldlM (fun (acc : Bool × (ℚ × ℚ)) i => do
      let intersects ← checkedCrosses lon lat i acc.2
      some (acc.1 != intersects, i)) (false, last)
    some acc.1

/-- An edge that is divided by is not horizontal. -/
theorem checkedCrosses_eq (i j : ℚ × ℚ) :
    checkedCrosses lon lat i j = some (crosses lon lat i j) := by
  unfold checkedCrosses crosses
  split
  case isTrue habove =>
    have hne : j.2 - i.2 ≠ 0 := sub_ne_zero.mpr (ne_of_above_ne lat habove).symm
    simp [divide, hne, habove]
  case isFalse habove =>
    simp [Bool.eq_false_iff.mpr habove]

/-- **Nothing is divided by zero.** -/
theorem checkedPointInRing_eq (ring : List (ℚ × ℚ)) :
    checkedPointInRing lon lat ring = some (pointInRing lon lat ring) := by
  have hfold : ∀ (ring : List (ℚ × ℚ)) (acc : Bool × (ℚ × ℚ)),
      ring.foldlM (fun (acc : Bool × (ℚ × ℚ)) i => do
        let intersects ← checkedCrosses lon lat i acc.2
        some (acc.1 != intersects, i)) acc =
      some (ring.foldl (fun (acc : Bool × (ℚ × ℚ)) i =>
        (acc.1 != crosses lon lat i acc.2, i)) acc) := by
    intro ring
    induction ring with
    | nil => intro acc; rfl
    | cons i ring ih =>
      intro acc
      rw [List.foldlM_cons, List.foldl_cons, checkedCrosses_eq]
      exact ih _
  unfold checkedPointInRing pointInRing
  cases ring.getLast? with
  | none => rfl
  | some last =>
    simp only [Option.bind_eq_bind] at hfold ⊢
    rw [hfold, Option.bind_some]

/-! ## Rings in the database -/

/-- The ring of the WKT text: closed with its first point. -/
def closedRing (ring : List (ℚ × ℚ)) : List (ℚ × ℚ) :=
  ring ++ ring.head?.toList

/-- `rowToGeofence`: the ring of the GeoJSON text, without the closing point. -/
def openRing (ring : List (ℚ × ℚ)) : List (ℚ × ℚ) :=
  ring.dropLast

/-- A ring comes back as it was stored. -/
theorem openRing_closedRing (ring : List (ℚ × ℚ)) : openRing (closedRing ring) = ring := by
  cases ring with
  | nil => rfl
  | cons p ring => exact List.dropLast_concat

/-! ## The laws -/

/-- A closed ring contains what the ring contains. -/
theorem pointInRing_closedRing (ring : List (ℚ × ℚ)) :
    pointInRing lon lat (closedRing ring) = pointInRing lon lat ring := by
  rw [pointInRing_eq_around, pointInRing_eq_around]
  cases ring with
  | nil => rfl
  | cons p ring => exact around_concat_head _ (crosses_self lon lat p) ring

theorem pointInRing_rotate (ring : List (ℚ × ℚ)) (n : Nat) :
    pointInRing lon lat (ring.rotate n) = pointInRing lon lat ring := by
  rw [pointInRing_eq_around, pointInRing_eq_around, around_rotate]

theorem pointInRing_reverse (ring : List (ℚ × ℚ)) :
    pointInRing lon lat ring.reverse = pointInRing lon lat ring := by
  rw [pointInRing_eq_around, pointInRing_eq_around, around_reverse (crosses_comm lon lat)]

/-- The rings on the two sides of the diagonal from vertex `0` to vertex `k`. -/
theorem pointInRing_diagonal (ring : List (ℚ × ℚ)) {k : Nat} (hk : k < ring.length) :
    pointInRing lon lat ring =
      (pointInRing lon lat (ring.take (k + 1)) ^^
        pointInRing lon lat (ring.take 1 ++ ring.drop k)) := by
  simp only [pointInRing_eq_around]
  cases ring with
  | nil => simp at hk
  | cons p ring =>
    cases k with
    | zero =>
      -- the edge from the first vertex to itself
      have hdouble : around (crosses lon lat) (p :: p :: ring) =
          around (crosses lon lat) (p :: ring) := by
        rw [around_cons, around_cons, List.cons_append, along_cons, crosses_self, Bool.false_xor]
      have hpoint : around (crosses lon lat) [p] = false := by
        simp [around_cons, crosses_self]
      simpa [hpoint] using hdouble.symm
    | succ k =>
      have hk : k < ring.length := Nat.lt_of_succ_lt_succ hk
      have hsplit : ring = ring.take k ++ ring[k] :: ring.drop (k + 1) := by
        rw [List.getElem_cons_drop, List.take_append_drop]
      have htake : (p :: ring).take (k + 1 + 1) = p :: (ring.take k ++ [ring[k]]) := by
        rw [List.take_succ_cons, List.take_concat_get' _ _ hk]
      have hdrop : (p :: ring).drop (k + 1) = ring[k] :: ring.drop (k + 1) := by
        rw [List.drop_succ_cons, List.getElem_cons_drop]
      rw [htake, hdrop, List.take_succ_cons, List.take_zero, List.singleton_append]
      calc around (crosses lon lat) (p :: ring)
          = around (crosses lon lat) (p :: (ring.take k ++ ring[k] :: ring.drop (k + 1))) := by
            rw [← hsplit]
        _ = _ := around_diagonal (crosses_comm lon lat) p ring[k] _ _

/-- **The laws of ray casting.** For every ring and every point. -/
theorem pointInRing_laws (ring : List (ℚ × ℚ)) :
    checkedPointInRing lon lat ring = some (pointInRing lon lat ring) ∧
      pointInRing lon lat (closedRing ring) = pointInRing lon lat ring ∧
      (∀ n, pointInRing lon lat (ring.rotate n) = pointInRing lon lat ring) ∧
      pointInRing lon lat ring.reverse = pointInRing lon lat ring ∧
      ∀ k < ring.length, pointInRing lon lat ring =
        (pointInRing lon lat (ring.take (k + 1)) ^^
          pointInRing lon lat (ring.take 1 ++ ring.drop k)) := by
  refine ⟨checkedPointInRing_eq lon lat ring, pointInRing_closedRing lon lat ring,
    pointInRing_rotate lon lat ring, pointInRing_reverse lon lat ring, ?_⟩
  intro k hk
  exact pointInRing_diagonal lon lat ring hk

end FleetTracking.ControlPlane
