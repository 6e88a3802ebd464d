import Mathlib.Data.List.Infix

/-!
# Regular Expressions with Backtracking

Patterns in which what is repeated is one character of a class. A matcher that backtracks tries
the ways to match in an order of preference: the longer repetition before the shorter one, the
left alternative before the right one. `Pattern.ways` lists them in that order, and the match
that is taken is the first one.

- `Pattern.first_seq`, `Pattern.first_run`, …: the first match, part by part, where no part has to
  give back what it took.
- `scan_append`, `scan_cons`: a global search, match after match.
- `occurs`: a search for a word in any case.
-/

namespace Regex

/-- A pattern. -/
inductive Pattern where
  | text (s : List Char)
  -- `p{min,max}`, greedy.
  | run (p : Char → Bool) (min : Nat) (max : Option Nat)
  | seq (a b : Pattern)
  | alt (a b : Pattern)
  -- `a?`
  | opt (a : Pattern)
  -- `(a)`
  | group (a : Pattern)

/-- What the groups have matched, from left to right. -/
abbrev Captures := List (List Char)

/-- The ways to split off at most `max` characters of a class, longest first. -/
def splits (p : Char → Bool) : Nat → List Char → List (List Char × List Char)
  | 0, s => [([], s)]
  | _ + 1, [] => [([], [])]
  | max + 1, c :: s =>
    if p c then (splits p max s).map (fun (l, r) => (c :: l, r)) ++ [([], c :: s)]
    else [([], c :: s)]

namespace Pattern

/-- All matches at the beginning of a text, with what follows each, in order of preference. -/
def ways : Pattern → List Char → List (Captures × List Char)
  | text t, s => if t <+: s then [([], s.drop t.length)] else []
  | run p min max, s =>
    ((splits p (max.getD s.length) s).filter fun (l, _) => min ≤ l.length).map fun (_, r) => ([], r)
  | seq a b, s =>
    (a.ways s).flatMap fun (x, r) => (b.ways r).map fun (y, r') => (x ++ y, r')
  | alt a b, s => a.ways s ++ b.ways s
  | opt a, s => a.ways s ++ [([], s)]
  | group a, s => (a.ways s).map fun (x, r) => (s.take (s.length - r.length) :: x, r)

/-- The match that is taken. -/
def first (a : Pattern) (s : List Char) : Option (Captures × List Char) := (a.ways s).head?

variable {a b : Pattern} {s r r' t l : List Char} {x y : Captures} {p : Char → Bool}

/-! ### The cases of `ways` -/

theorem first_eq : a.first s = (a.ways s).head? := rfl

@[simp] theorem text_ways : (text t).ways s = if t <+: s then [([], s.drop t.length)] else [] := rfl

@[simp] theorem run_ways {min : Nat} {max : Option Nat} : (run p min max).ways s =
    ((splits p (max.getD s.length) s).filter fun (l, _) => min ≤ l.length).map
      fun (_, r) => ([], r) := rfl

@[simp] theorem seq_ways : (seq a b).ways s =
    (a.ways s).flatMap fun (x, r) => (b.ways r).map fun (y, r') => (x ++ y, r') := rfl

@[simp] theorem alt_ways : (alt a b).ways s = a.ways s ++ b.ways s := rfl

@[simp] theorem opt_ways : (opt a).ways s = a.ways s ++ [([], s)] := rfl

@[simp] theorem group_ways : (group a).ways s =
    (a.ways s).map fun (x, r) => (s.take (s.length - r.length) :: x, r) := rfl

/-! ### The first match, part by part -/

theorem first_text : (text t).first (t ++ s) = some ([], s) := by
  simp [first_eq]

theorem ways_text (h : ¬ t <+: s) : (text t).ways s = [] := by
  simp [h]

/-- A text that begins with another character. -/
theorem ways_text_cons {c : Char} (h : ∀ d ∈ s.head?, d ≠ c) : (text (c :: t)).ways s = [] := by
  refine ways_text fun ⟨r, hr⟩ => ?_
  subst hr
  exact h c rfl rfl

/-- No part gives anything back. -/
theorem first_seq (ha : a.first s = some (x, r)) (hb : b.first r = some (y, r')) :
    (seq a b).first s = some (x ++ y, r') := by
  rw [first_eq] at *
  obtain ⟨tail, ha⟩ := List.head?_eq_some_iff.mp ha
  obtain ⟨tail', hb⟩ := List.head?_eq_some_iff.mp hb
  simp [ha, hb]

theorem first_alt_left (ha : a.first s = some (x, r)) : (alt a b).first s = some (x, r) := by
  rw [first_eq] at *
  simp [ha]

theorem first_alt_right (ha : a.ways s = []) : (alt a b).first s = b.first s := by
  simp [first_eq, ha]

theorem first_opt (ha : a.first s = some (x, r)) : (opt a).first s = some (x, r) := by
  rw [first_eq] at *
  simp [ha]

theorem first_opt_none (ha : a.ways s = []) : (opt a).first s = some ([], s) := by
  simp [first_eq, ha]

theorem ways_seq (ha : a.ways s = []) : (seq a b).ways s = [] := by
  simp [ha]

/-- A group captures what was matched. -/
theorem first_group (ha : a.first (l ++ r) = some (x, r)) :
    (group a).first (l ++ r) = some (l :: x, r) := by
  rw [first_eq] at *
  obtain ⟨tail, ha⟩ := List.head?_eq_some_iff.mp ha
  simp [ha]

/-- The longest split. -/
theorem head?_splits {max : Nat} (hl : ∀ c ∈ l, p c = true) (hmax : l.length ≤ max)
    (hr : l.length = max ∨ ∀ c ∈ r.head?, p c = false) :
    (splits p max (l ++ r)).head? = some (l, r) := by
  induction l generalizing max with
  | nil =>
    cases max with
    | zero => rfl
    | succ max =>
      cases r with
      | nil => rfl
      | cons c r =>
        have hc : p c = false := hr.elim (fun h => nomatch h) fun h => h c rfl
        simp [splits, hc]
  | cons c l ih =>
    cases max with
    | zero => exact absurd hmax (by simp)
    | succ max =>
      have hrest := ih (fun d hd => hl d (List.mem_cons_of_mem _ hd)) (Nat.le_of_succ_le_succ hmax)
        (hr.imp_left Nat.succ.inj)
      obtain ⟨tail, hrest⟩ := List.head?_eq_some_iff.mp hrest
      simp [splits, hl c List.mem_cons_self, hrest]

/-- A repetition takes as many characters as it can. -/
theorem first_run {min : Nat} {max : Option Nat} (hl : ∀ c ∈ l, p c = true) (hmin : min ≤ l.length)
    (hmax : ∀ m ∈ max, l.length ≤ m)
    (hr : max = some l.length ∨ ∀ c ∈ r.head?, p c = false) :
    (run p min max).first (l ++ r) = some ([], r) := by
  have hsplits : (splits p (max.getD (l ++ r).length) (l ++ r)).head? = some (l, r) := by
    refine head?_splits hl ?_ (hr.imp_left fun h => by simp [h])
    cases max with
    | none => simp
    | some m => exact hmax m rfl
  obtain ⟨tail, hsplits⟩ := List.head?_eq_some_iff.mp hsplits
  simp only [first_eq, run_ways, hsplits]
  rw [List.filter_cons_of_pos (by simpa using hmin)]
  rfl

/-- A repetition that has to take a character fails at another one. -/
theorem ways_run {min : Nat} {max : Option Nat} (hmin : 0 < min)
    (hs : ∀ c ∈ s.head?, p c = false) : (run p min max).ways s = [] := by
  have hsplits : ∀ n, splits p n s = [([], s)] := by
    intro n
    cases n with
    | zero => rfl
    | succ n =>
      cases s with
      | nil => rfl
      | cons c s => simp [splits, hs c rfl]
  simp [hsplits, hmin]

end Pattern

/-! ## Global search -/

/-- `while ((m = re.exec(text)))` with the flag `g`, for a pattern that does not match the empty
text: the captures of each match. The first `k` characters belong to the match before. -/
def scan (re : Pattern) : Nat → List Char → List Captures
  | _, [] => []
  | k + 1, _ :: s => scan re k s
  | 0, c :: s =>
    match re.first (c :: s) with
    | some (x, r) => x :: scan re (s.length - r.length) s
    | none => scan re 0 s

variable {re : Pattern} {s l : List Char} {x : Captures} {c : Char}

/-- What was matched is skipped. -/
theorem scan_skip (l s : List Char) : scan re l.length (l ++ s) = scan re 0 s := by
  induction l with
  | nil => rfl
  | cons c l ih => exact ih

/-- A match, and what comes after it. -/
theorem scan_append (hl : l ≠ []) (h : re.first (l ++ s) = some (x, s)) :
    scan re 0 (l ++ s) = x :: scan re 0 s := by
  cases l with
  | nil => exact absurd rfl hl
  | cons c l =>
    rw [List.cons_append] at h ⊢
    have hlength : (l ++ s).length - s.length = l.length := by simp
    rw [scan, h]
    simp only [hlength, scan_skip]

/-- Nothing begins at a character. -/
theorem scan_cons (h : re.ways (c :: s) = []) : scan re 0 (c :: s) = scan re 0 s := by
  rw [scan, Pattern.first_eq, h]
  rfl

/-! ## Words -/

/-- `/word/i.test(text)`, for a word in small letters. -/
def occurs (word text : List Char) : Bool := word <:+: text.map Char.toLower

end Regex
