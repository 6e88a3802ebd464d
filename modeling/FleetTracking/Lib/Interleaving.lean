import FleetTracking.Lib.Async
import FleetTracking.Lib.Transition
import Mathlib.Data.List.AList

/-!
# Calls Interleaved at Their Await Points

Several calls of asynchronous functions run on one thread and share a state. A call
runs without interruption up to its next `await`; there it stops, and other calls run
until the awaited operation has taken effect and the call is resumed with its outcome.

1. A `World` says what operations and actions do to the shared state. An operation has
   an *outcome* `χ` chosen by the environment (it may fail, a reply may get lost, a clock
   may have advanced).
2. A `System` adds the code of the calls and what the environment does on its own.
3. `System.step` executes one event: a call starts, an awaited operation takes effect, a
   call is resumed, or the environment moves. It is computable, so a concrete
   interleaving can be evaluated.
4. `Sequential` runs are those in which calls do not overlap.
-/

namespace Async

variable {S : Sig} {κ ρ σ χ η ι α : Type}

/-- What a call has done so far: one entry for each action and each settled operation. -/
inductive Seen (S : Sig) where
  -- The operation `op` took effect with this outcome.
  | answered (op : S.Op) (r : Except S.Err (S.Res op))
  -- The action `a` was performed and returned `r`.
  | did (a : S.Act) (r : S.Ret a)

/-- The effect of operations and actions on the shared state `σ`; `ι` numbers
the calls and `κ` is the call made. -/
structure World (S : Sig) (ι κ σ χ : Type) where
  -- The effect and result of an awaited operation for a chosen outcome.
  settle : ι → κ → (op : S.Op) → χ → σ → Option (σ × Except S.Err (S.Res op))
  -- The effect and result of a synchronous action.
  act : ι → κ → (a : S.Act) → σ → σ × S.Ret a

/-- A world together with the code of its calls and the moves of its environment. -/
structure System (S : Sig) (ι κ ρ σ χ η : Type) extends World S ι κ σ χ where
  -- The function a call runs.
  code : κ → Async S ρ
  -- What happens to the shared state between the calls.
  env : η → σ → Option σ

/-- A running call. It always stands at an `await`. -/
structure Thread (S : Sig) (κ ρ : Type) where
  -- The call, with its arguments.
  call : κ
  -- What the call has done up to now.
  past : List (Seen S)
  -- The awaited operation.
  op : S.Op
  -- What comes after it.
  next : Except S.Err (S.Res op) → Async S ρ
  -- The outcome, once the operation has taken effect.
  reply : Option (Except S.Err (S.Res op))

/-- Where synchronous code stops. -/
inductive Halt (S : Sig) (ρ : Type) where
  -- The call is over.
  | finished (r : Except S.Err ρ)
  -- The call awaits an operation.
  | awaiting (op : S.Op) (next : Except S.Err (S.Res op) → Async S ρ)

/-- Run synchronous code up to the next `await`. -/
def World.advance (W : World S ι κ σ χ) (i : ι) (c : κ) :
    Async S ρ → List (Seen S) → σ → σ × List (Seen S) × Halt S ρ
  | .pure a, past, s => (s, past, .finished (.ok a))
  | .throw e, past, s => (s, past, .finished (.error e))
  | .await op k, past, s => (s, past, .awaiting op k)
  | .act a k, past, s =>
    let out := W.act i c a s
    W.advance i c (k out.2) (past ++ [.did a out.2]) out.1

/-- The shared state and the running calls, by call number. -/
structure Config (S : Sig) (κ ρ σ ι : Type) where
  -- The state shared by all calls.
  shared : σ
  -- The calls in progress.
  threads : AList (fun _ : ι => Thread S κ ρ)

/-- What can happen next. -/
inductive Event (κ χ η ι : Type) where
  -- A new call starts and runs to its first `await`.
  | start (i : ι) (c : κ)
  -- The operation call `i` awaits takes effect with outcome `x`.
  | settle (i : ι) (x : χ)
  -- Call `i` runs on from its `await`.
  | resume (i : ι)
  -- The environment moves.
  | env (e : η)

variable [DecidableEq ι]

/-- Continue call `i` with `code` until it stops. -/
def System.run (sys : System S ι κ ρ σ χ η) (i : ι) (c : κ) (code : Async S ρ)
    (past : List (Seen S)) (cfg : Config S κ ρ σ ι) : Config S κ ρ σ ι :=
  match sys.advance i c code past cfg.shared with
  | (s, _, .finished _) => ⟨s, cfg.threads.erase i⟩
  | (s, past', .awaiting op k) => ⟨s, cfg.threads.insert i ⟨c, past', op, k, none⟩⟩

/-- One event. Events that are not enabled have no successor. -/
def System.step (sys : System S ι κ ρ σ χ η) (cfg : Config S κ ρ σ ι) :
    Event κ χ η ι → Option (Config S κ ρ σ ι)
  | .start i c =>
    match cfg.threads.lookup i with
    | none => some (sys.run i c (sys.code c) [] cfg)
    | some _ => none
  | .settle i x =>
    match cfg.threads.lookup i with
    | some ⟨c, past, op, k, none⟩ =>
      match sys.settle i c op x cfg.shared with
      | some (s, r) => some ⟨s, cfg.threads.insert i ⟨c, past ++ [.answered op r], op, k, some r⟩⟩
      | none => none
    | _ => none
  | .resume i =>
    match cfg.threads.lookup i with
    | some ⟨c, past, _, k, some r⟩ => some (sys.run i c (k r) past cfg)
    | _ => none
  | .env e => (sys.env e cfg.shared).map fun s => ⟨s, cfg.threads⟩

/-- No call is in progress. -/
def Config.start (s : σ) : Config S κ ρ σ ι := ⟨s, ∅⟩

/-- Without call numbers in use, no call is in progress. -/
theorem lookup_of_keys {m : AList fun _ : ι => Thread S κ ρ} (h : m.keys = []) (i : ι) :
    m.lookup i = none := by
  apply AList.lookup_eq_none.mpr
  rw [AList.mem_keys, h]
  exact List.not_mem_nil

/-- After the only call has ended, none is in progress. -/
@[simp] theorem erase_insert_empty (i : ι) (th : Thread S κ ρ) :
    (AList.insert i th ∅ : AList fun _ : ι => Thread S κ ρ).erase i = ∅ := by
  apply AList.ext
  rw [AList.insert_empty]
  exact List.kerase_cons_eq rfl

/-- The calls in progress after call `i` was put in place. -/
theorem lookup_insert_iff {i j : ι} {th th' : Thread S κ ρ}
    {m : AList fun _ : ι => Thread S κ ρ} :
    (m.insert i th).lookup j = some th' ↔ (j = i ∧ th = th') ∨ (j ≠ i ∧ m.lookup j = some th') := by
  by_cases hj : j = i
  · subst hj
    simp [AList.lookup_insert]
  · simp [AList.lookup_insert_ne hj, hj]

/-- When an operation of call `i` takes effect, the other calls stay where they are. -/
theorem lookup_settle_of_ne {sys : System S ι κ ρ σ χ η} {cfg cfg' : Config S κ ρ σ ι} {i j : ι}
    {x : χ} (hs : sys.step cfg (.settle i x) = some cfg') (hji : j ≠ i) :
    cfg'.threads.lookup j = cfg.threads.lookup j := by
  simp only [System.step] at hs
  split at hs
  · split at hs
    · cases hs
      exact AList.lookup_insert_ne hji
    · cases hs
  · cases hs

/-! ## Calls one after another -/

/-- A call only starts when no other one is in progress. -/
def Sequential (cfg : Config S κ ρ σ ι) : Event κ χ η ι → Prop
  | .start _ _ => ∀ j, cfg.threads.lookup j = none
  | _ => True

/-- At most one call is in progress. -/
def Config.Solo (cfg : Config S κ ρ σ ι) : Prop :=
  ∀ i j thi thj, cfg.threads.lookup i = some thi → cfg.threads.lookup j = some thj → i = j

theorem lookup_run {sys : System S ι κ ρ σ χ η} {i j : ι} {c : κ}
    {code : Async S ρ} {past : List (Seen S)} {cfg : Config S κ ρ σ ι} {th : Thread S κ ρ}
    (h : (sys.run i c code past cfg).threads.lookup j = some th) :
    j = i ∨ cfg.threads.lookup j = some th := by
  by_cases hji : j = i
  · exact Or.inl hji
  · right
    unfold System.run at h
    split at h
    · rwa [AList.lookup_erase_ne hji] at h
    · rwa [AList.lookup_insert_ne hji] at h

/-- A call in progress after a step was in progress before, or has just started. -/
theorem running_of_step {sys : System S ι κ ρ σ χ η} {cfg cfg' : Config S κ ρ σ ι}
    {e : Event κ χ η ι} (hs : sys.step cfg e = some cfg') {j : ι} {th : Thread S κ ρ}
    (hj : cfg'.threads.lookup j = some th) :
    (∃ c, e = .start j c) ∨ ∃ th', cfg.threads.lookup j = some th' := by
  -- a start is the only step that adds a thread
  cases e with
  | start i c =>
    simp only [System.step] at hs
    split at hs
    · cases hs
      rcases lookup_run hj with rfl | hj
      · exact Or.inl ⟨c, rfl⟩
      · exact Or.inr ⟨th, hj⟩
    · cases hs
  | settle i x =>
    simp only [System.step] at hs
    split at hs
    · rename_i hl
      split at hs
      · cases hs
        by_cases hji : j = i
        · exact Or.inr ⟨_, hji ▸ hl⟩
        · rw [AList.lookup_insert_ne hji] at hj
          exact Or.inr ⟨th, hj⟩
      · cases hs
    · cases hs
  | resume i =>
    simp only [System.step] at hs
    split at hs
    · rename_i hl
      cases hs
      rcases lookup_run hj with rfl | hj
      · exact Or.inr ⟨_, hl⟩
      · exact Or.inr ⟨th, hj⟩
    · cases hs
  | env e =>
    simp only [System.step, Option.map_eq_some_iff] at hs
    obtain ⟨s', _, rfl⟩ := hs
    exact Or.inr ⟨th, hj⟩

/-- Calls that start one after another never overlap. -/
theorem solo_of_step {sys : System S ι κ ρ σ χ η} {cfg cfg' : Config S κ ρ σ ι}
    {e : Event κ χ η ι} (hsolo : cfg.Solo) (hseq : Sequential cfg e)
    (hs : sys.step cfg e = some cfg') : cfg'.Solo := by
  intro i j thi thj hi hj
  rcases running_of_step hs hi with ⟨c, rfl⟩ | ⟨thi', hi'⟩
  · rcases running_of_step hs hj with ⟨c', heq⟩ | ⟨thj', hj'⟩
    · cases heq
      rfl
    · rw [hseq j] at hj'
      cases hj'
  · rcases running_of_step hs hj with ⟨c', rfl⟩ | ⟨thj', hj'⟩
    · rw [hseq i] at hi'
      cases hi'
    · exact hsolo i j thi' thj' hi' hj'

theorem solo_start (s : σ) : (Config.start s : Config S κ ρ σ ι).Solo := by
  intro i j thi thj hi
  cases hi

end Async
