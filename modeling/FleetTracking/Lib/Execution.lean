import FleetTracking.Lib.Interleaving

/-!
# Calls Run to Completion

`World.exec` runs one call from its start to its end with nothing in between. The outcomes
of its operations are taken from a stream, one after the other, so a failure at any point
of the call is a choice of the stream.

## Main results

- `exec_bind`, `exec_perform`, `exec_attempt`, …: how the execution of a call is put together
  from its parts.
- `exists_run_of_exec`: such an execution is a run of the interleaved system.
- `exists_run_of_calls`: so is a sequence of calls, each run to completion.
-/

namespace Async

open Transition

variable {S : Sig} {ι κ ρ σ χ η α β : Type}

/-- Run a call to completion: its `n`-th operation from here on has the outcome `ω n`. The
result comes with the number of the next outcome and the state reached. -/
def World.exec (W : World S ι κ σ χ) (i : ι) (c : κ) (ω : Nat → χ) :
    Async S α → Nat → σ → Option (Except S.Err α × Nat × σ)
  | .pure a, n, s => some (.ok a, n, s)
  | .throw e, n, s => some (.error e, n, s)
  | .await op k, n, s =>
    (W.settle i c op (ω n) s).bind fun out => W.exec i c ω (k out.2) (n + 1) out.1
  | .act a k, n, s =>
    let out := W.act i c a s
    W.exec i c ω (k out.2) n out.1

/-! ## Rules -/

section Rules

variable (W : World S ι κ σ χ) (i : ι) (c : κ) (ω : Nat → χ)

@[simp] theorem exec_pure (a : α) (n : Nat) (s : σ) :
    W.exec i c ω (Pure.pure a : Async S α) n s = some (.ok a, n, s) := rfl

@[simp] theorem exec_throw (e : S.Err) (n : Nat) (s : σ) :
    W.exec i c ω (MonadExcept.throw e : Async S α) n s = some (.error e, n, s) := rfl

/-- What comes after a computation that has ended. -/
def World.andThen (f : α → Async S β) :
    Except S.Err α × Nat × σ → Option (Except S.Err β × Nat × σ)
  | (.ok a, n, s) => W.exec i c ω (f a) n s
  | (.error e, n, s) => some (.error e, n, s)

/-- The handler `h` after a computation that has ended. -/
def World.orElse (h : S.Err → Async S α) :
    Except S.Err α × Nat × σ → Option (Except S.Err α × Nat × σ)
  | (.ok a, n, s) => some (.ok a, n, s)
  | (.error e, n, s) => W.exec i c ω (h e) n s

theorem exec_bind (x : Async S α) (f : α → Async S β) (n : Nat) (s : σ) :
    W.exec i c ω (x >>= f) n s = (W.exec i c ω x n s).bind (W.andThen i c ω f) := by
  induction x generalizing n s with
  | pure a => rfl
  | throw e => rfl
  | await op k ih =>
    simp only [await_bind, World.exec, Option.bind_assoc]
    congr 1
    funext out
    exact ih _ _ _
  | act a k ih =>
    simp only [act_bind, World.exec]
    exact ih _ _ _

theorem exec_attempt (x : Async S α) (h : S.Err → Async S α) (n : Nat) (s : σ) :
    W.exec i c ω (tryCatchThe S.Err x h) n s =
      (W.exec i c ω x n s).bind (W.orElse i c ω h) := by
  induction x generalizing n s with
  | pure a => rfl
  | throw e => rfl
  | await op k ih =>
    show W.exec i c ω (.await op fun r => tryCatchThe S.Err (k r) h) n s = _
    simp only [World.exec, Option.bind_assoc]
    congr 1
    funext out
    exact ih _ _ _
  | act a k ih =>
    show W.exec i c ω (.act a fun r => tryCatchThe S.Err (k r) h) n s = _
    simp only [World.exec]
    exact ih _ _ _

section Steps

variable {W i c ω}

/-- What follows a computation that returned. -/
theorem exec_bind_of_ok {x : Async S α} {f : α → Async S β} {n n' : Nat} {s s' : σ} {a : α}
    (hx : W.exec i c ω x n s = some (.ok a, n', s')) :
    W.exec i c ω (x >>= f) n s = W.exec i c ω (f a) n' s' := by
  rw [exec_bind, hx]
  rfl

/-- A handler is not run when its body returns. -/
theorem exec_attempt_of_ok {x : Async S α} {h : S.Err → Async S α} {n n' : Nat} {s s' : σ} {a : α}
    (hx : W.exec i c ω x n s = some (.ok a, n', s')) :
    W.exec i c ω (tryCatchThe S.Err x h) n s = some (.ok a, n', s') := by
  rw [exec_attempt, hx]
  rfl

end Steps

/-- Await one operation. -/
theorem exec_perform (op : S.Op) (n : Nat) (s : σ) :
    W.exec i c ω (perform op) n s =
      (W.settle i c op (ω n) s).map fun out => (out.2, n + 1, out.1) := by
  rw [perform, World.exec, Option.map_eq_bind]
  congr 1
  funext out
  obtain ⟨s', r⟩ := out
  cases r with
  | ok a => rfl
  | error e => rfl

/-- Perform one action. -/
@[simp] theorem exec_action (a : S.Act) (n : Nat) (s : σ) :
    W.exec i c ω (action a) n s = some (.ok (W.act i c a s).2, n, (W.act i c a s).1) := rfl

@[simp] theorem exec_ofExcept (x : Except S.Err α) (n : Nat) (s : σ) :
    W.exec i c ω (ofExcept x) n s = some (x, n, s) := by
  cases x with
  | ok a => rfl
  | error e => rfl

/-- Where every operation can settle, every call comes to an end. -/
theorem exists_exec (htotal : ∀ op x s, ∃ out, W.settle i c op x s = some out) (x : Async S α)
    (n : Nat) (s : σ) : ∃ out, W.exec i c ω x n s = some out := by
  induction x generalizing n s with
  | pure a => exact ⟨_, rfl⟩
  | throw e => exact ⟨_, rfl⟩
  | await op k ih =>
    obtain ⟨out, hout⟩ := htotal op (ω n) s
    simp only [World.exec, hout]
    exact ih _ _ _
  | act a k ih => exact ih _ _ _

end Rules

/-! ## Executions are runs -/

section Runs

variable [DecidableEq ι] {sys : System S ι κ ρ σ χ η}
  {ok : Config S κ ρ σ ι → Event κ χ η ι → Prop} {i : ι} {c : κ} {ω : Nat → χ}

/-- The configurations in which at most call `i` is in progress. -/
def AtMost (i : ι) (m : AList fun _ : ι => Thread S κ ρ) : Prop :=
  m.erase i = ∅ ∧ ∀ th, m.insert i th = (∅ : AList fun _ : ι => Thread S κ ρ).insert i th

theorem atMost_empty (i : ι) : AtMost i (∅ : AList fun _ : ι => Thread S κ ρ) := by
  refine ⟨?_, fun th => rfl⟩
  apply AList.ext
  rfl

theorem atMost_insert {m : AList fun _ : ι => Thread S κ ρ} (h : AtMost i m)
    (th : Thread S κ ρ) : AtMost i (m.insert i th) := by
  rw [h.2 th]
  refine ⟨erase_insert_empty i th, fun th' => ?_⟩
  rw [AList.insert_insert]

/-- The events of a call that is alone: its operations take effect, and it goes on. -/
private theorem run_of_exec
    (hok : ∀ cfg n, ok cfg (.settle i (ω n)) ∧ ok cfg (.resume i)) (code : Async S ρ)
    (past : List (Seen S)) (n n' : Nat) (s s' : σ) (r : Except S.Err ρ)
    (m : AList fun _ : ι => Thread S κ ρ) (hm : AtMost i m)
    (h : sys.exec i c ω code n s = some (r, n', s')) :
    ∃ es, Run sys.step ok (sys.run i c code past ⟨s, m⟩) es (Config.start s') := by
  induction code generalizing past n s m with
  | pure a =>
    cases h
    refine ⟨[], ?_⟩
    simp only [System.run, World.advance, hm.1]
    exact .nil
  | throw e =>
    cases h
    refine ⟨[], ?_⟩
    simp only [System.run, World.advance, hm.1]
    exact .nil
  | await op k ih =>
    obtain ⟨out, hset, hrest⟩ := Option.bind_eq_some_iff.mp h
    -- the call awaiting `op`, before and after the operation has taken effect
    let waiting : Thread S κ ρ := ⟨c, past, op, k, none⟩
    let answered : Thread S κ ρ :=
      ⟨c, past ++ [.answered op out.2], op, k, some out.2⟩
    have hsettle : sys.step (sys.run i c (.await op k) past ⟨s, m⟩) (.settle i (ω n)) =
        some ⟨out.1, (m.insert i waiting).insert i answered⟩ := by
      simp only [System.step, System.run, World.advance, AList.lookup_insert, hset]
      rfl
    have hresume : sys.step ⟨out.1, (m.insert i waiting).insert i answered⟩ (.resume i) =
        some (sys.run i c (k out.2) (past ++ [.answered op out.2])
          ⟨out.1, (m.insert i waiting).insert i answered⟩) := by
      simp only [System.step, AList.lookup_insert, answered]
    obtain ⟨es, hrun⟩ := ih out.2 (past ++ [.answered op out.2]) (n + 1) out.1 _
      (atMost_insert (atMost_insert hm waiting) answered) hrest
    exact ⟨.settle i (ω n) :: .resume i :: es,
      .cons (hok _ n).1 hsettle (.cons (hok _ n).2 hresume hrun)⟩
  | act a k ih =>
    obtain ⟨es, hrun⟩ := ih (sys.act i c a s).2 (past ++ [.did a (sys.act i c a s).2]) n
      (sys.act i c a s).1 m hm h
    exact ⟨es, hrun⟩

/-- **An execution is a run**: started where no call is in progress, a call that runs to
completion leads to where again none is. -/
theorem exists_run_of_exec {s s' : σ} {r : Except S.Err ρ} {n : Nat}
    (hstart : ok (Config.start s) (.start i c))
    (hok : ∀ cfg n, ok cfg (.settle i (ω n)) ∧ ok cfg (.resume i))
    (h : sys.exec i c ω (sys.code c) 0 s = some (r, n, s')) :
    ∃ es, Run sys.step ok (Config.start s) es (Config.start s') := by
  obtain ⟨es, hrun⟩ := run_of_exec hok (sys.code c) [] 0 n s s' r ∅ (atMost_empty i) h
  exact ⟨.start i c :: es, .cons hstart rfl hrun⟩

/-- A sequence of calls, each run to completion; `none` if an operation is not possible. -/
def System.calls (sys : System S ι κ ρ σ χ η) (i : ι) : List (κ × (Nat → χ)) → σ → Option σ
  | [], s => some s
  | (c, ω) :: rest, s =>
    (sys.exec i c ω (sys.code c) 0 s).bind fun out => sys.calls i rest out.2.2

/-- A sequence of calls is a run. -/
theorem exists_run_of_calls {l : List (κ × (Nat → χ))} {s s' : σ}
    (hstart : ∀ s, ∀ x ∈ l, ok (Config.start s) (.start i x.1))
    (hok : ∀ x ∈ l, ∀ cfg n, ok cfg (.settle i (x.2 n)) ∧ ok cfg (.resume i))
    (h : sys.calls i l s = some s') :
    ∃ es, Run sys.step ok (Config.start s) es (Config.start s') := by
  induction l generalizing s with
  | nil =>
    cases h
    exact ⟨[], .nil⟩
  | cons x rest ih =>
    obtain ⟨⟨r, n, s₁⟩, hexec, hrest⟩ := Option.bind_eq_some_iff.mp h
    obtain ⟨es, hrun⟩ := exists_run_of_exec (hstart s x List.mem_cons_self)
      (hok x List.mem_cons_self) hexec
    obtain ⟨es', hrun'⟩ := ih (fun s y hy => hstart s y (List.mem_cons_of_mem _ hy))
      (fun y hy => hok y (List.mem_cons_of_mem _ hy)) hrest
    exact ⟨es ++ es', hrun.append hrun'⟩

end Runs

end Async
