import Mathlib.Logic.Relation

/-!
# Asynchronous Functions as Request Trees

An `async` function runs synchronously from one `await` to the next. What it does is a
tree: it ends with a value or a thrown error, it performs a synchronous action and goes
on with what the action returned, or it awaits an operation and goes on with the
outcome, a value or a rejection. The tree says nothing about what operations and actions
do; that is given by a `World` (see `FleetTracking.Lib.Interleaving`).

The trees form a lawful monad with exceptions, so a source function is transcribed with
`do`, `throw` and `try … catch`.

- `Sig`: the operations and actions of a program, with their result types.
- `Async`: programs over a signature.
- `Async.perform`, `Async.action`: await one operation, perform one action.
-/

/-- The operations a program awaits, its synchronous actions, and its errors. -/
structure Sig where
  -- Awaited operations.
  Op : Type
  -- What an operation resolves with.
  Res : Op → Type
  -- Synchronous actions.
  Act : Type
  -- What an action returns.
  Ret : Act → Type
  -- What is thrown, and what a promise rejects with.
  Err : Type

/-- A program over the signature `S` that returns a value of type `α`. -/
inductive Async (S : Sig) (α : Type) : Type where
  -- The call is over and returns `a`.
  | protected pure (a : α)
  -- The call is over and throws `e`.
  | protected throw (e : S.Err)
  -- Await `op` and go on with its outcome.
  | await (op : S.Op) (k : Except S.Err (S.Res op) → Async S α)
  -- Perform `a` at once and go on with what it returns.
  | act (a : S.Act) (k : S.Ret a → Async S α)

namespace Async

variable {S : Sig} {α β γ : Type}

/-- Sequencing: `f` starts where `x` returns. -/
protected def bind : Async S α → (α → Async S β) → Async S β
  | .pure a, f => f a
  | .throw e, _ => .throw e
  | .await op k, f => .await op fun r => (k r).bind f
  | .act a k, f => .act a fun r => (k r).bind f

/-- `try x catch e => h e`. -/
def attempt : Async S α → (S.Err → Async S α) → Async S α
  | .pure a, _ => .pure a
  | .throw e, h => h e
  | .await op k, h => .await op fun r => (k r).attempt h
  | .act a k, h => .act a fun r => (k r).attempt h

instance : Monad (Async S) where
  pure := .pure
  bind := Async.bind

instance : MonadExceptOf S.Err (Async S) where
  throw := .throw
  tryCatch := attempt

/-- Await one operation; a rejection is thrown. -/
def perform (op : S.Op) : Async S (S.Res op) :=
  .await op fun
    | .ok r => .pure r
    | .error e => .throw e

/-- Perform one synchronous action. -/
def action (a : S.Act) : Async S (S.Ret a) :=
  .act a .pure

/-- A synchronous computation that may throw. -/
def ofExcept : Except S.Err α → Async S α
  | .ok a => .pure a
  | .error e => .throw e

/-! ## Equations -/

@[simp] theorem pure_bind' (a : α) (f : α → Async S β) : (Async.pure a >>= f) = f a := rfl

@[simp] theorem throw_bind (e : S.Err) (f : α → Async S β) :
    (Async.throw e >>= f) = Async.throw e := rfl

@[simp] theorem await_bind (op : S.Op) (k : Except S.Err (S.Res op) → Async S α)
    (f : α → Async S β) : (Async.await op k >>= f) = Async.await op fun r => k r >>= f := rfl

@[simp] theorem act_bind (a : S.Act) (k : S.Ret a → Async S α) (f : α → Async S β) :
    (Async.act a k >>= f) = Async.act a fun r => k r >>= f := rfl

theorem bind_pure_eq (x : Async S α) : (x >>= Async.pure) = x := by
  induction x with
  | pure a => rfl
  | throw e => rfl
  | await op k ih =>
    simp only [await_bind]
    congr 1
    funext r
    exact ih r
  | act a k ih =>
    simp only [act_bind]
    congr 1
    funext r
    exact ih r

theorem bind_assoc_eq (x : Async S α) (f : α → Async S β) (g : β → Async S γ) :
    ((x >>= f) >>= g) = (x >>= fun a => f a >>= g) := by
  induction x with
  | pure a => rfl
  | throw e => rfl
  | await op k ih =>
    simp only [await_bind]
    congr 1
    funext r
    exact ih r
  | act a k ih =>
    simp only [act_bind]
    congr 1
    funext r
    exact ih r

/-- Request trees are a lawful monad: a block can be split into helper functions. -/
instance : LawfulMonad (Async S) := LawfulMonad.mk' _
  bind_pure_eq (fun _ _ => rfl) bind_assoc_eq

end Async
