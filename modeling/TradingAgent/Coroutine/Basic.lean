import Mathlib.Logic.Function.Basic

/-!
# Coroutines

A coroutine computes until it awaits an operation, and goes on with the answer. The
answer is a value or a raised exception, so that a caller of an awaited operation can
catch what the operation raises. Between two awaited operations a coroutine runs without
interruption: this is the granularity at which coroutines interleave.

The signature is a type `Op` of operations and the type `Ret op` of the values that
answer `op`; `ε` is the type of exceptions.
-/

namespace Coroutine

/-- What is left to run of a coroutine: a returned value, a raised exception, or an
awaited operation and what is done with its answer. -/
inductive Coro (ε : Type) {Op : Type} (Ret : Op → Type) (α : Type) : Type
  | ret (a : α)
  | raise (e : ε)
  | await (op : Op) (resume : Except ε (Ret op) → Coro ε Ret α)

namespace Coro

variable {ε Op : Type} {Ret : Op → Type} {α β γ : Type}

/-- The coroutine that has only to hand over `x`. -/
def ofExcept : Except ε α → Coro ε Ret α
  | .ok a => ret a
  | .error e => raise e

/-- Await one operation; what it raises propagates. -/
def call (op : Op) : Coro ε Ret (Ret op) := await op ofExcept

def bind : Coro ε Ret α → (α → Coro ε Ret β) → Coro ε Ret β
  | ret a, f => f a
  | raise e, _ => raise e
  | await op resume, f => await op fun r => (resume r).bind f

/-- Run a coroutine and keep what it raises as a value: the body of a `try` block. -/
def attempt : Coro ε Ret α → Coro ε Ret (Except ε α)
  | ret a => ret (.ok a)
  | raise e => ret (.error e)
  | await op resume => await op fun r => (resume r).attempt

instance : Monad (Coro ε Ret) where
  pure := ret
  bind := bind

@[simp] theorem pure_eq (a : α) : (pure a : Coro ε Ret α) = ret a := rfl

@[simp] theorem ret_bind (a : α) (f : α → Coro ε Ret β) : ret a >>= f = f a := rfl

@[simp] theorem raise_bind (e : ε) (f : α → Coro ε Ret β) : raise e >>= f = raise e := rfl

@[simp] theorem await_bind (op : Op) (resume : Except ε (Ret op) → Coro ε Ret α)
    (f : α → Coro ε Ret β) : await op resume >>= f = await op fun r => resume r >>= f := rfl

@[simp] theorem ofExcept_ok (a : α) : (ofExcept (.ok a) : Coro ε Ret α) = ret a := rfl

@[simp] theorem ofExcept_error (e : ε) : (ofExcept (.error e) : Coro ε Ret α) = raise e := rfl

@[simp] theorem attempt_ret (a : α) : (ret a : Coro ε Ret α).attempt = ret (.ok a) := rfl

@[simp] theorem attempt_raise (e : ε) :
    (raise e : Coro ε Ret α).attempt = ret (.error e) := rfl

@[simp] theorem attempt_await (op : Op) (resume : Except ε (Ret op) → Coro ε Ret α) :
    (await op resume).attempt = await op fun r => (resume r).attempt := rfl

theorem bind_ret (m : Coro ε Ret α) : m >>= ret = m := by
  induction m with
  | ret a => rfl
  | raise e => rfl
  | await op resume ih => exact congrArg (await op) (funext ih)

theorem bind_assoc (m : Coro ε Ret α) (f : α → Coro ε Ret β) (g : β → Coro ε Ret γ) :
    m >>= f >>= g = m >>= fun a => f a >>= g := by
  induction m with
  | ret a => rfl
  | raise e => rfl
  | await op resume ih => exact congrArg (await op) (funext ih)

instance : LawfulMonad (Coro ε Ret) :=
  LawfulMonad.mk' (Coro ε Ret) bind_ret (fun _ _ => rfl) bind_assoc

/-- The operation that a coroutine is waiting for. -/
def pending : Coro ε Ret α → Option Op
  | await op _ => some op
  | _ => none

@[simp] theorem pending_ret (a : α) : (ret a : Coro ε Ret α).pending = none := rfl

@[simp] theorem pending_raise (e : ε) : (raise e : Coro ε Ret α).pending = none := rfl

@[simp] theorem pending_await (op : Op) (resume : Except ε (Ret op) → Coro ε Ret α) :
    (await op resume).pending = some op := rfl

end Coro

end Coroutine
