import TradingAgent.Coroutine.Shared
import TradingAgent.Core.Taxonomy

/-!
# Reliability policies

A policy wraps a function in a retry loop, a circuit breaker and a rate limiter. The parts
keep their counters in fields of the instance, which all calls of the policy share. The
awaited operations are the wrapped function (under the timeout, if there is one), the rate
limiter and the backoff.
-/

namespace TradingAgent.Tooling

open Coroutine Coro Shared

/-- What is raised: a domain error, another `Exception`, or a `BaseException` that is none,
such as `CancelledError`. -/
inductive Raised
  | domain (exc : DomainError)
  | exception (name : String)
  | interrupt (name : String)
  deriving DecidableEq, Repr

/-- The private fields of the retry policy and of the breaker. -/
structure Fields where
  attempts : ℕ := 0
  failures : ℕ := 0
  opened : Bool := false
  deriving DecidableEq, Repr

inductive Op
  | acquire
  | invoke
  | sleep (attempt : ℕ)
  deriving DecidableEq, Repr

@[reducible] def Ret (T : Type) : Op → Type
  | .acquire => Unit
  | .invoke => T
  | .sleep _ => Unit

/-- An `async` method of the policy, over a function that returns a `T`. -/
abbrev Call (T α : Type) := Shared Fields Raised (Ret T) α

/-- Await an operation. -/
abbrev perform {T : Type} (op : Op) : Call T (Ret T op) := ask op

/-- `ProviderUnavailableError("unexpected provider failure")`. -/
def unexpected : DomainError where
  cls := .providerUnavailableError
  message := "unexpected provider failure"

/-- `ProviderUnavailableError("circuit_open", provider="tooling")`. -/
def circuitOpen : DomainError where
  cls := .providerUnavailableError
  message := "circuit_open"
  provider := some "tooling"

variable {T : Type}

def succeeded : Except Raised T → Bool
  | .ok _ => true
  | _ => false

/-- A domain error. -/
def failed : Except Raised T → Bool
  | .error (.domain _) => true
  | _ => false

/-- A domain error that is retryable. -/
def transient : Except Raised T → Bool
  | .error (.domain exc) => exc.retryable
  | _ => false

structure RetryPolicy where
  retries : ℤ := 3
  deriving DecidableEq, Repr

namespace RetryPolicy

variable (retry : RetryPolicy)

/-- One round of the loop: it returns, it raises, or it backs off and another follows. -/
def round (fn : Call T T) : Call T (Option T) := do
  modify fun fields => { fields with attempts := fields.attempts + 1 }
  match ← fn.attempt with
  | .ok result => return some result
  | .error (.domain exc) =>
    let fields ← get
    if !exc.retryable || retry.retries ≤ fields.attempts then
      raise (.domain exc)
    else
      perform (.sleep fields.attempts)
      return none
  | .error (.exception _) => raise (.domain unexpected)
  | .error exc => raise exc

def run (fn : Call T T) : Loop Fields Raised (Ret T) T where
  first := do
    modify fun fields => { fields with attempts := 0 }
    retry.round fn
  body := retry.round fn

end RetryPolicy

structure CircuitBreaker where
  failureThreshold : ℤ := 5
  deriving DecidableEq, Repr

namespace CircuitBreaker

variable (breaker : CircuitBreaker)

def run (fn : Call T T) : Call T T := do
  let fields ← get
  if fields.opened then
    raise (.domain circuitOpen)
  else
    match ← fn.attempt with
    | .ok result =>
      modify fun fields => { fields with failures := 0 }
      return result
    | .error (.domain exc) =>
      modify fun fields => { fields with failures := fields.failures + 1 }
      let fields ← get
      if breaker.failureThreshold ≤ fields.failures then
        modify fun fields => { fields with opened := true }
        raise (.domain exc)
      else
        raise (.domain exc)
    | .error exc => raise exc

def reset (fields : Fields) : Fields := { fields with opened := false, failures := 0 }

end CircuitBreaker

/-- `limiter` says that there is a rate limiter. -/
structure Policy where
  retry : Option RetryPolicy := none
  breaker : Option CircuitBreaker := none
  limiter : Bool := false
  deriving DecidableEq, Repr

namespace Policy

variable (policy : Policy)

/-- `_limited`: the rate limiter, and then the guarded function. -/
def limited : Call T T := do
  if policy.limiter then
    perform .acquire
    perform .invoke
  else
    perform .invoke

/-- `_core`. -/
def core : Call T T :=
  match policy.breaker with
  | none => policy.limited
  | some breaker => breaker.run policy.limited

def run : Loop Fields Raised (Ret T) T :=
  match policy.retry with
  | none => { first := some <$> policy.core, body := some <$> policy.core }
  | some retry => retry.run policy.core

end Policy

/-! ## Callers that share an instance -/

variable {ι : Type}

abbrev Callers (T ι : Type) := Team Fields Raised (Ret T) ι T

abbrev Turns (T ι : Type) := List (Team.Visit Fields Raised (Ret T) ι T)

/-- A new instance, which has not been called. -/
def fresh : Callers T ι where
  state := {}
  calls _ := none

end TradingAgent.Tooling
