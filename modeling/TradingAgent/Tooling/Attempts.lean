import TradingAgent.Tooling.Policy

/-!
# Attempts of a call that runs alone

A call of a policy with a retry policy and a breaker makes its attempts one after another.
`Attempted` is what one attempt can do to the counters and to the list of answers of the
wrapped function, and `Rounded` what the retry loop makes of the outcome of an attempt;
`core_cases` and `round_cases` say that there is nothing else. `outside` says how the wrapped
function may answer and how a wait may end; no wait raises a domain error.
-/

namespace TradingAgent.Tooling

open Coroutine Coro Shared

variable {T : Type}

/-- The outside of a call. The answers of the wrapped function are kept. -/
def outside (answers : Except Raised T → Prop) (waits : Except Raised Unit → Prop) :
    Environment (List (Except Raised T)) Raised (Ret T)
  | made, .invoke, r, made' => answers r ∧ made' = made ++ [r]
  | made, .acquire, r, made' => waits r ∧ made' = made
  | made, .sleep _, r, made' => waits r ∧ made' = made

/-- A wait ends, or it is interrupted; it does not raise a domain error. -/
def Waits (r : Except Raised Unit) : Prop := ∀ exc, r ≠ .error (.domain exc)

/-- A failure that the breaker counts. -/
def CircuitBreaker.count (breaker : CircuitBreaker) (fields : Fields) : Fields :=
  { fields with
    failures := fields.failures + 1
    opened := fields.opened || decide (breaker.failureThreshold ≤ (fields.failures + 1 : ℕ)) }

/-- What an attempt through the breaker can do: the answers of the wrapped function, the
outcome, and the counters after it. -/
inductive Attempted (answers : Except Raised T → Prop) (waits : Except Raised Unit → Prop)
    (breaker : CircuitBreaker) (f : Fields) :
    List (Except Raised T) → Except Raised T → Fields → Prop
  | rejected (hOpen : f.opened = true) :
    Attempted answers waits breaker f [] (.error (.domain circuitOpen)) f
  | interrupted (e : Raised) (hWait : waits (.error e)) (hClosed : f.opened = false) :
    Attempted answers waits breaker f [] (.error e) f
  | returned (result : T) (hAnswer : answers (.ok result)) (hClosed : f.opened = false) :
    Attempted answers waits breaker f [.ok result] (.ok result) { f with failures := 0 }
  | failed (exc : DomainError) (hAnswer : answers (.error (.domain exc)))
      (hClosed : f.opened = false) :
    Attempted answers waits breaker f [.error (.domain exc)] (.error (.domain exc))
      (breaker.count f)
  | broke (e : Raised) (hAnswer : answers (.error e)) (hOther : ∀ exc, e ≠ .domain exc)
      (hClosed : f.opened = false) :
    Attempted answers waits breaker f [.error e] (.error e) f

variable {answers : Except Raised T → Prop} {waits : Except Raised Unit → Prop}
  {policy : Policy} {retry : RetryPolicy} {breaker : CircuitBreaker} {f f' : Fields}
  {made : List (Except Raised T)}

theorem Attempted.attempts_eq {ended : Except Raised T}
    (h : Attempted answers waits breaker f made ended f') : f'.attempts = f.attempts := by
  cases h <;> rfl

/-- The wrapped function is invoked at most once, and its answer is the outcome. -/
theorem Attempted.made_eq {ended : Except Raised T}
    (h : Attempted answers waits breaker f made ended f') : made = [] ∨ made = [ended] := by
  cases h with
  | rejected => exact .inl rfl
  | interrupted => exact .inl rfl
  | returned => exact .inr rfl
  | failed => exact .inr rfl
  | broke => exact .inr rfl

/-- The limited function is interrupted in the limiter, or it is invoked. -/
theorem limited_cases {out : Except Raised T} {w : Fields × List (Except Raised T)}
    (h : Runs (alone (outside answers waits)) (f, made) policy.limited out w) :
    (∃ e, waits (.error e) ∧ out = .error e ∧ w = (f, made)) ∨
      answers out ∧ w = (f, made ++ [out]) := by
  have hInvoked {w : Fields × List (Except Raised T)}
      (h : Runs (alone (outside answers waits)) (f, made) (perform .invoke : Call T T) out w) :
      answers out ∧ w = (f, made ++ [out]) := by
    obtain ⟨made', ⟨hAnswer, rfl⟩, rfl⟩ := runs_ask.mp h
    exact ⟨hAnswer, rfl⟩
  unfold Policy.limited at h
  split at h
  · rcases Runs.bind_iff.mp h with ⟨u, v, hAcquire, hInvoke⟩ | ⟨e, hAcquire, rfl⟩
    · obtain ⟨made', ⟨-, rfl⟩, rfl⟩ := runs_ask.mp hAcquire
      exact .inr (hInvoked hInvoke)
    · obtain ⟨made', ⟨hWait, rfl⟩, rfl⟩ := runs_ask.mp hAcquire
      exact .inl ⟨e, hWait, rfl, rfl⟩
  · exact .inr (hInvoked h)

/-- What a failure does, by the code. -/
theorem runs_count {exc : DomainError} {out : Except Raised T}
    {w : Fields × List (Except Raised T)}
    (h : Runs (alone (outside answers waits)) (f, made)
      (do
        modify fun fields => { fields with failures := fields.failures + 1 }
        let fields ← get
        if breaker.failureThreshold ≤ fields.failures then
          modify fun fields => { fields with opened := true }
          raise (.domain exc)
        else
          raise (.domain exc) : Call T T) out w) :
    out = .error (.domain exc) ∧ w = (breaker.count f, made) := by
  rw [runs_modify_bind, runs_get_bind] at h
  split at h
  · next hReached =>
    rw [runs_modify_bind, Runs.raise_iff] at h
    obtain ⟨rfl, rfl⟩ := h
    refine ⟨rfl, ?_⟩
    simp only [CircuitBreaker.count, decide_eq_true hReached, Bool.or_true]
  · next hBelow =>
    obtain ⟨rfl, rfl⟩ := Runs.raise_iff.mp h
    refine ⟨rfl, ?_⟩
    simp only [CircuitBreaker.count, decide_eq_false hBelow, Bool.or_false]

/-- **The cases of an attempt.** -/
theorem core_cases (hWaits : ∀ r, waits r → Waits r) (hBreaker : policy.breaker = some breaker)
    {out : Except Raised T} {w : Fields × List (Except Raised T)}
    (h : Runs (alone (outside answers waits)) (f, made) policy.core out w) :
    ∃ more, w.2 = made ++ more ∧ Attempted answers waits breaker f more out w.1 := by
  unfold Policy.core at h
  rw [hBreaker] at h
  simp only [CircuitBreaker.run, runs_get_bind] at h
  by_cases hOpen : f.opened = true
  · rw [if_pos hOpen] at h
    obtain ⟨rfl, rfl⟩ := Runs.raise_iff.mp h
    exact ⟨[], (List.append_nil made).symm, .rejected hOpen⟩
  · rw [if_neg hOpen] at h
    have hClosed : f.opened = false := by simpa using hOpen
    rcases Runs.bind_iff.mp h with ⟨ended, v, hAttempt, hRest⟩ | ⟨e, hAttempt, -⟩
    · obtain ⟨ended', hLimited, hEnded⟩ := Runs.attempt_iff.mp hAttempt
      cases hEnded
      rcases limited_cases hLimited with ⟨e, hWait, rfl, rfl⟩ | ⟨hAnswer, rfl⟩
      · -- Interrupted in the limiter.
        refine ⟨[], ?_⟩
        cases e with
        | domain exc => exact absurd rfl (hWaits _ hWait exc)
        | exception name =>
          obtain ⟨rfl, rfl⟩ := Runs.raise_iff.mp hRest
          exact ⟨(List.append_nil made).symm, .interrupted _ hWait hClosed⟩
        | interrupt name =>
          obtain ⟨rfl, rfl⟩ := Runs.raise_iff.mp hRest
          exact ⟨(List.append_nil made).symm, .interrupted _ hWait hClosed⟩
      · refine ⟨[ended], ?_⟩
        cases ended with
        | ok result =>
          dsimp only at hRest
          rw [runs_modify_bind] at hRest
          obtain ⟨rfl, rfl⟩ := Runs.ret_iff.mp hRest
          exact ⟨rfl, .returned result hAnswer hClosed⟩
        | error e =>
          cases e with
          | domain exc =>
            obtain ⟨rfl, rfl⟩ := runs_count hRest
            exact ⟨rfl, .failed exc hAnswer hClosed⟩
          | exception name =>
            obtain ⟨rfl, rfl⟩ := Runs.raise_iff.mp hRest
            exact ⟨rfl, .broke _ hAnswer (fun _ hDomain => by cases hDomain) hClosed⟩
          | interrupt name =>
            obtain ⟨rfl, rfl⟩ := Runs.raise_iff.mp hRest
            exact ⟨rfl, .broke _ hAnswer (fun _ hDomain => by cases hDomain) hClosed⟩
    · obtain ⟨ended', -, hEnded⟩ := Runs.attempt_iff.mp hAttempt
      cases hEnded

/-- What the retry loop makes of the outcome of an attempt, after so many attempts: it ends
the call, or the call is interrupted in the backoff, or another round follows. -/
inductive Rounded (waits : Except Raised Unit → Prop) (retry : RetryPolicy) (attempts : ℕ) :
    Except Raised T → Except Raised (Option T) → Prop
  | returned (result : T) : Rounded waits retry attempts (.ok result) (.ok (some result))
  | raised (exc : DomainError) (hLast : exc.retryable = true → retry.retries ≤ attempts) :
    Rounded waits retry attempts (.error (.domain exc)) (.error (.domain exc))
  | interrupted (exc : DomainError) (hRetryable : exc.retryable = true)
      (hMore : (attempts : ℤ) < retry.retries) (e : Raised) (hWait : waits (.error e)) :
    Rounded waits retry attempts (.error (.domain exc)) (.error e)
  | again (exc : DomainError) (hRetryable : exc.retryable = true)
      (hMore : (attempts : ℤ) < retry.retries) :
    Rounded waits retry attempts (.error (.domain exc)) (.ok none)
  | unexpected (name : String) :
    Rounded waits retry attempts (.error (.exception name)) (.error (.domain unexpected))
  | broke (name : String) :
    Rounded waits retry attempts (.error (.interrupt name)) (.error (.interrupt name))

/-- **The cases of a round.** -/
theorem round_cases (hWaits : ∀ r, waits r → Waits r) (hBreaker : policy.breaker = some breaker)
    {out : Except Raised (Option T)} {w : Fields × List (Except Raised T)}
    (h : Runs (alone (outside answers waits)) (f, made) (retry.round policy.core) out w) :
    ∃ more ended, w.2 = made ++ more ∧ w.1.attempts = f.attempts + 1 ∧
      Attempted answers waits breaker { f with attempts := f.attempts + 1 } more ended w.1 ∧
      Rounded waits retry (f.attempts + 1) ended out := by
  unfold RetryPolicy.round at h
  rw [runs_modify_bind] at h
  rcases Runs.bind_iff.mp h with ⟨ended, v, hAttempt, hRest⟩ | ⟨e, hAttempt, -⟩
  · obtain ⟨ended', hCore, hEnded⟩ := Runs.attempt_iff.mp hAttempt
    cases hEnded
    obtain ⟨more, hMore, hAttempted⟩ := core_cases hWaits hBreaker hCore
    have hCount : v.1.attempts = f.attempts + 1 := hAttempted.attempts_eq
    obtain ⟨g, made'⟩ := v
    refine ⟨more, ended, ?_⟩
    match ended, hRest, hAttempted with
    | .ok result, hRest, hAttempted =>
      obtain ⟨rfl, rfl⟩ := Runs.ret_iff.mp hRest
      exact ⟨hMore, hCount, hAttempted, .returned result⟩
    | .error (.domain exc), hRest, hAttempted =>
      dsimp only at hRest
      rw [runs_get_bind] at hRest
      split at hRest
      · next hLast =>
        obtain ⟨rfl, rfl⟩ := Runs.raise_iff.mp hRest
        refine ⟨hMore, hCount, hAttempted, .raised exc fun hRetryable => ?_⟩
        rw [hRetryable] at hLast
        rw [← hCount]
        simpa using hLast
      · next hGo =>
        have hRetryable : exc.retryable = true := by
          by_contra hNot
          exact hGo (by simp [hNot])
        have hBelow : ((f.attempts + 1 : ℕ) : ℤ) < retry.retries := by
          rw [← hCount]
          by_contra hNot
          exact hGo (by simp [not_lt.mp hNot])
        rcases Runs.bind_iff.mp hRest with ⟨u, v, hSleep, hAgain⟩ | ⟨e, hSleep, rfl⟩
        · obtain ⟨made'', ⟨-, rfl⟩, rfl⟩ := runs_ask.mp hSleep
          obtain ⟨rfl, rfl⟩ := Runs.ret_iff.mp hAgain
          exact ⟨hMore, hCount, hAttempted, .again exc hRetryable hBelow⟩
        · obtain ⟨made'', ⟨hWait, rfl⟩, rfl⟩ := runs_ask.mp hSleep
          exact ⟨hMore, hCount, hAttempted, .interrupted exc hRetryable hBelow e hWait⟩
    | .error (.exception name), hRest, hAttempted =>
      obtain ⟨rfl, rfl⟩ := Runs.raise_iff.mp hRest
      exact ⟨hMore, hCount, hAttempted, .unexpected name⟩
    | .error (.interrupt name), hRest, hAttempted =>
      obtain ⟨rfl, rfl⟩ := Runs.raise_iff.mp hRest
      exact ⟨hMore, hCount, hAttempted, .broke name⟩
  · obtain ⟨ended', -, hEnded⟩ := Runs.attempt_iff.mp hAttempt
    cases hEnded

theorem run_eq (hRetry : policy.retry = some retry) :
    policy.run (T := T) = retry.run policy.core := by
  unfold Policy.run
  rw [hRetry]

/-- A call starts its rounds with a counter of zero. -/
theorem first_round_iff {τ : Type} {E : Environment τ Raised (Ret T)} {t : τ}
    (hRetry : policy.retry = some retry) {ended : Except Raised (Option T)} {w : Fields × τ} :
    Runs (alone E) (f, t) policy.run.first ended w ↔
      Runs (alone E) ({ f with attempts := 0 }, t) (retry.round policy.core) ended w := by
  rw [run_eq hRetry]
  exact runs_modify_bind

theorem retry_rounds_iff {τ : Type} {E : Environment τ Raised (Ret T)} {t : τ}
    (hRetry : policy.retry = some retry) {out : Except Raised T} {w : Fields × τ} :
    LoopRuns E policy.run (f, t) policy.run.first out w ↔
      LoopRuns E (retry.run policy.core) ({ f with attempts := 0 }, t) (retry.round policy.core)
        out w := by
  have hFirst {ended : Except Raised (Option T)} {w : Fields × τ} :
      Runs (alone E) (f, t) policy.run.first ended w ↔
        Runs (alone E) ({ f with attempts := 0 }, t) (retry.round policy.core) ended w :=
    first_round_iff hRetry
  rw [run_eq hRetry] at hFirst ⊢
  constructor
  · intro h
    generalize hStart : (retry.run policy.core).first = m at h
    rw [hStart] at hFirst
    cases h with
    | returned hRuns => exact .returned (hFirst.mp hRuns)
    | raised hRuns => exact .raised (hFirst.mp hRuns)
    | again hRuns hRest => exact .again (hFirst.mp hRuns) hRest
  · intro h
    cases h with
    | returned hRuns => exact .returned (hFirst.mpr hRuns)
    | raised hRuns => exact .raised (hFirst.mpr hRuns)
    | again hRuns hRest => exact .again (hFirst.mpr hRuns) hRest

/-- The wrapped function always answers the same, and a wait is over. -/
def always (r : Except Raised T) (made : List (Except Raised T)) :
    (op : Op) → Except Raised (Ret T op) × List (Except Raised T)
  | .acquire => (.ok (), made)
  | .invoke => (r, made ++ [r])
  | .sleep _ => (.ok (), made)

/-- Every call ends. -/
theorem run_ends (hWaits : ∀ r, waits r → Waits r) (hRetry : policy.retry = some retry)
    (hBreaker : policy.breaker = some breaker)
    {answer : List (Except Raised T) → (op : Op) →
      Except Raised (Ret T op) × List (Except Raised T)}
    (hAnswer : ∀ made op, outside answers waits made op (answer made op).1 (answer made op).2)
    (f : Fields) :
    ∃ (out : Except Raised T) (w : Fields × List (Except Raised T)),
      LoopRuns (outside answers waits) policy.run (f, []) policy.run.first out w := by
  rw [run_eq hRetry]
  refine LoopRuns.total hAnswer (fun w => (retry.retries - w.1.attempts).toNat) ?_ _ _
  intro w w' hRuns
  obtain ⟨more, ended, -, hCount, -, hRounded⟩ := round_cases hWaits hBreaker hRuns
  show (retry.retries - w'.1.attempts).toNat < (retry.retries - w.1.attempts).toNat
  cases hRounded with
  | again exc hRetryable hMore => omega

end TradingAgent.Tooling
