import TradingAgent.Tooling.Scripted

/-!
# Attempts that time out

`asyncio.wait_for` raises `TimeoutError`, which is no domain error: the breaker does not count
it, and the retry loop makes `ProviderUnavailableError` of it and raises that at once. A call
behaves as if a timeout were a `ProviderTimeoutError`, which is counted and retried, exactly if it
gets to no attempt that times out (`timeouts_iff`).
-/

namespace TradingAgent.Tooling

open Coroutine Coro Shared

section

variable {T : Type}

/-- How long the wrapped function takes for an attempt, and how it ends. -/
structure Attempt (T : Type) where
  duration : ℚ
  ended : Except DomainError T

/-- The attempt exceeds the timeout. A timeout of zero is none. -/
def Attempt.exceeds (timeoutSec : Option ℚ) (attempt : Attempt T) : Bool :=
  match timeoutSec with
  | some limit => limit ≠ 0 && limit < attempt.duration
  | none => false

/-- `_guarded`. -/
def guarded (timeoutSec : Option ℚ) (attempt : Attempt T) : Except Raised T :=
  if attempt.exceeds timeoutSec then .error (.exception "TimeoutError")
  else attempt.ended.mapError .domain

/-- `ProviderTimeoutError(message, provider=provider)`. -/
def providerTimeout (message : String) (provider : Option String) : DomainError where
  cls := .providerTimeoutError
  message := message
  provider := provider

/-- The attempt, with a timeout that is reported as a failure of the provider. -/
def reported (timeoutSec : Option ℚ) (message : String) (provider : Option String)
    (attempt : Attempt T) : Except Raised T :=
  if attempt.exceeds timeoutSec then .error (.domain (providerTimeout message provider))
  else attempt.ended.mapError .domain

/-- The runs of a call are those of a call whose timeouts are reported. -/
def AsReported (policy : Policy) (timeoutSec : Option ℚ) (message : String)
    (provider : Option String) (attempts : ℕ → Attempt T) (f : Fields) : Prop :=
  ∀ out w, LoopRuns (scripted fun n => guarded timeoutSec (attempts n)) policy.run (f, [])
      policy.run.first out w ↔
    LoopRuns (scripted fun n => reported timeoutSec message provider (attempts n)) policy.run
      (f, []) policy.run.first out w

variable {policy : Policy} {retry : RetryPolicy} {breaker : CircuitBreaker} {f : Fields}
  {answers answers' : ℕ → Except Raised T}

/-! ## Scripts that agree -/

/-- Scripts that agree as far as the call gets with the first. -/
def Agree (retry : RetryPolicy) (breaker : CircuitBreaker) (f : Fields)
    (answers answers' : ℕ → Except Raised T) : Prop :=
  ∀ n, Reaches retry breaker f answers n → answers n = answers' n

theorem Agree.reaches_iff (h : Agree retry breaker f answers answers') (n : ℕ) :
    Reaches retry breaker f answers n ↔ Reaches retry breaker f answers' n := by
  constructor
  · intro hReaches
    refine ⟨hReaches.closed, fun i hi => ?_, hReaches.within⟩
    rw [← h i (hReaches.of_le hi.le)]
    exact hReaches.failed i hi
  · intro hReaches
    induction n with
    | zero => exact ⟨hReaches.closed, fun i hi => absurd hi (Nat.not_lt_zero i), .inl rfl⟩
    | succ n ih =>
      have hEarlier := ih hReaches.of_succ
      refine ⟨hReaches.closed, fun i hi => ?_, hReaches.within⟩
      rw [h i (hEarlier.of_le (by omega))]
      exact hReaches.failed i hi

theorem roundOf_rejected {w : Fields × List Op} (hOpen : w.1.opened = true) :
    policy.roundOf retry breaker answers w =
      retry.rounded w.1.next w.2 (.error (.domain circuitOpen)) := by
  rw [Policy.roundOf, if_pos hOpen]

/-- The retry loop leaves the fields as they are after an attempt. -/
theorem rounded_fields {fields : Fields} {ops : List Op} {ended : Except Raised T}
    {out : Except Raised (Option T)} {w : Fields × List Op}
    (h : retry.rounded fields ops ended = (out, w)) : w.1 = fields := by
  match ended, h with
  | .ok result, h => cases h; rfl
  | .error (.exception name), h => cases h; rfl
  | .error (.interrupt name), h => cases h; rfl
  | .error (.domain exc), h =>
    unfold RetryPolicy.rounded at h
    dsimp only at h
    split at h <;> (cases h; rfl)

/-- An open breaker looks at no answer. -/
theorem rounds_open (hBreaker : policy.breaker = some breaker) {w w' : Fields × List Op}
    {out : Except Raised T} {m : Call T (Option T)} (hRound : m = retry.round policy.core)
    (hOpen : w.1.opened = true)
    (h : LoopRuns (scripted answers) (retry.run policy.core) w m out w') :
    LoopRuns (scripted answers') (retry.run policy.core) w m out w' := by
  have hSame {w v : Fields × List Op} {ended : Except Raised (Option T)}
      (hOpen : w.1.opened = true)
      (hRuns : Runs (alone (scripted answers)) w (retry.round policy.core) ended v) :
      Runs (alone (scripted answers')) w (retry.round policy.core) ended v ∧ v.1 = w.1.next := by
    have hRoundOf := (round_iff hBreaker).mp hRuns
    rw [roundOf_rejected hOpen] at hRoundOf
    refine ⟨(round_iff hBreaker).mpr ?_, rounded_fields hRoundOf.symm⟩
    rw [roundOf_rejected hOpen]
    exact hRoundOf
  induction h with
  | returned hRuns =>
    subst hRound
    exact .returned (hSame hOpen hRuns).1
  | raised hRuns =>
    subst hRound
    exact .raised (hSame hOpen hRuns).1
  | again hRuns hRest ih =>
    subst hRound
    obtain ⟨hRuns', hFields⟩ := hSame hOpen hRuns
    refine .again hRuns' (ih rfl ?_)
    rw [hFields]
    exact hOpen

/-- A call has the same runs with scripts that agree. -/
theorem Agree.rounds (h : Agree retry breaker f answers answers')
    (hBreaker : policy.breaker = some breaker) {n : ℕ}
    (hReaches : Reaches retry breaker f answers n) {w w' : Fields × List Op} {out : Except Raised T}
    {m : Call T (Option T)} (hStart : w = policy.midway f n) (hRound : m = retry.round policy.core)
    (hRuns : LoopRuns (scripted answers) (retry.run policy.core) w m out w') :
    LoopRuns (scripted answers') (retry.run policy.core) w m out w' := by
  have hSame {n : ℕ} {v : Fields × List Op} {ended : Except Raised (Option T)}
      (hReaches : Reaches retry breaker f answers n)
      (hRuns : Runs (alone (scripted answers)) (policy.midway f n) (retry.round policy.core)
        ended v) :
      Runs (alone (scripted answers')) (policy.midway f n) (retry.round policy.core) ended v := by
    have hRoundOf := (round_iff hBreaker).mp hRuns
    rw [roundOf_midway hReaches.closed, h n hReaches] at hRoundOf
    rw [round_iff hBreaker, roundOf_midway hReaches.closed]
    exact hRoundOf
  induction hRuns generalizing n with
  | returned hRuns =>
    subst hStart hRound
    exact .returned (hSame hReaches hRuns)
  | raised hRuns =>
    subst hStart hRound
    exact .raised (hSame hReaches hRuns)
  | again hRuns hRest ih =>
    subst hStart hRound
    have hRoundOf := ((round_iff hBreaker).mp hRuns).symm
    obtain ⟨hTransient, hMore⟩ := roundOf_backoff hReaches.closed hRoundOf
    rw [roundOf_transient hReaches.closed hTransient hMore] at hRoundOf
    obtain ⟨-, rfl⟩ := Prod.mk.inj hRoundOf
    refine .again (hSame hReaches hRuns) ?_
    by_cases hReached : breaker.failureThreshold ≤ (f.failures + n + 1 : ℕ)
    · exact rounds_open hBreaker rfl (decide_eq_true hReached) hRest
    · have hSucc := hReaches.succ hTransient hMore (not_le.mp hReached)
      refine ih hSucc ?_ rfl
      rw [decide_eq_false hReached, ← hReaches.closed]
      rfl

theorem Agree.run (h : Agree retry breaker f answers answers') (hRetry : policy.retry = some retry)
    (hBreaker : policy.breaker = some breaker) {out : Except Raised T} {w : Fields × List Op}
    (hRuns : LoopRuns (scripted answers) policy.run (f, []) policy.run.first out w) :
    LoopRuns (scripted answers') policy.run (f, []) policy.run.first out w := by
  rw [retry_rounds_iff hRetry] at hRuns ⊢
  by_cases hOpen : f.opened = true
  · exact rounds_open hBreaker rfl hOpen hRuns
  · have hStart : Reaches retry breaker f answers 0 :=
      ⟨Bool.not_eq_true _ ▸ hOpen, fun i hi => absurd hi (Nat.not_lt_zero i), .inl rfl⟩
    exact h.rounds hBreaker hStart rfl rfl hRuns

/-! ## Failures are not taken back -/

theorem roundOf_failures {w w' : Fields × List Op} {out : Except Raised (Option T)}
    (h : policy.roundOf retry breaker answers w = (out, w'))
    (hNot : ∀ result, out ≠ .ok (some result)) : w.1.failures ≤ w'.1.failures := by
  by_cases hOpen : w.1.opened = true
  · rw [roundOf_rejected hOpen] at h
    rw [rounded_fields h]
    exact le_rfl
  · rw [Policy.roundOf, if_neg hOpen] at h
    dsimp only at h
    rw [rounded_fields h]
    generalize answers (w.2.count .invoke) = answer at h ⊢
    cases answer with
    | ok result => exact absurd (Prod.mk.inj h).1.symm (hNot result)
    | error raised =>
      cases raised with
      | domain exc => exact Nat.le_succ _
      | exception name => exact le_rfl
      | interrupt name => exact le_rfl

theorem rounds_failures (hBreaker : policy.breaker = some breaker) {w w' : Fields × List Op}
    {out : Except Raised T} {m : Call T (Option T)} (hRound : m = retry.round policy.core)
    (h : LoopRuns (scripted answers) (retry.run policy.core) w m out w')
    (hNot : ∀ result, out ≠ .ok result) : w.1.failures ≤ w'.1.failures := by
  induction h with
  | @returned w w' m result hRuns => exact absurd rfl (hNot result)
  | raised hRuns =>
    subst hRound
    exact roundOf_failures ((round_iff hBreaker).mp hRuns).symm fun _ hOk => by cases hOk
  | again hRuns hRest ih =>
    subst hRound
    have hStep := roundOf_failures ((round_iff hBreaker).mp hRuns).symm fun _ hOk => by cases hOk
    exact hStep.trans (ih rfl hNot)

/-- A call that gets to a timeout is not as if it were reported: no failure is counted for it. -/
theorem asReported_reaches (hRetry : policy.retry = some retry)
    (hBreaker : policy.breaker = some breaker) {timeoutSec : Option ℚ} {message : String}
    {provider : Option String} {attempts : ℕ → Attempt T}
    (h : AsReported policy timeoutSec message provider attempts f) (n : ℕ)
    (hReaches : Reaches retry breaker f (fun n => guarded timeoutSec (attempts n)) n) :
    (attempts n).exceeds timeoutSec = false := by
  by_contra hNot
  have hExceeds : (attempts n).exceeds timeoutSec = true := by simpa using hNot
  have hTimeout : guarded timeoutSec (attempts n) = .error (.exception "TimeoutError") :=
    if_pos hExceeds
  have hReported : reported timeoutSec message provider (attempts n) =
      .error (.domain (providerTimeout message provider)) := if_pos hExceeds
  -- The reported call gets there too.
  have hOther : Reaches retry breaker f
      (fun n => reported timeoutSec message provider (attempts n)) n := by
    refine ⟨hReaches.closed, fun i hi => ?_, hReaches.within⟩
    have hTransient := hReaches.failed i hi
    dsimp only [guarded, reported] at hTransient ⊢
    split at hTransient
    · cases hTransient
    · next hEnds =>
      rw [if_neg hEnds]
      exact hTransient
  -- Here the call is over, and the reported call has counted one more failure.
  have hRun := (retry_rounds_iff hRetry).mpr <| (hReaches.rounds_iff hBreaker).mpr <|
    (rounds_iff hBreaker).mpr (by rw [roundOf_midway hReaches.closed, hTimeout]; exact ⟨rfl, rfl⟩)
  have hSame := (hOther.rounds_iff hBreaker).mp ((retry_rounds_iff hRetry).mp ((h _ _).mp hRun))
  rw [rounds_iff hBreaker, roundOf_midway hReaches.closed, hReported] at hSame
  generalize hRounded : retry.rounded _ _ _ = rounded at hSame
  obtain ⟨out, v⟩ := rounded
  have hCounted : v.1.failures = f.failures + n + 1 := by
    rw [rounded_fields hRounded]
    rfl
  match out, hSame with
  | .ok (some result), hSame => cases hSame.1
  | .error e, hSame =>
    have hEqual : f.failures + n = v.1.failures := congrArg (fun w => w.1.failures) hSame.2
    omega
  | .ok none, hSame =>
    have hLe : v.1.failures ≤ f.failures + n :=
      rounds_failures hBreaker rfl hSame fun _ hOk => by cases hOk
    omega

/-- **Timeouts are provider failures.** -/
theorem timeouts_iff (retry : RetryPolicy) (breaker : CircuitBreaker) (limiter : Bool)
    (timeoutSec : Option ℚ) (message : String) (provider : Option String)
    (attempts : ℕ → Attempt T) (f : Fields) :
    AsReported { retry := some retry, breaker := some breaker, limiter := limiter } timeoutSec
        message provider attempts f ↔
      ∀ n, Reaches retry breaker f (fun n => guarded timeoutSec (attempts n)) n →
        (attempts n).exceeds timeoutSec = false := by
  constructor
  · exact asReported_reaches rfl rfl
  · intro hWithin out w
    have hAgree : Agree retry breaker f (fun n => guarded timeoutSec (attempts n))
        fun n => reported timeoutSec message provider (attempts n) := by
      intro n hReaches
      have hNot := hWithin n hReaches
      simp only [guarded, reported, hNot, Bool.false_eq_true, if_false]
    have hAgree' : Agree retry breaker f
        (fun n => reported timeoutSec message provider (attempts n))
        fun n => guarded timeoutSec (attempts n) :=
      fun n hReaches => (hAgree n ((hAgree.reaches_iff n).mpr hReaches)).symm
    exact ⟨hAgree.run rfl rfl, hAgree'.run rfl rfl⟩

end

namespace Slow

/-! The first attempt takes longer than the timeout, and the second would succeed. -/

def attempts : ℕ → Attempt ℕ
  | 0 => { duration := 11, ended := .ok 0 }
  | _ => { duration := 1, ended := .ok 1 }

def retry : RetryPolicy := {}

def breaker : CircuitBreaker := {}

def policy : Policy where
  retry := some retry
  breaker := some breaker

theorem not_always_reported : ¬∀ (retry : RetryPolicy) (breaker : CircuitBreaker)
    (limiter : Bool) (timeoutSec : Option ℚ) (message : String) (provider : Option String)
    (attempts : ℕ → Attempt ℕ) (f : Fields),
      AsReported { retry := some retry, breaker := some breaker, limiter := limiter } timeoutSec
        message provider attempts f := by
  intro hAlways
  have hStart : Reaches retry breaker {} (fun n => guarded (some 10) (attempts n)) 0 :=
    ⟨rfl, fun i hi => absurd hi (Nat.not_lt_zero i), .inl rfl⟩
  have hRetry : policy.retry = some retry := rfl
  have hWithin := asReported_reaches hRetry rfl
    (hAlways retry breaker false (some 10) "timed out" none attempts {}) 0 hStart
  exact absurd hWithin (by decide)

end Slow

end TradingAgent.Tooling
