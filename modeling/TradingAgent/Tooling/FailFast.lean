import TradingAgent.Tooling.Scripted

/-!
# Calls through an open breaker

An open breaker rejects an attempt with `circuit_open`, without the rate limiter and without the
wrapped function. This error is retryable, so that the retry loop backs off and tries again. A
call fails fast exactly if the loop has no attempt left at the rejection, or at the failure that
opens the breaker (`fails_fast_iff`).
-/

namespace TradingAgent.Tooling

open Coroutine Coro Shared

section

variable {T : Type}

/-- The states in which the backoffs of a call end. A backoff leaves the fields as they are, and
another round follows. -/
inductive BacksOff {τ : Type} (E : Environment τ Raised (Ret T))
    (loop : Loop Fields Raised (Ret T) T) :
    Fields × τ → Call T (Option T) → Fields × τ → Prop
  | once {w w' : Fields × τ} {m : Call T (Option T)} (hRound : Runs (alone E) w m (.ok none) w') :
    BacksOff E loop w m w'
  | later {w w' w'' : Fields × τ} {m : Call T (Option T)}
      (hRound : Runs (alone E) w m (.ok none) w') (hRest : BacksOff E loop w' loop.body w'') :
    BacksOff E loop w m w''

/-- Through an open breaker the call raises and awaits nothing, and no backoff follows once the
breaker is open. -/
structure FailsFast (policy : Policy) (answers : ℕ → Except Raised T) (f : Fields) : Prop where
  rejected : f.opened = true → ∃ e f', ∀ out w,
    LoopRuns (scripted answers) policy.run (f, []) policy.run.first out w ↔
      out = .error e ∧ w = (f', [])
  silent : ∀ w, BacksOff (scripted answers) policy.run (f, []) policy.run.first w →
    w.1.opened = false

variable {policy : Policy} {retry : RetryPolicy} {breaker : CircuitBreaker} {f : Fields}
  {answers : ℕ → Except Raised T}

theorem first_backsOff_iff (hRetry : policy.retry = some retry) {w : Fields × List Op} :
    BacksOff (scripted answers) policy.run (f, []) policy.run.first w ↔
      BacksOff (scripted answers) (retry.run policy.core) (policy.midway f 0)
        (retry.round policy.core) w := by
  have hFirst {ended : Except Raised (Option T)} {w : Fields × List Op} :
      Runs (alone (scripted answers)) (f, []) policy.run.first ended w ↔
        Runs (alone (scripted answers)) (policy.midway f 0) (retry.round policy.core) ended w :=
    first_round_iff hRetry
  rw [run_eq hRetry] at hFirst ⊢
  constructor
  · intro h
    generalize hStart : (retry.run policy.core).first = m at h
    rw [hStart] at hFirst
    cases h with
    | once hRound => exact .once (hFirst.mp hRound)
    | later hRound hRest => exact .later (hFirst.mp hRound) hRest
  · intro h
    cases h with
    | once hRound => exact .once (hFirst.mpr hRound)
    | later hRound hRest => exact .later (hFirst.mpr hRound) hRest

/-- An open breaker rejects the first attempt. -/
theorem roundOf_open (hOpen : f.opened = true) :
    policy.roundOf retry breaker answers (policy.midway f 0) =
      if retry.retries ≤ 1 then
        (.error (.domain circuitOpen), (policy.midway f 0).1.next, [])
      else (.ok none, (policy.midway f 0).1.next, [.sleep 1]) := by
  rw [Policy.roundOf, if_pos (show (policy.midway f 0).1.opened = true from hOpen)]
  show (if (!circuitOpen.retryable || decide (retry.retries ≤ (0 + 1 : ℕ))) = true
    then _ else _) = _
  by_cases hLast : retry.retries ≤ 1
  · rw [if_pos (by simpa using Or.inr hLast), if_pos hLast]
    rfl
  · have hRetryable : circuitOpen.retryable = true := rfl
    rw [if_neg (by simpa [hRetryable] using hLast), if_neg hLast]
    rfl

/-- The retryable failures of a call, of which none opens the breaker while an attempt is left. -/
def OpensLast (retry : RetryPolicy) (breaker : CircuitBreaker) (f : Fields)
    (answers : ℕ → Except Raised T) : Prop :=
  ∀ n : ℕ, (n + 1 : ℤ) < retry.retries → (∀ i ≤ n, transient (answers i) = true) →
    ((f.failures + n + 1 : ℕ) : ℤ) < breaker.failureThreshold

/-- No backoff with an open breaker, if no failure opens it too early. -/
theorem closed_of_opensLast (hBreaker : policy.breaker = some breaker)
    (hLast : OpensLast retry breaker f answers) {n : ℕ}
    (hReaches : Reaches retry breaker f answers n) {w w' : Fields × List Op}
    {m : Call T (Option T)} (hStart : w = policy.midway f n) (hRound : m = retry.round policy.core)
    (h : BacksOff (scripted answers) (retry.run policy.core) w m w') : w'.1.opened = false := by
  have hNext {n : ℕ} (hReaches : Reaches retry breaker f answers n) {w : Fields × List Op}
      (hRuns : Runs (alone (scripted answers)) (policy.midway f n) (retry.round policy.core)
        (.ok none) w) :
      Reaches retry breaker f answers (n + 1) ∧ w = policy.midway f (n + 1) := by
    have hRoundOf := ((round_iff hBreaker).mp hRuns).symm
    obtain ⟨hTransient, hMore⟩ := roundOf_backoff hReaches.closed hRoundOf
    have hAll : ∀ i ≤ n, transient (answers i) = true := by
      intro i hi
      rcases hi.lt_or_eq with hLt | rfl
      · exact hReaches.failed i hLt
      · exact hTransient
    have hSucc := hReaches.succ hTransient hMore (hLast n hMore hAll)
    rw [hSucc.roundOf_eq] at hRoundOf
    exact ⟨hSucc, (Prod.mk.inj hRoundOf).2.symm⟩
  induction h generalizing n with
  | once hRuns =>
    subst hStart hRound
    obtain ⟨hSucc, rfl⟩ := hNext hReaches hRuns
    exact hSucc.closed
  | later hRuns hRest ih =>
    subst hStart hRound
    obtain ⟨hSucc, rfl⟩ := hNext hReaches hRuns
    exact ih hSucc rfl rfl

/-- A later backoff of a call. -/
theorem Reaches.backsOff (hBreaker : policy.breaker = some breaker) {n : ℕ}
    (hReaches : Reaches retry breaker f answers n) {w : Fields × List Op}
    (h : BacksOff (scripted answers) (retry.run policy.core) (policy.midway f n)
      (retry.round policy.core) w) :
    BacksOff (scripted answers) (retry.run policy.core) (policy.midway f 0)
      (retry.round policy.core) w := by
  induction n with
  | zero => exact h
  | succ n ih =>
    exact ih hReaches.of_succ (.later ((round_iff hBreaker).mpr hReaches.roundOf_eq.symm) h)

/-- A failure that leaves an attempt does not open the breaker of a call that fails fast. -/
theorem FailsFast.below (hRetry : policy.retry = some retry)
    (hBreaker : policy.breaker = some breaker) (h : FailsFast policy answers f) {n : ℕ}
    (hReaches : Reaches retry breaker f answers n) (hTransient : transient (answers n) = true)
    (hMore : (n + 1 : ℤ) < retry.retries) :
    ((f.failures + n + 1 : ℕ) : ℤ) < breaker.failureThreshold := by
  have hRoundOf : policy.roundOf retry breaker answers (policy.midway f n) = _ :=
    roundOf_transient hReaches.closed hTransient hMore
  have hBacksOff := hReaches.backsOff hBreaker (.once ((round_iff hBreaker).mpr hRoundOf.symm))
  have hStill := h.silent _ ((first_backsOff_iff hRetry).mpr hBacksOff)
  simpa using hStill

theorem failsFast_open (hRetry : policy.retry = some retry)
    (hBreaker : policy.breaker = some breaker) (hOpen : f.opened = true) :
    FailsFast policy answers f ↔ retry.retries ≤ 1 := by
  have hRoundOf : policy.roundOf retry breaker answers (policy.midway f 0) = _ :=
    roundOf_open hOpen
  constructor
  · intro hFast
    by_contra hMore
    rw [if_neg hMore] at hRoundOf
    have hStill := hFast.silent _ ((first_backsOff_iff hRetry).mpr
      (.once ((round_iff hBreaker).mpr hRoundOf.symm)))
    exact absurd (hOpen.symm.trans hStill) Bool.noConfusion
  · intro hLast
    rw [if_pos hLast] at hRoundOf
    refine ⟨fun _ => ⟨.domain circuitOpen, (policy.midway f 0).1.next, fun out w => ?_⟩, ?_⟩
    · rw [retry_rounds_iff hRetry]
      show Rounds policy retry answers (policy.midway f 0) out w ↔ _
      rw [rounds_iff hBreaker, hRoundOf]
    · intro w hBacksOff
      have hNever {w : Fields × List Op} (hRuns : Runs (alone (scripted answers))
          (policy.midway f 0) (retry.round policy.core) (.ok none) w) : False := by
        have hSame := (round_iff hBreaker).mp hRuns
        rw [hRoundOf] at hSame
        cases hSame
      cases (first_backsOff_iff hRetry).mp hBacksOff with
      | once hRuns => exact (hNever hRuns).elim
      | later hRuns hRest => exact (hNever hRuns).elim

theorem failsFast_closed (hRetry : policy.retry = some retry)
    (hBreaker : policy.breaker = some breaker) (hClosed : f.opened = false) :
    FailsFast policy answers f ↔ OpensLast retry breaker f answers := by
  have hStart : Reaches retry breaker f answers 0 :=
    ⟨hClosed, fun i hi => absurd hi (Nat.not_lt_zero i), .inl rfl⟩
  constructor
  · intro hFast n hMore hAll
    have hReaches (i : ℕ) (hi : i ≤ n) : Reaches retry breaker f answers i := by
      induction i with
      | zero => exact hStart
      | succ i ih =>
        have hEarlier := ih (by omega)
        have hTransient := hAll i (by omega)
        have hAnother : (i + 1 : ℤ) < retry.retries := by omega
        exact hEarlier.succ hTransient hAnother
          (hFast.below hRetry hBreaker hEarlier hTransient hAnother)
    exact hFast.below hRetry hBreaker (hReaches n le_rfl) (hAll n le_rfl) hMore
  · intro hLast
    refine ⟨fun hOpen => absurd (hOpen.symm.trans hClosed) Bool.noConfusion, fun w hBacksOff => ?_⟩
    exact closed_of_opensLast hBreaker hLast hStart rfl rfl
      ((first_backsOff_iff hRetry).mp hBacksOff)

/-- **An open circuit fails fast.** -/
theorem fails_fast_iff (retry : RetryPolicy) (breaker : CircuitBreaker) (limiter : Bool)
    (f : Fields) (answers : ℕ → Except Raised T) :
    FailsFast { retry := some retry, breaker := some breaker, limiter := limiter } answers f ↔
      if f.opened = true then retry.retries ≤ 1 else OpensLast retry breaker f answers := by
  by_cases hOpen : f.opened = true
  · rw [if_pos hOpen]
    exact failsFast_open rfl rfl hOpen
  · rw [if_neg hOpen]
    exact failsFast_closed rfl rfl (Bool.not_eq_true _ ▸ hOpen)

end

namespace Rejected

/-! The first attempt of a call opens the breaker. The call backs off before its rejection, and so
does the next call. -/

def retry : RetryPolicy where retries := 2

def breaker : CircuitBreaker where failureThreshold := 1

def policy : Policy where
  retry := some retry
  breaker := some breaker
  limiter := true

def down : DomainError where
  cls := .providerUnavailableError
  message := "down"

/-- The wrapped function is down. -/
def answers (_ : ℕ) : Except Raised ℕ := .error (.domain down)

def after : Fields where
  attempts := 2
  failures := 1
  opened := true

theorem call_runs : LoopRuns (scripted answers) policy.run (({} : Fields), [])
    policy.run.first (.error (.domain circuitOpen)) (after, [.acquire, .invoke, .sleep 1]) := by
  have hStart : policy.retry = some retry := rfl
  rw [retry_rounds_iff hStart]
  have hBreaker : policy.breaker = some breaker := rfl
  exact .again ((round_iff hBreaker).mpr rfl) (.raised ((round_iff hBreaker).mpr rfl))

theorem not_fast : ¬FailsFast policy answers {} ∧ ∃ out f ops,
    LoopRuns (scripted answers) policy.run (({} : Fields), []) policy.run.first out (f, ops) ∧
      f.opened = true ∧ ¬FailsFast policy answers f := by
  have hRetry : policy.retry = some retry := rfl
  have hBreaker : policy.breaker = some breaker := rfl
  constructor
  · rw [failsFast_closed hRetry hBreaker rfl]
    intro hLast
    exact absurd (hLast 0 (by decide) fun _ _ => rfl) (by decide)
  · refine ⟨_, after, _, call_runs, rfl, ?_⟩
    rw [failsFast_open hRetry hBreaker rfl]
    decide

end Rejected

end TradingAgent.Tooling
