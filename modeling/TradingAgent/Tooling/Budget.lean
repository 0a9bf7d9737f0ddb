import TradingAgent.Tooling.Attempts
import TradingAgent.Word.Streaks

/-!
# The budget of invocations

Calls of a policy that are made one after another, between resets of its breaker. The retry
loop bounds the invocations of a call, and the breaker bounds the streaks of failures over
all calls: while it is closed, its counter is at least the recent streak and below the
threshold, and while it is open the wrapped function is not invoked (`call_budget`).
-/

namespace TradingAgent.Tooling

open Coroutine Coro Shared Streaks

section

variable {T : Type}

/-- A call that was made, with the answers of the wrapped function to it and its outcome, or
a reset of the breaker. -/
inductive Event (T : Type)
  | ran (made : List (Except Raised T)) (out : Except Raised T)
  | reset

/-- The answers of the wrapped function, and the resets. -/
inductive Entry (T : Type)
  | answered (r : Except Raised T)
  | reset

def Event.entries : Event T → List (Entry T)
  | .ran made _ => made.map .answered
  | .reset => [.reset]

/-- An attempt that failed with a domain error. -/
def Entry.Failed (entry : Entry T) : Prop := ∃ exc, entry = .answered (.error (.domain exc))

/-- The wrapped function may answer anything, and any wait may be interrupted. -/
abbrev unreliable : Environment (List (Except Raised T)) Raised (Ret T) :=
  outside (fun _ => True) Waits

/-- Calls and resets, one after another, and the counters that they leave. -/
inductive Calls (policy : Policy) : List (Event T) → Fields → Prop
  | nil : Calls policy [] {}
  | ran {events : List (Event T)} {f f' : Fields} {made : List (Except Raised T)}
      {out : Except Raised T} (h : Calls policy events f)
      (hRun : LoopRuns unreliable policy.run (f, []) policy.run.first out (f', made)) :
      Calls policy (events ++ [.ran made out]) f'
  | reset {events : List (Event T)} {f : Fields} (h : Calls policy events f) :
      Calls policy (events ++ [.reset]) (CircuitBreaker.reset f)

/-- The answer ends its call: it is a success, or a domain error that is not retryable. -/
inductive Final : Except Raised T → Prop
  | success (result : T) : Final (.ok result)
  | fatal (exc : DomainError) (hFatal : exc.retryable = false) : Final (.error (.domain exc))

/-- A final answer is the last to its call, and the outcome of the call. -/
def Settled (made : List (Except Raised T)) (out : Except Raised T) : Prop :=
  ∀ before r after, made = before ++ r :: after → Final r → after = [] ∧ out = r

variable {policy : Policy} {retry : RetryPolicy} {breaker : CircuitBreaker} {f f' : Fields}
  {made more : List (Except Raised T)} {log : List (Entry T)}

/-! ## The breaker -/

/-- The counter bounds the recent streak while the breaker is closed. -/
structure Counted (breaker : CircuitBreaker) (f : Fields) (log : List (Entry T)) : Prop where
  recent : f.opened = false → Recent Entry.Failed f.failures log
  below : f.opened = false → (f.failures : ℤ) < max 1 breaker.failureThreshold
  bounded : Bounded Entry.Failed (max 1 breaker.failureThreshold).toNat log

namespace Counted

theorem start : Counted breaker {} ([] : List (Entry T)) where
  recent _ := .nil
  below _ := by
    show (0 : ℤ) < max 1 breaker.failureThreshold
    omega
  bounded := .nil

/-- The counter of attempts of the retry loop does not matter. -/
theorem attempts (h : Counted breaker f log) (n : ℕ) :
    Counted breaker { f with attempts := n } log := ⟨h.recent, h.below, h.bounded⟩

theorem reset (h : Counted breaker f log) :
    Counted breaker (CircuitBreaker.reset f) (log ++ [.reset]) := by
  have hOther : ¬(Entry.reset : Entry T).Failed := fun ⟨exc, hFailed⟩ => nomatch hFailed
  refine ⟨fun _ => .other hOther, fun _ => ?_, h.bounded.push (.other hOther)⟩
  show (0 : ℤ) < max 1 breaker.failureThreshold
  omega

/-- **One attempt keeps the bound.** -/
theorem attempted (h : Counted breaker f log) {ended : Except Raised T}
    (hAttempted : Attempted (fun _ => True) Waits breaker f more ended f') :
    Counted breaker f' (log ++ more.map .answered) := by
  cases hAttempted with
  | rejected hOpen => simpa using h
  | interrupted e hWait hClosed => simpa using h
  | returned result hAnswer hClosed =>
    have hNot : ¬(Entry.answered (.ok result) : Entry T).Failed := fun ⟨exc, hFailed⟩ =>
      nomatch hFailed
    refine ⟨fun _ => .other hNot, fun _ => ?_, h.bounded.push (.other hNot)⟩
    show (0 : ℤ) < max 1 breaker.failureThreshold
    omega
  | failed exc hAnswer hClosed =>
    have hBelow := h.below hClosed
    have hRecent : Recent Entry.Failed (f.failures + 1)
        (log ++ [Entry.answered (.error (.domain exc))]) := (h.recent hClosed).push
    refine ⟨fun _ => hRecent, fun hStill => ?_, h.bounded.push (hRecent.mono (by omega))⟩
    have hNotReached : ¬breaker.failureThreshold ≤ (f.failures + 1 : ℕ) := by
      simpa [CircuitBreaker.count, hClosed] using hStill
    show ((f.failures + 1 : ℕ) : ℤ) < max 1 breaker.failureThreshold
    omega
  | broke e hAnswer hOther hClosed =>
    have hNot : ¬(Entry.answered (.error e) : Entry T).Failed := by
      rintro ⟨exc, hFailed⟩
      injection hFailed with hAnswer
      exact hOther exc (Except.error.inj hAnswer)
    refine ⟨fun _ => .other hNot, h.below, h.bounded.push (.other hNot)⟩

end Counted

/-! ## The retry loop -/

namespace Settled

theorem nil (out : Except Raised T) : Settled [] out := by
  intro before r after hMade _
  cases (List.append_eq_nil_iff.mp hMade.symm).2

theorem singleton {r out : Except Raised T} (h : Final r → out = r) : Settled [r] out := by
  intro before r' after hMade hFinal
  rcases List.append_eq_singleton_iff.mp hMade.symm with ⟨-, hRest⟩ | ⟨-, hRest⟩
  · injection hRest with hr hAfter
    subst hr
    exact ⟨hAfter, h hFinal⟩
  · cases hRest

theorem cons {r out : Except Raised T} (hNot : ¬Final r) (h : Settled more out) :
    Settled (r :: more) out := by
  intro before r' after hMade hFinal
  cases before with
  | nil =>
    injection hMade with hr _
    subst hr
    exact absurd hFinal hNot
  | cons b before =>
    injection hMade with _ hMore
    exact h before r' after hMore hFinal

end Settled

/-- An outcome that ends the call is the final answer, if the answer was final. -/
theorem Rounded.error_eq {n : ℕ} {ended : Except Raised T} {e : Raised}
    (h : Rounded Waits retry n ended (.error e)) (hFinal : Final ended) :
    Except.error e = ended := by
  cases h with
  | raised => rfl
  | interrupted exc hRetryable =>
    cases hFinal with
    | fatal exc hFatal => exact absurd hRetryable (by simp [hFatal])
  | unexpected => cases hFinal
  | broke => rfl

/-- What the rounds of one call keep, from the answers so far and the log before the call. -/
structure Spent (retry : RetryPolicy) (breaker : CircuitBreaker) (log : List (Entry T))
    (n : ℕ) (more : List (Except Raised T)) (out : Except Raised T) (f' : Fields) :
    Prop where
  counted : Counted breaker f' (log ++ more.map .answered)
  length_le : (n + more.length : ℤ) ≤ max (n + 1 : ℤ) retry.retries
  settled : Settled more out

/-- **The rounds of a call.** -/
theorem rounds_spend (hBreaker : policy.breaker = some breaker)
    {w w' : Fields × List (Except Raised T)} {m : Call T (Option T)} {out : Except Raised T}
    (hRound : m = retry.round policy.core)
    (h : LoopRuns unreliable (retry.run policy.core) w m out w')
    (hCounted : Counted breaker w.1 log) :
    ∃ more, w'.2 = w.2 ++ more ∧ Spent retry breaker log w.1.attempts more out w'.1 := by
  induction h generalizing log with
  | @returned w w' m result hRuns =>
    subst hRound
    obtain ⟨more, ended, hMade, hCount, hAttempted, hRounded⟩ :=
      round_cases (fun _ h => h) hBreaker hRuns
    refine ⟨more, hMade, (hCounted.attempts _).attempted hAttempted, ?_, ?_⟩
    · rcases hAttempted.made_eq with rfl | rfl <;> simp
    · cases hRounded
      rcases hAttempted.made_eq with rfl | rfl
      · exact .nil _
      · exact .singleton fun _ => rfl
  | @raised w w' m e hRuns =>
    subst hRound
    obtain ⟨more, ended, hMade, hCount, hAttempted, hRounded⟩ :=
      round_cases (fun _ h => h) hBreaker hRuns
    refine ⟨more, hMade, (hCounted.attempts _).attempted hAttempted, ?_, ?_⟩
    · rcases hAttempted.made_eq with rfl | rfl <;> simp
    · rcases hAttempted.made_eq with rfl | rfl
      · exact .nil _
      · exact .singleton hRounded.error_eq
  | @again w w' w'' m out hRuns hRest ih =>
    subst hRound
    obtain ⟨more, ended, hMade, hCount, hAttempted, hRounded⟩ :=
      round_cases (fun _ h => h) hBreaker hRuns
    have hStep := (hCounted.attempts (w.1.attempts + 1)).attempted hAttempted
    obtain ⟨rest, hAll, hSpent⟩ := ih rfl hStep
    have hLength := hSpent.length_le
    rw [hCount] at hLength
    cases hRounded with
    | again exc hRetryable hMore =>
      have hNot : ¬Final (Except.error (Raised.domain exc) : Except Raised T) := by
        intro hFinal
        cases hFinal with
        | fatal exc hFatal => exact absurd hRetryable (by simp [hFatal])
      refine ⟨more ++ rest, by rw [hAll, hMade, List.append_assoc], ?_, ?_, ?_⟩
      · rw [List.map_append, ← List.append_assoc]
        exact hSpent.counted
      · rcases hAttempted.made_eq with rfl | rfl <;>
          simp only [List.length_append, List.length_nil, List.length_singleton] <;> omega
      · rcases hAttempted.made_eq with rfl | rfl
        · exact hSpent.settled
        · exact .cons hNot hSpent.settled

/-- **The rounds of a call, from its start.** -/
theorem run_spends (hRetry : policy.retry = some retry) (hBreaker : policy.breaker = some breaker)
    {out : Except Raised T} (hCounted : Counted breaker f log)
    (h : LoopRuns unreliable policy.run (f, []) policy.run.first out (f', made)) :
    Spent retry breaker log 0 made out f' := by
  obtain ⟨more, hMade, hSpent⟩ := rounds_spend hBreaker rfl ((retry_rounds_iff hRetry).mp h)
    (hCounted.attempts 0)
  rw [show made = more from hMade]
  exact hSpent

/-! ## The budget -/

/-- Calls and resets keep the bound of the breaker. -/
theorem Calls.counted (hRetry : policy.retry = some retry)
    (hBreaker : policy.breaker = some breaker) {events : List (Event T)}
    (h : Calls policy events f) : Counted breaker f (events.flatMap Event.entries) := by
  induction h with
  | nil => exact .start
  | ran h hRun ih =>
    rw [List.flatMap_append, List.flatMap_singleton]
    exact (run_spends hRetry hBreaker ih hRun).counted
  | reset h ih =>
    rw [List.flatMap_append, List.flatMap_singleton]
    exact ih.reset

/-- Each call keeps the bound of the retry loop. -/
theorem Calls.ran_spent (hRetry : policy.retry = some retry)
    (hBreaker : policy.breaker = some breaker) {events : List (Event T)} {out : Except Raised T}
    (h : Calls policy events f) (hRan : .ran made out ∈ events) :
    ∃ log f', Spent retry breaker log 0 made out f' := by
  induction h with
  | nil => cases hRan
  | ran h hRun ih =>
    rcases List.mem_append.mp hRan with hEarlier | hLast
    · exact ih hEarlier
    · cases List.mem_singleton.mp hLast
      exact ⟨_, _, run_spends hRetry hBreaker (h.counted hRetry hBreaker) hRun⟩
  | reset h ih =>
    rcases List.mem_append.mp hRan with hEarlier | hLast
    · exact ih hEarlier
    · cases List.mem_singleton.mp hLast

/-- **The budget of invocations.** -/
theorem call_budget (hRetry : policy.retry = some retry) (hBreaker : policy.breaker = some breaker)
    {events : List (Event T)} (h : Calls policy events f) :
    (∀ made out, .ran made out ∈ events →
      (made.length : ℤ) ≤ max 1 retry.retries ∧
        ∀ before r after, made = before ++ r :: after → Final r → after = [] ∧ out = r) ∧
    ∀ before streak after, events.flatMap Event.entries = before ++ streak ++ after →
      (∀ entry ∈ streak, entry.Failed) →
        (streak.length : ℤ) ≤ max 1 breaker.failureThreshold := by
  constructor
  · intro made out hRan
    obtain ⟨log, f', hSpent⟩ := h.ran_spent hRetry hBreaker hRan
    refine ⟨?_, hSpent.settled⟩
    have hLength := hSpent.length_le
    push_cast at hLength
    omega
  · intro before streak after hLog hFailed
    have hBound := (h.counted hRetry hBreaker).bounded before streak after hLog hFailed
    omega

end

namespace Outage

/-! A call in an outage: the first attempt opens the breaker, and the second is rejected. -/

def retry : RetryPolicy where retries := 2

def breaker : CircuitBreaker where failureThreshold := 1

def policy : Policy where
  retry := some retry
  breaker := some breaker

def down : DomainError where
  cls := .providerUnavailableError
  message := "down"

/-- The wrapped function is down. -/
def answer : List (Except Raised ℕ) →
    (op : Op) → Except Raised (Ret ℕ op) × List (Except Raised ℕ) :=
  always (.error (.domain down))

theorem unreliable_answer (made : List (Except Raised ℕ)) (op : Op) :
    unreliable made op (answer made op).1 (answer made op).2 := by
  cases op with
  | acquire => exact ⟨fun _ h => (nomatch h), rfl⟩
  | invoke => exact ⟨trivial, rfl⟩
  | sleep n => exact ⟨fun _ h => (nomatch h), rfl⟩

theorem call_runs : LoopRuns unreliable policy.run (({} : Fields), ([] : List (Except Raised ℕ)))
    policy.run.first (.error (.domain circuitOpen))
    ({ attempts := 2, failures := 1, opened := true }, [.error (.domain down)]) :=
  .again (runs_drive (alone_answer unreliable_answer) ({}, []) policy.run.first)
    (.raised (runs_drive (alone_answer unreliable_answer) _ (retry.round policy.core)))

theorem call_budget_outage :
    (∀ made out, Event.ran made out ∈
        [(.ran [.error (.domain down)] (.error (.domain circuitOpen)) : Event ℕ)] →
      (made.length : ℤ) ≤ max 1 2 ∧
        ∀ before r after, made = before ++ r :: after → Final r → after = [] ∧ out = r) ∧
    ∀ before streak after,
      [(.ran [.error (.domain down)] (.error (.domain circuitOpen)) : Event ℕ)].flatMap
        Event.entries = before ++ streak ++ after →
      (∀ entry ∈ streak, entry.Failed) → (streak.length : ℤ) ≤ max 1 1 :=
  @call_budget ℕ policy retry breaker _ rfl rfl _ (.ran .nil call_runs)

end Outage

end TradingAgent.Tooling
