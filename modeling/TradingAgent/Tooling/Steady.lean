import TradingAgent.Tooling.Attempts
import TradingAgent.Tooling.Tripping

/-!
# Calls whose function always answers the same

If every attempt of a call has the same answer, then the counters of the breaker after the
call are those after its `trials`, up to the count of an open breaker. Through an open breaker
the call raises `circuit_open`, and through a closed one it returns what its function returns
(`steady_run`).
-/

namespace TradingAgent.Tooling

open Coroutine Coro Shared

variable {T : Type}

/-- The wrapped function always answers `r`, and every wait ends. -/
abbrev steady (r : Except Raised T) : Environment (List (Except Raised T)) Raised (Ret T) :=
  outside (fun answer => answer = r) (fun wait => wait = .ok ())

/-- The answers of the attempts of a call that has made `n` attempts before, if none of them
is rejected. -/
def trialsFrom (retry : RetryPolicy) (n : ℕ) (r : Except Raised T) : List (Except Raised T) :=
  if transient r then List.replicate (max (n + 1 : ℤ) retry.retries - n).toNat r else [r]

def trials (retry : RetryPolicy) (r : Except Raised T) : List (Except Raised T) :=
  if transient r then List.replicate (max 1 retry.retries).toNat r else [r]

/-- The same counters, but for the count of an open breaker. -/
def Same (v v' : ℕ × Bool) : Prop := v.2 = v'.2 ∧ (v.2 = false → v.1 = v'.1)

variable {policy : Policy} {retry : RetryPolicy} {breaker : CircuitBreaker} {f f' : Fields}
  {made : List (Except Raised T)} {r : Except Raised T} {v v' v'' : ℕ × Bool}

namespace Same

theorem refl (v : ℕ × Bool) : Same v v := ⟨rfl, fun _ => rfl⟩

theorem trans (h : Same v v') (h' : Same v' v'') : Same v v'' :=
  ⟨h.1.trans h'.1, fun hClosed => (h.2 hClosed).trans (h'.2 (h.1 ▸ hClosed))⟩

theorem of_opened (h : v.2 = true) (h' : v'.2 = true) : Same v v' := by
  refine ⟨h.trans h'.symm, fun hClosed => ?_⟩
  rw [h] at hClosed
  cases hClosed

theorem observe (h : Same v v') (r : Except Raised T) :
    Same (breaker.observe v r) (breaker.observe v' r) := by
  obtain ⟨n, o⟩ := v
  obtain ⟨n', o'⟩ := v'
  obtain ⟨hFlag, hCount⟩ := h
  change o = o' at hFlag
  subst hFlag
  cases o with
  | true =>
    match r with
    | .ok result => exact .of_opened rfl rfl
    | .error (.domain exc) => exact .of_opened rfl rfl
    | .error (.exception name) => exact .of_opened rfl rfl
    | .error (.interrupt name) => exact .of_opened rfl rfl
  | false =>
    have hSame : n = n' := hCount rfl
    rw [hSame]
    exact .refl _

theorem foldl (h : Same v v') (answers : List (Except Raised T)) :
    Same (answers.foldl breaker.observe v) (answers.foldl breaker.observe v') := by
  induction answers generalizing v v' with
  | nil => exact h
  | cons r answers ih => exact ih (h.observe r)

end Same

theorem foldl_opened (answers : List (Except Raised T)) (h : v.2 = true) :
    (answers.foldl breaker.observe v).2 = true := by
  induction answers generalizing v with
  | nil => exact h
  | cons r answers ih =>
    apply ih
    match r with
    | .ok result => exact h
    | .error (.domain exc) => exact Bool.or_eq_true_iff.mpr (.inl h)
    | .error (.exception name) => exact h
    | .error (.interrupt name) => exact h

theorem ended_waits (wait : Except Raised Unit) (hEnded : wait = .ok ()) : Waits wait := by
  intro exc hError
  rw [hEnded] at hError
  cases hError

/-- An attempt of a steady call. -/
theorem steady_attempt {ended : Except Raised T}
    (h : Attempted (fun answer => answer = r) (fun wait => wait = .ok ()) breaker f made ended f') :
    f.opened = true ∧ ended = .error (.domain circuitOpen) ∧ f'.counters = f.counters ∨
      f.opened = false ∧ ended = r ∧ f'.counters = breaker.observe f.counters r := by
  cases h with
  | rejected hOpen => exact .inl ⟨hOpen, rfl, rfl⟩
  | interrupted e hWait => cases hWait
  | returned result hAnswer hClosed =>
    subst hAnswer
    exact .inr ⟨hClosed, rfl, rfl⟩
  | failed exc hAnswer hClosed =>
    subst hAnswer
    exact .inr ⟨hClosed, rfl, rfl⟩
  | broke e hAnswer hOther hClosed =>
    subst hAnswer
    refine .inr ⟨hClosed, rfl, ?_⟩
    cases e with
    | domain exc => exact absurd rfl (hOther exc)
    | exception name => rfl
    | interrupt name => rfl

theorem trialsFrom_last {n : ℕ} (h : transient r = true → retry.retries ≤ n + 1) :
    trialsFrom retry n r = [r] := by
  unfold trialsFrom
  split
  · next hTransient =>
    have hOne : (max (n + 1 : ℤ) retry.retries - n).toNat = 1 := by
      have hLast := h hTransient
      omega
    rw [hOne]
    rfl
  · rfl

theorem trialsFrom_more {n : ℕ} (hTransient : transient r = true)
    (hMore : (n + 1 : ℤ) < retry.retries) :
    trialsFrom retry n r = r :: trialsFrom retry (n + 1) r := by
  unfold trialsFrom
  rw [if_pos hTransient, if_pos hTransient]
  have hCount : (max (n + 1 : ℤ) retry.retries - n).toNat =
      (max ((n + 1 : ℕ) + 1 : ℤ) retry.retries - (n + 1 : ℕ)).toNat + 1 := by
    omega
  rw [hCount]
  rfl

theorem trialsFrom_zero : trialsFrom retry 0 r = trials retry r := by
  have hCount : (max ((0 : ℕ) + 1 : ℤ) retry.retries - (0 : ℕ)).toNat =
      (max 1 retry.retries).toNat := by
    omega
  unfold trialsFrom trials
  rw [hCount]

/-- What the rounds of a steady call make of the counters, and the outcome of the call. -/
structure Ran (retry : RetryPolicy) (breaker : CircuitBreaker) (r : Except Raised T) (f : Fields)
    (out : Except Raised T) (f' : Fields) : Prop where
  counters : Same f'.counters ((trialsFrom retry f.attempts r).foldl breaker.observe f.counters)
  rejected : f.opened = true → out = .error (.domain circuitOpen)
  returned : f.opened = false → ∀ result, r = .ok result → out = .ok result

namespace Ran

variable {f'' : Fields} {out : Except Raised T}

/-- An open breaker rejects the call and stays open. -/
theorem of_open (hOpen : f.opened = true) (hCounters : f'.counters = f.counters)
    (hOut : out = .error (.domain circuitOpen)) : Ran retry breaker r f out f' where
  counters := by
    rw [hCounters]
    exact .of_opened hOpen (foldl_opened _ hOpen)
  rejected _ := hOut
  returned hClosed := by
    rw [hOpen] at hClosed
    cases hClosed

/-- The last attempt of a call. -/
theorem of_last (hClosed : f.opened = false)
    (hLast : transient r = true → retry.retries ≤ f.attempts + 1)
    (hCounters : f'.counters = breaker.observe f.counters r)
    (hReturned : ∀ result, r = .ok result → out = .ok result) : Ran retry breaker r f out f' where
  counters := by
    rw [trialsFrom_last hLast, hCounters]
    exact .refl _
  rejected hOpen := by
    rw [hClosed] at hOpen
    cases hOpen
  returned _ := hReturned

theorem again_open (hOpen : f.opened = true) (hCounters : f'.counters = f.counters)
    (hRan : Ran retry breaker r f' out f'') : Ran retry breaker r f out f'' := by
  have hStill : f'.opened = true := (congrArg Prod.snd hCounters).trans hOpen
  refine ⟨?_, fun _ => hRan.rejected hStill, fun hClosed => ?_⟩
  · have hAfter : f''.counters.2 = true := hRan.counters.1.trans (foldl_opened _ hStill)
    exact .of_opened hAfter (foldl_opened _ hOpen)
  · rw [hOpen] at hClosed
    cases hClosed

/-- One more attempt before the others. -/
theorem again (hClosed : f.opened = false) (hTransient : transient r = true)
    (hMore : (f.attempts + 1 : ℤ) < retry.retries) (hCount : f'.attempts = f.attempts + 1)
    (hCounters : f'.counters = breaker.observe f.counters r)
    (hRan : Ran retry breaker r f' out f'') : Ran retry breaker r f out f'' := by
  refine ⟨?_, fun hOpen => ?_, fun _ result hOk => ?_⟩
  · have hAfter := hRan.counters
    rw [hCount, hCounters] at hAfter
    rw [trialsFrom_more hTransient hMore]
    exact hAfter
  · rw [hClosed] at hOpen
    cases hOpen
  · rw [hOk] at hTransient
    cases hTransient

end Ran

/-- **The rounds of a steady call.** -/
theorem steady_rounds (hBreaker : policy.breaker = some breaker)
    {w w' : Fields × List (Except Raised T)} {m : Call T (Option T)} {out : Except Raised T}
    (hRound : m = retry.round policy.core)
    (h : LoopRuns (steady r) (retry.run policy.core) w m out w') :
    Ran retry breaker r w.1 out w'.1 := by
  induction h with
  | @returned w w' m result hRuns =>
    subst hRound
    obtain ⟨more, ended, -, -, hAttempted, hRounded⟩ := round_cases ended_waits hBreaker hRuns
    cases hRounded with
    | returned result =>
      rcases steady_attempt hAttempted with ⟨-, hCircuit, -⟩ | ⟨hClosed, rfl, hCounters⟩
      · cases hCircuit
      · exact .of_last hClosed (fun hTransient => absurd hTransient Bool.false_ne_true) hCounters
          fun _ hOk => hOk
  | @raised w w' m e hRuns =>
    subst hRound
    obtain ⟨more, ended, -, -, hAttempted, hRounded⟩ := round_cases ended_waits hBreaker hRuns
    rcases steady_attempt hAttempted with
      ⟨hOpen, hCircuit, hCounters⟩ | ⟨hClosed, hEnded, hCounters⟩
    · refine .of_open hOpen hCounters ?_
      rw [hCircuit] at hRounded
      cases hRounded with
      | raised exc hLast => rfl
      | interrupted exc hRetryable hMore e hWait => cases hWait
    · refine .of_last hClosed (fun hTransient => ?_) hCounters fun result hOk => ?_
      · rw [← hEnded] at hTransient
        cases hRounded with
        | raised exc hLast => exact_mod_cast hLast hTransient
        | interrupted exc hRetryable hMore e hWait => cases hWait
        | unexpected name => cases hTransient
        | broke name => cases hTransient
      · rw [hEnded, hOk] at hRounded
        cases hRounded
  | @again w w' w'' m out hRuns hRest ih =>
    subst hRound
    obtain ⟨more, ended, -, hCount, hAttempted, hRounded⟩ := round_cases ended_waits hBreaker hRuns
    cases hRounded with
    | again exc hRetryable hMore =>
      rcases steady_attempt hAttempted with
        ⟨hOpen, hCircuit, hCounters⟩ | ⟨hClosed, rfl, hCounters⟩
      · exact .again_open hOpen hCounters (ih rfl)
      · exact .again hClosed hRetryable (by exact_mod_cast hMore) hCount hCounters (ih rfl)

/-- **A steady call.** -/
theorem steady_run (hRetry : policy.retry = some retry) (hBreaker : policy.breaker = some breaker)
    {out : Except Raised T}
    (h : LoopRuns (steady r) policy.run (f, []) policy.run.first out (f', made)) :
    Same f'.counters ((trials retry r).foldl breaker.observe f.counters) ∧
      (f.opened = true → out = .error (.domain circuitOpen)) ∧
      (f.opened = false → ∀ result, r = .ok result → out = .ok result) := by
  have hRan := steady_rounds hBreaker rfl ((retry_rounds_iff hRetry).mp h)
  have hCounters := hRan.counters
  rw [show ({ f with attempts := 0 } : Fields).attempts = 0 from rfl, trialsFrom_zero] at hCounters
  exact ⟨hCounters, hRan.rejected, hRan.returned⟩

/-- What a steady call returns is what its function returns. -/
theorem steady_rounds_ok (hBreaker : policy.breaker = some breaker)
    {w w' : Fields × List (Except Raised T)} {m : Call T (Option T)} {out : Except Raised T}
    (hRound : m = retry.round policy.core)
    (h : LoopRuns (steady r) (retry.run policy.core) w m out w') {result : T}
    (hOut : out = .ok result) : r = .ok result := by
  induction h with
  | @returned w w' m result' hRuns =>
    subst hRound
    obtain ⟨more, ended, -, -, hAttempted, hRounded⟩ := round_cases ended_waits hBreaker hRuns
    cases hRounded with
    | returned =>
      rcases steady_attempt hAttempted with ⟨-, hCircuit, -⟩ | ⟨-, hEnded, -⟩
      · cases hCircuit
      · rw [← hEnded, hOut]
  | raised => cases hOut
  | again _ _ ih => exact ih rfl hOut

theorem steady_run_ok (hRetry : policy.retry = some retry)
    (hBreaker : policy.breaker = some breaker) {result : T}
    (h : LoopRuns (steady r) policy.run (f, []) policy.run.first (.ok result) (f', made)) :
    r = .ok result :=
  steady_rounds_ok hBreaker rfl ((retry_rounds_iff hRetry).mp h) rfl

/-- Every steady call ends. -/
theorem steady_ends (hRetry : policy.retry = some retry)
    (hBreaker : policy.breaker = some breaker) (r : Except Raised T) (f : Fields) :
    ∃ out f' made, LoopRuns (steady r) policy.run (f, []) policy.run.first out (f', made) := by
  have hAnswer (made : List (Except Raised T)) (op : Op) :
      steady r made op (always r made op).1 (always r made op).2 := by
    cases op with
    | acquire => exact ⟨rfl, rfl⟩
    | invoke => exact ⟨rfl, rfl⟩
    | sleep n => exact ⟨rfl, rfl⟩
  obtain ⟨out, ⟨f', made⟩, hRun⟩ := run_ends ended_waits hRetry hBreaker hAnswer f
  exact ⟨out, f', made, hRun⟩

/-! ## A function that always fails -/

/-- How many more failures a breaker lets through. -/
def CircuitBreaker.room (breaker : CircuitBreaker) (f : Fields) : ℤ :=
  if f.opened then 0 else max 1 (breaker.failureThreshold - f.failures)

theorem CircuitBreaker.room_open (hOpen : f.opened = true) : breaker.room f = 0 := if_pos hOpen

theorem CircuitBreaker.one_le_room (hClosed : f.opened = false) : 1 ≤ breaker.room f := by
  rw [room, if_neg (by simp [hClosed])]
  exact le_max_left _ _

/-- A failure takes a place. -/
theorem CircuitBreaker.room_count (hClosed : f.opened = false) :
    breaker.room (breaker.count f) = breaker.room f - 1 := by
  unfold room count
  rw [hClosed, Bool.false_or, if_neg Bool.false_ne_true]
  by_cases hReached : breaker.failureThreshold ≤ (f.failures + 1 : ℕ)
  · rw [if_pos (decide_eq_true hReached)]
    omega
  · rw [if_neg (by simpa using hReached)]
    dsimp only
    omega

/-- How often the function is tried in the rest of a call, if no breaker opens. -/
def RetryPolicy.tries (retry : RetryPolicy) (exc : DomainError) (attempts : ℕ) : ℤ :=
  if exc.retryable then max (attempts + 1 : ℤ) retry.retries - attempts else 1

variable {exc : DomainError}

theorem RetryPolicy.one_le_tries (attempts : ℕ) : 1 ≤ retry.tries exc attempts := by
  unfold tries
  split
  · omega
  · exact le_rfl

/-- The last try. -/
theorem RetryPolicy.tries_last {attempts : ℕ}
    (hLast : exc.retryable = true → retry.retries ≤ (attempts + 1 : ℕ)) :
    retry.tries exc attempts = 1 := by
  unfold tries
  split
  · next hRetryable =>
    have hReached := hLast hRetryable
    omega
  · rfl

theorem RetryPolicy.tries_more {attempts : ℕ} (hRetryable : exc.retryable = true)
    (hMore : ((attempts + 1 : ℕ) : ℤ) < retry.retries) :
    retry.tries exc attempts = retry.tries exc (attempts + 1) + 1 := by
  unfold tries
  rw [if_pos hRetryable, if_pos hRetryable]
  omega

/-- An attempt fails in the place that the breaker has left, or it is rejected. -/
theorem failing_attempt {n : ℕ} {ended : Except Raised T}
    (h : Attempted (fun answer => answer = .error (.domain exc)) (fun wait => wait = .ok ())
      breaker { f with attempts := n } made ended f') :
    breaker.room f = 0 ∧ made.length = 0 ∧ ended = .error (.domain circuitOpen) ∧
        breaker.room f' = 0 ∨
      1 ≤ breaker.room f ∧ made.length = 1 ∧ ended = .error (.domain exc) ∧
        breaker.room f' = breaker.room f - 1 := by
  cases h with
  | rejected hOpen =>
    have hFull : breaker.room f = 0 := CircuitBreaker.room_open hOpen
    exact .inl ⟨hFull, rfl, rfl, hFull⟩
  | interrupted e hWait => cases hWait
  | returned result hAnswer => cases hAnswer
  | failed exc' hAnswer hClosed =>
    cases hAnswer
    exact .inr ⟨CircuitBreaker.one_le_room (f := f) hClosed, rfl, rfl,
      CircuitBreaker.room_count hClosed⟩
  | broke e hAnswer hOther =>
    cases hAnswer
    exact absurd rfl (hOther exc)

/-- **The rounds of a function that always fails.** -/
theorem failing_rounds (hBreaker : policy.breaker = some breaker)
    {w w' : Fields × List (Except Raised T)} {m : Call T (Option T)} {out : Except Raised T}
    (hRound : m = retry.round policy.core)
    (h : LoopRuns (steady (.error (.domain exc))) (retry.run policy.core) w m out w') :
    ∃ more, w'.2 = w.2 ++ more ∧
      (more.length : ℤ) = min (retry.tries exc w.1.attempts) (breaker.room w.1) ∧
      (out = .error (.domain exc) ∨ out = .error (.domain circuitOpen)) := by
  induction h with
  | @returned w w' m result hRuns =>
    subst hRound
    obtain ⟨more, ended, -, -, hAttempted, hRounded⟩ := round_cases ended_waits hBreaker hRuns
    rcases failing_attempt hAttempted with ⟨-, -, rfl, -⟩ | ⟨-, -, rfl, -⟩
    · cases hRounded
    · cases hRounded
  | @raised w w' m e hRuns =>
    subst hRound
    obtain ⟨more, ended, hMade, -, hAttempted, hRounded⟩ := round_cases ended_waits hBreaker hRuns
    have hTries : 1 ≤ retry.tries exc w.1.attempts := RetryPolicy.one_le_tries _
    refine ⟨more, hMade, ?_⟩
    rcases failing_attempt hAttempted with ⟨hFull, hNone, rfl, -⟩ | ⟨hRoom, hOne, rfl, -⟩
    · refine ⟨by omega, ?_⟩
      cases hRounded with
      | raised => exact .inr rfl
      | interrupted exc' hRetryable hMore e hWait => cases hWait
    · cases hRounded with
      | raised exc' hLast =>
        have hTry : retry.tries exc w.1.attempts = 1 := RetryPolicy.tries_last hLast
        exact ⟨by omega, .inl rfl⟩
      | interrupted exc' hRetryable hMore e hWait => cases hWait
  | @again w w' w'' m out hRuns hRest ih =>
    subst hRound
    obtain ⟨more, ended, hMade, hCount, hAttempted, hRounded⟩ :=
      round_cases ended_waits hBreaker hRuns
    obtain ⟨rest, hRestMade, hLength, hOut⟩ := ih rfl
    have hTries : 1 ≤ retry.tries exc w.1.attempts := RetryPolicy.one_le_tries _
    have hTriesRest : 1 ≤ retry.tries exc w'.1.attempts := RetryPolicy.one_le_tries _
    refine ⟨more ++ rest, by rw [hRestMade, hMade, List.append_assoc], ?_, hOut⟩
    rw [List.length_append]
    rcases failing_attempt hAttempted with ⟨hFull, hNone, rfl, hStill⟩ | ⟨hRoom, hOne, rfl, hLess⟩
    · omega
    · cases hRounded with
      | again exc' hRetryable hMore =>
        have hMoreTries := RetryPolicy.tries_more hRetryable hMore
        rw [hCount] at hLength
        omega

/-- **A call whose function always fails.** -/
theorem failing_run (hRetry : policy.retry = some retry) (hBreaker : policy.breaker = some breaker)
    {out : Except Raised T}
    (h : LoopRuns (steady (.error (.domain exc))) policy.run (f, []) policy.run.first out
      (f', made)) :
    (made.length : ℤ) = min (retry.tries exc 0) (breaker.room f) ∧
      (out = .error (.domain exc) ∨ out = .error (.domain circuitOpen)) := by
  obtain ⟨more, hMade, hLength, hOut⟩ :=
    failing_rounds hBreaker rfl ((retry_rounds_iff hRetry).mp h)
  obtain rfl : made = more := hMade
  exact ⟨hLength, hOut⟩

end TradingAgent.Tooling
