import TradingAgent.Tooling.Attempts

/-!
# Calls whose attempts follow a script

The answers of the wrapped function to the invocations of a call are given one after another,
and every wait ends. Such a call has one run, and its rounds are computed: an open breaker lets
nothing through (`drive_core_open`), and through a closed one a round has the next answer of the
script (`drive_core_closed`). The awaited operations are kept.
-/

namespace TradingAgent.Tooling

open Coroutine Coro Shared

variable {T : Type}

/-- The answers of a script, and the operations awaited so far. -/
def script (answers : ℕ → Except Raised T) (ops : List Op) :
    (op : Op) → Except Raised (Ret T op) × List Op
  | .acquire => (.ok (), ops ++ [.acquire])
  | .invoke => (answers (ops.count .invoke), ops ++ [.invoke])
  | .sleep n => (.ok (), ops ++ [.sleep n])

/-- The outside of a call that follows the script. -/
abbrev scripted (answers : ℕ → Except Raised T) : Environment (List Op) Raised (Ret T) :=
  answered (script answers)

/-- What the breaker makes of an answer. -/
def CircuitBreaker.recorded (breaker : CircuitBreaker) (fields : Fields) :
    Except Raised T → Fields
  | .ok _ => { fields with failures := 0 }
  | .error (.domain _) => breaker.count fields
  | .error _ => fields

/-- What the retry loop makes of the outcome of an attempt, with the operations so far. -/
def RetryPolicy.rounded (retry : RetryPolicy) (fields : Fields) (ops : List Op) :
    Except Raised T → Except Raised (Option T) × (Fields × List Op)
  | .ok result => (.ok (some result), fields, ops)
  | .error (.domain exc) =>
    if !exc.retryable || retry.retries ≤ fields.attempts then (.error (.domain exc), fields, ops)
    else (.ok none, fields, ops ++ [.sleep fields.attempts])
  | .error (.exception _) => (.error (.domain unexpected), fields, ops)
  | .error exc => (.error exc, fields, ops)

/-- The operations of an attempt that is not rejected. -/
def Policy.awaited (policy : Policy) : List Op :=
  if policy.limiter then [.acquire, .invoke] else [.invoke]

/-- A new attempt. -/
def Fields.next (fields : Fields) : Fields := { fields with attempts := fields.attempts + 1 }

section

variable {policy : Policy} {retry : RetryPolicy} {breaker : CircuitBreaker} {f : Fields}
  {ops : List Op} {answers : ℕ → Except Raised T}

theorem drive_limited (policy : Policy) (f : Fields) (ops : List Op)
    (answers : ℕ → Except Raised T) :
    drive (aloneAnswer (script answers)) (f, ops) policy.limited =
      (answers (ops.count .invoke), f, ops ++ policy.awaited) := by
  unfold Policy.limited Policy.awaited
  cases policy.limiter with
  | false => exact drive_call _ _ _
  | true =>
    have hCount : (ops ++ [Op.acquire]).count .invoke = ops.count .invoke := by
      rw [List.count_append]
      rfl
    rw [if_pos rfl, if_pos rfl, drive_bind, ← hCount, List.append_cons ops .acquire [.invoke]]
    exact drive_call _ _ _

/-- Through an open breaker the function is not awaited. -/
theorem drive_core_open (hBreaker : policy.breaker = some breaker) (hOpen : f.opened = true) :
    drive (aloneAnswer (script answers)) (f, ops) policy.core =
      (.error (.domain circuitOpen), f, ops) := by
  unfold Policy.core
  rw [hBreaker]
  show drive _ (f, ops) (breaker.run policy.limited) = _
  unfold CircuitBreaker.run
  rw [drive_bind]
  show drive _ (f, ops) (if f.opened = true then _ else _) = _
  rw [if_pos hOpen]
  rfl

theorem drive_core_closed (hBreaker : policy.breaker = some breaker) (hClosed : f.opened = false) :
    drive (aloneAnswer (script answers)) (f, ops) policy.core =
      (answers (ops.count .invoke), breaker.recorded f (answers (ops.count .invoke)),
        ops ++ policy.awaited) := by
  unfold Policy.core
  rw [hBreaker]
  show drive _ (f, ops) (breaker.run policy.limited) = _
  unfold CircuitBreaker.run
  rw [drive_bind]
  show drive _ (f, ops) (if f.opened = true then _ else _) = _
  rw [if_neg (by simp [hClosed]), drive_bind, drive_attempt, drive_limited]
  cases answers (ops.count .invoke) with
  | ok result => rfl
  | error e =>
    cases e with
    | domain exc =>
      show drive _ ({ f with failures := f.failures + 1 }, _)
        (if breaker.failureThreshold ≤ (f.failures + 1 : ℕ) then _ else _) = _
      unfold CircuitBreaker.recorded CircuitBreaker.count
      by_cases hReached : breaker.failureThreshold ≤ (f.failures + 1 : ℕ)
      · rw [if_pos hReached, decide_eq_true hReached, Bool.or_true]
        rfl
      · rw [if_neg hReached, decide_eq_false hReached, Bool.or_false]
        rfl
    | exception name => rfl
    | interrupt name => rfl

/-- What the retry loop makes of an attempt. -/
theorem drive_round {ended : Except Raised T} {f' : Fields} {ops' : List Op}
    (hAttempt : drive (aloneAnswer (script answers)) (f.next, ops) policy.core =
      (ended, f', ops')) :
    drive (aloneAnswer (script answers)) (f, ops) (retry.round policy.core) =
      retry.rounded f' ops' ended := by
  unfold RetryPolicy.round
  rw [drive_bind]
  show drive _ (f.next, ops) _ = _
  rw [drive_bind, drive_attempt, hAttempt]
  cases ended with
  | ok result => rfl
  | error e =>
    cases e with
    | domain exc =>
      show drive _ (f', ops') (if (!exc.retryable || retry.retries ≤ f'.attempts) = true
        then _ else _) = if (!exc.retryable || retry.retries ≤ f'.attempts) = true then _ else _
      by_cases hLast : (!exc.retryable || retry.retries ≤ f'.attempts) = true
      · rw [if_pos hLast, if_pos hLast]
        rfl
      · rw [if_neg hLast, if_neg hLast]
        rfl
    | exception name => rfl
    | interrupt name => rfl

/-- One round of the call. -/
def Policy.roundOf (policy : Policy) (retry : RetryPolicy) (breaker : CircuitBreaker)
    (answers : ℕ → Except Raised T) (w : Fields × List Op) :
    Except Raised (Option T) × (Fields × List Op) :=
  if w.1.opened then retry.rounded w.1.next w.2 (.error (.domain circuitOpen))
  else
    let answer := answers (w.2.count .invoke)
    retry.rounded (breaker.recorded w.1.next answer) (w.2 ++ policy.awaited) answer

theorem round_iff (hBreaker : policy.breaker = some breaker) {w w' : Fields × List Op}
    {out : Except Raised (Option T)} :
    Runs (alone (scripted answers)) w (retry.round policy.core) out w' ↔
      (out, w') = policy.roundOf retry breaker answers w := by
  obtain ⟨f, ops⟩ := w
  rw [alone_answered, runs_answered_iff, Policy.roundOf]
  by_cases hOpen : f.opened = true
  · rw [if_pos hOpen, drive_round (drive_core_open (f := f.next) hBreaker hOpen)]
  · rw [if_neg hOpen,
      drive_round (drive_core_closed (f := f.next) hBreaker (Bool.not_eq_true _ ▸ hOpen))]

/-- What is left of a call at the start of a round. -/
abbrev Rounds (policy : Policy) (retry : RetryPolicy) (answers : ℕ → Except Raised T)
    (w : Fields × List Op) (out : Except Raised T) (w' : Fields × List Op) : Prop :=
  LoopRuns (scripted answers) (retry.run policy.core) w (retry.round policy.core) out w'

/-- A call goes round by round. -/
theorem rounds_iff (hBreaker : policy.breaker = some breaker) {w w' : Fields × List Op}
    {out : Except Raised T} :
    Rounds policy retry answers w out w' ↔
      match policy.roundOf retry breaker answers w with
      | (.ok (some result), v) => out = .ok result ∧ w' = v
      | (.error e, v) => out = .error e ∧ w' = v
      | (.ok none, v) => Rounds policy retry answers v out w' := by
  have hRuns {ended : Except Raised (Option T)} {v : Fields × List Op} :
      Runs (alone (scripted answers)) w (retry.round policy.core) ended v ↔
        (ended, v) = policy.roundOf retry breaker answers w := round_iff hBreaker
  constructor
  · intro h
    cases h with
    | returned hRound =>
      rw [← hRuns.mp hRound]
      exact ⟨rfl, rfl⟩
    | raised hRound =>
      rw [← hRuns.mp hRound]
      exact ⟨rfl, rfl⟩
    | again hRound hRest =>
      rw [← hRuns.mp hRound]
      exact hRest
  · match hRound : policy.roundOf retry breaker answers w with
    | (.ok (some result), v) =>
      rintro ⟨rfl, rfl⟩
      exact .returned (hRuns.mpr hRound.symm)
    | (.error e, v) =>
      rintro ⟨rfl, rfl⟩
      exact .raised (hRuns.mpr hRound.symm)
    | (.ok none, v) => exact .again (hRuns.mpr hRound.symm)

/-! ## Calls whose attempts have failed so far -/

/-- The operations of `n` attempts and of the backoffs after them. -/
def Policy.opsAt (policy : Policy) : ℕ → List Op
  | 0 => []
  | n + 1 => policy.opsAt n ++ policy.awaited ++ [.sleep (n + 1)]

/-- A call that starts with the fields `f`, after `n` attempts that failed and did not open the
breaker. -/
def Policy.midway (policy : Policy) (f : Fields) (n : ℕ) : Fields × List Op :=
  ({ f with attempts := n, failures := f.failures + n }, policy.opsAt n)

theorem count_awaited (policy : Policy) : policy.awaited.count .invoke = 1 := by
  unfold Policy.awaited
  cases policy.limiter <;> rfl

theorem count_opsAt (policy : Policy) (n : ℕ) : (policy.opsAt n).count .invoke = n := by
  induction n with
  | zero => rfl
  | succ n ih =>
    rw [Policy.opsAt, List.count_append, List.count_append, ih, count_awaited]
    rfl

theorem roundOf_midway (hClosed : f.opened = false) (n : ℕ) :
    policy.roundOf retry breaker answers (policy.midway f n) =
      retry.rounded (breaker.recorded (policy.midway f n).1.next (answers n))
        (policy.opsAt n ++ policy.awaited) (answers n) := by
  have hNot : ¬(policy.midway f n).1.opened = true := by
    rw [show (policy.midway f n).1.opened = f.opened from rfl, hClosed]
    exact Bool.false_ne_true
  rw [Policy.roundOf, if_neg hNot, show (policy.midway f n).2 = policy.opsAt n from rfl,
    count_opsAt]

theorem exists_of_transient {r : Except Raised T} (h : transient r = true) :
    ∃ exc, r = .error (.domain exc) ∧ exc.retryable = true := by
  match r, h with
  | .error (.domain exc), h => exact ⟨exc, rfl, h⟩

/-- One more failure, with another attempt to follow. -/
theorem roundOf_transient (hClosed : f.opened = false) {n : ℕ}
    (hTransient : transient (answers n) = true) (hMore : (n + 1 : ℤ) < retry.retries) :
    policy.roundOf retry breaker answers (policy.midway f n) =
      (.ok none, { (policy.midway f (n + 1)).1 with
        opened := decide (breaker.failureThreshold ≤ (f.failures + n + 1 : ℕ)) },
        policy.opsAt (n + 1)) := by
  obtain ⟨exc, hAnswer, hRetryable⟩ := exists_of_transient hTransient
  have hNotLast : ¬(!exc.retryable || decide (retry.retries ≤ (n + 1 : ℕ))) = true := by
    rw [hRetryable]
    simpa using hMore
  rw [roundOf_midway hClosed, hAnswer]
  show (if (!exc.retryable || decide (retry.retries ≤ (n + 1 : ℕ))) = true then _ else _) = _
  rw [if_neg hNotLast]
  rw [show breaker.recorded (policy.midway f n).1.next (.error (.domain exc) : Except Raised T) =
    { attempts := n + 1, failures := f.failures + n + 1, opened := f.opened ||
      decide (breaker.failureThreshold ≤ (f.failures + n + 1 : ℕ)) } from rfl, hClosed,
    Bool.false_or]
  rfl

/-- A backoff follows a retryable failure that leaves an attempt. -/
theorem roundOf_backoff (hClosed : f.opened = false) {n : ℕ} {w : Fields × List Op}
    (h : policy.roundOf retry breaker answers (policy.midway f n) = (.ok none, w)) :
    transient (answers n) = true ∧ (n + 1 : ℤ) < retry.retries := by
  rw [roundOf_midway hClosed] at h
  match answers n, h with
  | .error (.domain exc), h =>
    change (if (!exc.retryable || decide (retry.retries ≤ (n + 1 : ℕ))) = true then _ else _) = _
      at h
    split at h
    · cases h
    · next hGo =>
      simp only [Bool.or_eq_true, Bool.not_eq_true', decide_eq_true_eq, not_or, not_le,
        Bool.not_eq_false] at hGo
      exact ⟨hGo.1, by exact_mod_cast hGo.2⟩

/-- The call gets to the attempt `n`, with a closed breaker. -/
structure Reaches (retry : RetryPolicy) (breaker : CircuitBreaker) (f : Fields)
    (answers : ℕ → Except Raised T) (n : ℕ) : Prop where
  closed : f.opened = false
  failed : ∀ i < n, transient (answers i) = true
  within : n = 0 ∨ (n : ℤ) < retry.retries ∧ ((f.failures + n : ℕ) : ℤ) < breaker.failureThreshold

theorem Reaches.of_succ {n : ℕ} (h : Reaches retry breaker f answers (n + 1)) :
    Reaches retry breaker f answers n where
  closed := h.closed
  failed i hi := h.failed i (by omega)
  within := by
    have hWithin := h.within
    omega

theorem Reaches.of_le {m n : ℕ} (h : Reaches retry breaker f answers n) (hLe : m ≤ n) :
    Reaches retry breaker f answers m := by
  induction hLe with
  | refl => exact h
  | step _ ih => exact ih h.of_succ

theorem Reaches.succ {n : ℕ} (h : Reaches retry breaker f answers n)
    (hTransient : transient (answers n) = true) (hMore : (n + 1 : ℤ) < retry.retries)
    (hBelow : ((f.failures + n + 1 : ℕ) : ℤ) < breaker.failureThreshold) :
    Reaches retry breaker f answers (n + 1) where
  closed := h.closed
  failed i hi := by
    rcases Nat.lt_succ_iff_lt_or_eq.mp hi with hLt | rfl
    · exact h.failed i hLt
    · exact hTransient
  within := .inr ⟨by exact_mod_cast hMore, hBelow⟩

/-- The attempt that comes next. -/
theorem Reaches.roundOf_eq {n : ℕ} (h : Reaches retry breaker f answers (n + 1)) :
    policy.roundOf retry breaker answers (policy.midway f n) =
      (.ok none, policy.midway f (n + 1)) := by
  obtain ⟨hMore, hBelow⟩ := h.within.resolve_left (Nat.succ_ne_zero n)
  have hStill : decide (breaker.failureThreshold ≤ (f.failures + n + 1 : ℕ)) = f.opened := by
    rw [h.closed, decide_eq_false_iff_not]
    omega
  rw [roundOf_transient h.closed (h.failed n (Nat.lt_succ_self n)) (by exact_mod_cast hMore),
    hStill]
  rfl

theorem Reaches.rounds_iff {n : ℕ} (h : Reaches retry breaker f answers n)
    (hBreaker : policy.breaker = some breaker) {out : Except Raised T} {w : Fields × List Op} :
    Rounds policy retry answers (policy.midway f 0) out w ↔
      Rounds policy retry answers (policy.midway f n) out w := by
  induction n with
  | zero => exact Iff.rfl
  | succ n ih =>
    rw [ih h.of_succ, Tooling.rounds_iff hBreaker, h.roundOf_eq]

end

end TradingAgent.Tooling
