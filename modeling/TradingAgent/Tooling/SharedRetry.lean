import TradingAgent.Tooling.Policy
import TradingAgent.Word.Streaks

/-!
# A retry policy under concurrent calls

The calls of one retry policy share its counter of attempts: each call resets it at its
start, and counts its own attempts there. Every attempt here succeeds or fails with a
retryable error. A call keeps its own budget throughout a run exactly if, whenever an attempt
of a call fails, the shared counter has reached `retries` just if the call's own attempts have
(`budgets_iff`). Two calls are enough to break this (`Stolen`).
-/

namespace TradingAgent.Tooling

open Coroutine Coro Shared Streaks

section

variable {T ι : Type} [DecidableEq ι]

/-- The calls of one retry policy, each with its own function. -/
abbrev RetryPolicy.calls (retry : RetryPolicy) (T : Type) : Loop Fields Raised (Ret T) T :=
  retry.run (perform .invoke)

/-- A function succeeds or fails with a retryable error, and a backoff ends. -/
def Transient : Move Raised (Ret T) → Prop
  | .start => True
  | .answer .invoke (.ok _) => True
  | .answer .invoke r => transient r = true
  | .answer (.sleep _) r => r = .ok ()
  | .answer .acquire _ => True

/-- What a turn of a call adds to the answers of its function. -/
def record (made : List (Except Raised T)) : Move Raised (Ret T) → List (Except Raised T)
  | .start => []
  | .answer .invoke r => made ++ [r]
  | .answer _ _ => made

/-- The answers of its function to the present or last call of a caller. -/
def own (i : ι) (log : Turns T ι) : List (Except Raised T) :=
  log.foldl (fun made visit => if visit.caller = i then record made visit.turn else made) []

/-- The attempts that have begun since the latest start of any call. -/
def begun (log : Turns T ι) : ℕ :=
  log.foldl (fun attempts visit =>
    match visit.turn with
    | .start => 1
    | .answer (.sleep _) _ => attempts + 1
    | _ => attempts) 0

/-- If an attempt fails at this turn, then the attempts of all calls since the latest start
have reached `retries` just if the attempts of this call have. -/
def Undisturbed (retry : RetryPolicy) (log : Turns T ι)
    (visit : Team.Visit Fields Raised (Ret T) ι T) : Prop :=
  ∀ r, visit.turn = .answer .invoke r → transient r = true →
    (retry.retries ≤ begun log ↔ retry.retries ≤ (own visit.caller log).length + 1)

/-- A call whose function has answered with `made` has kept its own budget: in what it
invokes, when it raises a retryable error, and when it backs off for another attempt. -/
structure Budgeted (retry : RetryPolicy) (made : List (Except Raised T))
    (call : Option (Call T (Option T))) : Prop where
  answered_le : (made.length : ℤ) ≤ max 1 retry.retries
  invoked_le : ∀ resume, call = some (await (.ext .invoke) resume) →
    (made.length + 1 : ℤ) ≤ max 1 retry.retries
  raised : ∀ exc, call = some (raise (.domain exc)) → exc.retryable = true →
    max 1 retry.retries ≤ made.countP transient
  backsOff : ∀ n resume, call = some (await (.ext (.sleep n)) resume) →
    (made.countP transient : ℤ) < max 1 retry.retries

variable {retry : RetryPolicy} {log : Turns T ι} {c c' : Callers T ι} {i : ι}
  {made : List (Except Raised T)} {call : Option (Call T (Option T))} {m : Call T (Option T)}
  {turn : Move Raised (Ret T)} {n n' : ℕ}

/-! ## The three places where a call waits or has ended -/

/-- A call whose function is awaited. -/
def RetryPolicy.invoking (retry : RetryPolicy) : Call T (Option T) :=
  (settle {} (retry.round (perform .invoke))).1

/-- A call in its `n`-th backoff. -/
def backingOff (n : ℕ) : Call T (Option T) := do
  perform (.sleep n)
  return none

theorem advance_invoking (retry : RetryPolicy) :
    ∃ resume, retry.invoking (T := T) = await (.ext .invoke) resume ∧ ∀ s : Fields,
      (∀ result, (retry.calls T).advance s (resume (.ok result)) = (ret (some result), s)) ∧
      ∀ exc, exc.retryable = true →
        (retry.calls T).advance s (resume (.error (.domain exc))) =
          if retry.retries ≤ s.attempts then (raise (.domain exc), s)
          else (backingOff s.attempts, s) := by
  refine ⟨_, rfl, fun s => ⟨fun result => rfl, fun exc hRetryable => ?_⟩⟩
  have hChecked : (retry.calls T).advance s
      (if !exc.retryable || retry.retries ≤ s.attempts then raise (.domain exc)
      else backingOff s.attempts) =
        if retry.retries ≤ s.attempts then (raise (.domain exc), s)
        else (backingOff s.attempts, s) := by
    rw [hRetryable]
    by_cases hReached : retry.retries ≤ s.attempts
    · rw [if_pos (by simpa using hReached), if_pos hReached]
      rfl
    · rw [if_neg (by simpa using hReached), if_neg hReached]
      rfl
  exact hChecked

theorem advance_backingOff (retry : RetryPolicy) (s : Fields) (n : ℕ) :
    ∃ resume, backingOff (T := T) n = await (.ext (.sleep n)) resume ∧
      (retry.calls T).advance s (resume (.ok ())) =
        (retry.invoking, { s with attempts := s.attempts + 1 }) :=
  ⟨_, rfl, rfl⟩

/-- Where a call is, by the answers of its function so far. -/
inductive Status (retry : RetryPolicy) (made : List (Except Raised T)) :
    Option (Call T (Option T)) → Prop
  | idle (hNone : made = []) : Status retry made none
  | invoking (hFailed : ∀ r ∈ made, transient r = true) : Status retry made (some retry.invoking)
  | backingOff (n : ℕ) (hFailed : ∀ r ∈ made, transient r = true) :
    Status retry made (some (backingOff n))
  | returned (result : T) : Status retry made (some (ret (some result)))
  | raised (exc : DomainError) : Status retry made (some (raise (.domain exc)))

/-- What a turn makes of a call and of the counter. -/
inductive Moved (retry : RetryPolicy) (n : ℕ) :
    Move Raised (Ret T) → Option (Call T (Option T)) → Call T (Option T) → ℕ → Prop
  | start (call : Option (Call T (Option T))) : Moved retry n .start call retry.invoking 1
  | returned (result : T) :
    Moved retry n (.answer .invoke (.ok result)) (some retry.invoking) (ret (some result)) n
  | raised (exc : DomainError) (hRetryable : exc.retryable = true) (hReached : retry.retries ≤ n) :
    Moved retry n (.answer .invoke (.error (.domain exc))) (some retry.invoking)
      (raise (.domain exc)) n
  | backsOff (exc : DomainError) (hRetryable : exc.retryable = true)
      (hBelow : ¬retry.retries ≤ n) :
    Moved retry n (.answer .invoke (.error (.domain exc))) (some retry.invoking) (backingOff n) n
  | resumed (k : ℕ) :
    Moved retry n (.answer (.sleep k) (.ok ())) (some (backingOff k)) retry.invoking (n + 1)

/-- **The cases of a turn.** -/
theorem moved (hStep : Team.Step (retry.calls T) c i turn c') (hTransient : Transient turn)
    (hStatus : Status retry made (c.calls i)) :
    ∃ m, Moved retry c.state.attempts turn (c.calls i) m c'.state.attempts ∧
      c'.calls = Function.update c.calls i (some m) := by
  cases hStep with
  | start hFree => exact ⟨_, .start _, rfl⟩
  | @answer op resume hCall r =>
    rw [hCall] at hStatus ⊢
    generalize hEq : (some (await (.ext op) resume) : Option (Call T (Option T))) = call at hStatus
    cases hStatus with
    | idle hNone => cases hEq
    | returned result => cases hEq
    | raised exc => cases hEq
    | invoking hFailed =>
      obtain ⟨resume', hInvoking, hAdvance⟩ := advance_invoking (T := T) retry
      rw [hInvoking] at hEq
      cases hEq
      obtain ⟨hOk, hError⟩ := hAdvance c.state
      match r, hTransient with
      | .ok result, _ =>
        rw [Team.resumed, hOk result]
        exact ⟨_, .returned result, rfl⟩
      | .error (.domain exc), hRetryable =>
        rw [Team.resumed, hError exc hRetryable]
        split
        · next hReached => exact ⟨_, .raised exc hRetryable hReached, rfl⟩
        · next hBelow => exact ⟨_, .backsOff exc hRetryable hBelow, rfl⟩
    | backingOff n hFailed =>
      obtain ⟨resume', hBacking, hAdvance⟩ := advance_backingOff (T := T) retry c.state n
      rw [hBacking] at hEq
      cases hEq
      rw [show r = .ok () from hTransient, Team.resumed, hAdvance]
      exact ⟨_, .resumed n, rfl⟩

/-- A call that waits has only failed so far. -/
theorem Status.failed_of_waits (h : Status retry made (some m)) {op : Op}
    {resume : Except Raised (Ret T op) → Call T (Option T)} (hWaits : m = await (.ext op) resume) :
    ∀ r ∈ made, transient r = true := by
  generalize hCall : some m = call at h
  cases h with
  | idle hNone => cases hCall
  | invoking hFailed => exact hFailed
  | backingOff n hFailed => exact hFailed
  | returned result =>
    rw [hWaits] at hCall
    cases hCall
  | raised exc =>
    rw [hWaits] at hCall
    cases hCall

theorem failed_append {r : Except Raised T} (h : ∀ r ∈ made, transient r = true)
    (hr : transient r = true) : ∀ r' ∈ made ++ [r], transient r' = true := by
  intro r' hMem
  rcases List.mem_append.mp hMem with hEarlier | hLast
  · exact h r' hEarlier
  · rw [List.mem_singleton.mp hLast]
    exact hr

theorem Moved.status (h : Moved retry n turn call m n') (hStatus : Status retry made call) :
    Status retry (record made turn) (some m) := by
  cases h with
  | start => exact .invoking fun _ hr => absurd hr List.not_mem_nil
  | returned result => exact .returned result
  | raised exc => exact .raised exc
  | backsOff exc hRetryable =>
    exact .backingOff n (failed_append (hStatus.failed_of_waits rfl) hRetryable)
  | resumed k => exact .invoking (hStatus.failed_of_waits rfl)

theorem count_failed (h : ∀ r ∈ made, transient r = true) : made.countP transient = made.length :=
  List.countP_eq_length.mpr h

/-- An undisturbed turn keeps the budget of the call. -/
theorem Moved.budgeted (h : Moved retry n turn call m n') (hStatus : Status retry made call)
    (hBudget : Budgeted retry made call)
    (hUndisturbed : ∀ r, turn = .answer .invoke r → transient r = true →
      (retry.retries ≤ n ↔ retry.retries ≤ made.length + 1)) :
    Budgeted retry (record made turn) (some m) := by
  cases h with
  | start =>
    refine ⟨?_, fun _ _ => ?_, fun exc hCall => ?_, fun k resume hCall => ?_⟩
    · show ((0 : ℕ) : ℤ) ≤ _
      omega
    · show ((0 : ℕ) + 1 : ℤ) ≤ _
      omega
    · cases Option.some.inj hCall
    · cases Option.some.inj hCall
  | returned result =>
    have hInvoked := hBudget.invoked_le _ rfl
    refine ⟨?_, fun resume hCall => ?_, fun exc hCall => ?_, fun k resume hCall => ?_⟩
    · simpa [record] using hInvoked
    · cases hCall
    · cases hCall
    · cases hCall
  | raised exc hRetryable hReached =>
    have hInvoked := hBudget.invoked_le _ rfl
    have hFailed :=
      failed_append (r := .error (.domain exc)) (hStatus.failed_of_waits rfl) hRetryable
    have hOwn := (hUndisturbed _ rfl hRetryable).mp hReached
    refine ⟨?_, fun resume hCall => ?_, fun exc hCall _ => ?_, fun k resume hCall => ?_⟩
    · simpa [record] using hInvoked
    · cases hCall
    · show max 1 retry.retries ≤ ((made ++ [_]).countP transient : ℕ)
      rw [count_failed hFailed, List.length_append, List.length_singleton]
      omega
    · cases hCall
  | backsOff exc hRetryable hBelow =>
    have hInvoked := hBudget.invoked_le _ rfl
    have hFailed :=
      failed_append (r := .error (.domain exc)) (hStatus.failed_of_waits rfl) hRetryable
    have hOwn := mt (hUndisturbed _ rfl hRetryable).mpr hBelow
    refine ⟨?_, fun resume hCall => ?_, fun exc hCall => ?_, fun k resume hCall => ?_⟩
    · simpa [record] using hInvoked
    · cases Option.some.inj hCall
    · cases Option.some.inj hCall
    · show ((made ++ [_]).countP transient : ℤ) < max 1 retry.retries
      rw [count_failed hFailed, List.length_append, List.length_singleton]
      omega
  | resumed k =>
    have hBacksOff := hBudget.backsOff k _ rfl
    rw [count_failed (hStatus.failed_of_waits rfl)] at hBacksOff
    refine ⟨hBudget.answered_le, fun resume hCall => ?_, fun exc hCall => ?_,
      fun k resume hCall => ?_⟩
    · show (made.length + 1 : ℤ) ≤ _
      omega
    · cases Option.some.inj hCall
    · cases Option.some.inj hCall

/-- A turn that keeps the budget of the call is undisturbed. -/
theorem Moved.undisturbed (h : Moved retry n turn call m n') (hStatus : Status retry made call)
    (hNext : Budgeted retry (record made turn) (some m)) (r : Except Raised T)
    (hTurn : turn = .answer .invoke r) (hFailure : transient r = true) :
    retry.retries ≤ n ↔ retry.retries ≤ made.length + 1 := by
  cases h with
  | start => cases hTurn
  | returned result =>
    cases hTurn
    cases hFailure
  | raised exc hRetryable hReached =>
    have hFailed := failed_append (r := .error (.domain exc)) (hStatus.failed_of_waits rfl)
      hRetryable
    have hOwn : max 1 retry.retries ≤ ((made ++ [_]).countP transient : ℕ) :=
      hNext.raised exc rfl hRetryable
    rw [count_failed hFailed, List.length_append, List.length_singleton] at hOwn
    omega
  | backsOff exc hRetryable hBelow =>
    have hFailed := failed_append (r := .error (.domain exc)) (hStatus.failed_of_waits rfl)
      hRetryable
    have hOwn : ((made ++ [_]).countP transient : ℤ) < max 1 retry.retries :=
      hNext.backsOff n _ rfl
    rw [count_failed hFailed, List.length_append, List.length_singleton] at hOwn
    omega
  | resumed k => cases hTurn

/-! ## Runs -/

theorem own_append_singleton (j : ι) (visit : Team.Visit Fields Raised (Ret T) ι T) :
    own j (log ++ [visit]) =
      if visit.caller = j then record (own j log) visit.turn else own j log := by
  unfold own
  rw [List.foldl_append]
  rfl

omit [DecidableEq ι] in
theorem Moved.begun_eq (h : Moved retry n turn call m n') (hCounter : n = begun log) :
    n' = begun (log ++ [⟨c, i, turn⟩]) := by
  unfold begun at hCounter ⊢
  rw [List.foldl_append, ← hCounter]
  cases h <;> rfl

/-- The shared counter, and where the calls are, at any time. -/
theorem statuses (h : Team.Run (retry.calls T) fresh log c)
    (hTransient : ∀ visit ∈ log, Transient visit.turn) :
    c.state.attempts = begun log ∧ ∀ i, Status retry (own i log) (c.calls i) := by
  induction h with
  | nil => exact ⟨rfl, fun i => .idle rfl⟩
  | @snoc log c c' i turn hRun hStep ih =>
    obtain ⟨hCounter, hStatus⟩ := ih fun visit hVisit =>
      hTransient visit (List.mem_append_left _ hVisit)
    have hTurn := hTransient _ (List.mem_append_right _ (List.mem_singleton_self _))
    obtain ⟨m, hMoved, hCalls⟩ := moved hStep hTurn (hStatus i)
    refine ⟨hMoved.begun_eq hCounter, fun j => ?_⟩
    rw [hCalls, own_append_singleton]
    by_cases hSame : i = j
    · subst hSame
      rw [if_pos rfl, Function.update_self]
      exact hMoved.status (hStatus i)
    · rw [if_neg hSame, Function.update_of_ne (Ne.symm hSame)]
      exact hStatus j

/-- In every state of the run, every call has kept its own budget. -/
def AlwaysBudgeted (retry : RetryPolicy) (log : Turns T ι) (c : Callers T ι) : Prop :=
  Throughout (fun before visit =>
    ∀ i, Budgeted retry (own i before) (visit.before.calls i)) log ∧
      ∀ i, Budgeted retry (own i log) (c.calls i)

/-- **Budgets of the calls of one retry policy.** -/
theorem budgets_iff (h : Team.Run (retry.calls T) fresh log c)
    (hTransient : ∀ visit ∈ log, Transient visit.turn) :
    AlwaysBudgeted retry log c ↔ Throughout (Undisturbed retry) log := by
  induction h with
  | nil =>
    refine ⟨fun _ => throughout_nil, fun _ => ⟨throughout_nil, fun i => ?_⟩⟩
    refine ⟨?_, fun _ hCall => ?_, fun _ hCall => ?_, fun _ _ hCall => ?_⟩
    · show ((0 : ℕ) : ℤ) ≤ _
      omega
    · cases hCall
    · cases hCall
    · cases hCall
  | @snoc log c c' i turn hRun hStep ih =>
    have hEarlier : ∀ visit ∈ log, Transient visit.turn := fun visit hVisit =>
      hTransient visit (List.mem_append_left _ hVisit)
    have hTurn := hTransient _ (List.mem_append_right _ (List.mem_singleton_self _))
    obtain ⟨hCounter, hStatus⟩ := statuses hRun hEarlier
    obtain ⟨m, hMoved, hCalls⟩ := moved hStep hTurn (hStatus i)
    have hOwn : own i (log ++ [⟨c, i, turn⟩]) = record (own i log) turn := by
      rw [own_append_singleton, if_pos rfl]
    unfold AlwaysBudgeted
    rw [throughout_append_singleton, throughout_append_singleton, ← ih hEarlier]
    constructor
    · rintro ⟨⟨hPast, hBefore⟩, hAfter⟩
      refine ⟨⟨hPast, hBefore⟩, fun r hAnswer hFailure => ?_⟩
      have hSelf := hAfter i
      rw [hCalls, hOwn, Function.update_self] at hSelf
      rw [← hCounter]
      exact hMoved.undisturbed (hStatus i) hSelf r hAnswer hFailure
    · rintro ⟨⟨hPast, hBefore⟩, hUndisturbed⟩
      refine ⟨⟨hPast, hBefore⟩, fun j => ?_⟩
      rw [hCalls]
      by_cases hSame : i = j
      · subst hSame
        rw [hOwn, Function.update_self]
        refine hMoved.budgeted (hStatus i) (hBefore i) fun r hAnswer hFailure => ?_
        rw [hCounter]
        exact hUndisturbed r hAnswer hFailure
      · rw [own_append_singleton, if_neg hSame, Function.update_of_ne (Ne.symm hSame)]
        exact hBefore j

end

namespace Stolen

/-! The second call starts while the first is in its backoff. The first counts its second
attempt on top, and the second raises after one attempt of its own. -/

def retry : RetryPolicy where retries := 2

def down : DomainError where
  cls := .providerUnavailableError
  message := "down"

theorem down_retryable : down.retryable = true := by decide

def failure : Move Raised (Ret ℕ) := .answer .invoke (.error (.domain down))

def wake : Move Raised (Ret ℕ) := .answer (.sleep 1) (.ok ())

/-- The turns, by the configurations in which they are taken. -/
def log (c₁ c₂ c₃ c₄ : Callers ℕ ℕ) : Turns ℕ ℕ :=
  [⟨fresh, 0, .start⟩, ⟨c₁, 0, failure⟩, ⟨c₂, 1, .start⟩, ⟨c₃, 0, wake⟩, ⟨c₄, 1, failure⟩]

theorem run_log : ∃ c₁ c₂ c₃ c₄ c, Team.Run (retry.calls ℕ) fresh (log c₁ c₂ c₃ c₄) c ∧
    c.calls 1 = some (raise (.domain down)) := by
  have hIdle (c : Callers ℕ ℕ) (i : ℕ) (h : c.calls i = none) : ¬Running (c.calls i) := by
    rw [h]
    rintro ⟨op, resume, hCall⟩
    cases hCall
  have h₀ : Team.Run (retry.calls ℕ) (fresh : Callers ℕ ℕ) [] fresh := .nil
  have h₁ := h₀.snoc (.start (hIdle fresh 0 rfl))
  have h₂ := h₁.snoc (show Team.Step _ _ 0 failure _ from .answer rfl _)
  have h₃ := h₂.snoc (.start (hIdle _ 1 rfl))
  have h₄ := h₃.snoc (show Team.Step _ _ 0 wake _ from .answer rfl _)
  have h₅ := h₄.snoc (show Team.Step _ _ 1 failure _ from .answer rfl _)
  exact ⟨_, _, _, _, _, h₅, rfl⟩

theorem log_transient (c₁ c₂ c₃ c₄ : Callers ℕ ℕ) :
    ∀ visit ∈ log c₁ c₂ c₃ c₄, Transient visit.turn := by
  intro visit hVisit
  simp only [log, List.mem_cons, List.not_mem_nil, or_false] at hVisit
  rcases hVisit with rfl | rfl | rfl | rfl | rfl
  · trivial
  · exact down_retryable
  · trivial
  · exact rfl
  · exact down_retryable

/-- After its one failure, the second call raises. -/
theorem not_always_budgeted : ¬∀ (retry : RetryPolicy) (log : Turns ℕ ℕ) (c : Callers ℕ ℕ),
    Team.Run (retry.calls ℕ) fresh log c → (∀ visit ∈ log, Transient visit.turn) →
      ∀ i, Budgeted retry (own i log) (c.calls i) := by
  intro hAlways
  obtain ⟨c₁, c₂, c₃, c₄, c, hRun, hRaised⟩ := run_log
  have hBudget := hAlways retry _ c hRun (log_transient c₁ c₂ c₃ c₄) 1
  have hTooFew : (max 1 2 : ℤ) ≤ (1 : ℕ) := hBudget.raised down hRaised down_retryable
  omega

theorem budgets_iff_log : ∃ c₁ c₂ c₃ c₄ c, AlwaysBudgeted retry (log c₁ c₂ c₃ c₄) c ↔
    Throughout (Undisturbed retry) (log c₁ c₂ c₃ c₄) := by
  obtain ⟨c₁, c₂, c₃, c₄, c, hRun, -⟩ := run_log
  exact ⟨c₁, c₂, c₃, c₄, c, budgets_iff hRun (log_transient c₁ c₂ c₃ c₄)⟩

end Stolen

end TradingAgent.Tooling
