import TradingAgent.Tooling.Tripping
import TradingAgent.Coroutine.Tracking

/-!
# Recovery of the breaker

Any number of callers share a policy, and their calls interleave. The counters of the breaker
are those of the answers of the wrapped function, in the order of their arrival: a state is
recoverable, by further calls alone, exactly if the breaker has never tripped
(`recoverable_iff`). There is no half-open state; an outage outlives its end (`Outlived`).
-/

namespace TradingAgent.Tooling

open Coroutine Coro Shared

section

variable {T : Type}

/-- The outcome of an attempt, if the turn ends one: the answer of the wrapped function, or
what is raised in the limiter. -/
def ended? (visit : Team.Visit Fields Raised (Ret T) ℕ T) : Option (Except Raised T) :=
  match visit.turn with
  | .answer .invoke r => some r
  | .answer .acquire (.error e) => some (.error e)
  | _ => none

/-- The outcomes of the attempts, in the order in which they ended. -/
def ended (log : Turns T ℕ) : List (Except Raised T) := log.filterMap ended?

/-- The breaker, as an observer of the fields. -/
def CircuitBreaker.observer (breaker : CircuitBreaker) (T : Type) :
    Observer Fields Raised (Ret T) (ℕ × Bool) where
  view := Fields.counters
  track
    | v, .invoke, r => breaker.observe v r
    | v, .acquire, .ok _ => v
    | v, .acquire, .error e => breaker.observe v (.error e : Except Raised T)
    | v, .sleep _, _ => v

/-- Further calls of the policy, without a reset, bring the wrapped function to be invoked
again by a call of theirs; and if it then returns `result`, the breaker is closed and has
counted no failure. -/
def Recoverable (policy : Policy) (result : T) (c : Callers T ℕ) : Prop :=
  ∃ log c' before i resume, Team.Run policy.run c log c' ∧ ⟨before, i, .start⟩ ∈ log ∧
    c'.calls i = some (await (.ext .invoke) resume) ∧
    (c'.resumed policy.run i (resume (.ok result))).state.opened = false ∧
    (c'.resumed policy.run i (resume (.ok result))).state.failures = 0

variable {policy : Policy} {breaker : CircuitBreaker} {log : Turns T ℕ} {c : Callers T ℕ}

/-! ## The breaker as an observer -/

theorem tracks_limited {Q : Except Raised T → ℕ × Bool → Fields → Prop} {v : ℕ × Bool}
    {s : Fields} (hView : s.counters = v)
    (hQ : ∀ r s, Q r (breaker.observe s.counters r) s) :
    Tracks (breaker.observer T) policy.limited Q v s := by
  unfold Policy.limited
  split
  · refine Tracks.bind (Tracks.ask hView fun r s' => ?_)
    cases r with
    | ok u => exact Tracks.ask rfl hQ
    | error e => exact hQ (.error e) s'
  · exact Tracks.ask hView hQ

/-- An attempt changes the counters as its outcome says. -/
theorem tracks_core (hBreaker : policy.breaker = some breaker)
    {Q : Except Raised T → ℕ × Bool → Fields → Prop} {v : ℕ × Bool} {s : Fields}
    (hView : s.counters = v) (hQ : ∀ out s, Q out s.counters s) :
    Tracks (breaker.observer T) policy.core Q v s := by
  subst hView
  unfold Policy.core
  rw [hBreaker]
  show Tracks (breaker.observer T) (breaker.run policy.limited) Q _ s
  unfold CircuitBreaker.run
  rw [Tracks.get_bind_iff]
  split
  · exact hQ _ s
  · refine Tracks.bind (Tracks.attempt (tracks_limited rfl fun r s' => ?_))
    match r with
    | .ok result => exact hQ (.ok result) { s' with failures := 0 }
    | .error (.exception name) => exact hQ _ s'
    | .error (.interrupt name) => exact hQ _ s'
    | .error (.domain exc) =>
      show Tracks (breaker.observer T) (Shared.modify _ >>= _) Q _ s'
      rw [Tracks.modify_bind_iff, Tracks.get_bind_iff]
      split
      · next hReached =>
        rw [Tracks.modify_bind_iff, Tracks.raise_iff]
        change breaker.failureThreshold ≤ (s'.failures + 1 : ℕ) at hReached
        have hCount : breaker.observe s'.counters (.error (.domain exc) : Except Raised T) =
            Fields.counters { s' with failures := s'.failures + 1, opened := true } := by
          have hFlag : (s'.opened || decide (breaker.failureThreshold ≤ (s'.failures + 1 : ℕ))) =
              true := by
            rw [decide_eq_true hReached, Bool.or_true]
          exact congrArg (Prod.mk _) hFlag
        rw [hCount]
        exact hQ _ _
      · next hBelow =>
        rw [Tracks.raise_iff]
        change ¬breaker.failureThreshold ≤ (s'.failures + 1 : ℕ) at hBelow
        have hCount : breaker.observe s'.counters (.error (.domain exc) : Except Raised T) =
            Fields.counters { s' with failures := s'.failures + 1 } := by
          have hFlag : (s'.opened || decide (breaker.failureThreshold ≤ (s'.failures + 1 : ℕ))) =
              s'.opened := by
            rw [decide_eq_false hBelow, Bool.or_false]
          exact congrArg (Prod.mk _) hFlag
        rw [hCount]
        exact hQ _ _

/-- The retry loop changes its own counter only. -/
theorem tracks_round (hBreaker : policy.breaker = some breaker) (retry : RetryPolicy)
    (s : Fields) :
    Tracks (breaker.observer T) (retry.round policy.core) (breaker.observer T).Keeps s.counters
      s := by
  unfold RetryPolicy.round
  rw [Tracks.modify_bind_iff]
  refine Tracks.bind (Tracks.attempt (tracks_core hBreaker rfl fun out s' => ?_))
  match out with
  | .ok result => rfl
  | .error (.exception name) => rfl
  | .error (.interrupt name) => rfl
  | .error (.domain exc) =>
    show Tracks (breaker.observer T) (get >>= _) _ _ s'
    rw [Tracks.get_bind_iff]
    split
    · rfl
    · refine Tracks.bind (Tracks.ask rfl fun r s'' => ?_)
      cases r with
      | ok u => rfl
      | error e => rfl

theorem run_tracks (hBreaker : policy.breaker = some breaker) :
    (policy.run (T := T)).Tracks (breaker.observer T) := by
  unfold Policy.run
  cases policy.retry with
  | none =>
    have hCore (s : Fields) : Tracks (breaker.observer T) (some <$> policy.core)
        (breaker.observer T).Keeps s.counters s := by
      rw [map_eq_pure_bind]
      refine Tracks.bind (tracks_core hBreaker rfl fun out s' => ?_)
      cases out with
      | ok result => rfl
      | error e => rfl
    exact ⟨hCore, hCore⟩
  | some retry => exact ⟨fun s => tracks_round hBreaker retry { s with attempts := 0 },
      tracks_round hBreaker retry⟩

theorem observe_ended (v : ℕ × Bool) (log : Turns T ℕ) :
    log.foldl (Team.Visit.observe (breaker.observer T)) v =
      (ended log).foldl breaker.observe v := by
  induction log generalizing v with
  | nil => rfl
  | cons visit log ih =>
    rw [List.foldl_cons, ih]
    obtain ⟨before, i, turn⟩ := visit
    match turn with
    | .start => rfl
    | .answer .invoke r => rfl
    | .answer .acquire (.ok u) => rfl
    | .answer .acquire (.error e) => rfl
    | .answer (.sleep n) r => rfl

/-- **The counters of a shared policy**, at any time. -/
theorem counters_eq (hBreaker : policy.breaker = some breaker)
    (h : Team.Run policy.run fresh log c) :
    c.state.counters = breaker.after (ended log) := by
  have hView := h.view_eq (run_tracks hBreaker) (by rintro i ⟨op, resume, hCall⟩; cases hCall)
  rw [observe_ended] at hView
  exact hView

/-! ## Recovery -/

/-- While the breaker is closed, a call invokes the wrapped function, or it waits for the
limiter and invokes it then. -/
theorem enters (policy : Policy) {s : Fields} (hClosed : s.opened = false) :
    (∃ resume, (policy.run.advance s policy.run.first).1 =
        (await (.ext .invoke) resume : Call T (Option T))) ∨
      ∃ resume, (policy.run.advance s policy.run.first).1 =
          (await (.ext .acquire) resume : Call T (Option T)) ∧
        ∀ s', ∃ resume',
          (policy.run.advance s' (resume (.ok ()))).1 = await (.ext .invoke) resume' := by
  obtain ⟨attempts, failures, opened⟩ := s
  subst hClosed
  obtain ⟨retry, breaker, limiter⟩ := policy
  cases limiter with
  | false => cases retry <;> cases breaker <;> exact .inl ⟨_, rfl⟩
  | true => cases retry <;> cases breaker <;> exact .inr ⟨_, rfl, fun s' => ⟨_, rfl⟩⟩

theorem ended_append (log log' : Turns T ℕ) : ended (log ++ log') = ended log ++ ended log' :=
  List.filterMap_append

/-- After a success the breaker is as open as it was, and has counted no failure. -/
theorem counters_of_success (hBreaker : policy.breaker = some breaker)
    (h : Team.Run policy.run fresh log c) {i : ℕ}
    {resume : Except Raised (Ret T .invoke) → Call T (Option T)}
    (hCall : c.calls i = some (await (.ext .invoke) resume)) (result : T) :
    (c.resumed policy.run i (resume (.ok result))).state.counters =
      (0, (breaker.after (ended log)).2) := by
  have hNext := counters_eq hBreaker (h.snoc (.answer hCall (.ok result)))
  rw [ended_append] at hNext
  rw [hNext]
  exact after_append_singleton

/-- Once it has tripped, no continuation closes the breaker. -/
theorem not_recoverable_of_tripped (hBreaker : policy.breaker = some breaker) (result : T)
    (h : Team.Run policy.run fresh log c) (hTripped : breaker.Tripped (ended log)) :
    ¬Recoverable policy result c := by
  rintro ⟨more, c', before, i, resume, hMore, -, hCall, hOpened, -⟩
  have hCounters := counters_of_success hBreaker (h.trans hMore) hCall result
  have hFlag := congrArg Prod.snd hCounters
  have hStill : breaker.Tripped (ended (log ++ more)) := by
    rw [ended_append]
    exact hTripped.append _
  rw [opened_iff_tripped.mpr hStill] at hFlag
  exact absurd (hOpened.symm.trans hFlag) Bool.false_ne_true

/-- **Recovery.** -/
theorem recoverable_iff (hBreaker : policy.breaker = some breaker) (result : T)
    (h : Team.Run policy.run fresh log c) :
    Recoverable policy result c ↔ ¬breaker.Tripped (ended log) := by
  constructor
  · intro hRecoverable hTripped
    exact not_recoverable_of_tripped hBreaker result h hTripped hRecoverable
  · intro hNot
    have hClosed : c.state.opened = false := by
      have hFlag := congrArg Prod.snd (counters_eq hBreaker h)
      rw [← opened_iff_tripped, ← hFlag, Bool.not_eq_true] at hNot
      exact hNot
    obtain ⟨n, hFree⟩ := h.idle_from (n := 0) fun i _ => rfl
    have hIdle : ¬Running (c.calls n) := by
      rw [hFree n (Nat.le_refl n)]
      rintro ⟨op, resume, hCall⟩
      cases hCall
    let entered := c.resumed policy.run n policy.run.first
    have hStart : Team.Run policy.run c [⟨c, n, .start⟩] entered := Team.Run.nil.snoc (.start hIdle)
    have hSelf : entered.calls n = some (policy.run.advance c.state policy.run.first).1 :=
      Function.update_self ..
    -- It is enough to reach the invocation without the end of an attempt.
    have hReach {more : Turns T ℕ} {c' : Callers T ℕ}
        {resume : Except Raised (Ret T .invoke) → Call T (Option T)}
        (hMore : Team.Run policy.run c more c') (hStarted : ⟨c, n, .start⟩ ∈ more)
        (hNone : ended more = []) (hCall : c'.calls n = some (await (.ext .invoke) resume)) :
        Recoverable policy result c := by
      have hCounters := counters_of_success hBreaker (h.trans hMore) hCall result
      rw [ended_append, hNone, List.append_nil, ← counters_eq hBreaker h] at hCounters
      exact ⟨more, c', c, n, resume, hMore, hStarted, hCall,
        (congrArg Prod.snd hCounters).trans hClosed, congrArg Prod.fst hCounters⟩
    rcases enters policy hClosed with ⟨resume, hInvoke⟩ | ⟨resume, hAcquire, hInvoke⟩
    · rw [hInvoke] at hSelf
      exact hReach hStart (List.mem_singleton_self _) rfl hSelf
    · rw [hAcquire] at hSelf
      obtain ⟨resume', hNext⟩ := hInvoke entered.state
      have hCall : (entered.resumed policy.run n (resume (.ok ()))).calls n =
          some (await (.ext .invoke) resume') := by
        rw [← hNext]
        exact Function.update_self ..
      refine hReach (hStart.snoc (.answer hSelf (.ok ()))) ?_ rfl hCall
      exact List.mem_append_left _ (List.mem_singleton_self _)

end

namespace Outlived

/-! One failure opens a breaker of threshold one, for good. -/

def breaker : CircuitBreaker where failureThreshold := 1

def policy : Policy where breaker := some breaker

def down : DomainError where
  cls := .providerUnavailableError
  message := "down"

def invoked : Callers ℕ ℕ := fresh.resumed policy.run 0 policy.run.first

def log : Turns ℕ ℕ :=
  [⟨fresh, 0, .start⟩, ⟨invoked, 0, .answer .invoke (.error (Raised.domain down))⟩]

theorem run_log : ∃ c, Team.Run policy.run fresh log c := by
  have hIdle : ¬Running ((fresh : Callers ℕ ℕ).calls 0) := by
    rintro ⟨op, resume, hCall⟩
    cases hCall
  have hStart : Team.Run policy.run fresh [⟨fresh, 0, .start⟩] invoked :=
    Team.Run.nil.snoc (.start hIdle)
  exact ⟨_, hStart.snoc (.answer rfl (.error (Raised.domain down)))⟩

theorem recoverable_iff_log : ∃ c, Team.Run policy.run fresh log c ∧
    (Recoverable policy 0 c ↔ ¬breaker.Tripped (ended log)) := by
  obtain ⟨c, hRun⟩ := run_log
  exact ⟨c, hRun, recoverable_iff rfl 0 hRun⟩

theorem tripped : breaker.Tripped (ended log) := opened_iff_tripped.mp rfl

theorem not_always_recoverable : ¬∀ (policy : Policy) (breaker : CircuitBreaker),
    policy.breaker = some breaker → ∀ (log : Turns ℕ ℕ) (c : Callers ℕ ℕ),
      Team.Run policy.run fresh log c → ∀ result, Recoverable policy result c := by
  intro hAlways
  obtain ⟨c, hRun⟩ := run_log
  exact not_recoverable_of_tripped rfl 0 hRun tripped (hAlways policy breaker rfl log c hRun 0)

end Outlived

end TradingAgent.Tooling
