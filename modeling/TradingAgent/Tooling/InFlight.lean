import TradingAgent.Coroutine.Contracts
import TradingAgent.Tooling.Recovery
import Mathlib.Algebra.Order.BigOperators.Group.Finset

/-!
# Attempts in flight

A caller that has passed the check of the breaker is not stopped when another caller opens it.
So callers that share a policy may have attempts in flight when the breaker opens. Those end,
each once, and from then on nothing is invoked: an attempt is entered only while the breaker
is closed (`heeds_core`), whatever the callers of the policy do in the meantime.

The budget of failing attempts is then the threshold, and one attempt of each other caller
(`attempts_bounded`).
-/

namespace TradingAgent.Tooling

open Coroutine Coro Shared

section

variable {T : Type}

/-- While the breaker is open, a call awaits its backoff, or the function for which it holds
the permission of the limiter; and it returns what the function has just answered. -/
def shutting (T : Type) : Contract Fields Raised (Ret T) (Option T) where
  may turn fields op := fields.opened = true →
    (∃ n, op = .sleep n) ∨ turn = .answer .acquire (.ok ()) ∧ op = .invoke
  ends turn out := ∀ result, out = .ok (some result) → turn = .answer .invoke (.ok result)

/-- What the end of an attempt was: only what the function has answered is a result. -/
def Answered (out : Except Raised T) (turn : Move Raised (Ret T)) : Prop :=
  ∀ result, out = .ok result → turn = .answer .invoke (.ok result)

theorem Answered.error (e : Raised) (turn : Move Raised (Ret T)) :
    Answered (.error e : Except Raised T) turn := fun _ h => nomatch h

variable {policy : Policy} {breaker : CircuitBreaker} {turn : Move Raised (Ret T)} {s : Fields}

theorem heeds_limited (hClosed : s.opened = false) :
    Heeds (shutting T).may policy.limited Answered turn s := by
  have hEnter (op : Op) : (shutting T).may turn s op := fun hOpened =>
    absurd (hClosed.symm.trans hOpened) Bool.false_ne_true
  have hInvoked (r : Except Raised T) : Answered r (.answer .invoke r) := by
    rintro result rfl
    rfl
  unfold Policy.limited
  split
  · refine Heeds.bind (P := fun out turn => out = .ok () → turn = .answer .acquire (.ok ()))
      (Heeds.ask (hEnter _) ?_) ?_ fun e turn _ => .error e turn
    · rintro r rfl
      rfl
    · intro _ turn s hGranted
      exact Heeds.ask (fun _ => .inr ⟨hGranted rfl, rfl⟩) hInvoked
  · exact Heeds.ask (hEnter _) hInvoked

/-- An attempt is entered only while the breaker is closed. -/
theorem heeds_core (hBreaker : policy.breaker = some breaker) :
    Heeds (shutting T).may policy.core Answered turn s := by
  unfold Policy.core
  rw [hBreaker]
  show Heeds (shutting T).may (breaker.run policy.limited) Answered turn s
  unfold CircuitBreaker.run
  rw [Heeds.get_bind_iff]
  split
  · exact .error _ turn
  · next hClosed =>
    refine Heeds.attempt_bind (heeds_limited (Bool.not_eq_true _ ▸ hClosed))
      fun out turn s hAnswered => ?_
    match out with
    | .ok result => exact hAnswered
    | .error (.exception name) => exact .error _ turn
    | .error (.interrupt name) => exact .error _ turn
    | .error (.domain exc) =>
      show Heeds (shutting T).may (Shared.modify _ >>= _) Answered turn s
      rw [Heeds.modify_bind_iff, Heeds.get_bind_iff]
      split
      · exact .error _ turn
      · exact .error _ turn

theorem heeds_round (hBreaker : policy.breaker = some breaker) (retry : RetryPolicy) :
    (shutting T).Kept (retry.round policy.core) turn s := by
  have hRaise (e : Raised) (turn : Move Raised (Ret T)) : (shutting T).ends turn (.error e) :=
    fun _ h => nomatch h
  unfold Contract.Kept RetryPolicy.round
  rw [Heeds.modify_bind_iff]
  refine Heeds.attempt_bind (heeds_core hBreaker) fun out turn s hAnswered => ?_
  match out with
  | .ok result => exact fun _ hEq => hAnswered _ (Option.some.inj (Except.ok.inj hEq) ▸ rfl)
  | .error (.exception name) => exact hRaise _ turn
  | .error (.interrupt name) => exact hRaise _ turn
  | .error (.domain exc) =>
    show Heeds (shutting T).may (get >>= _) _ turn s
    rw [Heeds.get_bind_iff]
    split
    · exact hRaise _ turn
    · refine Heeds.bind (P := fun _ _ => True)
        (Heeds.ask (fun _ => .inl ⟨_, rfl⟩) fun _ => trivial) ?_ fun e turn _ => hRaise e turn
      intro _ turn s _
      exact fun _ hEq => nomatch hEq

theorem run_heeds (hBreaker : policy.breaker = some breaker) :
    (policy.run (T := T)).Heeds (shutting T) := by
  unfold Policy.run
  cases policy.retry with
  | none =>
    have hCore (turn : Move Raised (Ret T)) (s : Fields) :
        (shutting T).Kept (some <$> policy.core) turn s := by
      rw [map_eq_pure_bind]
      refine Heeds.bind (heeds_core hBreaker) (fun result turn s hAnswered => ?_)
        fun e turn _ _ hEq => nomatch hEq
      exact fun _ hEq => hAnswered _ (Option.some.inj (Except.ok.inj hEq) ▸ rfl)
    exact ⟨fun s => hCore .start s, fun turn s _ => hCore turn s⟩
  | some retry =>
    exact ⟨fun _ => heeds_round hBreaker retry, fun _ _ _ => heeds_round hBreaker retry⟩

/-! ## Moves -/

/-- The attempts that a call is in: it waits for the limiter or for the function. -/
def attempting : Option (Call T (Option T)) → ℕ
  | some (await (.ext .acquire) _) => 1
  | some (await (.ext .invoke) _) => 1
  | _ => 0

theorem attempting_le_one (call : Option (Call T (Option T))) : attempting call ≤ 1 := by
  unfold attempting
  split <;> omega

/-- While the breaker is open, only the permission of the limiter leads on into an attempt. -/
theorem attempting_eq_zero {m : Call T (Option T)} (hSettled : (shutting T).Settled m turn s)
    (hOpened : s.opened = true) (hNot : turn ≠ .answer .acquire (.ok ())) :
    attempting (some m) = 0 := by
  have hMay {op : Op} {resume : Except Raised (Ret T op) → Call T (Option T)}
      (hAwait : m = await (.ext op) resume) : ∃ n, op = .sleep n := by
    rcases hSettled.may op resume hAwait hOpened with hSleep | ⟨hGranted, -⟩
    · exact hSleep
    · exact absurd hGranted hNot
  unfold attempting
  split
  · next hEq =>
    obtain ⟨n, hSleep⟩ := hMay (Option.some.inj hEq)
    cases hSleep
  · next hEq =>
    obtain ⟨n, hSleep⟩ := hMay (Option.some.inj hEq)
    cases hSleep
  · rfl

variable {log more : Turns T ℕ} {c c' : Callers T ℕ} {i : ℕ}

/-- The attempt that a move ends, and the one that its caller is in after it, are the one that
the caller was in. -/
theorem attempting_move (hBreaker : policy.breaker = some breaker)
    (hHeld : Team.Held (shutting T) c) (hStep : Team.Step policy.run c i turn c')
    (hOpened : c'.state.opened = true) :
    (ended [⟨c, i, turn⟩]).length + attempting (c'.calls i) ≤ attempting (c.calls i) := by
  obtain ⟨⟨m, hCall, hSettled⟩, -⟩ := hHeld.step (run_heeds hBreaker) hStep
  have hZero := attempting_eq_zero hSettled hOpened
  rw [← hCall] at hZero
  cases hStep with
  | start hFree =>
    rw [hZero nofun]
    exact Nat.zero_le _
  | @answer op resume hBefore r =>
    rw [hBefore]
    cases op with
    | sleep n =>
      rw [hZero nofun]
      exact Nat.zero_le _
    | invoke =>
      rw [hZero nofun]
      exact Nat.le_refl 1
    | acquire =>
      cases r with
      | error e =>
        rw [hZero nofun]
        exact Nat.le_refl 1
      | ok granted =>
        show 0 + attempting _ ≤ 1
        rw [Nat.zero_add]
        exact attempting_le_one _

/-! ## Runs -/

/-- The outcomes of the attempts of a caller. -/
def endedBy (i : ℕ) (log : Turns T ℕ) : List (Except Raised T) :=
  ended (log.filter fun visit => visit.caller = i)

theorem endedBy_append (i : ℕ) (log more : Turns T ℕ) :
    endedBy i (log ++ more) = endedBy i log ++ endedBy i more := by
  rw [endedBy, List.filter_append, ended_append]
  rfl

theorem fresh_held : Team.Held (shutting T) (fresh : Callers T ℕ) :=
  .of_idle fun _ ⟨_, _, hCall⟩ => nomatch hCall

theorem opened_iff (hBreaker : policy.breaker = some breaker)
    (h : Team.Run policy.run fresh log c) :
    c.state.opened = true ↔ breaker.Tripped (ended log) := by
  rw [← opened_iff_tripped, ← counters_eq hBreaker h]
  rfl

/-- The breaker stays open. -/
theorem opened_run (hBreaker : policy.breaker = some breaker)
    (h : Team.Run policy.run fresh log c) (hOpened : c.state.opened = true)
    (hMore : Team.Run policy.run c more c') : c'.state.opened = true := by
  rw [opened_iff hBreaker (h.trans hMore), ended_append]
  exact ((opened_iff hBreaker h).mp hOpened).append _

/-- **An open breaker drains.** Once it is open, it stays open in every interleaving. A caller
that was in an attempt then may end it, and one that was not ends none; and what a call returns
from then on is the answer to the attempt in which the opening has found it. -/
theorem opened_drains (hBreaker : policy.breaker = some breaker)
    (h : Team.Run policy.run fresh log c) (hOpened : c.state.opened = true)
    (hMore : Team.Run policy.run c more c') :
    c'.state.opened = true ∧ ∀ i,
      (endedBy i more).length + attempting (c'.calls i) ≤ attempting (c.calls i) ∧
        ∀ result, c'.calls i = some (ret (some result)) →
          c.calls i = some (ret (some result)) ∨ endedBy i more = [.ok result] := by
  refine ⟨opened_run hBreaker h hOpened hMore, ?_⟩
  have hHeeds := run_heeds (T := T) hBreaker
  have hHeld := h.heeded hHeeds fresh_held
  induction hMore with
  | nil =>
    intro i
    exact ⟨(Nat.zero_add _).le, fun result hCall => .inl hCall⟩
  | @snoc more c₁ c₂ j turn hRun hStep ih =>
    intro i
    obtain ⟨hLength, hReturned⟩ := ih i
    have hHeld₁ := hRun.heeded hHeeds hHeld
    have hOpened₂ := opened_run hBreaker h hOpened (hRun.snoc hStep)
    rw [endedBy_append]
    obtain ⟨⟨m, hCall, hSettled⟩, hOthers⟩ := hHeld₁.step hHeeds hStep
    by_cases hSame : i = j
    · subst hSame
      have hOne : endedBy i [⟨c₁, i, turn⟩] = ended [⟨c₁, i, turn⟩] := by
        rw [endedBy, List.filter_singleton, decide_eq_true rfl]
        rfl
      have hMove := attempting_move hBreaker hHeld₁ hStep hOpened₂
      rw [hOne, List.length_append]
      refine ⟨by omega, fun result hRet => .inr ?_⟩
      rw [hCall, Option.some.injEq] at hRet
      have hTurn := hSettled.ends _ hRet result rfl
      subst hTurn
      have hEnded : ended [⟨c₁, i, .answer .invoke (.ok result)⟩] = [Except.ok result] := rfl
      rw [hEnded, List.length_singleton] at hMove
      have hNone : (endedBy i more).length = 0 := by
        have hInside := attempting_le_one (c.calls i)
        omega
      rw [hEnded, List.length_eq_zero_iff.mp hNone]
      rfl
    · have hNone : endedBy i [⟨c₁, j, turn⟩] = [] := by
        rw [endedBy, List.filter_singleton, decide_eq_false (Ne.symm hSame)]
        rfl
      rw [hNone, List.append_nil, hOthers i hSame]
      exact ⟨hLength, hReturned⟩

/-! ## The budget of the callers -/

theorem not_succeeded {r : Except Raised T} (h : failed r = true) : succeeded r = false := by
  cases r with
  | ok result => cases h
  | error e => rfl

/-- While the breaker is closed, a series of failing attempts is shorter than its threshold. -/
theorem length_lt (hBreaker : policy.breaker = some breaker)
    (h : Team.Run policy.run fresh (log ++ more) c) (hClosed : c.state.opened = false)
    (hFailed : ∀ r ∈ ended more, failed r = true) :
    ((ended more).length : ℤ) < max 1 breaker.failureThreshold := by
  by_contra hReached
  have hCount : (ended more).countP failed = (ended more).length :=
    List.countP_eq_length.mpr hFailed
  have hTripped : breaker.Tripped (ended (log ++ more)) :=
    ⟨ended log, ended more, [], by rw [ended_append, List.append_nil],
      fun r hr => not_succeeded (hFailed r hr), hCount ▸ not_lt.mp hReached⟩
  rw [← opened_iff hBreaker h, hClosed] at hTripped
  exact Bool.false_ne_true hTripped

/-- A move that leaves the breaker open does not add to the attempts of all callers. -/
theorem sum_attempting (hBreaker : policy.breaker = some breaker)
    (hHeld : Team.Held (shutting T) c) (hStep : Team.Step policy.run c i turn c')
    (hOpened : c'.state.opened = true) {callers : Finset ℕ} (hCaller : i ∈ callers) :
    (ended [⟨c, i, turn⟩]).length + ∑ j ∈ callers, attempting (c'.calls j) ≤
      ∑ j ∈ callers, attempting (c.calls j) := by
  obtain ⟨-, hOthers⟩ := hHeld.step (run_heeds hBreaker) hStep
  have hRest : ∑ j ∈ callers.erase i, attempting (c'.calls j) =
      ∑ j ∈ callers.erase i, attempting (c.calls j) :=
    Finset.sum_congr rfl fun j hj => by rw [hOthers j (Finset.ne_of_mem_erase hj)]
  rw [← Finset.add_sum_erase _ _ hCaller, ← Finset.add_sum_erase _ _ hCaller, hRest, ← add_assoc]
  exact Nat.add_le_add_right (attempting_move hBreaker hHeld hStep hOpened) _

theorem sum_attempting_le (c : Callers T ℕ) (callers : Finset ℕ) :
    ∑ j ∈ callers, attempting (c.calls j) ≤ callers.card :=
  (Finset.sum_le_card_nsmul _ _ 1 fun j _ => attempting_le_one _).trans (by simp)

/-- **The budget of the callers.** Whatever the callers of a policy do, in any interleaving and
from any state: if all their attempts fail, then the attempts that end, and those in flight, are
at most the threshold and one more for each further caller. -/
theorem attempts_bounded (hBreaker : policy.breaker = some breaker)
    (h : Team.Run policy.run fresh log c) (hMore : Team.Run policy.run c more c')
    (hFailed : ∀ r ∈ ended more, failed r = true) (callers : Finset ℕ)
    (hCallers : ∀ visit ∈ more, visit.caller ∈ callers) :
    (((ended more).length + ∑ j ∈ callers, attempting (c'.calls j) : ℕ) : ℤ) ≤
      max 1 breaker.failureThreshold + callers.card - 1 := by
  induction hMore with
  | nil =>
    have hSum := sum_attempting_le c callers
    have hNone : (ended ([] : Turns T ℕ)).length = 0 := rfl
    omega
  | @snoc more c₁ c₂ i turn hRun hStep ih =>
    have hEnded := ended_append more [⟨c₁, i, turn⟩]
    have hFirst : ∀ r ∈ ended more, failed r = true := fun r hr =>
      hFailed r (hEnded ▸ List.mem_append_left _ hr)
    have hSum₂ := sum_attempting_le c₂ callers
    by_cases hOpened₂ : c₂.state.opened = true
    · have hMove := sum_attempting hBreaker
        ((h.trans hRun).heeded (run_heeds hBreaker) fresh_held) hStep hOpened₂
        (hCallers _ (List.mem_append_right _ (List.mem_singleton_self _)))
      by_cases hOpened₁ : c₁.state.opened = true
      · have hSpent := ih hFirst fun visit hVisit => hCallers visit (List.mem_append_left _ hVisit)
        rw [hEnded, List.length_append]
        omega
      · have hBelow := length_lt hBreaker (h.trans hRun) (Bool.not_eq_true _ ▸ hOpened₁) hFirst
        have hSum₁ := sum_attempting_le c₁ callers
        rw [hEnded, List.length_append]
        omega
    · have hBelow := length_lt hBreaker (h.trans (hRun.snoc hStep))
        (Bool.not_eq_true _ ▸ hOpened₂) hFailed
      omega

end

namespace Crowded

/-! Two callers have passed the check when the first failure opens a breaker of threshold one. -/

def breaker : CircuitBreaker where failureThreshold := 1

def policy : Policy where breaker := some breaker

def failure : Move Raised (Ret ℕ) :=
  .answer .invoke (.error (.domain { cls := .providerUnavailableError, message := "down" }))

def first : Callers ℕ ℕ := fresh.resumed policy.run 0 policy.run.first

def second : Callers ℕ ℕ := first.resumed policy.run 1 policy.run.first

def log : Turns ℕ ℕ := [⟨fresh, 0, .start⟩, ⟨first, 1, .start⟩, ⟨second, 0, failure⟩]

theorem run_log : ∃ tripped, Team.Run policy.run fresh log tripped ∧ tripped.state.opened = true ∧
    ∃ resume, tripped.calls 1 = some (await (.ext .invoke) resume) ∧
      ∀ r, (policy.run.advance tripped.state (resume (.ok r))).1 = ret (some r) := by
  have hStart : Team.Run policy.run fresh [⟨fresh, 0, .start⟩, ⟨first, 1, .start⟩] second :=
    (Team.Run.nil.snoc (.start fun ⟨_, _, hCall⟩ => nomatch hCall)).snoc
      (.start fun ⟨_, _, hCall⟩ => nomatch hCall)
  exact ⟨_, hStart.snoc (.answer rfl _), rfl, _, rfl, fun r => rfl⟩

/-- The second caller gets its result, and the breaker stays open. -/
theorem log_drains : ∃ (tripped drained : Callers ℕ ℕ) (more : Turns ℕ ℕ),
    Team.Run policy.run fresh log tripped ∧ Team.Run policy.run tripped more drained ∧
    drained.calls 1 = some (ret (some 7)) ∧
    drained.state.opened = true ∧ ∀ i,
      (endedBy i more).length + attempting (drained.calls i) ≤ attempting (tripped.calls i) ∧
        ∀ result, drained.calls i = some (ret (some result)) →
          tripped.calls i = some (ret (some result)) ∨ endedBy i more = [.ok result] := by
  obtain ⟨tripped, hLog, hOpened, resume, hCall, hReturns⟩ := run_log
  have hMore : Team.Run policy.run tripped [⟨tripped, 1, .answer .invoke (.ok 7)⟩]
      (tripped.resumed policy.run 1 (resume (.ok 7))) := Team.Run.nil.snoc (.answer hCall _)
  refine ⟨tripped, _, _, hLog, hMore, ?_, opened_drains rfl hLog hOpened hMore⟩
  rw [← hReturns]
  exact Function.update_self 1 _ tripped.calls

/-- The budget is spent: the second attempt fails as well. -/
theorem budget_spent : ∃ (more : Turns ℕ ℕ) (c : Callers ℕ ℕ),
    Team.Run policy.run fresh more c ∧ (ended more).length = 2 ∧
    (((ended more).length + ∑ j ∈ {0, 1}, attempting (c.calls j) : ℕ) : ℤ) ≤
      max 1 breaker.failureThreshold + ({0, 1} : Finset ℕ).card - 1 := by
  obtain ⟨tripped, hLog, -, resume, hCall, -⟩ := run_log
  have hMore := hLog.snoc (.answer hCall (.error (.domain circuitOpen)))
  refine ⟨_, _, hMore, rfl, attempts_bounded rfl .nil hMore ?_ {0, 1} ?_⟩
  · intro r hr
    rcases List.mem_pair.mp hr with rfl | rfl <;> rfl
  · intro visit hVisit
    simp only [log, List.mem_append, List.mem_cons, List.not_mem_nil, or_false] at hVisit
    have hZero : 0 ∈ ({0, 1} : Finset ℕ) := by decide
    have hOne : 1 ∈ ({0, 1} : Finset ℕ) := by decide
    rcases hVisit with (rfl | rfl | rfl) | rfl
    · exact hZero
    · exact hOne
    · exact hZero
    · exact hOne

end Crowded

end TradingAgent.Tooling
