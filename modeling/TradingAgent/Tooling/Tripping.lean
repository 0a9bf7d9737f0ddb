import TradingAgent.Tooling.Policy
import TradingAgent.Word.Streaks

/-!
# What opens the breaker

The counters of the breaker are a function of the answers of the wrapped function, in the
order in which they arrive. The breaker is open exactly when, at some time, the threshold of
failures has been reached without a success among them (`opened_iff_tripped`).
-/

namespace TradingAgent.Tooling

variable {T : Type}

/-- The fields of the breaker. -/
def Fields.counters (fields : Fields) : ℕ × Bool := (fields.failures, fields.opened)

namespace CircuitBreaker

variable (breaker : CircuitBreaker)

/-- What an answer makes of the counter and of the flag. -/
def observe (v : ℕ × Bool) : Except Raised T → ℕ × Bool
  | .ok _ => (0, v.2)
  | .error (.domain _) =>
    (v.1 + 1, v.2 || decide (breaker.failureThreshold ≤ (v.1 + 1 : ℕ)))
  | .error _ => v

/-- The counter and the flag after these answers. -/
def after (answers : List (Except Raised T)) : ℕ × Bool := answers.foldl breaker.observe (0, false)

/-- The threshold has been reached, without a success in between. -/
def Tripped (answers : List (Except Raised T)) : Prop :=
  ∃ before block rest, answers = before ++ block ++ rest ∧ (∀ r ∈ block, succeeded r = false) ∧
    max 1 breaker.failureThreshold ≤ block.countP failed

end CircuitBreaker

variable {breaker : CircuitBreaker} {answers : List (Except Raised T)} {r : Except Raised T}

@[simp] theorem after_append_singleton :
    breaker.after (answers ++ [r]) = breaker.observe (breaker.after answers) r := by
  unfold CircuitBreaker.after
  rw [List.foldl_append]
  rfl

theorem after_append (answers more : List (Except Raised T)) :
    breaker.after (answers ++ more) = more.foldl breaker.observe (breaker.after answers) :=
  List.foldl_append

/-- So many failures, and no more, have arrived since the last success. -/
structure Recently (answers : List (Except Raised T)) (n : ℕ) : Prop where
  reached : ∃ before block, answers = before ++ block ∧ (∀ r ∈ block, succeeded r = false) ∧
    block.countP failed = n
  greatest : ∀ before block, answers = before ++ block → (∀ r ∈ block, succeeded r = false) →
    block.countP failed ≤ n

namespace Recently

variable {n : ℕ}

theorem nil : Recently ([] : List (Except Raised T)) 0 where
  reached := ⟨[], [], rfl, fun _ hr => absurd hr List.not_mem_nil, rfl⟩
  greatest before block hAnswers _ := by
    rw [(List.append_eq_nil_iff.mp hAnswers.symm).2]
    exact Nat.le_refl 0

theorem push_success (hSuccess : succeeded r = true) : Recently (answers ++ [r]) 0 where
  reached :=
    ⟨answers ++ [r], [], (List.append_nil _).symm, fun _ hr => absurd hr List.not_mem_nil, rfl⟩
  greatest before block hAnswers hNone := by
    rcases Streaks.append_singleton_cut hAnswers with rfl | ⟨init, rfl, -⟩
    · exact Nat.le_refl 0
    · have hNot := hNone r (List.mem_append_right _ (List.mem_singleton_self r))
      rw [hSuccess] at hNot
      cases hNot

theorem push_other (h : Recently answers n) (hNot : succeeded r = false) :
    Recently (answers ++ [r]) (n + [r].countP failed) where
  reached := by
    obtain ⟨before, block, rfl, hNone, hCount⟩ := h.reached
    refine ⟨before, block ++ [r], List.append_assoc _ _ _, fun r' hr => ?_, ?_⟩
    · rcases List.mem_append.mp hr with hEarlier | hLast
      · exact hNone r' hEarlier
      · rw [List.mem_singleton.mp hLast]
        exact hNot
    · rw [List.countP_append, hCount]
  greatest before block hAnswers hNone := by
    rcases Streaks.append_singleton_cut hAnswers with rfl | ⟨init, rfl, hInit⟩
    · exact Nat.zero_le _
    · have hEarlier := h.greatest before init hInit fun r' hr =>
        hNone r' (List.mem_append_left _ hr)
      rw [List.countP_append]
      omega

end Recently

/-- A breaker trips at an answer, or has tripped before it. -/
theorem tripped_append_singleton {n : ℕ} (h : Recently (answers ++ [r]) n) :
    breaker.Tripped (answers ++ [r]) ↔
      breaker.Tripped answers ∨ max 1 breaker.failureThreshold ≤ n := by
  constructor
  · rintro ⟨before, block, rest, hAnswers, hNone, hReached⟩
    rcases Streaks.append_singleton_cut hAnswers with rfl | ⟨init, rfl, hInit⟩
    · rw [List.append_nil] at hAnswers
      have hLe := h.greatest before block hAnswers hNone
      exact .inr (by omega)
    · exact .inl ⟨before, block, init, hInit, hNone, hReached⟩
  · rintro (⟨before, block, rest, rfl, hNone, hReached⟩ | hReached)
    · exact ⟨before, block, rest ++ [r], List.append_assoc _ _ _, hNone, hReached⟩
    · obtain ⟨before, block, hAnswers, hNone, rfl⟩ := h.reached
      exact ⟨before, block, [], by rw [hAnswers, List.append_nil], hNone, hReached⟩

/-- A breaker that has tripped stays open. -/
theorem CircuitBreaker.Tripped.append (h : breaker.Tripped answers)
    (more : List (Except Raised T)) : breaker.Tripped (answers ++ more) := by
  obtain ⟨before, block, rest, rfl, hNone, hReached⟩ := h
  exact ⟨before, block, rest ++ more, List.append_assoc _ _ _, hNone, hReached⟩

theorem Recently.tripped {n : ℕ} (h : Recently answers n)
    (hReached : max 1 breaker.failureThreshold ≤ n) : breaker.Tripped answers := by
  obtain ⟨before, block, hAnswers, hNone, rfl⟩ := h.reached
  exact ⟨before, block, [], by rw [hAnswers, List.append_nil], hNone, hReached⟩

/-- **The counters are those of the answers.** -/
theorem after_counts (answers : List (Except Raised T)) :
    Recently answers (breaker.after answers).1 ∧
      ((breaker.after answers).2 = true ↔ breaker.Tripped answers) := by
  induction answers using List.reverseRecOn with
  | nil =>
    refine ⟨.nil, ⟨fun hOpen => absurd hOpen Bool.false_ne_true, fun hTripped => ?_⟩⟩
    obtain ⟨before, block, rest, hAnswers, -, hReached⟩ := hTripped
    have hNil := (List.append_eq_nil_iff.mp hAnswers.symm).1
    rw [(List.append_eq_nil_iff.mp hNil).2, List.countP_nil] at hReached
    omega
  | append_singleton answers r ih =>
    obtain ⟨hRecent, hOpened⟩ := ih
    rw [after_append_singleton]
    generalize breaker.after answers = v at hRecent hOpened
    match r with
    | .ok result =>
      have hNext : Recently (answers ++ [.ok result]) 0 := .push_success rfl
      refine ⟨hNext, ?_⟩
      rw [tripped_append_singleton hNext, ← hOpened]
      show v.2 = true ↔ _
      constructor
      · exact .inl
      · rintro (hOpen | hReached)
        · exact hOpen
        · omega
    | .error (.domain exc) =>
      have hNext : Recently (answers ++ [.error (.domain exc)]) (v.1 + 1) :=
        hRecent.push_other rfl
      refine ⟨hNext, ?_⟩
      rw [tripped_append_singleton hNext, ← hOpened]
      show (v.2 || decide (breaker.failureThreshold ≤ (v.1 + 1 : ℕ))) = true ↔ _
      rw [Bool.or_eq_true, decide_eq_true_iff]
      have hThreshold : breaker.failureThreshold ≤ (v.1 + 1 : ℕ) ↔
          max 1 breaker.failureThreshold ≤ (v.1 + 1 : ℕ) := by
        omega
      rw [hThreshold]
    | .error (.exception name) =>
      have hNext : Recently (answers ++ [.error (.exception name)]) v.1 :=
        hRecent.push_other rfl
      refine ⟨hNext, ?_⟩
      rw [tripped_append_singleton hNext, ← hOpened]
      exact ⟨.inl, fun h => h.elim id fun hReached => hOpened.mpr (hRecent.tripped hReached)⟩
    | .error (.interrupt name) =>
      have hNext : Recently (answers ++ [.error (.interrupt name)]) v.1 :=
        hRecent.push_other rfl
      refine ⟨hNext, ?_⟩
      rw [tripped_append_singleton hNext, ← hOpened]
      exact ⟨.inl, fun h => h.elim id fun hReached => hOpened.mpr (hRecent.tripped hReached)⟩

theorem opened_iff_tripped :
    (breaker.after answers).2 = true ↔ breaker.Tripped answers := (after_counts answers).2

end TradingAgent.Tooling
