import TradingAgent.Workers.Runner

/-!
# What is promoted

A round whose step raises is recorded with the best metric so far, which does not exceed itself,
so that the round is stale. Before the first metric there is no best one. Then the round is
recorded with zero, and zero is promoted: `best` is a metric that no round has measured. The rounds
promote what they have measured exactly if the first one does not fail (`promotes_iff`).
-/

namespace TradingAgent.Workers.ImproveUntilPlateau

variable {Metric : Type} [LinearOrder Metric]

omit [LinearOrder Metric] in
/-- The metrics that the steps have returned. -/
def measured (outcomes : List (Option Metric)) : Set Metric := {metric | some metric ∈ outcomes}

/-- There is no best metric before the first one, and afterwards it is the greatest one. -/
structure Measured (outcomes : List (Option Metric)) (fields : Fields Metric) : Prop where
  none_iff : fields.best = none ↔ measured outcomes = ∅
  greatest : ∀ best, fields.best = some best → IsGreatest (measured outcomes) best

variable {outcomes : List (Option Metric)}

omit [LinearOrder Metric] in
theorem measured_concat_some (metric : Metric) :
    measured (outcomes ++ [some metric]) = insert metric (measured outcomes) := by
  ext other
  show some other ∈ outcomes ++ [some metric] ↔ other = metric ∨ some other ∈ outcomes
  rw [List.mem_append, List.mem_singleton, Option.some.injEq, or_comm]

omit [LinearOrder Metric] in
theorem measured_concat_none : measured (outcomes ++ [none]) = measured outcomes := by
  ext other
  show some other ∈ outcomes ++ [none] ↔ some other ∈ outcomes
  simp

namespace Measured

variable {fields : Fields Metric}

theorem nil : Measured [] ({} : Fields Metric) where
  none_iff := iff_of_true rfl (Set.eq_empty_of_forall_notMem fun _ => List.not_mem_nil)
  greatest _ hBest := by cases hBest

/-- The recorded metric is promoted exactly if it exceeds what has been measured. -/
theorem record (h : Measured outcomes fields) (metric : Metric) :
    Measured (outcomes ++ [some metric]) (record metric fields) := by
  have hSome : measured (outcomes ++ [some metric]) ≠ ∅ := by
    rw [measured_concat_some]
    exact (Set.insert_nonempty metric _).ne_empty
  unfold ImproveUntilPlateau.record
  cases hBest : fields.best with
  | none =>
    refine ⟨iff_of_false (Option.some_ne_none metric) hSome, fun best hNew => ?_⟩
    cases hNew
    rw [measured_concat_some, h.none_iff.mp hBest, insert_empty_eq]
    exact isGreatest_singleton
  | some previous =>
    have hInsert := (h.greatest previous hBest).insert metric
    rw [← measured_concat_some] at hInsert
    by_cases hLt : previous < metric
    · rw [max_eq_left hLt.le] at hInsert
      refine ⟨?_, fun best hNew => ?_⟩
      · simp only [hLt, if_true]
        exact iff_of_false (Option.some_ne_none metric) hSome
      · simp only [hLt, if_true, Option.some.injEq] at hNew
        rwa [← hNew]
    · rw [max_eq_right (not_lt.mp hLt)] at hInsert
      refine ⟨?_, fun best hNew => ?_⟩
      · simp only [hLt, if_false]
        exact iff_of_false (Option.some_ne_none previous) hSome
      · simp only [hLt, if_false, Option.some.injEq] at hNew
        rwa [← hNew]

theorem exists_best {metric : Metric} {rounds : List (Option Metric)}
    (h : Measured (some metric :: rounds) fields) : ∃ best, fields.best = some best := by
  refine Option.ne_none_iff_exists'.mp fun hNone => ?_
  have hMetric : metric ∈ measured (some metric :: rounds) := List.mem_cons_self
  rw [h.none_iff.mp hNone] at hMetric
  exact hMetric

end Measured

variable [Zero Metric]

/-- After any number of rounds `best` is what they have measured, and a failed round is stale. -/
structure Promotes (outcomes : List (Option Metric)) : Prop where
  best : ∀ rounds, rounds <+: outcomes → Measured rounds (after rounds)
  failed : ∀ rounds, rounds ++ [none] <+: outcomes →
    (after (rounds ++ [none])).best = (after rounds).best ∧
      (after (rounds ++ [none])).staleRounds = (after rounds).staleRounds + 1

theorem Measured.round_some {fields : Fields Metric} (h : Measured outcomes fields)
    (metric : Metric) : Measured (outcomes ++ [some metric]) (round fields (some metric)) := by
  have hStarted : Measured outcomes { fields with roundN := fields.roundN + 1 } :=
    ⟨h.none_iff, h.greatest⟩
  exact hStarted.record metric

/-- A failed round is recorded with the best metric, if there is one. -/
theorem round_none {fields : Fields Metric} {best : Metric} (h : fields.best = some best) :
    round fields none =
      { fields with staleRounds := fields.staleRounds + 1, roundN := fields.roundN + 1 } := by
  simp only [round, record, h, Option.getD_none, Option.getD_some, lt_irrefl, if_false]

/-- Once a metric is recorded, a failed round adds none. -/
theorem measured_after (metric : Metric) (rounds : List (Option Metric)) :
    Measured (some metric :: rounds) (after (some metric :: rounds)) := by
  induction rounds using List.reverseRecOn with
  | nil =>
    exact Measured.nil.round_some metric
  | append_singleton rounds outcome ih =>
    rw [← List.cons_append, after_concat]
    cases outcome with
    | none =>
      obtain ⟨best, hBest⟩ := ih.exists_best
      rw [round_none hBest]
      refine ⟨?_, fun best' hBest' => ?_⟩
      · rw [measured_concat_none]
        exact ih.none_iff
      · rw [measured_concat_none]
        exact ih.greatest best' hBest'
    | some next => exact ih.round_some next

/-- **What is promoted** was measured, exactly if the first round has not failed. -/
theorem promotes_iff : Promotes outcomes ↔ outcomes.head? ≠ some none := by
  constructor
  · intro h hFails
    obtain ⟨rest, hRest⟩ := List.head?_eq_some_iff.mp hFails
    cases (h.failed [] ⟨rest, hRest.symm⟩).1
  · intro hFirst
    have hMetric (outcome : Option Metric) (rounds : List (Option Metric))
        (h : outcome :: rounds <+: outcomes) : ∃ metric, outcome = some metric := by
      obtain ⟨rest, rfl⟩ := h
      exact Option.ne_none_iff_exists'.mp fun hNone => hFirst (congrArg some hNone)
    refine ⟨fun rounds hRounds => ?_, fun rounds hRounds => ?_⟩
    · cases rounds with
      | nil => exact Measured.nil
      | cons outcome rounds =>
        obtain ⟨metric, rfl⟩ := hMetric outcome rounds hRounds
        exact measured_after metric rounds
    · cases rounds with
      | nil =>
        obtain ⟨metric, hSome⟩ := hMetric none [] hRounds
        cases hSome
      | cons outcome rounds =>
        rw [List.cons_append] at hRounds
        obtain ⟨metric, rfl⟩ := hMetric outcome (rounds ++ [none]) hRounds
        obtain ⟨best, hBest⟩ := (measured_after metric rounds).exists_best
        rw [after_concat, round_none hBest]
        exact ⟨rfl, rfl⟩

/-- A loop whose first step raises has a best metric that was never measured. -/
theorem failure_promoted : ¬Promotes ([none] : List (Option ℤ)) ∧
    (after ([none] : List (Option ℤ))).best = some 0 := by
  refine ⟨fun h => ?_, rfl⟩
  cases (h.failed [] List.prefix_rfl).1

end TradingAgent.Workers.ImproveUntilPlateau
