import TradingAgent.Workers.Runner

/-!
# Where the loop ends

Alone, the loop goes from the state after `n` rounds to the state after `n + 1`, until a stop has
been requested, `max_rounds` is reached or the last round has made the loop stale (`Finished`). So
it returns the least number of rounds after which one of these holds (`ended_iff`). On a sequence of
metrics the counter of stale rounds is the number of rounds since the last improvement, and the
loop ends exactly at the first plateau (`returns_iff`).
-/

namespace TradingAgent.Workers.ImproveUntilPlateau

open Coroutine Coro Shared Records Tooling

variable {Metric : Type} [LinearOrder Metric] [Zero Metric]

section

variable (config : LoopConfig) (outcome : ℕ → Option Metric) (stops : Stops)

/-- The fields after `n` rounds. -/
def fieldsAt : ℕ → Fields Metric
  | 0 => {}
  | n + 1 => round (fieldsAt n) (outcome (n + 1))

omit [LinearOrder Metric] [Zero Metric] in
/-- The outside after `n` rounds and the waits after them. -/
def outsideAt : ℕ → Outside
  | 0 => {}
  | n + 1 => { steps := n + 1, isSet := (outsideAt n).isSet || stops.requested (n + 1) }

/-- The fields are those after the outcomes of the rounds. -/
theorem fieldsAt_eq (n : ℕ) :
    fieldsAt outcome n = after ((List.range n).map fun i => outcome (i + 1)) := by
  induction n with
  | zero => rfl
  | succ n ih =>
    rw [List.range_succ, List.map_append, List.map_singleton, after_concat, ← ih, fieldsAt]

@[simp] theorem fieldsAt_roundN (n : ℕ) : (fieldsAt outcome n).roundN = n := by
  induction n with
  | zero => rfl
  | succ n ih => rw [fieldsAt, round_roundN, ih]

omit [LinearOrder Metric] [Zero Metric] in
/-- The outside after `n + 1` rounds, at the end of the last step. -/
def stepped (n : ℕ) : Outside where
  steps := n + 1
  isSet := (outsideAt stops n).isSet || stops.during (n + 1)

@[simp] theorem outsideAt_steps (n : ℕ) : (outsideAt stops n).steps = n := by
  cases n with
  | zero => rfl
  | succ n => rfl

/-- No further round begins after `n` rounds. -/
def Over (n : ℕ) : Prop :=
  (outsideAt stops n).isSet = true ∨ maxRoundsReached config (fieldsAt outcome n) = true

/-- The last of the rounds has made the loop stale. -/
def Flat (n : ℕ) : Prop := config.maxStaleRounds ≤ (fieldsAt outcome n).staleRounds

def Finished (n : ℕ) : Prop := Over config outcome stops n ∨ 1 ≤ n ∧ Flat config outcome n

end

variable {config : LoopConfig} {outcome : ℕ → Option Metric} {stops : Stops} {n : ℕ}

/-- A round ends as `turn` says. -/
theorem runs_body {w w' : Fields Metric × Outside} {out : Except Raised (Option ℕ)} :
    Runs (alone (answered (Outside.respond outcome stops))) w (body config) out w' ↔
      (out, w') = turn config outcome stops w.1 w.2 := by
  rw [alone_answered, runs_answered_iff, drive_body]

theorem turn_over (h : Over config outcome stops n) :
    turn config outcome stops (fieldsAt outcome n) (outsideAt stops n) =
      (.ok (some n), fieldsAt outcome n, outsideAt stops n) := by
  unfold turn
  rw [if_pos (by simpa [Over] using h), fieldsAt_roundN]

/-- A round that begins in the state after `n` rounds. -/
theorem turn_begun (h : ¬Over config outcome stops n) :
    turn config outcome stops (fieldsAt outcome n) (outsideAt stops n) =
      if config.maxStaleRounds ≤ (fieldsAt outcome (n + 1)).staleRounds then
        (.ok (some (n + 1)), fieldsAt outcome (n + 1), stepped stops n)
      else (.ok none, fieldsAt outcome (n + 1), outsideAt stops (n + 1)) := by
  have hStep : ((outsideAt stops n).respond outcome stops .step).2 = stepped stops n := by
    unfold Outside.respond stepped
    rw [outsideAt_steps]
  have hWait : ((stepped stops n).respond outcome stops .wait).2 = outsideAt stops (n + 1) := by
    rw [outsideAt, Stops.requested, ← Bool.or_assoc]
    rfl
  have hRound : round (fieldsAt outcome n) (outcome ((outsideAt stops n).steps + 1)) =
      fieldsAt outcome (n + 1) := by
    rw [outsideAt_steps, fieldsAt]
  unfold turn
  rw [if_neg (by simpa [Over] using h)]
  dsimp only
  rw [hStep, hWait, hRound, fieldsAt_roundN]

/-- A round from the state after `n` rounds: it does not begin, it is the last one, or the loop goes
on. -/
theorem body_cases {w' : Fields Metric × Outside} {out : Except Raised (Option ℕ)}
    (h : Runs (alone (answered (Outside.respond outcome stops)))
      (fieldsAt outcome n, outsideAt stops n) (body config) out w') :
    (Over config outcome stops n ∧ out = .ok (some n) ∧
        w' = (fieldsAt outcome n, outsideAt stops n)) ∨
      (¬Over config outcome stops n ∧ Flat config outcome (n + 1) ∧ out = .ok (some (n + 1)) ∧
        w' = (fieldsAt outcome (n + 1), stepped stops n)) ∨
      (¬Over config outcome stops n ∧ ¬Flat config outcome (n + 1) ∧ out = .ok none ∧
        w' = (fieldsAt outcome (n + 1), outsideAt stops (n + 1))) := by
  have hTurn := runs_body.mp h
  by_cases hOver : Over config outcome stops n
  · rw [turn_over hOver] at hTurn
    exact .inl ⟨hOver, Prod.mk.inj hTurn⟩
  · rw [turn_begun hOver] at hTurn
    split_ifs at hTurn with hFlat
    · exact .inr (.inl ⟨hOver, hFlat, Prod.mk.inj hTurn⟩)
    · exact .inr (.inr ⟨hOver, hFlat, Prod.mk.inj hTurn⟩)

/-- The rest of a run, from the state after `n` rounds. -/
abbrev Rest (config : LoopConfig) (outcome : ℕ → Option Metric) (stops : Stops) (n : ℕ)
    (out : Except Raised ℕ) (w : Fields Metric × Outside) : Prop :=
  LoopRuns (answered (Outside.respond outcome stops)) (runForever config)
    (fieldsAt outcome n, outsideAt stops n) (body config) out w

theorem not_finished (hOver : ¬Over config outcome stops n)
    (hGoes : n = 0 ∨ ¬Flat config outcome n) : ¬Finished config outcome stops n := by
  rintro (hStop | ⟨hFrom, hFlat⟩)
  · exact hOver hStop
  · exact hGoes.elim (fun hZero => by omega) fun hNot => hNot hFlat

/-- The loop ends after the least number of rounds at which it is finished. -/
theorem Rest.least {out : Except Raised ℕ} {w : Fields Metric × Outside}
    (h : Rest config outcome stops n out w) (hGoes : n = 0 ∨ ¬Flat config outcome n) :
    ∃ k, out = .ok k ∧ IsLeast {k | n ≤ k ∧ Finished config outcome stops k} k ∧
      w.1 = fieldsAt outcome k ∧ w.2.steps = k := by
  unfold Rest at h
  generalize hStart : (fieldsAt outcome n, outsideAt stops n) = w₀ at h
  generalize hBody : (body config : Call Metric (Option ℕ)) = m at h
  induction h generalizing n with
  | returned hRound =>
    subst hStart hBody
    rcases body_cases hRound with ⟨hOver, hOut, rfl⟩ | ⟨hOver, hFlat, hOut, rfl⟩ | ⟨-, -, hOut, -⟩
    · cases hOut
      exact ⟨_, rfl, ⟨⟨le_rfl, .inl hOver⟩, fun k hk => hk.1⟩, rfl, outsideAt_steps stops _⟩
    · cases hOut
      refine ⟨_, rfl, ?_, rfl, rfl⟩
      rw [isLeast_from_succ (not_finished hOver hGoes)]
      exact ⟨⟨le_rfl, .inr ⟨Nat.succ_pos n, hFlat⟩⟩, fun k hk => hk.1⟩
    · cases hOut
  | raised hRound =>
    subst hStart hBody
    rcases body_cases hRound with ⟨-, hOut, -⟩ | ⟨-, -, hOut, -⟩ | ⟨-, -, hOut, -⟩
    · cases hOut
    · cases hOut
    · cases hOut
  | again hRound _ ih =>
    subst hStart hBody
    rcases body_cases hRound with ⟨-, hOut, -⟩ | ⟨-, -, hOut, -⟩ | ⟨hOver, hFlat, -, rfl⟩
    · cases hOut
    · cases hOut
    · simp only [isLeast_from_succ (not_finished hOver hGoes)]
      exact ih (.inr hFlat) rfl rfl

/-- It goes on until then. -/
theorem Rest.exists_of_least {k : ℕ}
    (h : IsLeast {k | n ≤ k ∧ Finished config outcome stops k} k)
    (hGoes : n = 0 ∨ ¬Flat config outcome n) :
    ∃ w, Rest config outcome stops n (.ok k) w := by
  obtain ⟨more, rfl⟩ := Nat.exists_eq_add_of_le h.1.1
  induction more generalizing n with
  | zero =>
    have hOver : Over config outcome stops n := by
      by_contra hNot
      exact not_finished hNot hGoes h.1.2
    exact ⟨_, .returned (runs_body.mpr (turn_over hOver).symm)⟩
  | succ more ih =>
    have hOver : ¬Over config outcome stops n := fun hOver => by
      have hLe := h.2 ⟨le_rfl, .inl hOver⟩
      omega
    have hTurn := turn_begun hOver
    split_ifs at hTurn with hFlat
    · obtain rfl : more = 0 := by
        have hLe := h.2 ⟨Nat.le_succ n, .inr ⟨Nat.succ_pos n, hFlat⟩⟩
        omega
      exact ⟨_, .returned (runs_body.mpr hTurn.symm)⟩
    · rw [isLeast_from_succ (not_finished hOver hGoes)] at h
      have hIndex : n + (more + 1) = n + 1 + more := by omega
      rw [hIndex] at h ⊢
      obtain ⟨w, hRest⟩ := ih (.inr hFlat) h
      exact ⟨w, .again (runs_body.mpr hTurn.symm) hRest⟩

theorem ended_iff {k : ℕ} : (∃ w, Ended config outcome stops (.ok k) w) ↔
    IsLeast {k | Finished config outcome stops k} k := by
  have hAll : {k | Finished config outcome stops k} =
      {k | 0 ≤ k ∧ Finished config outcome stops k} := by
    ext k
    exact ⟨fun h => ⟨Nat.zero_le k, h⟩, fun h => h.2⟩
  rw [hAll]
  constructor
  · rintro ⟨w, hRun⟩
    obtain ⟨k', hOut, hLeast, -⟩ := Rest.least (n := 0) hRun (.inl rfl)
    cases hOut
    exact hLeast
  · exact fun h => Rest.exists_of_least h (.inl rfl)

/-- The fields at the end are those after the outcomes of the rounds that have run. -/
theorem Ended.fields {out : Except Raised ℕ} {w : Fields Metric × Outside}
    (h : Ended config outcome stops out w) :
    ∃ n, out = .ok n ∧ w.2.steps = n ∧
      w.1 = after ((List.range n).map fun i => outcome (i + 1)) := by
  obtain ⟨n, hOut, -, hFields, hSteps⟩ := Rest.least (n := 0) h (.inl rfl)
  exact ⟨n, hOut, hSteps, hFields.trans (fieldsAt_eq outcome n)⟩

/-! ## On a sequence of metrics -/

section

variable (m : ℕ → Metric)

/-- The step of each round returns its metric. -/
abbrev metrics : ℕ → Option Metric := fun n => some (m n)

/-- The counter of stale rounds goes back to the last improvement. -/
theorem tracked_fieldsAt (n : ℕ) :
    ∃ best, (fieldsAt (metrics m) (n + 1)).best = some best ∧
      Tracked m (n + 1) best (fieldsAt (metrics m) (n + 1)).staleRounds := by
  induction n with
  | zero => exact ⟨m 1, rfl, Tracked.first⟩
  | succ n ih =>
    obtain ⟨best, hBest, hTracked⟩ := ih
    have hRecord : fieldsAt (metrics m) (n + 2) =
        record (m (n + 2)) { fieldsAt (metrics m) (n + 1) with
          roundN := (fieldsAt (metrics m) (n + 1)).roundN + 1 } := rfl
    rw [hRecord]
    unfold record
    rw [hBest]
    dsimp only
    by_cases hLt : best < m (n + 2)
    · rw [if_pos hLt]
      exact ⟨_, rfl, hTracked.improved hLt⟩
    · rw [if_neg hLt]
      exact ⟨best, rfl, hTracked.kept (not_lt.mp hLt)⟩

theorem flat_iff (hFrom : 1 ≤ n) :
    Flat config (metrics m) n ↔ Plateau m config.maxStaleRounds n := by
  obtain ⟨k, rfl⟩ := Nat.exists_eq_add_of_le' hFrom
  obtain ⟨best, -, hTracked⟩ := tracked_fieldsAt m k
  exact hTracked.plateau_iff.symm

omit [Zero Metric] [LinearOrder Metric] in
theorem isSet_iff : (outsideAt stops n).isSet = true ↔
    ∃ i, 1 ≤ i ∧ i ≤ n ∧ stops.requested i = true := by
  induction n with
  | zero => exact iff_of_false Bool.false_ne_true fun ⟨i, hFrom, hTo, _⟩ => by omega
  | succ n ih =>
    rw [outsideAt, Bool.or_eq_true, ih]
    constructor
    · rintro (⟨i, hFrom, hTo, hStop⟩ | hStop)
      · exact ⟨i, hFrom, hTo.trans n.le_succ, hStop⟩
      · exact ⟨n + 1, n.succ_pos, le_rfl, hStop⟩
    · rintro ⟨i, hFrom, hTo, hStop⟩
      rcases Nat.le_succ_iff.mp hTo with hBefore | rfl
      · exact .inl ⟨i, hFrom, hBefore, hStop⟩
      · exact .inr hStop

theorem reached_iff : maxRoundsReached config (fieldsAt outcome n) = true ↔
    ∃ limit ∈ config.maxRounds, limit ≤ n := by
  unfold maxRoundsReached
  cases config.maxRounds with
  | none => simp
  | some limit => simp

/-- The number of rounds after which the loop ends, in terms of the metrics. -/
def Returns (config : LoopConfig) (stops : Stops) (n : ℕ) : Prop :=
  (∃ limit ∈ config.maxRounds, limit ≤ 0) ∧ n = 0 ∨
    (∀ limit ∈ config.maxRounds, 0 < limit) ∧
      IsLeast {n : ℕ | 1 ≤ n ∧ (config.maxRounds = some (n : ℤ) ∨
        Plateau m config.maxStaleRounds n ∨ stops.requested n = true)} n

theorem over_iff : Over config (metrics m) stops n ↔
    (∃ i, 1 ≤ i ∧ i ≤ n ∧ stops.requested i = true) ∨ ∃ limit ∈ config.maxRounds, limit ≤ n := by
  rw [Over, isSet_iff, reached_iff]

theorem isLeast_finished_iff {k : ℕ} :
    IsLeast {k | Finished config (metrics m) stops k} k ↔ Returns m config stops k := by
  by_cases hLimit : ∃ limit ∈ config.maxRounds, limit ≤ 0
  · -- No round begins.
    have hZero : Finished config (metrics m) stops 0 := .inl ((over_iff m).mpr (.inr hLimit))
    constructor
    · rintro ⟨-, hLower⟩
      exact .inl ⟨hLimit, Nat.le_zero.mp (hLower hZero)⟩
    · rintro (⟨-, rfl⟩ | ⟨hPositive, -⟩)
      · exact ⟨hZero, fun t _ => Nat.zero_le t⟩
      · obtain ⟨limit, hMem, hLe⟩ := hLimit
        exact absurd (hPositive limit hMem) hLe.not_gt
  · have hPositive : ∀ limit ∈ config.maxRounds, 0 < limit := fun limit hMem =>
      not_le.mp fun hLe => hLimit ⟨limit, hMem, hLe⟩
    have hReturns : Returns m config stops k ↔ IsLeast {n : ℕ | 1 ≤ n ∧
        (config.maxRounds = some (n : ℤ) ∨ Plateau m config.maxStaleRounds n ∨
          stops.requested n = true)} k :=
      ⟨fun h => h.elim (fun hNone => absurd hNone.1 hLimit) fun hSome => hSome.2,
        fun h => .inr ⟨hPositive, h⟩⟩
    rw [hReturns]
    refine (isLeast_iff_of_subset ?_ ?_).symm
    · rintro n ⟨hFrom, hRounds | hPlateau | hStop⟩
      · exact .inl ((over_iff m).mpr (.inr ⟨n, hRounds, le_rfl⟩))
      · exact .inr ⟨hFrom, (flat_iff m hFrom).mpr hPlateau⟩
      · exact .inl ((over_iff m).mpr (.inl ⟨n, hFrom, le_rfl, hStop⟩))
    · rintro t (hOver | ⟨hFrom, hFlat⟩)
      · rcases (over_iff m).mp hOver with ⟨i, hFrom, hTo, hStop⟩ | ⟨limit, hMem, hLe⟩
        · exact ⟨i, ⟨hFrom, .inr (.inr hStop)⟩, hTo⟩
        · obtain ⟨rounds, rfl⟩ := Int.eq_ofNat_of_zero_le (hPositive limit hMem).le
          exact ⟨rounds, ⟨Int.ofNat_lt.mp (hPositive _ hMem), .inl hMem⟩, Int.ofNat_le.mp hLe⟩
      · exact ⟨t, ⟨hFrom, .inr (.inl ((flat_iff m hFrom).mp hFlat))⟩, le_rfl⟩

/-- **The loop ends exactly at the plateau.** -/
theorem returns_iff (config : LoopConfig) (stops : Stops) :
    (∀ n, (∃ w, Ended config (metrics m) stops (.ok n) w) ↔ Returns m config stops n) ∧
      ∀ out w, Ended config (metrics m) stops out w →
        ∃ n, out = .ok n ∧ w.2.steps = n ∧
          (1 ≤ n → ∃ best, w.1.best = some best ∧ IsGreatest (m '' Set.Icc 1 n) best) := by
  refine ⟨fun n => ended_iff.trans (isLeast_finished_iff m), fun out w hEnded => ?_⟩
  obtain ⟨n, hOut, -, hFields, hSteps⟩ := Rest.least (n := 0) hEnded (.inl rfl)
  refine ⟨n, hOut, hSteps, fun hFrom => ?_⟩
  obtain ⟨k, rfl⟩ := Nat.exists_eq_add_of_le' hFrom
  obtain ⟨best, hBest, hTracked⟩ := tracked_fieldsAt m k
  exact ⟨best, hFields ▸ hBest, hTracked.greatest⟩

end

end TradingAgent.Workers.ImproveUntilPlateau
