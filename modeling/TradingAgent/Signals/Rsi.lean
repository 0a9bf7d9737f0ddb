import TradingAgent.Signals.Series
import Mathlib.Algebra.Order.Group.MinMax
import Mathlib.Tactic.FieldSimp

/-!
# The relative strength index

`rsi` is `_rsi`. Where `G` and `L` are the averages of the gains and of the losses, the index
is `100 * G / (G + L)` by definition. `_rsi` divides by the average loss and replaces a loss
of zero by infinity, so that it returns 0 as long as no close has fallen, where the index is
100. `rsi_eq` is its closed form, and `rsi_defined_iff` says where it is the index.
-/

namespace TradingAgent.Signals

open Averages

/-- `1 / period`. -/
def reciprocal (period : ℤ) : Except Exn ℚ :=
  if period = 0 then .error (.other "ZeroDivisionError") else .ok (1 / period)

/-- `_rsi`. -/
def rsi [Pandas] (series : List Cell) (period : ℤ) : Except Exn (List Cell) := do
  let delta := Pandas.diff series
  let gain := Pandas.clip delta (some 0) none
  let loss := (Pandas.clip delta none (some 0)).map (- ·)
  let avgGain ← Pandas.ewmMean gain (← reciprocal period)
  let avgLoss ← Pandas.ewmMean loss (← reciprocal period)
  let rs := List.zipWith (· / ·) avgGain (Pandas.replace avgLoss (.finite 0) (.infinity false))
  return rs.map fun ratio => .finite 100 - .finite 100 / (.finite 1 + ratio)

/-! ## Gains and losses -/

/-- The changes from each close to the next. -/
def changes (closes : List ℚ) : List ℚ := List.zipWith (· - ·) closes.tail closes

def gains (closes : List ℚ) : List ℚ := (changes closes).map fun change => max change 0

def losses (closes : List ℚ) : List ℚ := (changes closes).map fun change => max (-change) 0

/-- The close after the index `n` is above the close at `n`. -/
def Rose (closes : List ℚ) (n : ℕ) : Prop :=
  ∃ before ∈ closes[n]?, ∃ after ∈ closes[n + 1]?, before < after

/-- The close after the index `n` is below the close at `n`. -/
def Fell (closes : List ℚ) (n : ℕ) : Prop :=
  ∃ before ∈ closes[n]?, ∃ after ∈ closes[n + 1]?, after < before

theorem mem_changes {closes : List ℚ} {n : ℕ} {change : ℚ} :
    change ∈ (changes closes)[n]? ↔
      ∃ before ∈ closes[n]?, ∃ after ∈ closes[n + 1]?, after - before = change := by
  rw [Option.mem_def, changes, List.getElem?_zipWith_eq_some, List.getElem?_tail]
  constructor
  · rintro ⟨after, before, hAfter, hBefore, hChange⟩
    exact ⟨before, hBefore, after, hAfter, hChange⟩
  · rintro ⟨before, hBefore, after, hAfter, hChange⟩
    exact ⟨after, before, hAfter, hBefore, hChange⟩

theorem gains_nonneg (closes : List ℚ) : ∀ gain ∈ gains closes, 0 ≤ gain := by
  intro gain hGain
  obtain ⟨change, -, rfl⟩ := List.mem_map.mp hGain
  exact le_max_right _ _

theorem losses_nonneg (closes : List ℚ) : ∀ loss ∈ losses closes, 0 ≤ loss := by
  intro loss hLoss
  obtain ⟨change, -, rfl⟩ := List.mem_map.mp hLoss
  exact le_max_right _ _

theorem exists_moved_iff {closes : List ℚ} {n : ℕ} (f : ℚ → ℚ) :
    (∃ moved ∈ ((changes closes).map fun change => max (f change) 0)[n]?, 0 < moved) ↔
      ∃ before ∈ closes[n]?, ∃ after ∈ closes[n + 1]?, 0 < f (after - before) := by
  simp only [List.getElem?_map, Option.mem_map]
  constructor
  · rintro ⟨moved, ⟨change, hChange, rfl⟩, hPos⟩
    obtain ⟨before, hBefore, after, hAfter, rfl⟩ := mem_changes.mp hChange
    exact ⟨before, hBefore, after, hAfter, (lt_max_iff.mp hPos).resolve_right (lt_irrefl 0)⟩
  · rintro ⟨before, hBefore, after, hAfter, hPos⟩
    have hChange := mem_changes.mpr ⟨before, hBefore, after, hAfter, rfl⟩
    exact ⟨_, ⟨_, hChange, rfl⟩, lt_max_of_lt_left hPos⟩

theorem rose_iff {closes : List ℚ} {n : ℕ} :
    Rose closes n ↔ ∃ gain ∈ (gains closes)[n]?, 0 < gain := by
  simpa only [Rose, gains, sub_pos] using (exists_moved_iff fun change => change).symm

theorem fell_iff {closes : List ℚ} {n : ℕ} :
    Fell closes n ↔ ∃ loss ∈ (losses closes)[n]?, 0 < loss := by
  simpa only [Fell, losses, neg_pos, sub_neg] using (exists_moved_iff fun change => -change).symm

/-! ## The closed form -/

/-- What `_rsi` makes of two averages. -/
def strength (gain loss : ℚ) : ℚ := if loss = 0 then 0 else 100 * gain / (gain + loss)

theorem cell_strength {gain loss : ℚ} (hGain : 0 ≤ gain) (hLoss : 0 ≤ loss) :
    Cell.finite 100 - .finite 100 / (.finite 1 + .finite gain /
      (if Cell.finite loss = .finite 0 then .infinity false else .finite loss)) =
        .finite (strength gain loss) := by
  by_cases hZero : loss = 0
  · rw [if_pos (congrArg _ hZero), Cell.finite_div_infinity, Cell.finite_add,
      Cell.finite_div _ (by norm_num), Cell.finite_sub, strength, if_pos hZero]
    norm_num
  · have hPos : 0 < loss := lt_of_le_of_ne hLoss (Ne.symm hZero)
    have hRatio : 1 + gain / loss ≠ 0 := by positivity
    rw [if_neg (fun h => hZero (Cell.finite.inj h)), Cell.finite_div _ hZero, Cell.finite_add,
      Cell.finite_div _ hRatio, Cell.finite_sub, strength, if_neg hZero]
    congr 1
    field_simp
    ring

theorem weight_bounds {period : ℤ} (hPeriod : 1 ≤ period) :
    0 < 1 / (period : ℚ) ∧ 1 / (period : ℚ) ≤ 1 := by
  have hOne : (1 : ℚ) ≤ period := by exact_mod_cast hPeriod
  exact ⟨by positivity, (div_le_one (by positivity)).mpr hOne⟩

/-- The averages of a series with one gap at its start. -/
theorem ewmMean_gap [Pandas] {period : ℤ} (hPeriod : 1 ≤ period) (entries : List ℚ) :
    Pandas.ewmMean (.nan :: entries.map .finite) (1 / period) =
      .ok (.nan :: (smoothed (1 / (period : ℚ)) entries).map .finite) :=
  Pandas.ewmMean_eq 1 entries _ (weight_bounds hPeriod).1 (weight_bounds hPeriod).2

theorem diff_closes [Pandas] (first : ℚ) (rest : List ℚ) :
    Pandas.diff ((first :: rest).map .finite) =
      .nan :: (changes (first :: rest)).map .finite := by
  rw [Pandas.diff_eq, changes, List.map_zipWith, List.map_cons, List.zipWith_cons_cons,
    Cell.finite_sub_nan, ← List.map_cons, List.zipWith_map, List.tail_cons]
  simp only [Cell.finite_sub]

theorem gain_cells [Pandas] (first : ℚ) (rest : List ℚ) :
    Pandas.clip (Pandas.diff ((first :: rest).map .finite)) (some 0) none =
      .nan :: (gains (first :: rest)).map .finite := by
  rw [Pandas.clip_lower, diff_closes, List.map_cons, List.map_map, gains, List.map_map]
  rfl

theorem loss_cells [Pandas] (first : ℚ) (rest : List ℚ) :
    (Pandas.clip (Pandas.diff ((first :: rest).map .finite)) none (some 0)).map (- ·) =
      .nan :: (losses (first :: rest)).map .finite := by
  rw [Pandas.clip_upper, diff_closes, List.map_cons, List.map_cons, List.map_map, List.map_map,
    losses, List.map_map]
  refine congrArg _ (List.map_congr_left fun change _ => ?_)
  simp only [Function.comp_apply, Cell.atMost_finite, Cell.neg_finite, ← max_neg_neg, neg_zero]

theorem reciprocal_ok {period : ℤ} (hPeriod : 1 ≤ period) :
    reciprocal period = .ok (1 / period) :=
  if_neg (by omega)

theorem strength_cells {averages averages' : List ℚ} (hGains : ∀ gain ∈ averages, 0 ≤ gain)
    (hLosses : ∀ loss ∈ averages', 0 ≤ loss) :
    (List.zipWith (· / ·) (averages.map Cell.finite) ((averages'.map Cell.finite).map
      fun cell => if cell = .finite 0 then .infinity false else cell)).map
        (fun ratio => .finite 100 - .finite 100 / (.finite 1 + ratio)) =
      (List.zipWith strength averages averages').map .finite := by
  induction averages generalizing averages' with
  | nil => rfl
  | cons gain averages ih =>
    cases averages' with
    | nil => rfl
    | cons loss averages' =>
      have hHead := cell_strength (hGains gain List.mem_cons_self) (hLosses loss List.mem_cons_self)
      have hTail := ih (fun g h => hGains g (List.mem_cons_of_mem _ h))
        fun l h => hLosses l (List.mem_cons_of_mem _ h)
      simp only [List.map_cons, List.zipWith_cons_cons, hHead, hTail]

/-- `_rsi` on a series of closes. -/
theorem rsi_eq [Pandas] {period : ℤ} (hPeriod : 1 ≤ period) (first : ℚ) (rest : List ℚ) :
    rsi ((first :: rest).map .finite) period =
      .ok (.nan :: (List.zipWith strength (smoothed (1 / (period : ℚ)) (gains (first :: rest)))
        (smoothed (1 / (period : ℚ)) (losses (first :: rest)))).map .finite) := by
  obtain ⟨hPos, hLe⟩ := weight_bounds hPeriod
  have hCells := strength_cells (smoothed_nonneg hPos.le hLe (gains_nonneg (first :: rest)))
    (smoothed_nonneg hPos.le hLe (losses_nonneg (first :: rest)))
  rw [rsi, gain_cells, loss_cells, reciprocal_ok hPeriod]
  simp only [bind, Except.bind, ewmMean_gap hPeriod, Pandas.replace_eq]
  rw [← hCells]
  rfl

theorem rsi_cell [Pandas] {closes : List ℚ} {period : ℤ} (hPeriod : 1 ≤ period) {n : ℕ}
    {gain loss : ℚ} (hGain : (smoothed (1 / (period : ℚ)) (gains closes))[n]? = some gain)
    (hLoss : (smoothed (1 / (period : ℚ)) (losses closes))[n]? = some loss) :
    ∃ out, rsi (closes.map .finite) period = .ok out ∧
      out[n + 1]? = some (.finite (strength gain loss)) := by
  cases closes with
  | nil => simp [gains, changes, smoothed] at hGain
  | cons first rest =>
    refine ⟨_, rsi_eq hPeriod first rest, ?_⟩
    rw [List.getElem?_cons_succ, List.getElem?_map, List.getElem?_zipWith, hGain, hLoss]
    rfl

/-! ## Where `_rsi` is the index -/

/-- An average at the index `n` still knows of the event: with the period 1 it is the last
entry, and with a longer one it forgets no entry. -/
def Remembered (period : ℤ) (event : ℕ → Prop) (n : ℕ) : Prop :=
  if period = 1 then event n else ∃ m ≤ n, event m

theorem average_pos_iff {period : ℤ} (hPeriod : 1 ≤ period) {entries : List ℚ}
    (hEntries : ∀ x ∈ entries, 0 ≤ x) {n : ℕ} {average : ℚ}
    (h : (smoothed (1 / (period : ℚ)) entries)[n]? = some average) :
    0 < average ↔ Remembered period (fun m => ∃ x ∈ entries[m]?, 0 < x) n := by
  obtain ⟨hPos, hLe⟩ := weight_bounds hPeriod
  unfold Remembered
  split_ifs with hOne
  · subst hOne
    rw [Int.cast_one, one_div_one, smoothed_one] at h
    simp [h]
  · have hLonger : (1 : ℚ) < period := by exact_mod_cast lt_of_le_of_ne hPeriod (Ne.symm hOne)
    exact smoothed_pos_iff hPos ((div_lt_one (by linarith)).mpr hLonger) hEntries h

/-- An average of entries of which none was positive. -/
theorem average_zero {period : ℤ} (hPeriod : 1 ≤ period) {entries : List ℚ}
    (hEntries : ∀ x ∈ entries, 0 ≤ x) {n : ℕ} {average : ℚ}
    (h : (smoothed (1 / (period : ℚ)) entries)[n]? = some average)
    (hNever : ∀ m ≤ n, ¬∃ x ∈ entries[m]?, 0 < x) : average = 0 := by
  obtain ⟨hPos, hLe⟩ := weight_bounds hPeriod
  refine le_antisymm (not_lt.mp fun hPositive => ?_) (le_smoothed hPos.le hLe hEntries h)
  have hRemembered := (average_pos_iff hPeriod hEntries h).mp hPositive
  unfold Remembered at hRemembered
  split_ifs at hRemembered
  · exact hNever n le_rfl hRemembered
  · obtain ⟨m, hm, hEvent⟩ := hRemembered
    exact hNever m hm hEvent

/-- The output `out` is the index at the change `n`, where `gain` and `loss` are the averages
of the gains and of the losses. -/
structure Defined (closes : List ℚ) (n : ℕ) (gain loss : ℚ) (out : List Cell) : Prop where
  value : out[n + 1]? = some (.finite (100 * gain / (gain + loss)))
  bounds : ∃ index, out[n + 1]? = some (.finite index) ∧ 0 ≤ index ∧ index ≤ 100
  risen : (∀ m ≤ n, ¬Fell closes m) → out[n + 1]? = some (.finite 100)
  fallen : (∀ m ≤ n, ¬Rose closes m) → out[n + 1]? = some (.finite 0)

section Index

variable {closes : List ℚ} {period : ℤ} {n : ℕ} {gain loss : ℚ} {out : List Cell}

/-- Without a loss the cell is 0, and the index of the gains alone is 100. -/
theorem not_defined (hGain : 0 < gain) (hCell : out[n + 1]? = some (.finite (strength gain 0))) :
    ¬Defined closes n gain 0 out := by
  intro hDefined
  have hValue := hDefined.value
  rw [hCell, strength, if_pos rfl, add_zero, mul_div_cancel_right₀ _ hGain.ne'] at hValue
  simp at hValue

theorem strength_bounds (hGain : 0 ≤ gain) (hLoss : 0 < loss) :
    0 ≤ strength gain loss ∧ strength gain loss ≤ 100 := by
  rw [strength, if_neg hLoss.ne', div_le_iff₀ (add_pos_of_nonneg_of_pos hGain hLoss)]
  constructor
  · positivity
  · linarith

/-- With a loss the cell is the index. -/
theorem defined (hPeriod : 1 ≤ period)
    (hGain : (smoothed (1 / (period : ℚ)) (gains closes))[n]? = some gain)
    (hLoss : (smoothed (1 / (period : ℚ)) (losses closes))[n]? = some loss) (hPos : 0 < loss)
    (hCell : out[n + 1]? = some (.finite (strength gain loss))) :
    Defined closes n gain loss out := by
  obtain ⟨hWeight, hLe⟩ := weight_bounds hPeriod
  have hNonneg : 0 ≤ gain := le_smoothed hWeight.le hLe (gains_nonneg closes) hGain
  refine ⟨?_, ⟨_, hCell, strength_bounds hNonneg hPos⟩, fun hNever => ?_, fun hNever => ?_⟩
  · rw [hCell, strength, if_neg hPos.ne']
  · have hZero := average_zero hPeriod (losses_nonneg closes) hLoss fun m hm h =>
      hNever m hm (fell_iff.mpr h)
    exact absurd hZero hPos.ne'
  · have hZero := average_zero hPeriod (gains_nonneg closes) hGain fun m hm h =>
      hNever m hm (rose_iff.mpr h)
    rw [hCell, strength, if_neg hPos.ne', hZero, mul_zero, zero_div]

/-- `_rsi` is the index exactly where the average loss remembers a fall. -/
theorem rsi_defined_iff [Pandas] (hPeriod : 1 ≤ period)
    (hGain : (smoothed (1 / (period : ℚ)) (gains closes))[n]? = some gain)
    (hLoss : (smoothed (1 / (period : ℚ)) (losses closes))[n]? = some loss)
    (hMoved : 0 < gain + loss) :
    ∃ out, rsi (closes.map .finite) period = .ok out ∧
      (Defined closes n gain loss out ↔ Remembered period (Fell closes) n) := by
  obtain ⟨out, hOut, hCell⟩ := rsi_cell hPeriod hGain hLoss
  obtain ⟨hWeight, hLe⟩ := weight_bounds hPeriod
  have hNonneg : 0 ≤ loss := le_smoothed hWeight.le hLe (losses_nonneg closes) hLoss
  have hFell : Fell closes = fun m => ∃ x ∈ (losses closes)[m]?, 0 < x :=
    funext fun _ => propext fell_iff
  refine ⟨out, hOut, ?_⟩
  rw [hFell, ← average_pos_iff hPeriod (losses_nonneg closes) hLoss]
  constructor
  · intro hDefined
    by_contra hNone
    obtain rfl : loss = 0 := le_antisymm (not_lt.mp hNone) hNonneg
    rw [add_zero] at hMoved
    exact not_defined hMoved hCell hDefined
  · exact fun hPos => defined hPeriod hGain hLoss hPos hCell

end Index

namespace Rally

local instance : Pandas := leadingGaps

/-- A fall and a rise. -/
def dip : List ℚ := [2, 1, 3]

/-- The closes only rise. -/
def rally : List ℚ := [1, 2, 3]

theorem dip_defined : ∃ out, rsi (dip.map .finite) 14 = .ok out ∧
    (Defined dip 1 (1 / 7) (13 / 14) out ↔ Remembered 14 (Fell dip) 1) :=
  rsi_defined_iff (by norm_num) (by decide +kernel) (by decide +kernel) (by norm_num)

/-- The average gain is 1 and there is no loss: the index is 100 and `_rsi` returns 0. -/
theorem rally_zero :
    rsi (rally.map .finite) 14 = .ok [.nan, .finite 0, .finite 0] ∧
      (smoothed (1 / 14) (gains rally))[1]? = some 1 ∧
      (smoothed (1 / 14) (losses rally))[1]? = some 0 ∧
      ¬Defined rally 1 1 0 [.nan, .finite 0, .finite 0] := by
  refine ⟨by decide +kernel, by decide +kernel, by decide +kernel, fun hDefined => ?_⟩
  have hValue := hDefined.value
  norm_num at hValue

end Rally

end TradingAgent.Signals
