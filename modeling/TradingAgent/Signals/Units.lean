import TradingAgent.Signals.Features
import Mathlib.Algebra.BigOperators.Ring.List

/-!
# Features in other units

Prices may be quoted in another unit: `repriced k` multiplies the prices of a candle by `k` and
leaves its volume. Every column of the frame is then the same column by a factor of its own,
`k` for the prices and their averages and 1 for the volumes and the relative strength
(`columns_repriced`), and so are the features: `compute_repriced`.
-/

namespace TradingAgent.Signals

open Averages Causality Marketdata

variable (k : ℚ)

/-- A candle whose prices are quoted in another unit. -/
def repriced (c : Candle) : Candle :=
  { c with
    «open» := k * c.open
    high := k * c.high
    low := k * c.low
    close := k * c.close }

def Bar.repriced (bar : Bar) : Bar :=
  { bar with
    «open» := k * bar.open
    high := k * bar.high
    low := k * bar.low
    close := k * bar.close }

/-- The features that are not in the unit of the prices. -/
def unitless (name : String) : Bool := name ∈ ["volume", "rsi14", "volume_ma20"]

/-- What the unit multiplies a feature by. -/
def factor (name : String) : ℚ := if unitless name then 1 else k

def FeatureVector.repriced (vector : FeatureVector) : FeatureVector :=
  { vector with
    features := vector.features.map fun feature => (feature.1, factor k feature.1 * feature.2) }

variable {k}

/-! ## Cells -/

theorem Cell.finite_mul (p q : ℚ) : Cell.finite p * Cell.finite q = .finite (p * q) := rfl

theorem Cell.finite_one_mul (cell : Cell) : Cell.finite 1 * cell = cell := by
  cases cell with
  | finite q => exact congrArg Cell.finite (one_mul q)
  | infinity negative =>
    have hOne : ¬(1 : ℚ) = 0 ∧ ¬(1 : ℚ) < 0 := by norm_num
    change (if (1 : ℚ) = 0 then Cell.nan else .infinity (negative != decide ((1 : ℚ) < 0))) = _
    rw [if_neg hOne.1, decide_eq_false hOne.2, Bool.bne_false]
  | nan => rfl

theorem Cell.finite_mul_infinity (hk : 0 < k) (negative : Bool) :
    Cell.finite k * .infinity negative = .infinity negative := by
  change (if k = 0 then Cell.nan else .infinity (negative != decide (k < 0))) = _
  rw [if_neg hk.ne', decide_eq_false hk.not_gt, Bool.bne_false]

/-- A unit distributes over sums, undefined ones included. -/
theorem Cell.finite_mul_add (hk : 0 < k) (a b : Cell) :
    Cell.finite k * (a + b) = Cell.finite k * a + Cell.finite k * b := by
  cases a with
  | finite p =>
    cases b with
    | finite q => exact congrArg Cell.finite (mul_add k p q)
    | infinity negative =>
      rw [finite_mul_infinity hk, finite_mul]
      exact finite_mul_infinity hk negative
    | nan => rfl
  | infinity negative =>
    rw [finite_mul_infinity hk]
    cases b with
    | finite q => exact finite_mul_infinity hk negative
    | infinity other =>
      rw [finite_mul_infinity hk]
      change Cell.finite k * (if negative = other then .infinity negative else .nan) =
        if negative = other then .infinity negative else .nan
      split_ifs
      · exact finite_mul_infinity hk negative
      · rfl
    | nan => rfl
  | nan => rfl

theorem Cell.finite_mul_neg (hk : 0 < k) (a : Cell) :
    Cell.finite k * -a = -(Cell.finite k * a) := by
  cases a with
  | finite p => exact congrArg Cell.finite (mul_neg k p)
  | infinity negative =>
    rw [finite_mul_infinity hk]
    exact finite_mul_infinity hk !negative
  | nan => rfl

theorem Cell.finite_mul_sub (hk : 0 < k) (a b : Cell) :
    Cell.finite k * (a - b) = Cell.finite k * a - Cell.finite k * b := by
  change Cell.finite k * (a + -b) = Cell.finite k * a + -(Cell.finite k * b)
  rw [finite_mul_add hk, finite_mul_neg hk]

theorem toFloat_mul {c : ℚ} (hc : 0 < c) (cell : Cell) :
    toFloat (.finite c * cell) = (toFloat cell).map (c * ·) := by
  cases cell with
  | finite q => rfl
  | infinity negative => rw [Cell.finite_mul_infinity hc]; rfl
  | nan => rfl

theorem Cell.mul_comm_finite (hk : 0 < k) {c : ℚ} (hc : 0 < c) (cell : Cell) :
    Cell.finite c * (Cell.finite k * cell) = Cell.finite k * (Cell.finite c * cell) := by
  cases cell with
  | finite q => exact congrArg Cell.finite (mul_left_comm c k q)
  | infinity negative =>
    rw [finite_mul_infinity hk, finite_mul_infinity hc, finite_mul_infinity hk]
  | nan => rfl

/-- A column of multiples of numbers. -/
theorem finite_map_mul (entries : List ℚ) :
    (entries.map (k * ·)).map Cell.finite = (entries.map Cell.finite).map (Cell.finite k * ·) := by
  rw [List.map_map, List.map_map]
  rfl

/-! ## Columns -/

theorem mean_map_mul (window : List ℚ) :
    mean (window.map (k * ·)) = Cell.finite k * mean window := by
  have hSum : (window.map (k * ·)).sum = k * window.sum := by
    rw [List.sum_map_mul_left, List.map_id']
  rw [mean, mean, hSum, List.length_map, mul_div_assoc]
  rfl

theorem changes_map_mul (closes : List ℚ) :
    changes (closes.map (k * ·)) = (changes closes).map (k * ·) := by
  rw [changes, changes, ← List.map_tail, List.zipWith_map, List.map_zipWith]
  exact congrArg (fun f => List.zipWith f closes.tail closes)
    (funext fun a => funext fun b => (mul_sub k a b).symm)

theorem gains_map_mul (hk : 0 < k) (closes : List ℚ) :
    gains (closes.map (k * ·)) = (gains closes).map (k * ·) := by
  rw [gains, gains, changes_map_mul, List.map_map, List.map_map]
  refine List.map_congr_left fun change _ => ?_
  rw [Function.comp_apply, Function.comp_apply, mul_max_of_nonneg _ _ hk.le, mul_zero]

theorem losses_map_mul (hk : 0 < k) (closes : List ℚ) :
    losses (closes.map (k * ·)) = (losses closes).map (k * ·) := by
  rw [losses, losses, changes_map_mul, List.map_map, List.map_map]
  refine List.map_congr_left fun change _ => ?_
  rw [Function.comp_apply, Function.comp_apply, mul_max_of_nonneg _ _ hk.le, mul_zero, mul_neg]

theorem strength_mul (hk : k ≠ 0) (gain loss : ℚ) :
    strength (k * gain) (k * loss) = strength gain loss := by
  have hShare : 100 * (k * gain) / (k * gain + k * loss) = 100 * gain / (gain + loss) := by
    rw [← mul_add, mul_left_comm, mul_div_mul_left _ _ hk]
  unfold strength
  rw [hShare]
  by_cases hLoss : loss = 0
  · rw [if_pos hLoss, if_pos (by rw [hLoss, mul_zero])]
  · rw [if_neg hLoss, if_neg (mul_ne_zero hk hLoss)]

theorem rsiColumn_map_mul (hk : 0 < k) (closes : List ℚ) :
    rsiColumn (closes.map (k * ·)) = rsiColumn closes := by
  have hStrength : (fun gain loss => strength (k * gain) (k * loss)) = strength :=
    funext fun gain => funext fun loss => strength_mul hk.ne' gain loss
  unfold rsiColumn
  rw [gains_map_mul hk, losses_map_mul hk, smoothed_map_mul, smoothed_map_mul, List.zipWith_map,
    hStrength]
  simp only [List.map_eq_nil_iff]

theorem trailing_map_mul {f : List ℚ → Cell}
    (hf : ∀ window, f (window.map (k * ·)) = Cell.finite k * f window) (window : ℕ)
    (entries : List ℚ) : trailing window f .nan (entries.map (k * ·)) =
      (trailing window f .nan entries).map (Cell.finite k * ·) := by
  have hWindow : (fun part => f (part.map (k * ·))) = fun part => Cell.finite k * f part :=
    funext hf
  rw [trailing_map, map_trailing, hWindow]
  rfl

section Columns

variable [Frames]

/-- Every column is the same column in the other unit. -/
theorem columns_repriced (hk : 0 < k)
    (hStd : ∀ window, Frames.std (window.map (k * ·)) = Cell.finite k * Frames.std window)
    (bars : List Bar) : ∀ c ∈ columns,
      c.2 (bars.map (Bar.repriced k)) = (c.2 bars).map (Cell.finite (factor k c.1) * ·) := by
  have hPrice {name : String} {cells cells' : List Cell} (hName : unitless name = false)
      (h : cells' = cells.map (Cell.finite k * ·)) :
      cells' = cells.map (Cell.finite (factor k name) * ·) := by
    rw [factor, hName, if_neg Bool.false_ne_true]
    exact h
  have hUnitless {name : String} {cells cells' : List Cell} (hName : unitless name = true)
      (h : cells' = cells) : cells' = cells.map (Cell.finite (factor k name) * ·) := by
    rw [factor, hName, if_pos rfl, h]
    simp only [Cell.finite_one_mul, List.map_id']
  have hColumn {field : Bar → ℚ} (hField : ∀ bar, field (bar.repriced k) = k * field bar) :
      column field (bars.map (Bar.repriced k)) = (column field bars).map (Cell.finite k * ·) := by
    rw [column, column, List.map_map, List.map_map]
    exact List.map_congr_left fun bar _ => congrArg Cell.finite (hField bar)
  have hCloses : (bars.map (Bar.repriced k)).map Bar.close = (bars.map Bar.close).map (k * ·) := by
    rw [List.map_map, List.map_map]
    rfl
  have hVolumes : (bars.map (Bar.repriced k)).map Bar.volume = bars.map Bar.volume := by
    rw [List.map_map]
    rfl
  have hTrailing {f : List ℚ → Cell} (window : ℕ)
      (hf : ∀ part, f (part.map (k * ·)) = Cell.finite k * f part) :
      trailing window f .nan ((bars.map (Bar.repriced k)).map Bar.close) =
        (trailing window f .nan (bars.map Bar.close)).map (Cell.finite k * ·) := by
    rw [hCloses, trailing_map_mul hf]
  have hEma (w : ℚ) : (smoothed w ((bars.map (Bar.repriced k)).map Bar.close)).map Cell.finite =
      ((smoothed w (bars.map Bar.close)).map Cell.finite).map (Cell.finite k * ·) := by
    rw [hCloses, smoothed_map_mul, finite_map_mul]
  have hTwice (cells : List Cell) : (cells.map (Cell.finite k * ·)).map (Cell.finite 2 * ·) =
      (cells.map (Cell.finite 2 * ·)).map (Cell.finite k * ·) := by
    rw [List.map_map, List.map_map]
    exact List.map_congr_left fun cell _ => Cell.mul_comm_finite hk two_pos cell
  have hBand : (trailing 20 Frames.std .nan ((bars.map (Bar.repriced k)).map Bar.close)).map
      (Cell.finite 2 * ·) = ((trailing 20 Frames.std .nan (bars.map Bar.close)).map
        (Cell.finite 2 * ·)).map (Cell.finite k * ·) := by
    rw [hTrailing 20 hStd, hTwice]
  simp only [columns, List.forall_mem_cons, List.not_mem_nil, false_implies, implies_true, and_true]
  refine ⟨hPrice (by decide) (hColumn fun _ => rfl), hPrice (by decide) (hColumn fun _ => rfl),
    hPrice (by decide) (hColumn fun _ => rfl), hPrice (by decide) (hColumn fun _ => rfl),
    hUnitless (by decide) ?_, hPrice (by decide) (hTrailing 10 mean_map_mul),
    hPrice (by decide) (hTrailing 20 mean_map_mul), hPrice (by decide) (hEma _),
    hPrice (by decide) (hEma _), hUnitless (by decide) ?_, hPrice (by decide) ?_,
    hPrice (by decide) ?_, hPrice (by decide) ?_, hPrice (by decide) (hTrailing 20 mean_map_mul),
    hUnitless (by decide) (by rw [hVolumes])⟩
  · rw [column, List.map_map]
    rfl
  · rw [hCloses, rsiColumn_map_mul hk]
  · rw [hEma, hEma, List.zipWith_map, List.map_zipWith]
    simp only [Cell.finite_mul_sub hk]
  · rw [hTrailing 20 mean_map_mul, hBand, List.zipWith_map, List.map_zipWith]
    simp only [Cell.finite_mul_add hk]
  · rw [hTrailing 20 mean_map_mul, hBand, List.zipWith_map, List.map_zipWith]
    simp only [Cell.finite_mul_sub hk]

/-! ## Vectors -/

omit [Frames] in
theorem factor_pos (hk : 0 < k) (name : String) : 0 < factor k name := by
  unfold factor
  split_ifs
  · exact one_pos
  · exact hk

omit [Frames] in
/-- The features of a row, from columns by a factor each. -/
theorem feats_repriced (hk : 0 < k) (frame : List (String × List Cell))
    (features : Option (List String)) (i : ℕ) :
    feats (frame.map fun c => (c.1, c.2.map (Cell.finite (factor k c.1) * ·))) features i =
      (feats frame features i).map fun feature => (feature.1, factor k feature.1 * feature.2) := by
  rw [feats, feats, List.filterMap_map, List.map_filterMap]
  refine List.filterMap_congr fun c _ => ?_
  obtain ⟨name, cells⟩ := c
  simp only [Function.comp_apply, List.getElem?_map]
  split_ifs
  · cases cells[i]? with
    | none => rfl
    | some cell =>
      simp only [Option.map_some, Option.bind_some, toFloat_mul (factor_pos hk name)]
      cases toFloat cell <;> rfl
  · rfl

theorem frameOf_repriced (hk : 0 < k)
    (hStd : ∀ window, Frames.std (window.map (k * ·)) = Cell.finite k * Frames.std window)
    {bars : List Bar} (h : bars ≠ []) :
    frameOf (bars.map (Bar.repriced k)) = (frameOf bars).map fun frame =>
      frame.map fun c => (c.1, c.2.map (Cell.finite (factor k c.1) * ·)) := by
  have hSome : bars.map (Bar.repriced k) ≠ [] := fun hNone => h (List.map_eq_nil_iff.mp hNone)
  rw [frameOf_eq h, frameOf_eq hSome, Except.map, List.map_map]
  exact congrArg Except.ok (List.map_congr_left fun c hc =>
    congrArg (Prod.mk c.1) (columns_repriced hk hStd bars c hc))

/-- **Units.** If the standard deviation of multiples is the multiple of the standard
deviation, candles in ascending order whose prices are quoted in another unit have the same
features, of which those in the unit of the prices are multiplied: the prices, their averages,
the MACD and the bands. The volumes and the relative strength stay. -/
theorem compute_repriced (hk : 0 < k)
    (hStd : ∀ window, Frames.std (window.map (k * ·)) = Cell.finite k * Frames.std window)
    {candles : List Candle} (hAscending : candles.Pairwise (·.openedAt < ·.openedAt))
    (features : Option (List String)) :
    compute (candles.map (repriced k)) features =
      (compute candles features).map fun vectors => vectors.map (FeatureVector.repriced k) := by
  cases candles with
  | nil => rfl
  | cons first rest =>
    have hAscending' : (repriced k first :: rest.map (repriced k)).Pairwise
        (·.openedAt < ·.openedAt) := by
      rw [← List.map_cons]
      exact List.pairwise_map.mpr hAscending
    have hBars : ((repriced k first :: rest.map (repriced k)).map Bar.of) =
        ((first :: rest).map Bar.of).map (Bar.repriced k) := by
      rw [← List.map_cons, List.map_map, List.map_map]
      rfl
    have hSome : (first :: rest).map Bar.of ≠ [] := List.cons_ne_nil _ _
    rw [List.map_cons, compute_eq hAscending', compute_eq hAscending, hBars,
      frameOf_repriced hk hStd hSome]
    cases frameOf ((first :: rest).map Bar.of) with
    | error e => rfl
    | ok frame =>
      simp only [Except.map, Except.ok.injEq]
      refine List.ext_getElem? fun i => ?_
      simp only [List.getElem?_mapIdx, List.getElem?_map, Option.map_map]
      refine congrArg (Option.map · _) (funext fun bar => ?_)
      simp only [Function.comp_apply, vectorOf, feats_repriced hk, FeatureVector.repriced]
      rfl

end Columns

namespace Quoted

open Short

local instance : Frames := shortFrames

/-- The prices in units of a hundredth. -/
theorem candles_repriced :
    compute (candles.map (repriced 100)) (some ["close", "ema12"]) =
      (compute candles (some ["close", "ema12"])).map fun vectors =>
        vectors.map (FeatureVector.repriced 100) :=
  compute_repriced (by norm_num) (fun _ => rfl) (by decide) (some ["close", "ema12"])

end Quoted

end TradingAgent.Signals
