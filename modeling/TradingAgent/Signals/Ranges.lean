import TradingAgent.Signals.Features
import Mathlib.Algebra.Order.BigOperators.Group.List
import Mathlib.Data.List.Nodup

/-!
# Which features there are, and their ranges

A row has the features whose windows it fills: `features_defined` says which these are, by
`warmup`. And the features are where the closes up to the row put them (`Ranged`): an average
of closes lies between the lowest and the highest of them, the MACD is not wider than their
range, the relative strength lies between 0 and 100, and the bands lie around their middle.
-/

namespace TradingAgent.Signals

open Averages Causality Marketdata

/-- The features, in the order of the columns. -/
def names : List String :=
  ["open", "high", "low", "close", "volume", "sma10", "sma20", "ema12", "ema26", "rsi14", "macd",
    "bb_upper", "bb_lower", "bb_mid", "volume_ma20"]

/-- The number of rows that a feature needs. -/
def warmup (name : String) : ℕ :=
  if name = "sma10" then 10
  else if name ∈ ["sma20", "bb_upper", "bb_lower", "bb_mid", "volume_ma20"] then 20
  else if name = "rsi14" then 2
  else 1

/-- The features of a row, when the closes up to it lie between two bounds. -/
structure Ranged (low high : ℚ) (vector : FeatureVector) : Prop where
  averages : ∀ name ∈ ["close", "sma10", "sma20", "ema12", "ema26", "bb_mid"], ∀ q,
    (name, q) ∈ vector.features → low ≤ q ∧ q ≤ high
  macd : ∀ q, ("macd", q) ∈ vector.features → |q| ≤ high - low
  rsi14 : ∀ q, ("rsi14", q) ∈ vector.features → 0 ≤ q ∧ q ≤ 100
  bands : ∀ lower mid upper, ("bb_lower", lower) ∈ vector.features →
    ("bb_mid", mid) ∈ vector.features → ("bb_upper", upper) ∈ vector.features →
    lower ≤ mid ∧ mid ≤ upper ∧ upper - mid = mid - lower

/-! ## Cells -/

theorem toFloat_eq_some {cell : Cell} {q : ℚ} : toFloat cell = some q ↔ cell = .finite q := by
  cases cell with
  | finite p => exact ⟨fun h => congrArg Cell.finite (Option.some.inj h),
      fun h => congrArg some (Cell.finite.inj h)⟩
  | infinity negative => exact ⟨nofun, nofun⟩
  | nan => exact ⟨nofun, nofun⟩

/-- The mean of numbers between two bounds. -/
theorem mean_bounds {low high : ℚ} {window : List ℚ} (h : window ≠ [])
    (hLow : ∀ x ∈ window, low ≤ x) (hHigh : ∀ x ∈ window, x ≤ high) :
    low ≤ window.sum / window.length ∧ window.sum / window.length ≤ high := by
  have hPos : (0 : ℚ) < window.length := by exact_mod_cast List.length_pos_iff.mpr h
  have hFloor := List.card_nsmul_le_sum window low hLow
  have hCeil := List.sum_le_card_nsmul window high hHigh
  rw [nsmul_eq_mul] at hFloor hCeil
  rw [le_div_iff₀ hPos, div_le_iff₀ hPos]
  constructor
  · rw [mul_comm]
    exact hFloor
  · rw [mul_comm]
    exact hCeil

section Rows

variable [Frames] {bars : List Bar} {i : ℕ} {low high : ℚ}

theorem columns_names : columns.map Prod.fst = names := rfl

/-- The feature of a name is a cell of the column of that name. -/
theorem feature_cell {name : String} {f : List Bar → List Cell} {features : Option (List String)}
    {q : ℚ} (hColumn : (name, f) ∈ columns)
    (h : (name, q) ∈ feats (columns.map fun c => (c.1, c.2 bars)) features i) :
    (f bars)[i]? = some (.finite q) := by
  have hNames : (columns.map Prod.fst).Nodup := columns_names ▸ (by decide : names.Nodup)
  rw [feats, List.filterMap_map] at h
  obtain ⟨c, hc, hSome⟩ := List.mem_filterMap.mp h
  dsimp only [Function.comp_apply] at hSome
  split_ifs at hSome
  obtain ⟨p, hCell, hPair⟩ := Option.map_eq_some_iff.mp hSome
  obtain ⟨hName, rfl⟩ := Prod.mk.inj hPair
  have hSame : c = (name, f) := List.inj_on_of_nodup_map hNames hc hColumn hName
  obtain ⟨cell, hAt, hFloat⟩ := Option.bind_eq_some_iff.mp hCell
  rw [hSame] at hAt
  rw [hAt, toFloat_eq_some.mp hFloat]

omit [Frames] in
/-- A cell of a trailing window is defined once the window is filled. -/
theorem trailing_cell {window : ℕ} {f : List ℚ → Cell} {entries : List ℚ} {q : ℚ}
    (h : (trailing window f .nan entries)[i]? = some (.finite q)) :
    window ≤ i + 1 ∧ i < entries.length ∧
      f ((entries.take (i + 1)).drop (i + 1 - window)) = .finite q := by
  have hIndex : i < entries.length := by
    obtain ⟨hi, -⟩ := List.getElem?_eq_some_iff.mp h
    simpa using hi
  rw [trailing_getElem? _ _ _ hIndex] at h
  have hCell := Option.some.inj h
  split_ifs at hCell with hShort
  exact ⟨not_lt.mp hShort, hIndex, hCell⟩

omit [Frames] in
theorem trailing_mean_bounds {window : ℕ} {entries : List ℚ} {q : ℚ} (hWindow : 0 < window)
    (h : (trailing window mean .nan entries)[i]? = some (.finite q))
    (hLow : ∀ x ∈ entries.take (i + 1), low ≤ x) (hHigh : ∀ x ∈ entries.take (i + 1), x ≤ high) :
    low ≤ q ∧ q ≤ high := by
  obtain ⟨hFilled, hIndex, hMean⟩ := trailing_cell h
  obtain rfl := Cell.finite.inj hMean
  refine mean_bounds (fun hNone => ?_) (fun x hx => hLow x (List.mem_of_mem_drop hx))
    fun x hx => hHigh x (List.mem_of_mem_drop hx)
  have hLength := congrArg List.length hNone
  rw [List.length_drop, List.length_take, List.length_nil] at hLength
  omega

omit [Frames] in
/-- An exponentially weighted average of the closes up to a row. -/
theorem smoothed_bounds {w average : ℚ} {entries : List ℚ} (hw : 0 ≤ w) (hw1 : w ≤ 1)
    (h : (smoothed w entries)[i]? = some average) (hLow : ∀ x ∈ entries.take (i + 1), low ≤ x)
    (hHigh : ∀ x ∈ entries.take (i + 1), x ≤ high) : low ≤ average ∧ average ≤ high := by
  have hPrefix : (smoothed w (entries.take (i + 1)))[i]? = some average := by
    rw [causal_smoothed w entries (i + 1), List.getElem?_take_of_lt (Nat.lt_succ_self i), h]
  exact ⟨le_smoothed hw hw1 hLow hPrefix, smoothed_le hw hw1 hHigh hPrefix⟩

/-! ## The ranges of a row -/

/-- The closes of the rows up to an index lie between the bounds. -/
def Within (bars : List Bar) (i : ℕ) (low high : ℚ) : Prop :=
  ∀ x ∈ (bars.map Bar.close).take (i + 1), low ≤ x ∧ x ≤ high

theorem trailing_range {window : ℕ} {name : String} {features : Option (List String)} {q : ℚ}
    (hWithin : Within bars i low high) (hWindow : 0 < window)
    (hColumn : (name, fun bars : List Bar => trailing window mean .nan (bars.map Bar.close)) ∈
      columns)
    (h : (name, q) ∈ feats (columns.map fun c => (c.1, c.2 bars)) features i) :
    low ≤ q ∧ q ≤ high :=
  trailing_mean_bounds hWindow (feature_cell hColumn h) (fun x hx => (hWithin x hx).1)
    fun x hx => (hWithin x hx).2

omit [Frames] in
/-- A cell of an exponentially weighted average with a span. -/
theorem ema_range {span : ℕ} {q : ℚ} (hWithin : Within bars i low high) (hSpan : 1 ≤ span)
    (h : ((smoothed (2 / ((span : ℚ) + 1)) (bars.map Bar.close)).map Cell.finite)[i]? =
      some (.finite q)) : low ≤ q ∧ q ≤ high := by
  have hOne : (1 : ℚ) ≤ span := by exact_mod_cast hSpan
  rw [List.getElem?_map, Option.map_eq_some_iff] at h
  obtain ⟨average, hAverage, hCell⟩ := h
  obtain rfl := Cell.finite.inj hCell
  refine smoothed_bounds (by positivity) ?_ hAverage (fun x hx => (hWithin x hx).1)
    fun x hx => (hWithin x hx).2
  rw [div_le_one (by positivity)]
  linarith

omit [Frames] in
theorem strength_range {gain loss : ℚ} (hGain : 0 ≤ gain) (hLoss : 0 ≤ loss) :
    0 ≤ strength gain loss ∧ strength gain loss ≤ 100 := by
  rcases hLoss.lt_or_eq with hPos | rfl
  · exact strength_bounds hGain hPos
  · rw [strength, if_pos rfl]
    norm_num

omit [Frames] in
/-- The relative strength lies between 0 and 100. -/
theorem rsi_range {q : ℚ} {closes : List ℚ} (h : (rsiColumn closes)[i]? = some (.finite q)) :
    0 ≤ q ∧ q ≤ 100 := by
  unfold rsiColumn at h
  split_ifs at h
  · simp at h
  · cases i with
    | zero => simp at h
    | succ n =>
      rw [List.getElem?_cons_succ, List.getElem?_map, Option.map_eq_some_iff] at h
      obtain ⟨index, hIndex, hCell⟩ := h
      obtain rfl := Cell.finite.inj hCell
      rw [List.getElem?_zipWith_eq_some] at hIndex
      obtain ⟨gain, loss, hGain, hLoss, rfl⟩ := hIndex
      obtain ⟨hPos, hLe⟩ := weight_bounds (show (1 : ℤ) ≤ 14 by norm_num)
      exact strength_range
        (smoothed_nonneg hPos.le hLe (gains_nonneg closes) gain (List.mem_of_getElem? hGain))
        (smoothed_nonneg hPos.le hLe (losses_nonneg closes) loss (List.mem_of_getElem? hLoss))

/-- The band around the middle, where the middle is defined. -/
theorem band_cell (hStd : ∀ window : List ℚ, window.length = 20 →
      ∃ q, 0 ≤ q ∧ Frames.std window = .finite q) {mid : ℚ}
    (h : (trailing 20 mean .nan (bars.map Bar.close))[i]? = some (.finite mid)) :
    ∃ q, 0 ≤ q ∧ ((trailing 20 Frames.std .nan (bars.map Bar.close)).map
      (Cell.finite 2 * ·))[i]? = some (.finite (2 * q)) := by
  obtain ⟨hFilled, hIndex, -⟩ := trailing_cell h
  have hLength : (((bars.map Bar.close).take (i + 1)).drop (i + 1 - 20)).length = 20 := by
    rw [List.length_drop, List.length_take]
    omega
  obtain ⟨q, hq, hCell⟩ := hStd _ hLength
  refine ⟨q, hq, ?_⟩
  rw [List.getElem?_map, trailing_getElem? _ _ _ hIndex, if_neg (not_lt.mpr hFilled), hCell]
  rfl

/-- The features of a row. -/
theorem feats_ranged (hStd : ∀ window : List ℚ, window.length = 20 →
      ∃ q, 0 ≤ q ∧ Frames.std window = .finite q) (hWithin : Within bars i low high)
    (first : Candle) (features : Option (List String)) (bar : Bar) :
    Ranged low high (vectorOf first (columns.map fun c => (c.1, c.2 bars)) features i bar) := by
  have hEma12 {q : ℚ} (h : ("ema12", q) ∈ feats (columns.map fun c => (c.1, c.2 bars)) features i) :
      low ≤ q ∧ q ≤ high :=
    ema_range hWithin (by norm_num : 1 ≤ 12)
      (feature_cell (List.mem_of_getElem? (i := 7) rfl) h)
  have hEma26 {q : ℚ} (h : ("ema26", q) ∈ feats (columns.map fun c => (c.1, c.2 bars)) features i) :
      low ≤ q ∧ q ≤ high :=
    ema_range hWithin (by norm_num : 1 ≤ 26)
      (feature_cell (List.mem_of_getElem? (i := 8) rfl) h)
  refine ⟨?_, fun q h => ?_, fun q h => ?_, fun lower mid upper hLower hMid hUpper => ?_⟩
  · simp only [List.forall_mem_cons, List.not_mem_nil, false_implies, implies_true, and_true]
    refine ⟨fun q h => ?_, fun q h => ?_, fun q h => ?_, fun q => hEma12, fun q => hEma26,
      fun q h => ?_⟩
    · have hCell : (column Bar.close bars)[i]? = some (.finite q) :=
        feature_cell (List.mem_of_getElem? (i := 3) rfl) h
      rw [column_eq, List.getElem?_map, Option.map_eq_some_iff] at hCell
      obtain ⟨x, hx, hSame⟩ := hCell
      obtain rfl := Cell.finite.inj hSame
      refine hWithin x (List.mem_of_getElem? (i := i) ?_)
      rw [List.getElem?_take_of_lt (Nat.lt_succ_self i), hx]
    · exact trailing_range hWithin (by norm_num) (List.mem_of_getElem? (i := 5) rfl) h
    · exact trailing_range hWithin (by norm_num) (List.mem_of_getElem? (i := 6) rfl) h
    · exact trailing_range hWithin (by norm_num) (List.mem_of_getElem? (i := 13) rfl) h
  · -- The two averages lie in the same range.
    have hCell := feature_cell (List.mem_of_getElem? (i := 10) rfl) h
    rw [List.getElem?_zipWith_eq_some] at hCell
    obtain ⟨a, b, ha, hb, hSub⟩ := hCell
    rw [List.getElem?_map, Option.map_eq_some_iff] at ha hb
    obtain ⟨x, hx, rfl⟩ := ha
    obtain ⟨y, hy, rfl⟩ := hb
    have hLeft : low ≤ x ∧ x ≤ high := ema_range hWithin (by norm_num : 1 ≤ 12) (by
      rw [List.getElem?_map, hx, Option.map_some])
    have hRight : low ≤ y ∧ y ≤ high := ema_range hWithin (by norm_num : 1 ≤ 26) (by
      rw [List.getElem?_map, hy, Option.map_some])
    rw [Cell.finite_sub] at hSub
    rw [← Cell.finite.inj hSub, abs_le]
    constructor <;> linarith [hLeft.1, hLeft.2, hRight.1, hRight.2]
  · exact rsi_range (feature_cell (List.mem_of_getElem? (i := 9) rfl) h)
  · have hMiddle : (trailing 20 mean .nan (bars.map Bar.close))[i]? = some (.finite mid) :=
      feature_cell (List.mem_of_getElem? (i := 13) rfl) hMid
    obtain ⟨s, hs, hBand⟩ := band_cell hStd hMiddle
    have hAbove := feature_cell (List.mem_of_getElem? (i := 11) rfl) hUpper
    have hBelow := feature_cell (List.mem_of_getElem? (i := 12) rfl) hLower
    rw [List.getElem?_zipWith, hMiddle, hBand] at hAbove hBelow
    have hUp := Cell.finite.inj (Option.some.inj hAbove)
    have hDown := Cell.finite.inj ((Cell.finite_sub mid (2 * s)).symm.trans
      (Option.some.inj hBelow))
    refine ⟨?_, ?_, ?_⟩ <;> linarith

/-! ## The features of a row -/

omit [Frames] in
/-- The cells of a column are numbers in the rows from the `n`-th on, and undefined before. -/
def DefinedFrom (n length : ℕ) (cells : List Cell) : Prop :=
  ∀ i < length, ∃ cell, cells[i]? = some cell ∧
    if n ≤ i + 1 then ∃ q, cell = .finite q else cell = .nan

omit [Frames] in
theorem DefinedFrom.zipWith {n length : ℕ} {cells cells' : List Cell} {f : Cell → Cell → Cell}
    (hLeft : DefinedFrom n length cells) (hRight : DefinedFrom n length cells')
    (hFinite : ∀ p q, ∃ r, f (.finite p) (.finite q) = .finite r) (hNan : f .nan .nan = .nan) :
    DefinedFrom n length (List.zipWith f cells cells') := by
  intro i hi
  obtain ⟨a, ha, hFirst⟩ := hLeft i hi
  obtain ⟨b, hb, hSecond⟩ := hRight i hi
  refine ⟨f a b, by rw [List.getElem?_zipWith, ha, hb], ?_⟩
  split_ifs at hFirst hSecond ⊢
  · obtain ⟨p, rfl⟩ := hFirst
    obtain ⟨q, rfl⟩ := hSecond
    exact hFinite p q
  · rw [hFirst, hSecond, hNan]

omit [Frames] in
theorem DefinedFrom.map {n length : ℕ} {cells : List Cell} {f : Cell → Cell}
    (h : DefinedFrom n length cells) (hFinite : ∀ q, ∃ r, f (.finite q) = .finite r)
    (hNan : f .nan = .nan) : DefinedFrom n length (cells.map f) := by
  intro i hi
  obtain ⟨cell, hCell, hDefined⟩ := h i hi
  refine ⟨f cell, by rw [List.getElem?_map, hCell, Option.map_some], ?_⟩
  split_ifs at hDefined ⊢
  · obtain ⟨q, rfl⟩ := hDefined
    exact hFinite q
  · rw [hDefined, hNan]

omit [Frames] in
theorem defined_numbers {length : ℕ} {entries : List ℚ} (h : length ≤ entries.length) :
    DefinedFrom 1 length (entries.map .finite) := by
  intro i hi
  have hIndex : i < entries.length := hi.trans_le h
  refine ⟨.finite entries[i], ?_, ?_⟩
  · rw [List.getElem?_map, List.getElem?_eq_getElem hIndex, Option.map_some]
  · rw [if_pos (by omega)]
    exact ⟨_, rfl⟩

omit [Frames] in
theorem defined_trailing {window length : ℕ} {f : List ℚ → Cell} {entries : List ℚ}
    (hLength : entries.length = length)
    (h : ∀ part : List ℚ, part.length = window → ∃ q, f part = .finite q) :
    DefinedFrom window length (trailing window f .nan entries) := by
  intro i hi
  refine ⟨_, trailing_getElem? _ _ _ (hLength ▸ hi), ?_⟩
  by_cases hShort : i + 1 < window
  · rw [if_pos hShort, if_neg (not_le.mpr hShort)]
  · have hPart : ((entries.take (i + 1)).drop (i + 1 - window)).length = window := by
      rw [List.length_drop, List.length_take]
      omega
    rw [if_neg hShort, if_pos (not_lt.mp hShort)]
    exact h _ hPart

omit [Frames] in
theorem defined_rsi (closes : List ℚ) : DefinedFrom 2 closes.length (rsiColumn closes) := by
  intro i hi
  have hSome : closes ≠ [] := List.ne_nil_of_length_pos (by omega)
  unfold rsiColumn
  rw [if_neg hSome]
  cases i with
  | zero => exact ⟨.nan, rfl, rfl⟩
  | succ n =>
    have hChanges : n < (changes closes).length := by
      rw [changes, List.length_zipWith, List.length_tail]
      omega
    have hGains : n < (smoothed (1 / ((14 : ℤ) : ℚ)) (gains closes)).length := by
      rwa [length_smoothed, gains, List.length_map]
    have hLosses : n < (smoothed (1 / ((14 : ℤ) : ℚ)) (losses closes)).length := by
      rwa [length_smoothed, losses, List.length_map]
    refine ⟨.finite (strength (smoothed (1 / ((14 : ℤ) : ℚ)) (gains closes))[n]
      (smoothed (1 / ((14 : ℤ) : ℚ)) (losses closes))[n]), ?_, ?_⟩
    · rw [List.getElem?_cons_succ, List.getElem?_map, List.getElem?_zipWith,
        List.getElem?_eq_getElem hGains, List.getElem?_eq_getElem hLosses]
      rfl
    · rw [if_pos (by omega)]
      exact ⟨_, rfl⟩

/-- Every column is defined from its `warmup` on. -/
theorem columns_defined (hStd : ∀ window : List ℚ, window.length = 20 →
      ∃ q, 0 ≤ q ∧ Frames.std window = .finite q) (bars : List Bar) :
    ∀ c ∈ columns, DefinedFrom (warmup c.1) bars.length (c.2 bars) := by
  have hField (field : Bar → ℚ) : DefinedFrom 1 bars.length (column field bars) := by
    rw [column_eq]
    exact defined_numbers (List.length_map field).ge
  have hEma (w : ℚ) :
      DefinedFrom 1 bars.length ((smoothed w (bars.map Bar.close)).map Cell.finite) :=
    defined_numbers (by rw [length_smoothed, List.length_map])
  have hMean (field : Bar → ℚ) (window : ℕ) :
      DefinedFrom window bars.length (trailing window mean .nan (bars.map field)) :=
    defined_trailing (List.length_map _) fun part _ => ⟨_, rfl⟩
  have hBand : DefinedFrom 20 bars.length
      ((trailing 20 Frames.std .nan (bars.map Bar.close)).map (Cell.finite 2 * ·)) := by
    refine (defined_trailing (List.length_map _) fun part hPart => ?_).map
      (fun q => ⟨2 * q, rfl⟩) rfl
    obtain ⟨q, -, hCell⟩ := hStd part hPart
    exact ⟨q, hCell⟩
  have hAdd (p q : ℚ) : ∃ r, Cell.finite p + .finite q = .finite r := ⟨_, rfl⟩
  have hSub (p q : ℚ) : ∃ r, Cell.finite p - .finite q = .finite r := ⟨_, rfl⟩
  have hRsi : DefinedFrom 2 bars.length (rsiColumn (bars.map Bar.close)) := by
    have hCloses := defined_rsi (bars.map Bar.close)
    rwa [List.length_map] at hCloses
  simp only [columns, List.forall_mem_cons, List.not_mem_nil, false_implies, implies_true, and_true]
  exact ⟨hField _, hField _, hField _, hField _, hField _, hMean _ _, hMean _ _, hEma _, hEma _,
    hRsi, (hEma _).zipWith (hEma _) hSub rfl, (hMean _ _).zipWith hBand hAdd rfl,
    (hMean _ _).zipWith hBand hSub rfl, hMean _ _, hMean _ _⟩

/-- The names of the features of a row. -/
theorem feats_names (hStd : ∀ window : List ℚ, window.length = 20 →
      ∃ q, 0 ≤ q ∧ Frames.std window = .finite q) (features : Option (List String))
    (h : i < bars.length) :
    (feats (columns.map fun c => (c.1, c.2 bars)) features i).map Prod.fst =
      names.filter fun name => requested features name ∧ warmup name ≤ i + 1 := by
  rw [← columns_names, ← List.filterMap_eq_filter, List.filterMap_map, feats, List.filterMap_map,
    List.map_filterMap]
  refine List.filterMap_congr fun c hc => ?_
  obtain ⟨cell, hCell, hDefined⟩ := columns_defined hStd bars c hc i h
  simp only [Function.comp_apply, Option.guard, hCell, Option.bind_some]
  split_ifs at hDefined with hWarm
  · obtain ⟨q, rfl⟩ := hDefined
    by_cases hRequested : requested features c.1 = true <;> simp [hRequested, hWarm, toFloat]
  · rw [hDefined]
    by_cases hRequested : requested features c.1 = true <;> simp [hRequested, hWarm, toFloat]

end Rows

/-! ## The features of candles -/

section Vectors

variable [Frames] {candles : List Candle}

/-- The vector of a row, by the columns. -/
theorem compute_vectors (hAscending : candles.Pairwise (·.openedAt < ·.openedAt))
    (features : Option (List String)) :
    ∃ vectors, compute candles features = .ok vectors ∧ vectors.length = candles.length ∧
      ∀ i vector, vectors[i]? = some vector → i < (candles.map Bar.of).length ∧
        ∃ first bar, vector = vectorOf first
          (columns.map fun c => (c.1, c.2 (candles.map Bar.of))) features i bar := by
  cases candles with
  | nil => exact ⟨[], rfl, rfl, fun i vector h => by simp at h⟩
  | cons first rest =>
    have hSome : (first :: rest).map Bar.of ≠ [] := List.cons_ne_nil _ _
    refine ⟨((first :: rest).map Bar.of).mapIdx (vectorOf first
      (columns.map fun c => (c.1, c.2 ((first :: rest).map Bar.of))) features), ?_, ?_,
      fun i vector h => ?_⟩
    · rw [compute_eq hAscending, frameOf_eq hSome]
      rfl
    · rw [List.length_mapIdx, List.length_map]
    · rw [List.getElem?_mapIdx, Option.map_eq_some_iff] at h
      obtain ⟨bar, hBar, rfl⟩ := h
      exact ⟨(List.getElem?_eq_some_iff.mp hBar).1, first, bar, rfl⟩

/-- **Which features there are.** If the standard deviation of twenty closes is a number that is
not negative, then the vector of the `i`-th of candles in ascending order has exactly the requested
features that need no more than `i + 1` candles, in the order of the columns. -/
theorem compute_defined (hStd : ∀ window : List ℚ, window.length = 20 →
      ∃ q, 0 ≤ q ∧ Frames.std window = .finite q)
    (hAscending : candles.Pairwise (·.openedAt < ·.openedAt)) (features : Option (List String)) :
    ∃ vectors, compute candles features = .ok vectors ∧ vectors.length = candles.length ∧
      ∀ i vector, vectors[i]? = some vector → vector.features.map Prod.fst =
        names.filter fun name => requested features name ∧ warmup name ≤ i + 1 := by
  obtain ⟨vectors, hCompute, hLength, hVectors⟩ := compute_vectors hAscending features
  refine ⟨vectors, hCompute, hLength, fun i vector hVector => ?_⟩
  obtain ⟨hIndex, first, bar, rfl⟩ := hVectors i vector hVector
  exact feats_names hStd features hIndex

/-- **The ranges of the features.** If the standard deviation of twenty closes is a number that
is not negative, then the features of every row of candles in ascending order are where the
closes up to the row put them, whatever bounds these have. -/
theorem compute_ranged (hStd : ∀ window : List ℚ, window.length = 20 →
      ∃ q, 0 ≤ q ∧ Frames.std window = .finite q)
    (hAscending : candles.Pairwise (·.openedAt < ·.openedAt)) (features : Option (List String)) :
    ∃ vectors, compute candles features = .ok vectors ∧
      ∀ i vector low high, vectors[i]? = some vector →
        (∀ c ∈ candles.take (i + 1), low ≤ c.close ∧ c.close ≤ high) →
        Ranged low high vector := by
  obtain ⟨vectors, hCompute, -, hVectors⟩ := compute_vectors hAscending features
  refine ⟨vectors, hCompute, fun i vector low high hVector hBounds => ?_⟩
  obtain ⟨-, first, bar, rfl⟩ := hVectors i vector hVector
  refine feats_ranged hStd (fun x hx => ?_) first features bar
  rw [List.map_map, ← List.map_take] at hx
  obtain ⟨c, hc, rfl⟩ := List.mem_map.mp hx
  exact hBounds c hc

end Vectors

namespace Warmup

/-- Frames of fewer rows than the window of a standard deviation. -/
@[reducible] def frames : Frames :=
  { Short.shortFrames with
    std := fun _ => .finite 0
    rollingStd := fun series window =>
      trailing window (Short.overEntries fun _ => .finite 0) .nan series
    rollingStd_eq := fun entries window =>
      Short.trailing_overEntries (fun _ => .finite 0) window entries }

local instance : Frames := frames

theorem std_number (window : List ℚ) (_ : window.length = 20) :
    ∃ q, 0 ≤ q ∧ Frames.std window = .finite q := ⟨0, le_rfl, rfl⟩

/-- The second row has a relative strength, and no row has an average of ten closes. -/
theorem candles_defined :
    ∃ vectors, compute Short.candles (some ["sma10", "rsi14", "ema12"]) = .ok vectors ∧
      vectors.length = 3 ∧ ∀ i vector, vectors[i]? = some vector →
        vector.features.map Prod.fst = names.filter fun name =>
          requested (some ["sma10", "rsi14", "ema12"]) name ∧ warmup name ≤ i + 1 :=
  compute_defined std_number (by decide) _

theorem candles_ranged :
    ∃ vectors, compute Short.candles none = .ok vectors ∧ ∀ vector, vectors[1]? = some vector →
      Ranged 1 2 vector := by
  obtain ⟨vectors, hCompute, hRanged⟩ :=
    compute_ranged std_number (show Short.candles.Pairwise _ by decide) none
  exact ⟨vectors, hCompute, fun vector hVector => hRanged 1 vector 1 2 hVector (by decide +kernel)⟩

end Warmup

end TradingAgent.Signals
