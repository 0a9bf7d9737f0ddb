import TradingAgent.Marketdata.Entities
import TradingAgent.Signals.Rsi
import TradingAgent.Word.Causal

/-!
# Features of candles

`compute` is `PandasFeatureComputer.compute`: a frame of the candles by time, with a column for
each indicator, and a feature vector for each row, in which undefined values are left out. A
column is the list of its cells, and the frame the list of its columns in their order.

Every column is a causal function of the rows (`columns_causal`), so the vectors of the first
candles are the first vectors of all candles: `compute_take`.
-/

namespace TradingAgent.Signals

open Averages Causality Marketdata

structure FeatureVector where
  symbol : String
  timeframe : String
  timestamp : Datetime
  features : List (String × ℚ)
  deriving DecidableEq, Repr

/-- The values of a candle in the frame. -/
structure Bar where
  openedAt : Datetime
  «open» : ℚ
  high : ℚ
  low : ℚ
  close : ℚ
  volume : ℚ
  deriving DecidableEq, Repr

def Bar.of (c : Candle) : Bar where
  openedAt := c.openedAt
  «open» := c.open
  high := c.high
  low := c.low
  close := c.close
  volume := c.volume

/-- The mean of a window. -/
def mean (window : List ℚ) : Cell := .finite (window.sum / window.length)

/-- The methods of frames and of rolling windows. `sortValues` is `sort_values("opened_at")`,
which need not be stable. `std` is the standard deviation of a window, rounded to a float. -/
class Frames extends Pandas where
  sortValues : List Bar → List Bar
  rollingMean : List Cell → ℕ → List Cell
  rollingStd : List Cell → ℕ → List Cell
  std : List ℚ → Cell
  sortValues_perm : ∀ bars, (sortValues bars).Perm bars
  sortValues_sorted : ∀ bars, (sortValues bars).Pairwise fun a b => a.openedAt ≤ b.openedAt
  rollingMean_eq : ∀ (entries : List ℚ) (window : ℕ),
    rollingMean (entries.map .finite) window = trailing window mean .nan entries
  rollingStd_eq : ∀ (entries : List ℚ) (window : ℕ),
    rollingStd (entries.map .finite) window = trailing window std .nan entries

/-- `_to_float`. -/
def toFloat : Cell → Option ℚ
  | .finite q => some q
  | _ => none

section Compute

variable [Frames]

/-- `series.ewm(span=span, adjust=False).mean()`. -/
def ewmSpan (series : List Cell) (span : ℕ) : Except Exn (List Cell) :=
  Pandas.ewmMean series (2 / ((span : ℚ) + 1))

/-- `_bollinger`. -/
def bollinger (series : List Cell) (window : ℕ) (k : ℚ) : List Cell × List Cell × List Cell :=
  let mid := Frames.rollingMean series window
  let std := Frames.rollingStd series window
  (List.zipWith (· + ·) mid (std.map (.finite k * ·)),
    List.zipWith (· - ·) mid (std.map (.finite k * ·)), mid)

/-- A column of the frame as it is made from the candles. -/
def column (field : Bar → ℚ) (bars : List Bar) : List Cell :=
  bars.map fun bar => .finite (field bar)

/-- The columns of floats. -/
def frameOf (bars : List Bar) : Except Exn (List (String × List Cell)) := do
  let close := column Bar.close bars
  let sma10 := Frames.rollingMean close 10
  let sma20 := Frames.rollingMean close 20
  let ema12 ← ewmSpan close 12
  let ema26 ← ewmSpan close 26
  let rsi14 ← rsi close 14
  let macd := List.zipWith (· - ·) ema12 ema26
  let (bbUpper, bbLower, bbMid) := bollinger close 20 2
  let volumeMa20 := Frames.rollingMean (column Bar.volume bars) 20
  return [("open", column Bar.open bars), ("high", column Bar.high bars),
    ("low", column Bar.low bars), ("close", close), ("volume", column Bar.volume bars),
    ("sma10", sma10), ("sma20", sma20), ("ema12", ema12), ("ema26", ema26), ("rsi14", rsi14),
    ("macd", macd), ("bb_upper", bbUpper), ("bb_lower", bbLower), ("bb_mid", bbMid),
    ("volume_ma20", volumeMa20)]

/-- `requested`: no features, or an empty list of them, stand for all columns. -/
def requested (features : Option (List String)) (name : String) : Bool :=
  match features with
  | none => true
  | some [] => true
  | some names => name ∈ names

omit [Frames] in
/-- The features of the row at an index. The column `opened_at` is no float. -/
def feats (frame : List (String × List Cell)) (features : Option (List String)) (i : ℕ) :
    List (String × ℚ) :=
  frame.filterMap fun (name, cells) =>
    if requested features name then (cells[i]?.bind toFloat).map fun q => (name, q) else none

omit [Frames] in
/-- The vector of the row at an index. -/
def vectorOf (first : Candle) (frame : List (String × List Cell)) (features : Option (List String))
    (i : ℕ) (bar : Bar) : FeatureVector where
  symbol := first.symbol.code
  timeframe := first.timeframe.value
  timestamp := bar.openedAt
  features := feats frame features i

/-- `PandasFeatureComputer.compute`. -/
def compute (candles : List Candle) (features : Option (List String)) :
    Except Exn (List FeatureVector) :=
  match candles with
  | [] => .ok []
  | first :: _ => do
    let bars := Frames.sortValues (candles.map Bar.of)
    let frame ← frameOf bars
    return bars.mapIdx (vectorOf first frame features)

/-! ## The columns are causal -/

omit [Frames] in
theorem changes_take (closes : List ℚ) (k : ℕ) :
    changes (closes.take (k + 1)) = (changes closes).take k := by
  cases closes with
  | nil => simp [changes]
  | cons c rest =>
    induction rest generalizing c k with
    | nil => simp [changes]
    | cons d rest ih =>
      cases k with
      | zero => simp [changes]
      | succ k =>
        have hRest := ih k d
        simp only [changes, List.take_succ_cons, List.tail_cons, List.zipWith_cons_cons] at hRest ⊢
        rw [hRest]

omit [Frames] in
theorem causal_smoothed (w : ℚ) : Causal (smoothed w) := fun xs k => causal_scanl (move w) xs k

/-- The column `rsi14` of the closes. -/
def rsiColumn (closes : List ℚ) : List Cell :=
  if closes = [] then [] else
    .nan :: (List.zipWith strength (smoothed (1 / (14 : ℤ)) (gains closes))
      (smoothed (1 / (14 : ℤ)) (losses closes))).map .finite

omit [Frames] in
theorem causal_rsiColumn : Causal rsiColumn := by
  refine Causal.delay _ fun closes k => ?_
  have hGains : gains (closes.take (k + 1)) = (gains closes).take k := by
    rw [gains, gains, changes_take, List.map_take]
  have hLosses : losses (closes.take (k + 1)) = (losses closes).take k := by
    rw [losses, losses, changes_take, List.map_take]
  rw [hGains, hLosses, causal_smoothed, causal_smoothed, ← List.map_take, List.take_zipWith]

/-- The columns as functions of the rows. -/
def columns : List (String × (List Bar → List Cell)) :=
  let closes (bars : List Bar) := bars.map Bar.close
  let mid := fun bars => trailing 20 mean .nan (closes bars)
  let band := fun bars => (trailing 20 Frames.std .nan (closes bars)).map (.finite 2 * ·)
  let ema (span : ℕ) := fun bars => (smoothed (2 / ((span : ℚ) + 1)) (closes bars)).map Cell.finite
  [("open", column Bar.open), ("high", column Bar.high), ("low", column Bar.low),
    ("close", column Bar.close), ("volume", column Bar.volume),
    ("sma10", fun bars => trailing 10 mean .nan (closes bars)), ("sma20", mid),
    ("ema12", ema 12), ("ema26", ema 26), ("rsi14", fun bars => rsiColumn (closes bars)),
    ("macd", fun bars => List.zipWith (· - ·) (ema 12 bars) (ema 26 bars)),
    ("bb_upper", fun bars => List.zipWith (· + ·) (mid bars) (band bars)),
    ("bb_lower", fun bars => List.zipWith (· - ·) (mid bars) (band bars)), ("bb_mid", mid),
    ("volume_ma20", fun bars => trailing 20 mean .nan (bars.map Bar.volume))]

theorem columns_causal : ∀ c ∈ columns, Causal c.2 := by
  have hColumn (field : Bar → ℚ) : Causal (column field) := causal_id.map _
  have hField (field : Bar → ℚ) : Causal (List.map field) := causal_id.map field
  have hTrailing (field : Bar → ℚ) (window : ℕ) (f : List ℚ → Cell) :
      Causal fun bars => trailing window f .nan (bars.map field) :=
    (causal_trailing window f .nan).comp (hField field)
  have hEma (span : ℕ) :
      Causal fun bars => (smoothed (2 / ((span : ℚ) + 1)) (bars.map Bar.close)).map Cell.finite :=
    ((causal_smoothed _).comp (hField Bar.close)).map _
  have hBand := (hTrailing Bar.close 20 Frames.std).map (Cell.finite 2 * ·)
  simp only [columns, List.forall_mem_cons, List.not_mem_nil, false_implies, implies_true, and_true]
  exact ⟨hColumn _, hColumn _, hColumn _, hColumn _, hColumn _, hTrailing _ _ _, hTrailing _ _ _,
    hEma 12, hEma 26, causal_rsiColumn.comp (hField _), (hEma 12).zipWith (hEma 26) _,
    (hTrailing _ _ _).zipWith hBand _, (hTrailing _ _ _).zipWith hBand _, hTrailing _ _ _,
    hTrailing _ _ _⟩

omit [Frames] in
theorem column_eq (field : Bar → ℚ) (bars : List Bar) :
    column field bars = (bars.map field).map .finite := by
  rw [column, List.map_map]
  rfl

theorem ewmSpan_finite (entries : List ℚ) (span : ℕ) (h : 1 ≤ span) :
    ewmSpan (entries.map .finite) span =
      .ok ((smoothed (2 / ((span : ℚ) + 1)) entries).map .finite) := by
  have hSpan : (1 : ℚ) ≤ span := by exact_mod_cast h
  refine Pandas.ewmMean_eq 0 entries _ (by positivity) ?_
  rw [div_le_one (by positivity)]
  linarith

theorem rsi_closes {bars : List Bar} (h : bars ≠ []) :
    rsi ((bars.map Bar.close).map .finite) 14 = .ok (rsiColumn (bars.map Bar.close)) := by
  obtain ⟨first, rest, rfl⟩ := List.exists_cons_of_ne_nil h
  rw [List.map_cons, rsi_eq (by norm_num), rsiColumn, if_neg (List.cons_ne_nil _ _)]

theorem frameOf_eq {bars : List Bar} (h : bars ≠ []) :
    frameOf bars = .ok (columns.map fun c => (c.1, c.2 bars)) := by
  unfold frameOf
  simp only [column_eq Bar.close, column_eq Bar.volume, ewmSpan_finite _ 12 (by norm_num),
    ewmSpan_finite _ 26 (by norm_num), rsi_closes h, bind, Except.bind, bollinger,
    Frames.rollingMean_eq, Frames.rollingStd_eq]
  simp only [columns, List.map_cons, List.map_nil, column_eq Bar.close, column_eq Bar.volume]
  rfl

/-- The frame of the first rows. -/
theorem frameOf_take {bars : List Bar} {k : ℕ} {frame : List (String × List Cell)}
    (h : bars.take k ≠ []) (hFrame : frameOf bars = .ok frame) :
    frameOf (bars.take k) = .ok (frame.map fun c => (c.1, c.2.take k)) := by
  have hBars : bars ≠ [] := by
    rintro rfl
    exact h List.take_nil
  rw [frameOf_eq hBars] at hFrame
  rw [frameOf_eq h, ← Except.ok.inj hFrame, List.map_map]
  refine congrArg _ (List.map_congr_left fun c hc => ?_)
  rw [columns_causal c hc bars k]
  rfl

omit [Frames] in
theorem feats_take (frame : List (String × List Cell)) (features : Option (List String))
    {i k : ℕ} (h : i < k) :
    feats (frame.map fun c => (c.1, c.2.take k)) features i = feats frame features i := by
  rw [feats, feats, List.filterMap_map]
  refine List.filterMap_congr fun c _ => ?_
  simp only [Function.comp_apply, List.getElem?_take_of_lt h]

/-! ## The vectors are causal -/

/-- Candles in strictly ascending order are sorted already. -/
theorem sortValues_eq {bars : List Bar} (h : bars.Pairwise fun a b => a.openedAt < b.openedAt) :
    Frames.sortValues bars = bars := by
  have hPerm := Frames.sortValues_perm bars
  have hSorted := h.imp fun hab => le_of_lt hab
  refine hPerm.eq_of_pairwise (fun a b ha hb hab hba => ?_) (Frames.sortValues_sorted bars) hSorted
  obtain ⟨i, hi, rfl⟩ := List.getElem_of_mem (hPerm.mem_iff.mp ha)
  obtain ⟨j, hj, rfl⟩ := List.getElem_of_mem hb
  have hTimes := List.pairwise_iff_getElem.mp h
  rcases lt_trichotomy i j with hij | rfl | hji
  · exact absurd (hTimes i j hi hj hij) (not_lt.mpr hba)
  · rfl
  · exact absurd (hTimes j i hj hi hji) (not_lt.mpr hab)

theorem compute_eq {first : Candle} {rest : List Candle}
    (hAscending : (first :: rest).Pairwise (·.openedAt < ·.openedAt))
    (features : Option (List String)) :
    compute (first :: rest) features =
      (frameOf ((first :: rest).map Bar.of)).map fun frame =>
        ((first :: rest).map Bar.of).mapIdx (vectorOf first frame features) := by
  have hBars := sortValues_eq (List.pairwise_map.mpr hAscending : (List.map Bar.of _).Pairwise _)
  rw [compute, hBars]
  cases frameOf ((first :: rest).map Bar.of) <;> rfl

omit [Frames] in
theorem timestamp_vectorOf (first : Candle) (frame : List (String × List Cell))
    (features : Option (List String)) (bars : List Bar) :
    (bars.mapIdx (vectorOf first frame features)).map FeatureVector.timestamp =
      bars.map Bar.openedAt := by
  refine List.ext_getElem? fun i => ?_
  simp [vectorOf, Function.comp_def]

omit [Frames] in
theorem vectorOf_take (first : Candle) (frame : List (String × List Cell))
    (features : Option (List String)) (bars : List Bar) (k : ℕ) :
    (bars.take k).mapIdx (vectorOf first (frame.map fun c => (c.1, c.2.take k)) features) =
      (bars.mapIdx (vectorOf first frame features)).take k := by
  refine List.ext_getElem? fun i => ?_
  by_cases hIndex : i < k
  · rw [List.getElem?_take_of_lt hIndex, List.getElem?_mapIdx, List.getElem?_mapIdx,
      List.getElem?_take_of_lt hIndex]
    refine congrArg (Option.map · _) (funext fun bar => ?_)
    rw [vectorOf, vectorOf, feats_take frame features hIndex]
  · have hBeyond : k ≤ i := by omega
    simp [List.getElem?_mapIdx, List.getElem?_take_eq_none hBeyond]

/-- The vectors of the first candles are the first vectors of all candles, and each has the
time of its candle. -/
theorem compute_take {candles : List Candle}
    (hAscending : candles.Pairwise (·.openedAt < ·.openedAt)) (features : Option (List String))
    (k : ℕ) :
    ∃ vectors, compute candles features = .ok vectors ∧
      vectors.map FeatureVector.timestamp = candles.map Candle.openedAt ∧
      compute (candles.take k) features = .ok (vectors.take k) := by
  cases candles with
  | nil => exact ⟨[], by simp [compute]⟩
  | cons first rest =>
    obtain ⟨frame, hFrame⟩ : ∃ frame, frameOf ((first :: rest).map Bar.of) = .ok frame :=
      ⟨_, frameOf_eq (List.cons_ne_nil _ _)⟩
    refine ⟨((first :: rest).map Bar.of).mapIdx (vectorOf first frame features), ?_, ?_, ?_⟩
    · rw [compute_eq hAscending, hFrame, Except.map]
    · rw [timestamp_vectorOf, List.map_map]
      rfl
    · cases k with
      | zero => simp [compute]
      | succ k =>
        have hTake : frameOf (((first :: rest).map Bar.of).take (k + 1)) = .ok _ :=
          frameOf_take (List.cons_ne_nil (Bar.of first) _) hFrame
        have hFirst : (first :: rest.take k).Pairwise (·.openedAt < ·.openedAt) :=
          hAscending.sublist (List.take_sublist (k + 1) (first :: rest))
        have hPrefix := compute_eq hFirst features
        rw [List.take_succ_cons, hPrefix, ← List.take_succ_cons, List.map_take, hTake, Except.map,
          vectorOf_take]

end Compute

namespace Short

/-- The value of a window of cells, which is no number if one of them is none. -/
def overEntries (f : List ℚ → Cell) (window : List Cell) : Cell :=
  if window.all (·.value?.isSome) then f (window.filterMap Cell.value?) else .nan

theorem trailing_overEntries (f : List ℚ → Cell) (window : ℕ) (entries : List ℚ) :
    trailing window (overEntries f) .nan (entries.map .finite) =
      trailing window f .nan entries := by
  have hOver (xs : List ℚ) : overEntries f (xs.map .finite) = f xs := by
    have hAll : (xs.map Cell.finite).all (·.value?.isSome) = true := by simp [Cell.value?]
    rw [overEntries, if_pos hAll, List.filterMap_map]
    exact congrArg f List.filterMap_some
  rw [trailing, trailing, prefixes, prefixes, List.map_map, List.map_map, List.length_map]
  refine List.map_congr_left fun i _ => ?_
  simp only [Function.comp_apply, ← List.map_take, ← List.map_drop, List.length_map, hOver]

/-- Frames of fewer rows than the window of a standard deviation. -/
@[reducible] def shortFrames : Frames where
  toPandas := leadingGaps
  sortValues bars := bars.mergeSort fun a b => a.openedAt ≤ b.openedAt
  rollingMean series window := trailing window (overEntries mean) .nan series
  rollingStd series window := trailing window (overEntries fun _ => .nan) .nan series
  std _ := .nan
  sortValues_perm bars := List.mergeSort_perm bars _
  sortValues_sorted bars := by
    have hSorted : (bars.mergeSort fun a b => a.openedAt ≤ b.openedAt).Pairwise
        fun a b => decide (a.openedAt ≤ b.openedAt) = true :=
      List.pairwise_mergeSort (fun a b c => by simpa using le_trans)
        (fun a b => by simpa using le_total _ _) bars
    exact hSorted.imp fun h => of_decide_eq_true h
  rollingMean_eq entries window := trailing_overEntries mean window entries
  rollingStd_eq entries window := trailing_overEntries (fun _ => .nan) window entries

local instance : Frames := shortFrames

def candle (openedAt : Datetime) (close : ℚ) : Candle where
  symbol := { code := "BTC/USD", formed := by decide +kernel }
  timeframe := .d1
  openedAt := openedAt
  «open» := close
  high := close
  low := close
  close := close
  volume := 1

def candles : List Candle := [candle 0 2, candle 1 1, candle 2 3]

theorem candles_take : ∃ vectors, compute candles (some ["close", "ema12"]) = .ok vectors ∧
    vectors.map FeatureVector.timestamp = candles.map Candle.openedAt ∧
    compute (candles.take 2) (some ["close", "ema12"]) = .ok (vectors.take 2) :=
  compute_take (by decide) (some ["close", "ema12"]) 2

end Short

end TradingAgent.Signals
