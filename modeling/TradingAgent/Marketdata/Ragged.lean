import TradingAgent.Marketdata.Payloads
import TradingAgent.Word.Collect

/-!
# Charts of unequal series

A chart of Yahoo has a series for each field of a candle, and the series need not have the same
length. `to_candles` zips them, so that the shortest one ends the chart, although an index without
a volume is to be a candle of volume zero. `rows_iff` says for which charts each index that
has a time and four prices makes a candle.
-/

namespace TradingAgent.Marketdata.Yahoo

open Collecting Tooling

/-- The entries at one index, of which the volume may be null or absent. -/
structure Entries where
  timestamp : ℤ
  «open» : Decimal
  high : Decimal
  low : Decimal
  close : Decimal
  volume : Option Decimal
  deriving DecidableEq, Repr

/-- The entries of a chart at an index that has a time and four prices. -/
def entriesAt (timestamps : List ℤ) (series : YahooQuoteSeries) (i : ℕ) : Option Entries := do
  let timestamp ← timestamps[i]?
  let opening ← series.open[i]?.join
  let high ← series.high[i]?.join
  let low ← series.low[i]?.join
  let close ← series.close[i]?.join
  return { timestamp := timestamp, «open» := opening, high := high, low := low, close := close,
           volume := series.volume[i]?.join }

/-- The entries of a chart at such indices, in order. -/
def expected (timestamps : List ℤ) (series : YahooQuoteSeries) : List Entries :=
  (List.range timestamps.length).filterMap (entriesAt timestamps series)

namespace Entries

def row (entries : Entries) : Row where
  timestamp := entries.timestamp
  «open» := some entries.open
  high := some entries.high
  low := some entries.low
  close := some entries.close
  volume := entries.volume

/-- The candle has the values of the entries. -/
structure Shows (entries : Entries) (symbol : Symbol) (timeframe : Timeframe) (exchange : String)
    (candle : Candle) : Prop where
  symbol : candle.symbol = symbol
  timeframe : candle.timeframe = timeframe
  exchange : candle.exchange = exchange
  openedAt : instant entries.timestamp = .ok candle.openedAt
  «open» : entries.open = .finite candle.open
  high : entries.high = .finite candle.high
  low : entries.low = .finite candle.low
  close : entries.close = .finite candle.close
  volume : entries.volume.getD (.finite 0) = .finite candle.volume

/-- The time lies in the years 1 to 9999, and the numbers are finite. -/
structure Sound (entries : Entries) : Prop where
  timestamp : Dated entries.timestamp
  «open» : (finite? entries.open).isSome
  high : (finite? entries.high).isSome
  low : (finite? entries.low).isSome
  close : (finite? entries.close).isSome
  volume : (finite? (entries.volume.getD (.finite 0))).isSome

end Entries

/-- One candle for each of the expected entries, in order, and `MalformedDataError` just if there
are none. -/
structure Pointwise (expected : List Entries) (symbol : Symbol) (timeframe : Timeframe)
    (exchange : String) (out : Except Raised (List Candle)) : Prop where
  candles : expected ≠ [] → ∃ candles, out = .ok candles ∧
    List.Forall₂ (fun entries => entries.Shows symbol timeframe exchange) expected candles
  nothing : expected = [] → ∃ exc, out = .error (.domain exc) ∧ exc.cls = .malformedDataError

/-! ## The zipped series -/

section

variable {timestamps : List ℤ} {series : YahooQuoteSeries} {entries : Entries} {i : ℕ}

def Row.entries? (row : Row) : Option Entries := do
  let opening ← row.open
  let high ← row.high
  let low ← row.low
  let close ← row.close
  return { timestamp := row.timestamp, «open» := opening, high := high, low := low,
           close := close, volume := row.volume }

theorem entries?_eq_some_iff {row : Row} : row.entries? = some entries ↔ row = entries.row := by
  obtain ⟨timestamp, opening, high, low, close, volume⟩ := row
  obtain ⟨t, o, h, l, c, v⟩ := entries
  simp only [Row.entries?, Entries.row, Option.pure_def, Option.bind_eq_bind,
    Option.bind_eq_some_iff, Option.some.injEq, Entries.mk.injEq, Row.mk.injEq]
  constructor
  · rintro ⟨_, rfl, _, rfl, _, rfl, _, rfl, rfl, rfl, rfl, rfl, rfl, rfl⟩
    exact ⟨rfl, rfl, rfl, rfl, rfl, rfl⟩
  · rintro ⟨rfl, rfl, rfl, rfl, rfl, rfl⟩
    exact ⟨_, rfl, _, rfl, _, rfl, _, rfl, rfl, rfl, rfl, rfl, rfl, rfl⟩

theorem entriesAt_eq_some_iff : entriesAt timestamps series i = some entries ↔
    timestamps[i]? = some entries.timestamp ∧ series.open[i]? = some (some entries.open) ∧
      series.high[i]? = some (some entries.high) ∧ series.low[i]? = some (some entries.low) ∧
        series.close[i]? = some (some entries.close) ∧ series.volume[i]?.join = entries.volume := by
  obtain ⟨t, o, h, l, c, v⟩ := entries
  simp [entriesAt, Option.bind_eq_some_iff, Option.join_eq_some_iff]

theorem rows_getElem_iff {row : Row} : (rows timestamps series)[i]? = some row ↔
    timestamps[i]? = some row.timestamp ∧ series.open[i]? = some row.open ∧
      series.high[i]? = some row.high ∧ series.low[i]? = some row.low ∧
        series.close[i]? = some row.close ∧ series.volume[i]? = some row.volume := by
  obtain ⟨t, o, h, l, c, v⟩ := row
  simp [rows, List.getElem?_zip_eq_some]

/-- Every index of the zipped series is one of the volumes. -/
theorem rows_entries (i : ℕ) : (rows timestamps series)[i]?.bind Row.entries? =
    if i < series.volume.length then entriesAt timestamps series i else none := by
  ext entries
  rw [Option.bind_eq_some_iff, Option.ite_none_right_eq_some, entriesAt_eq_some_iff]
  simp only [entries?_eq_some_iff, exists_eq_right, rows_getElem_iff]
  constructor
  · rintro ⟨hTime, hOpen, hHigh, hLow, hClose, hVolume⟩
    refine ⟨(List.getElem?_eq_some_iff.mp hVolume).1, hTime, hOpen, hHigh, hLow, hClose, ?_⟩
    rw [hVolume]
    rfl
  · rintro ⟨hReached, hTime, hOpen, hHigh, hLow, hClose, hVolume⟩
    refine ⟨hTime, hOpen, hHigh, hLow, hClose, ?_⟩
    rw [List.getElem?_eq_getElem hReached] at hVolume ⊢
    exact congrArg some hVolume

/-- The entries that the zipped series reach. -/
theorem rows_reached (timestamps : List ℤ) (series : YahooQuoteSeries) :
    (rows timestamps series).filterMap Row.entries? =
      ((List.range timestamps.length).filter fun i => i < series.volume.length).filterMap
        (entriesAt timestamps series) := by
  have hLength : (rows timestamps series).length ≤ timestamps.length := by
    unfold rows
    rw [List.length_map, List.length_zip]
    exact min_le_left _ _
  conv_lhs => rw [← filterMap_range hLength]
  rw [List.filterMap_filterMap, List.filterMap_filter]
  simp only [rows_entries, decide_eq_true_eq]

end

/-! ## The candles -/

section

variable {symbol : Symbol} {timeframe : Timeframe} {exchange : String} {entries : Entries}

theorem mem_expected_iff {timestamps : List ℤ} {series : YahooQuoteSeries} :
    entries ∈ expected timestamps series ↔ ∃ i, entriesAt timestamps series i = some entries := by
  unfold expected
  rw [List.mem_filterMap]
  constructor
  · rintro ⟨i, -, hAt⟩
    exact ⟨i, hAt⟩
  · rintro ⟨i, hAt⟩
    have hTime := (entriesAt_eq_some_iff.mp hAt).1
    exact ⟨i, List.mem_range.mpr (List.getElem?_eq_some_iff.mp hTime).1, hAt⟩

theorem exists_shows_iff :
    (∃ candle, entries.Shows symbol timeframe exchange candle) ↔ entries.Sound := by
  constructor
  · rintro ⟨candle, h⟩
    refine ⟨instant_ok_iff.mp ⟨_, h.openedAt⟩, ?_, ?_, ?_, ?_, ?_⟩
    · exact Option.isSome_of_mem (finite?_eq_some_iff.mpr h.open)
    · exact Option.isSome_of_mem (finite?_eq_some_iff.mpr h.high)
    · exact Option.isSome_of_mem (finite?_eq_some_iff.mpr h.low)
    · exact Option.isSome_of_mem (finite?_eq_some_iff.mpr h.close)
    · exact Option.isSome_of_mem (finite?_eq_some_iff.mpr h.volume)
  · intro h
    obtain ⟨openedAt, hTime⟩ := instant_ok_iff.mpr h.timestamp
    obtain ⟨opening, hOpen⟩ := Option.isSome_iff_exists.mp h.open
    obtain ⟨high, hHigh⟩ := Option.isSome_iff_exists.mp h.high
    obtain ⟨low, hLow⟩ := Option.isSome_iff_exists.mp h.low
    obtain ⟨close, hClose⟩ := Option.isSome_iff_exists.mp h.close
    obtain ⟨volume, hVolume⟩ := Option.isSome_iff_exists.mp h.volume
    rw [finite?_eq_some_iff] at hOpen hHigh hLow hClose hVolume
    exact ⟨{ symbol := symbol, timeframe := timeframe, openedAt := openedAt, «open» := opening,
             high := high, low := low, close := close, volume := volume, exchange := exchange },
      rfl, rfl, rfl, hTime, hOpen, hHigh, hLow, hClose, hVolume⟩

/-- The candles of the entries, if there are any. -/
def delivered (candles : List Candle) : Except Raised (List Candle) :=
  match candles with
  | [] => .error (malformed "yahoo chart returned no usable candles")
  | candles => .ok candles

theorem delivered_cons {candles : List Candle} (h : candles ≠ []) :
    delivered candles = .ok candles := by
  cases candles with
  | nil => exact absurd rfl h
  | cons candle candles => rfl

theorem delivered_eq_ok {candles out : List Candle} (h : delivered candles = .ok out) :
    candles = out := by
  cases candles with
  | nil => cases h
  | cons candle candles => exact Except.ok.inj h

variable [YahooModels]

/-- The candle of an index. -/
def Entries.candle (entries : Entries) (symbol : Symbol) (timeframe : Timeframe)
    (exchange : String) : Except Raised Candle :=
  match fromtimestamp entries.timestamp with
  | .error e => .error (rowError entries.row exchange e)
  | .ok openedAt =>
    (candleOf symbol timeframe openedAt entries.open entries.high entries.low entries.close
      (entries.volume.getD (.finite 0)) exchange).mapError
        fun _ => rowError entries.row exchange (.valueError "finite_number")

theorem rowToCandle_skip {row : Row} (h : row.entries? = none) :
    rowToCandle row symbol timeframe exchange = .ok none := by
  obtain ⟨timestamp, opening, high, low, close, volume⟩ := row
  unfold rowToCandle
  split
  · next hOpen hHigh hLow hClose =>
    dsimp only at hOpen hHigh hLow hClose
    subst hOpen hHigh hLow hClose
    cases h
  · rfl

theorem rowToCandle_keep {row : Row} (h : row.entries? = some entries) :
    rowToCandle row symbol timeframe exchange =
      some <$> entries.candle symbol timeframe exchange := by
  rw [entries?_eq_some_iff.mp h]
  unfold rowToCandle Entries.candle candleOf
  dsimp only [Entries.row]
  cases fromtimestamp entries.timestamp with
  | error e => rfl
  | ok openedAt =>
    dsimp only
    generalize finite? entries.open = opening, finite? entries.high = high,
      finite? entries.low = low, finite? entries.close = close,
      finite? (entries.volume.getD (.finite 0)) = volume
    cases opening <;> cases high <;> cases low <;> cases close <;> cases volume <;> rfl

theorem toCandles_eq (chart : YahooChartResult) (series : YahooQuoteSeries)
    (rest : List YahooQuoteSeries) :
    toCandles { chart with quote := series :: rest } symbol timeframe exchange =
      ((rows (chart.timestamp.getD []) series).filterMap Row.entries?).mapM
        (fun entries => entries.candle symbol timeframe exchange) >>= delivered := by
  rw [← mapM_collect (fun _ => rowToCandle_skip) (fun _ _ => rowToCandle_keep)]
  unfold toCandles
  dsimp only
  cases (rows (chart.timestamp.getD []) series).mapM fun row =>
    rowToCandle row symbol timeframe exchange <;> rfl

theorem candle_eq_ok_iff {candle : Candle} :
    entries.candle symbol timeframe exchange = .ok candle ↔
      entries.Shows symbol timeframe exchange candle := by
  have hInstant (openedAt : Datetime) : instant entries.timestamp = .ok openedAt ↔
      fromtimestamp entries.timestamp = .ok openedAt := mapError_eq_ok_iff
  unfold Entries.candle
  cases hTime : fromtimestamp entries.timestamp with
  | error e =>
    refine iff_of_false (fun hOk => by cases hOk) fun hShows => ?_
    rw [(hInstant _).mp hShows.openedAt] at hTime
    cases hTime
  | ok openedAt =>
    dsimp only
    rw [mapError_eq_ok_iff, candleOf_eq_ok_iff]
    constructor
    · rintro ⟨hSymbol, hTimeframe, rfl, hOpen, hHigh, hLow, hClose, hVolume, hExchange⟩
      exact ⟨hSymbol, hTimeframe, hExchange, (hInstant _).mpr hTime, hOpen, hHigh, hLow, hClose,
        hVolume⟩
    · intro h
      have hSame : candle.openedAt = openedAt :=
        Except.ok.inj (((hInstant _).mp h.openedAt).symm.trans hTime)
      exact ⟨h.symbol, h.timeframe, hSame, h.open, h.high, h.low, h.close, h.volume, h.exchange⟩

/-- **The candles of a chart.** -/
theorem rows_iff (chart : YahooChartResult) (series : YahooQuoteSeries)
    (rest : List YahooQuoteSeries) (symbol : Symbol) (timeframe : Timeframe) (exchange : String) :
    Pointwise (expected (chart.timestamp.getD []) series) symbol timeframe exchange
        (toCandles { chart with quote := series :: rest } symbol timeframe exchange) ↔
      ∀ i entries, entriesAt (chart.timestamp.getD []) series i = some entries →
        i < series.volume.length ∧ entries.Sound := by
  rw [toCandles_eq, rows_reached]
  generalize chart.timestamp.getD [] = timestamps
  constructor
  · intro h i entries hAt
    have hMem : entries ∈ expected timestamps series := mem_expected_iff.mpr ⟨i, hAt⟩
    obtain ⟨candles, hOut, hShows⟩ := h.candles (List.ne_nil_of_mem hMem)
    obtain ⟨candles', hMapped, hDelivered⟩ := bind_eq_ok.mp hOut
    obtain rfl := delivered_eq_ok hDelivered
    constructor
    · have hLength := (length_mapM hMapped).symm.trans hShows.length_eq.symm
      have hIndex : i ∈ List.range timestamps.length :=
        List.mem_range.mpr (List.getElem?_eq_some_iff.mp (entriesAt_eq_some_iff.mp hAt).1).1
      exact of_decide_eq_true (length_filterMap_filter_iff.mp hLength i hIndex entries hAt)
    · obtain ⟨candle, -, hCandle⟩ := exists_mem_of_forall₂ hShows hMem
      exact exists_shows_iff.mp ⟨candle, hCandle⟩
  · intro h
    rw [filterMap_filter_eq fun i _ entries hAt => decide_eq_true (h i entries hAt).1]
    have hSound : ∀ entries ∈ expected timestamps series,
        ∃ candle, entries.candle symbol timeframe exchange = .ok candle := by
      intro entries hMem
      obtain ⟨i, hAt⟩ := mem_expected_iff.mp hMem
      simp only [candle_eq_ok_iff]
      exact exists_shows_iff.mpr (h i entries hAt).2
    obtain ⟨candles, hMapped⟩ := mapM_ok_of_forall hSound
    have hShows : List.Forall₂ (fun entries => entries.Shows symbol timeframe exchange)
        (expected timestamps series) candles :=
      (mapM_eq_ok_iff.mp hMapped).imp fun _ _ => candle_eq_ok_iff.mp
    show Pointwise _ _ _ _ ((expected timestamps series).mapM _ >>= delivered)
    rw [hMapped]
    constructor
    · intro hSome
      have hNe : candles ≠ [] := by
        rintro rfl
        exact hSome (List.length_eq_zero_iff.mp hShows.length_eq)
      exact ⟨candles, delivered_cons hNe, hShows⟩
    · intro hNone
      rw [hNone] at hShows
      cases hShows
      exact ⟨_, rfl, rfl⟩

end

namespace Unvolumed

/-! A market that has no volumes. -/

def eur : Symbol where
  code := "EUR/USD"
  formed := by decide

def prices : List (Option Decimal) := [some (.finite 1)]

def series : YahooQuoteSeries where
  «open» := prices
  high := prices
  low := prices
  close := prices

def chart : YahooChartResult where
  timestamp := some [1710003600]
  quote := [series]

local instance : YahooModels where
  chart _ := .ok { result := some [chart] }
  rowText _ := "Input should be a finite number"

theorem not_pointwise :
    toCandles chart eur .h1 "yahoo" = .error (malformed "yahoo chart returned no usable candles") ∧
    ¬Pointwise (expected [1710003600] series) eur .h1 "yahoo"
      (toCandles chart eur .h1 "yahoo") := by
  have hOut : toCandles chart eur .h1 "yahoo" =
      .error (malformed "yahoo chart returned no usable candles") := rfl
  refine ⟨hOut, fun h => ?_⟩
  obtain ⟨candles, hCandles, -⟩ := h.candles (List.cons_ne_nil _ _)
  rw [hOut] at hCandles
  cases hCandles

end Unvolumed

end TradingAgent.Marketdata.Yahoo
