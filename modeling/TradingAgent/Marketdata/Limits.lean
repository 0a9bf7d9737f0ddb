import Mathlib.Data.List.DropRight
import TradingAgent.Marketdata.Kraken
import TradingAgent.Marketdata.Ragged
import TradingAgent.Marketdata.TwelveData

/-!
# The limit of a call

The adapters of Yahoo, Twelve Data and Kraken slice the mapped series by `[-limit:]`. A limit of
one or more keeps the last candles. A limit of zero keeps the whole series, and a negative one drops
that many of the first candles, so that the limit is only kept where the series is no longer
(`lastOf_eq_rtake_iff`).
-/

namespace TradingAgent.Marketdata

open Collecting Tooling

variable {P : Type}

theorem lastOf_eq_rtake_iff {A : Type} {limit : ℤ} {xs : List A} :
    lastOf limit xs = xs.rtake (max limit 0).toNat ↔ 0 < limit ∨ (xs.length : ℤ) ≤ -limit := by
  unfold lastOf
  by_cases hPos : 0 < limit
  · rw [if_pos hPos, max_eq_left hPos.le]
    exact iff_of_true rfl (.inl hPos)
  · rw [if_neg hPos, max_eq_right (not_lt.mp hPos), Int.toNat_zero, List.rtake_zero,
      List.drop_eq_nil_iff]
    omega

theorem length_rtake_le {A : Type} (n : ℕ) (xs : List A) : (xs.rtake n).length ≤ n := by
  rw [List.rtake, List.length_drop]
  omega

namespace Source

variable (source : Source FetchCandles P (List Candle))
  (series : FetchCandles → P → Except Raised (List Candle)) (size : FetchCandles → P → ℕ)

/-- What a call returns are at most `max(limit, 0)` candles, the last ones of the mapped series. -/
def Bounded (c : FetchCandles) (out : Except Raised (List Candle)) : Prop :=
  ∀ candles, out = .ok candles →
    (candles.length : ℤ) ≤ max c.limit 0 ∧
      ∃ payload mapped, source.fetch c = .ok payload ∧ series c payload = .ok mapped ∧
        candles = mapped.rtake (max c.limit 0).toNat

/-- Every call of the adapter, whatever the state of its policy. -/
def Respects (c : FetchCandles) : Prop :=
  ∀ f out f', source.Fetches f c out f' → source.Bounded series c out

/-- The limit is positive, or the payload of the vendor is not mapped, or it has at most `-limit`
entries. -/
def Fits (c : FetchCandles) : Prop :=
  0 < c.limit ∨ ∀ payload, source.refused c = none → source.fetch c = .ok payload →
    (∃ mapped, series c payload = .ok mapped) → (size c payload : ℤ) ≤ -c.limit

variable {source series size} {retry : RetryPolicy} {breaker : CircuitBreaker}

/-- **The limit of a call.** -/
theorem respects_iff (hRetry : source.policy.retry = some retry)
    (hBreaker : source.policy.breaker = some breaker)
    (hMap : ∀ c payload, source.map c payload = lastOf c.limit <$> series c payload)
    (hSize : ∀ c payload mapped, series c payload = .ok mapped → mapped.length = size c payload)
    (c : FetchCandles) : source.Respects series c ↔ source.Fits series size c := by
  constructor
  · intro hRespects
    rw [Fits, or_iff_not_imp_left]
    rintro hNot payload hAdmitted hFetch ⟨mapped, hSeries⟩
    obtain ⟨f', hFetches⟩ := fetches_new hRetry hBreaker hAdmitted hFetch
    rw [hMap, hSeries] at hFetches
    obtain ⟨-, payload', mapped', hFetch', hSeries', hLast⟩ := hRespects _ _ _ hFetches _ rfl
    obtain rfl : payload = payload' := Except.ok.inj (hFetch.symm.trans hFetch')
    obtain rfl : mapped = mapped' := Except.ok.inj (hSeries.symm.trans hSeries')
    rw [← hSize c payload mapped hSeries]
    exact (lastOf_eq_rtake_iff.mp hLast).resolve_left hNot
  · intro hFits f out f' hFetches candles hOut
    obtain ⟨hAdmitted, payload, hFetch, hMapped⟩ := hFetches.mapped hRetry hBreaker hOut
    rw [hMap] at hMapped
    cases hSeries : series c payload with
    | error e =>
      rw [hSeries] at hMapped
      cases hMapped
    | ok mapped =>
      rw [hSeries] at hMapped
      have hShort : 0 < c.limit ∨ (mapped.length : ℤ) ≤ -c.limit := by
        rw [hSize c payload mapped hSeries]
        exact hFits.imp_right fun h => h payload hAdmitted hFetch ⟨mapped, hSeries⟩
      have hLast : lastOf c.limit mapped = mapped.rtake (max c.limit 0).toNat :=
        lastOf_eq_rtake_iff.mpr hShort
      obtain rfl : lastOf c.limit mapped = candles := Except.ok.inj hMapped
      refine ⟨?_, payload, mapped, hFetch, hSeries, hLast⟩
      have hLength := length_rtake_le (max c.limit 0).toNat mapped
      rw [hLast]
      omega

end Source

/-! ## The three adapters -/

namespace Yahoo

variable [YahooModels]

def series (c : FetchCandles) (chart : YahooChartResult) : Except Raised (List Candle) :=
  toCandles chart c.symbol c.timeframe exchange

omit [YahooModels] in
/-- The rows that have four prices. -/
def size (_ : FetchCandles) (chart : YahooChartResult) : ℕ :=
  match chart.quote with
  | [] => 0
  | series :: _ => (rows (chart.timestamp.getD []) series).countP fun row => row.entries?.isSome

theorem length_series {c : FetchCandles} {chart : YahooChartResult} {mapped : List Candle}
    (h : series c chart = .ok mapped) : mapped.length = size c chart := by
  unfold series toCandles at h
  unfold size
  cases hQuote : chart.quote with
  | nil =>
    rw [hQuote] at h
    cases h
  | cons first rest =>
    rw [hQuote] at h
    obtain ⟨candles, hMapped, hDelivered⟩ := bind_eq_ok.mp h
    obtain rfl := delivered_eq_ok hDelivered
    refine length_collect (fun row out hRow => ?_) hMapped
    cases hKept : row.entries? with
    | none =>
      rw [rowToCandle_skip hKept] at hRow
      cases hRow
      rfl
    | some entries =>
      rw [rowToCandle_keep hKept] at hRow
      obtain ⟨candle, -, rfl⟩ := map_eq_ok.mp hRow
      rfl

end Yahoo

namespace TwelveData

variable [JsonLibrary] [TwelveModels] [PyText] [Moments]

def series (c : FetchCandles) (values : List TwelveValue) : Except Raised (List Candle) :=
  toCandles values c.symbol c.timeframe exchange

omit [JsonLibrary] [TwelveModels] [PyText] [Moments] in
def size (_ : FetchCandles) (values : List TwelveValue) : ℕ := values.length

theorem length_series {c : FetchCandles} {values : List TwelveValue} {mapped : List Candle}
    (h : series c values = .ok mapped) : mapped.length = size c values := by
  obtain ⟨candles, hMapped, hDelivered⟩ := bind_eq_ok.mp h
  have hSame : candles = mapped := by
    cases candles with
    | nil => cases hDelivered
    | cons candle candles => exact Except.ok.inj hDelivered
  rw [← hSame, length_mapM hMapped, List.length_reverse]
  rfl

end TwelveData

namespace Kraken

variable [JsonLibrary] [KrakenModels] [PyText] [IntText]

omit [JsonLibrary] [PyText] [IntText] [KrakenModels] in
/-- The rows that are looked up. -/
def rowsOf (c : FetchCandles) (result : List (String × Json)) : Except Raised Json := do
  let entry ← firstEntry result
  return (result.lookup (toKrakenPair c.symbol)).getD (.obj entry)

def series (c : FetchCandles) (result : List (String × Json)) : Except Raised (List Candle) := do
  toCandles (← rowsOf c result) c.symbol c.timeframe exchange

omit [JsonLibrary] [PyText] [IntText] [KrakenModels] in
/-- A row that is not skipped. -/
def columned (row : Json) : Bool :=
  match len row with
  | .ok columns => ohlcColumns ≤ columns
  | .error _ => false

omit [JsonLibrary] [PyText] [IntText] [KrakenModels] in
/-- The rows that are not skipped. -/
def size (c : FetchCandles) (result : List (String × Json)) : ℕ :=
  match rowsOf c result >>= fun rows => (items rows).mapError stray with
  | .ok rows => rows.countP columned
  | .error _ => 0

theorem candlesOf_eq (c : FetchCandles) (result : List (String × Json)) :
    candlesOf c result = lastOf c.limit <$> series c result := by
  unfold candlesOf series rowsOf
  cases firstEntry result <;> rfl

theorem rowToCandle_isSome {row : Json} {symbol : Symbol} {timeframe : Timeframe}
    {exchange : String} {out : Option Candle}
    (h : rowToCandle row symbol timeframe exchange = .ok out) : out.isSome = columned row := by
  obtain ⟨columns, hLen, hRest⟩ := bind_eq_ok.mp h
  rw [mapError_eq_ok_iff] at hLen
  unfold columned
  rw [hLen]
  by_cases hShort : columns < ohlcColumns
  · rw [if_pos hShort] at hRest
    obtain rfl : none = out := Except.ok.inj hRest
    simp [hShort]
  · rw [if_neg hShort] at hRest
    obtain ⟨candle, -, hOut⟩ := bind_eq_ok.mp hRest
    obtain rfl : some candle = out := Except.ok.inj hOut
    simp [not_lt.mp hShort]

theorem length_series {c : FetchCandles} {result : List (String × Json)} {mapped : List Candle}
    (h : series c result = .ok mapped) : mapped.length = size c result := by
  obtain ⟨looked, hRows, hMapped⟩ := bind_eq_ok.mp h
  obtain ⟨rows, hItems, hCandles⟩ := bind_eq_ok.mp hMapped
  obtain ⟨candles, hEach, hDelivered⟩ := bind_eq_ok.mp hCandles
  have hSame : candles.filterMap id = mapped := by
    cases hKept : candles.filterMap id with
    | nil =>
      rw [hKept] at hDelivered
      cases hDelivered
    | cons candle rest =>
      rw [hKept] at hDelivered
      exact Except.ok.inj hDelivered
  have hSize : size c result = rows.countP columned := by
    unfold size
    rw [bind_eq_ok.mpr ⟨looked, hRows, hItems⟩]
  rw [hSize, ← hSame]
  exact length_collect (fun _ _ => rowToCandle_isSome) hEach

end Kraken

/-- **The limits of the three adapters.** -/
theorem limits_iff [JsonLibrary] [Yahoo.YahooModels] [TwelveData.TwelveModels]
    [Kraken.KrakenModels] [PyText] [IntText] [Moments] (yahoo : Yahoo.YahooConfig)
    (twelve : TwelveData.TwelveDataConfig) (kraken : Kraken.KrakenConfig)
    (vendor : Request → Exchange) (c : FetchCandles) :
    ((Yahoo.source yahoo vendor).Respects Yahoo.series c ↔
      (Yahoo.source yahoo vendor).Fits Yahoo.series Yahoo.size c) ∧
    ((TwelveData.source twelve vendor).Respects TwelveData.series c ↔
      (TwelveData.source twelve vendor).Fits TwelveData.series TwelveData.size c) ∧
    ((Kraken.source kraken vendor).Respects Kraken.series c ↔
      (Kraken.source kraken vendor).Fits Kraken.series Kraken.size c) := by
  refine ⟨?_, ?_, ?_⟩
  · exact Source.respects_iff rfl rfl (fun _ _ => rfl) (fun _ _ _ => Yahoo.length_series) c
  · exact Source.respects_iff rfl rfl (fun _ _ => rfl) (fun _ _ _ => TwelveData.length_series) c
  · exact Source.respects_iff rfl rfl Kraken.candlesOf_eq (fun _ _ _ => Kraken.length_series) c

namespace Everything

/-! A limit of zero, for which Yahoo's adapter returns the whole chart. -/

def prices : List (Option Decimal) := [some (.finite 1)]

def result : Yahoo.YahooChartResult where
  timestamp := some [1710003600]
  quote := [⟨prices, prices, prices, prices, prices⟩]

def chartText : String :=
  "\x7b\"chart\":\x7b\"result\":[\x7b\"timestamp\":[1710003600],\"indicators\":\x7b\"quote\":[" ++
  "\x7b\"open\":[1],\"high\":[1],\"low\":[1],\"close\":[1],\"volume\":[1]\x7d]\x7d\x7d]\x7d\x7d"

def ones : Json := .arr [.int 1]

def payload : Json :=
  .obj [("chart", .obj [("result", .arr [.obj [("timestamp", .arr [.int 1710003600]),
    ("indicators", .obj [("quote", .arr [.obj [("open", ones), ("high", ones), ("low", ones),
      ("close", ones), ("volume", ones)]])])]])])]

local instance : JsonLibrary where
  loads text := if text = chartText then some payload else none
  repr _ := "None"

local instance : Yahoo.YahooModels where
  chart
    | .obj [("chart", _)] => .ok { result := some [result] }
    | _ => .error "chart: Field required"
  rowText _ := "Input should be a finite number"

local instance : Moments where
  timestamp moment := moment / 1000000
  strftime _ _ := "1970-01-01"
  strptime _ _ := none

def vendor (_ : Request) : Exchange := .response 200 chartText

def call : FetchCandles where
  symbol := btcUsd
  timeframe := .h1
  limit := 0
  now := 1710007200000000

def source : Source FetchCandles Yahoo.YahooChartResult (List Candle) := Yahoo.source {} vendor

def candle : Candle where
  symbol := btcUsd
  timeframe := .h1
  openedAt := 1710003600000000
  «open» := 1
  high := 1
  low := 1
  close := 1
  volume := 1
  exchange := "yahoo"

theorem call_fetched : source.fetch call = .ok result := by
  have hLoads : JsonLibrary.loads chartText = some payload := if_pos rfl
  show Yahoo.chartOf (.response 200 chartText) = _
  rw [Yahoo.chartOf, getJson_ok (by decide) hLoads]
  rfl

theorem call_unbounded : call.limit = 0 ∧ (∃ f, source.Fetches {} call (.ok [candle]) f) ∧
    ¬source.Respects Yahoo.series call := by
  have hFetches : ∃ f, source.Fetches {} call (.ok [candle]) f :=
    Source.fetches_new rfl rfl rfl call_fetched
  refine ⟨rfl, hFetches, fun hRespects => ?_⟩
  obtain ⟨f, hFetches⟩ := hFetches
  have hLength := (hRespects _ _ _ hFetches _ rfl).1
  exact absurd hLength (by decide)

end Everything

end TradingAgent.Marketdata
