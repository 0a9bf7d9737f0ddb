import TradingAgent.Marketdata.Binance
import TradingAgent.Marketdata.Ragged
import TradingAgent.Word.Paging

/-!
# Backfilling by a cursor

A provider holds an ascending series of candles, which open at whole seconds. Yahoo sends every
candle of a window of seconds, of which the adapter keeps the last ones, and Binance's SDK sends
the first candles from a millisecond on. `backfill_iff` says when a call returns the first candles
from its `since` on, and that a run of such calls, each from after the last candle of the call
before, leaves none out.
-/

namespace TradingAgent.Marketdata

open Collecting Paging Tooling

/-- A candle of a provider. -/
structure Bar where
  time : ℤ
  «open» : ℚ
  high : ℚ
  low : ℚ
  close : ℚ
  volume : ℚ
  dated : Dated time

namespace Bar

def openedAt (bar : Bar) : Datetime := bar.time * 10 ^ 6

def candle (c : FetchCandles) (exchange : String) (bar : Bar) : Candle where
  symbol := c.symbol
  timeframe := c.timeframe
  openedAt := bar.openedAt
  «open» := bar.open
  high := bar.high
  low := bar.low
  close := bar.close
  volume := bar.volume
  exchange := exchange

theorem candle_injective (c : FetchCandles) (exchange : String) :
    Function.Injective (candle c exchange) := by
  intro a b h
  obtain ⟨t, o, hi, l, cl, v, hDated⟩ := a
  obtain ⟨t', o', hi', l', cl', v', hDated'⟩ := b
  simp only [candle, openedAt, Candle.mk.injEq, true_and, and_true] at h
  obtain ⟨hTime, rfl, rfl, rfl, rfl, rfl⟩ := h
  obtain rfl : t = t' := Int.eq_of_mul_eq_mul_right (by norm_num) hTime
  rfl

end Bar

/-- The candles that a provider holds. -/
structure Series where
  bars : List Bar
  ascending : Ascending Bar.openedAt bars

theorem Series.nodup (series : Series) : series.bars.Nodup :=
  series.ascending.imp fun hLt hSame => by
    rw [hSame] at hLt
    exact lt_irrefl _ hLt

/-- The first candles from `since` on. -/
def Series.first (series : Series) (since : Datetime) (limit : ℤ) : List Bar :=
  (onward Bar.openedAt since series.bars).take limit.toNat

/-- Through a closed breaker a call returns the first candles from `since` on. -/
def Source.Backfills {P : Type} (source : Source FetchCandles P (List Candle)) (series : Series)
    (exchange : String) (c : FetchCandles) (since : Datetime) : Prop :=
  ∀ f out f', f.opened = false → source.Fetches f { c with since := some since } out f' →
    out = .ok ((series.first since c.limit).map (Bar.candle c exchange))

namespace Source

variable {P : Type} {source : Source FetchCandles P (List Candle)} {retry : RetryPolicy}
  {breaker : CircuitBreaker} {series : Series} {exchange : String} {c : FetchCandles}
  {since : Datetime} {payload : P}

theorem backfills_iff_map (hRetry : source.policy.retry = some retry)
    (hBreaker : source.policy.breaker = some breaker)
    (hAdmitted : source.refused { c with since := some since } = none)
    (hFetch : source.fetch { c with since := some since } = .ok payload) :
    source.Backfills series exchange c since ↔ source.map { c with since := some since } payload =
      .ok ((series.first since c.limit).map (Bar.candle c exchange)) := by
  constructor
  · intro h
    obtain ⟨f', hFetches⟩ := fetches_new hRetry hBreaker hAdmitted hFetch
    exact h _ _ _ rfl hFetches
  · intro h f out f' hClosed hFetches
    rw [hFetches.of_closed hRetry hBreaker hClosed hAdmitted hFetch, h]

/-- What a call returns, if it returns. -/
theorem Backfills.page (hRetry : source.policy.retry = some retry)
    (hBreaker : source.policy.breaker = some breaker)
    (h : source.Backfills series exchange c since) {f f' : Fields} {page : List Candle}
    (hFetches : source.Fetches f { c with since := some since } (.ok page) f') :
    page = (series.first since c.limit).map (Bar.candle c exchange) := by
  obtain ⟨hAdmitted, payload, hFetch, hMapped⟩ := hFetches.mapped hRetry hBreaker rfl
  have hExpected := (backfills_iff_map hRetry hBreaker hAdmitted hFetch).mp h
  exact Except.ok.inj (hMapped.symm.trans hExpected)

end Source

/-! ## Yahoo -/

namespace Yahoo

/-- The chart of the candles of a window. -/
def chartOfBars (bars : List Bar) : YahooChartResult where
  timestamp := some (bars.map Bar.time)
  quote :=
    [{ «open» := bars.map fun bar => some (.finite bar.open)
       high := bars.map fun bar => some (.finite bar.high)
       low := bars.map fun bar => some (.finite bar.low)
       close := bars.map fun bar => some (.finite bar.close)
       volume := bars.map fun bar => some (.finite bar.volume) }]

/-- The vendor sends every candle of a window of seconds. -/
def Holds [JsonLibrary] [YahooModels] (vendor : Request → Exchange) (series : Series)
    (c : FetchCandles) : Prop :=
  ∀ period1 period2, chartOf (vendor (chartRequest (toYahooSymbol c.symbol)
    ((intervals c.timeframe).getD "") (some (period1, period2)))) =
      .ok (chartOfBars (series.bars.filter fun bar => period1 ≤ bar.time ∧ bar.time ≤ period2))

/-- The candles in the second of `since`, but before it. -/
def before (series : Series) (c : FetchCandles) (since : Datetime) : List Bar :=
  series.bars.filter fun bar =>
    seconds since ≤ bar.time ∧ bar.openedAt < since ∧ bar.time ≤ seconds c.now

/-- The candles from `since` on, up to now. -/
def between (series : Series) (c : FetchCandles) (since : Datetime) : List Bar :=
  series.bars.filter fun bar => since ≤ bar.openedAt ∧ bar.time ≤ seconds c.now

/-- The candles from `since` on, after now. -/
def after (series : Series) (c : FetchCandles) (since : Datetime) : List Bar :=
  series.bars.filter fun bar => since ≤ bar.openedAt ∧ seconds c.now < bar.time

/-- Yahoo serves the timeframe, and as many candles as the limit go from `since` to now, or fewer
of them but one at least, with none before them in the second of `since` and none after now. -/
def Covers (series : Series) (c : FetchCandles) (since : Datetime) : Prop :=
  intervals c.timeframe ≠ none ∧
    (((between series c since).length : ℤ) = c.limit ∨
      between series c since ≠ [] ∧ ((between series c since).length : ℤ) < c.limit ∧
        before series c since = [] ∧ after series c since = [])

variable {series : Series} {c : FetchCandles} {since : Datetime}

/-- The entries of a candle. -/
def entriesOf (bar : Bar) : Entries where
  timestamp := bar.time
  «open» := .finite bar.open
  high := .finite bar.high
  low := .finite bar.low
  close := .finite bar.close
  volume := some (.finite bar.volume)

theorem toCandles_chartOfBars [YahooModels] (bars : List Bar) :
    toCandles (chartOfBars bars) c.symbol c.timeframe exchange =
      delivered (bars.map (Bar.candle c exchange)) := by
  have hRows : (rows (bars.map Bar.time)
      { «open» := bars.map fun bar => some (.finite bar.open)
        high := bars.map fun bar => some (.finite bar.high)
        low := bars.map fun bar => some (.finite bar.low)
        close := bars.map fun bar => some (.finite bar.close)
        volume := bars.map fun bar => some (.finite bar.volume) }).filterMap Row.entries? =
      bars.map entriesOf := by
    unfold rows
    simp only [List.zip_map', List.map_map, List.filterMap_map]
    exact congrFun (List.filterMap_eq_map (f := entriesOf)) bars
  have hCandles : (bars.map entriesOf).mapM
      (fun entries => entries.candle c.symbol c.timeframe exchange) =
        .ok (bars.map (Bar.candle c exchange)) := by
    rw [mapM_eq_ok_iff, List.forall₂_map_left_iff, List.forall₂_map_right_iff,
      List.forall₂_same]
    intro bar _
    rw [candle_eq_ok_iff]
    exact ⟨rfl, rfl, rfl, bar.dated.instant_eq, rfl, rfl, rfl, rfl, rfl⟩
  rw [chartOfBars, toCandles_eq { timestamp := some (bars.map Bar.time) }, Option.getD_some, hRows,
    hCandles]
  rfl

/-- The window of a call is what comes before `since` and what comes from then on. -/
theorem window_eq (series : Series) (c : FetchCandles) (since : Datetime) :
    series.bars.filter (fun bar => seconds since ≤ bar.time ∧ bar.time ≤ seconds c.now) =
      before series c since ++ between series c since := by
  unfold before between
  apply series.ascending.filter_eq_append
  · intro bar _
    have hSeconds : since ≤ bar.openedAt → seconds since ≤ bar.time := by
      intro h
      rw [← bar.dated.seconds_eq]
      exact seconds_mono h
    constructor
    · rintro ⟨hSince, hNow⟩
      by_cases hEarly : bar.openedAt < since
      · exact .inl ⟨hSince, hEarly, hNow⟩
      · exact .inr ⟨not_lt.mp hEarly, hNow⟩
    · rintro (⟨hSince, -, hNow⟩ | ⟨hFrom, hNow⟩)
      · exact ⟨hSince, hNow⟩
      · exact ⟨hSeconds hFrom, hNow⟩
  · rintro a b ⟨-, hEarly, -⟩ ⟨hFrom, -⟩
    exact hEarly.trans_le hFrom

/-- What comes from `since` on lies before now or after. -/
theorem onward_eq (series : Series) (c : FetchCandles) (since : Datetime) :
    onward Bar.openedAt since series.bars = between series c since ++ after series c since := by
  unfold onward between after
  apply series.ascending.filter_eq_append
  · intro bar _
    constructor
    · intro hFrom
      rcases le_or_gt bar.time (seconds c.now) with hNow | hLater
      · exact .inl ⟨hFrom, hNow⟩
      · exact .inr ⟨hFrom, hLater⟩
    · rintro (⟨hFrom, -⟩ | ⟨hFrom, -⟩)
      · exact hFrom
      · exact hFrom
  · rintro a b ⟨-, hNow⟩ ⟨-, hLater⟩
    exact mul_lt_mul_of_pos_right (hNow.trans_lt hLater) (by norm_num)

theorem window_nodup (series : Series) (c : FetchCandles) (since : Datetime) :
    (before series c since ++ (between series c since ++ after series c since)).Nodup := by
  rw [← onward_eq, List.nodup_append]
  refine ⟨series.nodup.filter _, series.nodup.filter _, ?_⟩
  rintro bar hBefore _ hFrom rfl
  have hEarly := of_decide_eq_true (List.mem_filter.mp hBefore).2
  have hLate := of_decide_eq_true (List.mem_filter.mp hFrom).2
  exact absurd hLate (not_le.mpr hEarly.2.1)

/-- The last ones of what is delivered. -/
theorem lastOf_delivered_iff {limit : ℤ} (hLimit : 1 ≤ limit) {bars first : List Bar} :
    lastOf limit <$> delivered (bars.map (Bar.candle c exchange)) =
        .ok (first.map (Bar.candle c exchange)) ↔
      bars ≠ [] ∧ bars.rtake limit.toNat = first := by
  have hInjective := List.map_injective_iff.mpr (Bar.candle_injective c exchange)
  by_cases hNil : bars = []
  · rw [hNil]
    exact iff_of_false (fun h => by cases h) fun h => h.1 rfl
  · rw [delivered_cons (by simpa using hNil), and_iff_right hNil, ← hInjective.eq_iff]
    have hLast : lastOf limit (bars.map (Bar.candle c exchange)) =
        (bars.rtake limit.toNat).map (Bar.candle c exchange) := by
      rw [lastOf, if_pos (by omega), List.length_map, ← List.map_drop]
      rfl
    rw [← hLast]
    exact ⟨Except.ok.inj, congrArg Except.ok⟩

/-- **A call of Yahoo's adapter.** -/
theorem backfills_iff [JsonLibrary] [YahooModels] [Moments] [ExactMoments] {config : YahooConfig}
    {vendor : Request → Exchange} (hLimit : 1 ≤ c.limit) (hHolds : Holds vendor series c) :
    (source config vendor).Backfills series exchange c since ↔ Covers series c since := by
  unfold Covers
  by_cases hServed : intervals c.timeframe = none
  · refine iff_of_false (fun h => ?_) fun h => h.1 hServed
    have hRefused := h {} _ _ rfl (.refused (unsupported c.timeframe) (if_pos hServed))
    cases hRefused
  · have hFetch : (source config vendor).fetch { c with since := some since } =
        .ok (chartOfBars (before series c since ++ between series c since)) := by
      have hAnswer := hHolds (seconds since) (seconds c.now)
      rw [window_eq, ← ExactMoments.timestamp_eq, ← ExactMoments.timestamp_eq] at hAnswer
      exact hAnswer
    rw [Source.backfills_iff_map rfl rfl (if_neg hServed) hFetch]
    show lastOf c.limit <$> toCandles _ c.symbol c.timeframe exchange = _ ↔ _
    rw [toCandles_chartOfBars, lastOf_delivered_iff hLimit, Series.first, onward_eq series c,
      rtake_eq_take_iff (window_nodup series c since) (by omega), and_iff_right hServed]
    have hExact (n : ℕ) : n = c.limit.toNat ↔ (n : ℤ) = c.limit := by omega
    have hFewer (n : ℕ) : n < c.limit.toNat ↔ (n : ℤ) < c.limit := by omega
    rw [hExact, hFewer]

end Yahoo

/-! ## Binance -/

namespace Binance

section

variable [JsonLibrary] [PyText]

/-- The row shows the candle. -/
def Renders (bar : Bar) (row : List Json) : Prop :=
  ∃ opening high low close volume rest,
    row = .int (bar.time * 1000) :: opening :: high :: low :: close :: volume :: rest ∧
      PyText.decimal opening.text = some (.finite bar.open) ∧
      PyText.decimal high.text = some (.finite bar.high) ∧
      PyText.decimal low.text = some (.finite bar.low) ∧
      PyText.decimal close.text = some (.finite bar.close) ∧
      PyText.decimal volume.text = some (.finite bar.volume)

/-- The SDK sends the first candles from a millisecond on. -/
def Holds (sdk : Sdk) (series : Series) (c : FetchCandles) : Prop :=
  ∀ sinceMs limit, 1 ≤ limit → ∃ rows,
    sdk { symbolCode := PyText.upper c.symbol.code, timeframe := c.timeframe.value,
          sinceMs := some sinceMs, limit := limit } = .ok rows ∧
      List.Forall₂ Renders
        ((series.bars.filter fun bar => sinceMs ≤ bar.time * 1000).take limit.toNat) rows

end

/-- The candles in the millisecond of `since`, but before it. -/
def early (series : Series) (since : Datetime) : List Bar :=
  series.bars.filter fun bar => bar.openedAt < since ∧ milliseconds since ≤ bar.time * 1000

/-- What is sent is what comes before `since` and what comes from then on. -/
theorem sent_eq (series : Series) (since : Datetime) :
    series.bars.filter (fun bar => milliseconds since ≤ bar.time * 1000) =
      early series since ++ onward Bar.openedAt since series.bars := by
  unfold early onward
  apply series.ascending.filter_eq_append
  · intro bar _
    have hMilliseconds : since ≤ bar.openedAt → milliseconds since ≤ bar.time * 1000 := by
      intro h
      rw [← bar.dated.milliseconds_eq]
      exact milliseconds_mono h
    constructor
    · intro hSent
      by_cases hEarly : bar.openedAt < since
      · exact .inl ⟨hEarly, hSent⟩
      · exact .inr (not_lt.mp hEarly)
    · rintro (⟨-, hSent⟩ | hFrom)
      · exact hSent
      · exact hMilliseconds hFrom
  · rintro a b ⟨hEarly, -⟩ hFrom
    exact hEarly.trans_le hFrom

theorem sent_nodup (series : Series) (since : Datetime) :
    (early series since ++ onward Bar.openedAt since series.bars).Nodup := by
  rw [← sent_eq]
  exact series.nodup.filter _

/-- No candle before `since` opens in the millisecond of `since`. -/
def Covers (series : Series) (_ : FetchCandles) (since : Datetime) : Prop :=
  ∀ bar ∈ series.bars, bar.openedAt < since → bar.time * 1000 < milliseconds since

theorem early_eq_nil_iff {series : Series} {c : FetchCandles} {since : Datetime} :
    early series since = [] ↔ Covers series c since := by
  unfold early Covers
  simp only [List.filter_eq_nil_iff, decide_eq_true_eq, not_and, not_le]

section

variable [Moments] [ExactMoments] {c : FetchCandles}

theorem timestamp_candle (bar : Bar) (exchange : String) :
    Moments.timestamp (bar.candle c exchange).openedAt = bar.time := by
  rw [ExactMoments.timestamp_eq]
  exact bar.dated.seconds_eq

theorem unseen_eq {seen : List ℤ} {bars : List Bar} (hSorted : Ascending Bar.openedAt bars)
    (hSeen : ∀ bar ∈ bars, bar.time ∉ seen) :
    unseen seen (bars.map (Bar.candle c exchange)) = bars.map (Bar.candle c exchange) := by
  induction bars generalizing seen with
  | nil => rfl
  | cons bar bars ih =>
    obtain ⟨hHead, hRest⟩ := List.pairwise_cons.mp hSorted
    rw [List.map_cons, unseen, timestamp_candle, if_neg (hSeen bar List.mem_cons_self),
      ih hRest]
    intro other hOther hMem
    rcases List.mem_cons.mp hMem with hSame | hMem
    · have hLt := hHead other hOther
      rw [Bar.openedAt, Bar.openedAt, hSame] at hLt
      exact lt_irrefl _ hLt
    · exact hSeen other (List.mem_cons_of_mem bar hOther) hMem

/-- An ascending series is kept as it is. -/
theorem sortUnique_eq {bars : List Bar} (hSorted : Ascending Bar.openedAt bars) :
    sortUnique (bars.map (Bar.candle c exchange)) = bars.map (Bar.candle c exchange) := by
  have hOrdered : (bars.map (Bar.candle c exchange)).Pairwise
      fun a b => a.openedAt ≤ b.openedAt :=
    List.pairwise_map.mpr (hSorted.imp fun hLt => hLt.le)
  rw [sortUnique, hOrdered.insertionSort_eq, unseen_eq hSorted fun _ _ => List.not_mem_nil]

variable [JsonLibrary] [PyText] [IntText] [BinanceModels]

omit [Moments] [ExactMoments] in
/-- A row of the SDK is mapped to its candle. -/
theorem toCandle_renders {bar : Bar} {row : List Json} (h : Renders bar row) :
    (do toCandle (← (RawKline.of row).mapError stray) c.symbol c.timeframe exchange) =
      .ok (bar.candle c exchange) := by
  obtain ⟨opening, high, low, close, volume, rest, rfl, hOpen, hHigh, hLow, hClose, hVolume⟩ := h
  have hDecimal {value : Json} {q : ℚ} (h : PyText.decimal value.text = some (.finite q)) :
      decimalOf value.text = .ok (.finite q) := by
    rw [decimalOf, h]
  have hKline : klineCandle
      { openTimeMs := bar.time * 1000, «open» := opening.text, high := high.text, low := low.text,
        close := close.text, volume := volume.text } c.symbol c.timeframe exchange =
      .ok (bar.candle c exchange) := by
    unfold klineCandle
    dsimp only
    rw [bar.dated.instantOf_eq, hDecimal hOpen, hDecimal hHigh, hDecimal hLow, hDecimal hClose,
      hDecimal hVolume]
    rfl
  exact mapError_eq_ok_iff.mpr hKline

/-- Rows of the SDK are mapped to their candles. -/
theorem fetchAndMapOhlcv_eq {sdk : Sdk} {request : OhlcvRequest} {rows : List (List Json)}
    {bars : List Bar} (hSdk : sdk request = .ok rows) (hRows : List.Forall₂ Renders bars rows)
    (hSorted : Ascending Bar.openedAt bars) :
    fetchAndMapOhlcv sdk c request = .ok (bars.map (Bar.candle c exchange)) := by
  have hFilled : rows.filter (fun row => !row.isEmpty) = rows := by
    rw [List.filter_eq_self]
    intro row hRow
    obtain ⟨bar, -, hRenders⟩ := exists_mem_of_forall₂ hRows.flip hRow
    obtain ⟨opening, high, low, close, volume, rest, rfl, -⟩ := hRenders
    rfl
  have hMapped : rows.mapM (fun row => do
      toCandle (← (RawKline.of row).mapError stray) c.symbol c.timeframe exchange) =
        .ok (bars.map (Bar.candle c exchange)) := by
    rw [mapM_eq_ok_iff, List.forall₂_map_right_iff]
    exact hRows.flip.imp fun _ _ => toCandle_renders
  refine bind_eq_ok.mpr ⟨rows, mapError_eq_ok_iff.mpr hSdk, bind_eq_ok.mpr ⟨_, ?_,
    congrArg Except.ok (sortUnique_eq hSorted)⟩⟩
  rw [hFilled]
  exact hMapped

/-- **A call of Binance's adapter.** -/
theorem backfills_iff {config : BinanceConfig} {sdk : Sdk} {series : Series} {since : Datetime}
    (hLimit : 1 ≤ c.limit) (hHolds : Holds sdk series c) :
    (source config sdk).Backfills series exchange c since ↔ Covers series c since := by
  obtain ⟨rows, hSdk, hRows⟩ := hHolds (milliseconds since) c.limit hLimit
  have hSent : Ascending Bar.openedAt
      (series.bars.filter fun bar => milliseconds since ≤ bar.time * 1000) :=
    series.ascending.filter _
  have hFetch := fetchAndMapOhlcv_eq (c := { c with since := some since }) hSdk hRows
    (hSent.sublist (List.take_sublist _ _))
  have hInjective := List.map_injective_iff.mpr (Bar.candle_injective c exchange)
  rw [Source.backfills_iff_map rfl rfl rfl hFetch]
  show Except.ok (List.map (Bar.candle c exchange) _) = _ ↔ _
  rw [Except.ok.injEq, hInjective.eq_iff, Series.first, sent_eq,
    take_append_eq_take_iff (sent_nodup series since) (by omega), early_eq_nil_iff]

end

end Binance

/-! ## Runs -/

/-- Calls that meet a condition, each from after the last candle of the call before: their number,
the candles that are received, and the cursor of the next call. -/
inductive Source.Run {P : Type} (source : Source FetchCandles P (List Candle)) (series : Series)
    (c : FetchCandles) (meets : FetchCandles → Datetime → Prop) (since : Datetime) :
    ℕ → List Candle → Datetime → Prop
  | start : Run source series c meets since 0 [] since
  | page {n : ℕ} {received page : List Candle} {cursor cursor' now : Datetime} {f f' : Fields}
      (h : Run source series c meets since n received cursor)
      (hMeets : meets { c with now := now } cursor)
      (hFetches : source.Fetches f { c with since := some cursor, now := now } (.ok page) f')
      (hFollows :
        Follows (series.bars.map Bar.openedAt) cursor (page.map Candle.openedAt) cursor') :
      Run source series c meets since (n + 1) (received ++ page) cursor'

/-- No candle is left out, and after enough calls every candle is received. -/
structure Gapless (series : Series) (c : FetchCandles) (exchange : String) (since : Datetime)
    (n : ℕ) (received : List Candle) : Prop where
  first : received = (series.first since (n * c.limit)).map (Bar.candle c exchange)
  all : (onward Bar.openedAt since series.bars).length ≤ n →
    received = (onward Bar.openedAt since series.bars).map (Bar.candle c exchange)

namespace Source

variable {P : Type} {source : Source FetchCandles P (List Candle)} {series : Series}
  {c : FetchCandles} {meets : FetchCandles → Datetime → Prop} {exchange : String}
  {since cursor : Datetime} {n : ℕ} {received : List Candle} {retry : RetryPolicy}
  {breaker : CircuitBreaker}

/-- What is received, and what is left. -/
theorem Run.progress (hRetry : source.policy.retry = some retry)
    (hBreaker : source.policy.breaker = some breaker)
    (hCall : ∀ now cursor, meets { c with now := now } cursor →
      source.Backfills series exchange { c with now := now } cursor)
    (h : source.Run series c meets since n received cursor) :
    received = ((onward Bar.openedAt since series.bars).take (n * c.limit.toNat)).map
        (Bar.candle c exchange) ∧
      onward Bar.openedAt cursor series.bars =
        (onward Bar.openedAt since series.bars).drop (n * c.limit.toNat) := by
  induction h with
  | start => simp
  | @page n received page cursor cursor' now f f' h hMeets hFetches hFollows ih =>
    obtain ⟨hReceived, hLeft⟩ := ih
    have hPage : page = (series.first cursor c.limit).map (Bar.candle c exchange) :=
      (hCall now cursor hMeets).page hRetry hBreaker hFetches
    have hPlaces : page.map Candle.openedAt =
        (series.first cursor c.limit).map Bar.openedAt := by
      rw [hPage, List.map_map]
      rfl
    rw [hPlaces] at hFollows
    have hNext := onward_follows series.ascending hFollows
    rw [hLeft, List.drop_drop] at hNext
    rw [hReceived, hPage, Series.first, hLeft, ← List.map_append, ← List.take_add, Nat.succ_mul]
    exact ⟨rfl, hNext⟩

/-- **A run leaves no candle out.** -/
theorem Run.gapless (hRetry : source.policy.retry = some retry)
    (hBreaker : source.policy.breaker = some breaker) (hLimit : 1 ≤ c.limit)
    (hCall : ∀ now cursor, meets { c with now := now } cursor →
      source.Backfills series exchange { c with now := now } cursor)
    (h : source.Run series c meets since n received cursor) :
    Gapless series c exchange since n received := by
  obtain ⟨hReceived, -⟩ := h.progress hRetry hBreaker hCall
  have hCount : ((n : ℤ) * c.limit).toNat = n * c.limit.toNat := by
    obtain ⟨limit, hEq⟩ := Int.eq_ofNat_of_zero_le (zero_le_one.trans hLimit)
    rw [hEq, Int.toNat_natCast]
    exact_mod_cast Int.toNat_natCast (n * limit)
  constructor
  · rw [hReceived, Series.first, hCount]
  · intro hLength
    rw [hReceived, List.take_of_length_le]
    exact hLength.trans (Nat.le_mul_of_pos_right n (by omega))

end Source

/-- **Backfilling.** -/
theorem backfill_iff [JsonLibrary] [Yahoo.YahooModels] [Binance.BinanceModels] [PyText] [IntText]
    [Moments] [ExactMoments] (yahoo : Yahoo.YahooConfig) (binance : Binance.BinanceConfig)
    (vendor : Request → Exchange) (sdk : Binance.Sdk) (series : Series) (c : FetchCandles)
    (hLimit : 1 ≤ c.limit) (hVendor : Yahoo.Holds vendor series c)
    (hSdk : Binance.Holds sdk series c) :
    (∀ since, ((Yahoo.source yahoo vendor).Backfills series Yahoo.exchange c since ↔
        Yahoo.Covers series c since) ∧
      ((Binance.source binance sdk).Backfills series Binance.exchange c since ↔
        Binance.Covers series c since)) ∧
    ∀ since n received cursor,
      ((Yahoo.source yahoo vendor).Run series c (Yahoo.Covers series) since n received cursor →
        Gapless series c Yahoo.exchange since n received) ∧
      ((Binance.source binance sdk).Run series c (Binance.Covers series) since n received cursor →
        Gapless series c Binance.exchange since n received) := by
  constructor
  · intro since
    exact ⟨Yahoo.backfills_iff hLimit hVendor, Binance.backfills_iff hLimit hSdk⟩
  · intro since n received cursor
    constructor
    · intro hRun
      refine hRun.gapless rfl rfl hLimit fun now cursor hCovers => ?_
      exact (Yahoo.backfills_iff (c := { c with now := now }) hLimit hVendor).mpr hCovers
    · intro hRun
      refine hRun.gapless rfl rfl hLimit fun now cursor hCovers => ?_
      exact (Binance.backfills_iff (c := { c with now := now }) hLimit hSdk).mpr hCovers

namespace Hourly

/-! Two candles, of which one is asked for. -/

def bar (time : ℤ) (dated : Dated time) : Bar := ⟨time, 1, 1, 1, 1, 1, dated⟩

theorem earlier_dated : Dated 1710003600 := ⟨by decide, by decide⟩

theorem later_dated : Dated 1710007200 := ⟨by decide, by decide⟩

theorem now_dated : Dated 1710010800 := ⟨by decide, by decide⟩

def earlier : Bar := bar 1710003600 earlier_dated

def later : Bar := bar 1710007200 later_dated

def series : Series where
  bars := [earlier, later]
  ascending := List.pairwise_pair.mpr (by decide)

def since : Datetime := 1710003600 * 10 ^ 6

def call : FetchCandles where
  symbol := btcUsd
  timeframe := .h1
  limit := 1
  now := 1710010800 * 10 ^ 6

/-! What Yahoo sends for a window that has the two candles or not. -/

def windowOf (one two : Bool) : List Bar := [earlier, later].filter fun bar =>
  if bar.time = 1710003600 then one else two

def timesText : Bool → Bool → String
  | false, false => ""
  | true, false => "1710003600"
  | false, true => "1710007200"
  | true, true => "1710003600,1710007200"

def onesText : Bool → Bool → String
  | false, false => ""
  | true, true => "1,1"
  | _, _ => "1"

def textOf (one two : Bool) : String :=
  "\x7b\"chart\":\x7b\"result\":[\x7b\"timestamp\":[" ++ timesText one two ++
  "],\"indicators\":\x7b\"quote\":[\x7b\"open\":[" ++ onesText one two ++ "],\"high\":[" ++
  onesText one two ++ "],\"low\":[" ++ onesText one two ++ "],\"close\":[" ++ onesText one two ++
  "],\"volume\":[" ++ onesText one two ++ "]\x7d]\x7d\x7d]\x7d\x7d"

def payloadOf (bars : List Bar) : Json :=
  let ones := Json.arr (bars.map fun _ => .int 1)
  let times := Json.arr (bars.map fun bar => .int bar.time)
  .obj [("chart", .obj [("result", .arr [.obj [("timestamp", times),
    ("indicators", .obj [("quote", .arr [.obj [("open", ones), ("high", ones), ("low", ones),
      ("close", ones), ("volume", ones)]])])]])])]

def barOf : Json → Option Bar
  | .int time =>
    if h : -62135596800 ≤ time ∧ time ≤ 253402300799 then some (bar time h) else none
  | _ => none

local instance : JsonLibrary where
  loads text :=
    if text = textOf false false then some (payloadOf (windowOf false false))
    else if text = textOf true false then some (payloadOf (windowOf true false))
    else if text = textOf false true then some (payloadOf (windowOf false true))
    else if text = textOf true true then some (payloadOf (windowOf true true))
    else none
  repr
    | .float _ => "1.0"
    | _ => "None"

local instance : Yahoo.YahooModels where
  chart
    | .obj [("chart", .obj [("result", .arr [.obj (("timestamp", .arr times) :: _)])])] =>
      .ok { result := some [Yahoo.chartOfBars (times.filterMap barOf)] }
    | _ => .error "chart: Field required"
  rowText _ := "Input should be a finite number"

local instance : Moments where
  timestamp := seconds
  strftime _ _ := "1970-01-01"
  strptime _ _ := none

local instance : ExactMoments where
  timestamp_eq _ := rfl

def vendor (request : Request) : Exchange :=
  match request.params with
  | [_, _, (_, .int period1), (_, .int period2)] =>
    .response 200 (textOf (period1 ≤ 1710003600 ∧ 1710003600 ≤ period2)
      (period1 ≤ 1710007200 ∧ 1710007200 ≤ period2))
  | _ => .response 404 "Not Found"

theorem loads_textOf (one two : Bool) :
    JsonLibrary.loads (textOf one two) = some (payloadOf (windowOf one two)) := by
  cases one <;> cases two <;> rfl

theorem chart_payloadOf (one two : Bool) : Yahoo.resultOf (payloadOf (windowOf one two)) =
    .ok (Yahoo.chartOfBars (windowOf one two)) := by
  cases one <;> cases two <;> rfl

theorem vendor_holds : Yahoo.Holds vendor series call := by
  intro period1 period2
  have hWindow : (series.bars.filter fun bar => period1 ≤ bar.time ∧ bar.time ≤ period2) =
      windowOf (period1 ≤ 1710003600 ∧ 1710003600 ≤ period2)
        (period1 ≤ 1710007200 ∧ 1710007200 ≤ period2) := by
    apply List.filter_congr
    intro bar hBar
    rw [series, List.mem_cons, List.mem_singleton] at hBar
    rcases hBar with rfl | rfl
    · rfl
    · rfl
  show Yahoo.chartOf (.response 200 (textOf _ _)) = _
  rw [Yahoo.chartOf, getJson_ok (by decide) (loads_textOf _ _), hWindow]
  exact chart_payloadOf _ _

/-! What Binance's SDK sends. -/

local instance : PyText := asciiText

local instance : IntText where
  int s := (digitsAscii s.toList).map Nat.cast

local instance : Binance.BinanceModels where
  rowText _ := "Input should be a finite number"

def one : Json := .float (.finite 1)

theorem one_decimal : PyText.decimal one.text = some (.finite 1) := by decide +kernel

def rowOf (bar : Bar) : List Json := [.int (bar.time * 1000), one, one, one, one, one]

def sdk (request : Binance.OhlcvRequest) : Except Binance.SdkError (List (List Json)) :=
  .ok (((series.bars.filter fun bar => request.sinceMs.getD 0 ≤ bar.time * 1000).take
    request.limit.toNat).map rowOf)

theorem sdk_holds : Binance.Holds sdk series call := by
  intro sinceMs limit _
  refine ⟨_, rfl, List.forall₂_map_right_iff.mpr (List.forall₂_same.mpr fun bar hBar => ?_)⟩
  have hHeld : bar ∈ series.bars := List.mem_of_mem_filter (List.mem_of_mem_take hBar)
  have hOne : bar = Hourly.bar bar.time bar.dated := by
    rw [series, List.mem_cons, List.mem_singleton] at hHeld
    rcases hHeld with rfl | rfl <;> rfl
  rw [hOne]
  exact ⟨one, one, one, one, one, [], rfl, one_decimal, one_decimal, one_decimal, one_decimal,
    one_decimal⟩

theorem not_covered : ¬Yahoo.Covers series call since := by
  have hNow : seconds call.now = 1710010800 := now_dated.seconds_eq
  have hBetween : Yahoo.between series call since = [earlier, later] := by
    unfold Yahoo.between
    rw [hNow]
    rfl
  rintro ⟨-, hExact | ⟨-, hFewer, -⟩⟩
  · rw [hBetween] at hExact
    exact absurd hExact (by decide)
  · rw [hBetween] at hFewer
    exact absurd hFewer (by decide)

theorem covered : Binance.Covers series call since := by
  intro bar hBar hEarly
  rw [series, List.mem_cons, List.mem_singleton] at hBar
  rcases hBar with rfl | rfl
  · exact absurd hEarly (by decide)
  · exact absurd hEarly (by decide)

theorem call_backfills : ¬(Yahoo.source {} vendor).Backfills series Yahoo.exchange call since ∧
    (Binance.source {} sdk).Backfills series Binance.exchange call since := by
  obtain ⟨hCalls, -⟩ := backfill_iff {} {} vendor sdk series call (by decide) vendor_holds sdk_holds
  exact ⟨fun h => not_covered ((hCalls since).1.mp h), (hCalls since).2.mpr covered⟩

/-- Yahoo's adapter returns the second candle, although the first one opens at `since`. -/
theorem call_skips :
    (∃ f, (Yahoo.source {} vendor).Fetches {} { call with since := some since }
      (.ok [later.candle call Yahoo.exchange]) f) ∧
    series.first since call.limit = [earlier] ∧
    ¬(Yahoo.source {} vendor).Backfills series Yahoo.exchange call since := by
  have hSince : seconds since = 1710003600 := earlier_dated.seconds_eq
  have hNow : seconds call.now = 1710010800 := now_dated.seconds_eq
  have hFetch : (Yahoo.source {} vendor).fetch { call with since := some since } =
      .ok (Yahoo.chartOfBars [earlier, later]) := by
    have hAnswer := vendor_holds (seconds since) (seconds call.now)
    have hWindow : (series.bars.filter fun bar =>
        seconds since ≤ bar.time ∧ bar.time ≤ seconds call.now) = [earlier, later] := by
      rw [hSince, hNow]
      rfl
    rw [hWindow] at hAnswer
    exact hAnswer
  have hFetches : ∃ f, (Yahoo.source {} vendor).Fetches {} { call with since := some since }
      (.ok [later.candle call Yahoo.exchange]) f := Source.fetches_new rfl rfl rfl hFetch
  refine ⟨hFetches, rfl, fun hBackfills => ?_⟩
  exact not_covered ((Yahoo.backfills_iff (by decide) vendor_holds).mp hBackfills)

end Hourly

end TradingAgent.Marketdata
