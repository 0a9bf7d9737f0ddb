import TradingAgent.Marketdata.CandleStore

/-!
# Queries of the candle store

`CandleQueryService` hands its two queries on to the store: the candles of a symbol and a
timeframe between two times, and the latest ones. Both are parts of one list, the candles that
the table `shown` has of the symbol and the timeframe, which ascends strictly in time. So the
latest candles are the last ones of any range that covers all (`latest_eq_rtake`), and a range
splits at any time into two (`range_split`).

What the list contains is determined by the last candle of each key. To append a batch again,
or batches without a common key in another order, changes the answer of no query
(`answers_of_last`).
-/

namespace TradingAgent.Marketdata

open Table

namespace ClickHouseCandleStore

section Store

variable [ClickHouse]

omit [ClickHouse] in
/-- The `WHERE` of `_SELECT_LATEST`. -/
def selectsSeries (symbol : Symbol) (timeframe : Timeframe) (row : CandleRow) : Bool :=
  row.symbol = symbol.code ∧ row.timeframe = timeframe.value

omit [ClickHouse] in
def latest [PyText] (rows : List CandleRow) (symbol : Symbol) (timeframe : Timeframe) (n : ℕ) :
    Except Exn (List Candle) :=
  ((((final CandleRow.key CandleRow.version rows).filter
      (selectsSeries symbol timeframe)).insertionSort
    fun a b => b.openedAt ≤ a.openedAt).take n).reverse.mapM rowToCandle

/-- The time of the row of a candle. -/
def time (c : Candle) : Datetime := (toRow c).openedAt

/-- The candles of a symbol and a timeframe that the table shows, in order. -/
def shown (appended : List Candle) (symbol : Symbol) (timeframe : Timeframe) : List Candle :=
  ((held appended).filter fun c => selectsSeries symbol timeframe (toRow c)).insertionSort
    fun a b => time a ≤ time b

variable {appended : List Candle} {symbol : Symbol} {timeframe : Timeframe}

theorem selectsSeries_iff {c : Candle} : selectsSeries symbol timeframe (toRow c) ↔
    c.symbol.code = symbol.code ∧ c.timeframe = timeframe := by
  have hTimeframe : c.timeframe.value = timeframe.value ↔ c.timeframe = timeframe :=
    ⟨Timeframe.value_injective, congrArg _⟩
  simp [selectsSeries, toRow, hTimeframe]

/-- In any order of the selected candles by time, the times ascend strictly: candles of one
series with one time have one key. -/
theorem ascending_of_perm {p : Candle → Bool} {l : List Candle}
    (hPerm : l.Perm ((held appended).filter p)) (hSorted : l.Pairwise fun a b => time a ≤ time b)
    (hSeries : ∀ c, p c → selectsSeries symbol timeframe (toRow c)) :
    l.Pairwise fun a b => time a < time b := by
  have hNodup : l.Nodup := hPerm.nodup_iff.mpr ((nodup_final _).filter p)
  refine (hSorted.and hNodup).imp_of_mem fun {a b} ha hb ⟨hLe, hNe⟩ => lt_of_le_of_ne hLe ?_
  intro hTime
  rw [hPerm.mem_iff, List.mem_filter] at ha hb
  obtain ⟨hCodeA, hTimeframeA⟩ := selectsSeries_iff.mp (hSeries a ha.2)
  obtain ⟨hCodeB, hTimeframeB⟩ := selectsSeries_iff.mp (hSeries b hb.2)
  have hSlot : slot a = slot b :=
    slot_eq.mpr ⟨hCodeA.trans hCodeB.symm, hTimeframeA.trans hTimeframeB.symm, hTime⟩
  have hLast := mem_held.mp ha.1
  rw [hSlot, mem_held.mp hb.1] at hLast
  exact hNe (Option.some.inj hLast).symm

theorem sorted_sort (l : List Candle) :
    (l.insertionSort fun a b => time a ≤ time b).Pairwise fun a b => time a ≤ time b := by
  have hTotal : Std.Total fun a b : Candle => time a ≤ time b := ⟨fun a b => le_total _ _⟩
  have hTrans : IsTrans Candle fun a b => time a ≤ time b := ⟨fun a b c => le_trans⟩
  exact List.pairwise_insertionSort _ _

theorem ascending_shown :
    (shown appended symbol timeframe).Pairwise fun a b => time a < time b :=
  ascending_of_perm (List.perm_insertionSort _ _) (sorted_sort _) fun _ hSelected => hSelected

theorem mem_shown {c : Candle} : c ∈ shown appended symbol timeframe ↔
    c ∈ held appended ∧ c.symbol.code = symbol.code ∧ c.timeframe = timeframe := by
  rw [shown, List.mem_insertionSort, List.mem_filter, selectsSeries_iff]

/-- A range is a part of what is shown. -/
theorem found_eq (start stop : Datetime) : found appended symbol timeframe start stop =
    (shown appended symbol timeframe).filter fun c =>
      ClickHouse.bound start ≤ time c ∧ time c ≤ ClickHouse.bound stop := by
  have hSelects (c : Candle) (h : selects symbol timeframe start stop (toRow c)) :
      selectsSeries symbol timeframe (toRow c) := by
    have hBoth := of_decide_eq_true h
    exact decide_eq_true ⟨hBoth.1, hBoth.2.1⟩
  refine eq_of_mem_iff (ascending_of_perm (List.perm_insertionSort _ _) (sorted_sort _) hSelects)
    (ascending_shown.filter _) fun c => ?_
  rw [mem_found, List.mem_filter, mem_shown]
  constructor
  · rintro ⟨hHeld, hCode, hTimeframe, hBounds⟩
    exact ⟨⟨hHeld, hCode, hTimeframe⟩, decide_eq_true hBounds⟩
  · rintro ⟨⟨hHeld, hCode, hTimeframe⟩, hBounds⟩
    exact ⟨hHeld, hCode, hTimeframe, of_decide_eq_true hBounds⟩

/-- The latest candles, in the order of `ORDER BY opened_at DESC`. -/
theorem descending_eq : ((held appended).filter fun c =>
      selectsSeries symbol timeframe (toRow c)).insertionSort (fun a b => time b ≤ time a) =
    (shown appended symbol timeframe).reverse := by
  have hTotal : Std.Total fun a b : Candle => time b ≤ time a := ⟨fun a b => le_total _ _⟩
  have hTrans : IsTrans Candle fun a b => time b ≤ time a := ⟨fun a b c hab hbc => hbc.trans hab⟩
  have hAscending : (((held appended).filter fun c =>
      selectsSeries symbol timeframe (toRow c)).insertionSort
        (fun a b => time b ≤ time a)).reverse.Pairwise fun a b => time a < time b :=
    ascending_of_perm ((List.reverse_perm _).trans (List.perm_insertionSort _ _))
      (List.pairwise_reverse.mpr (List.pairwise_insertionSort _ _)) fun _ hSelected => hSelected
  rw [← List.reverse_eq_iff]
  refine eq_of_mem_iff hAscending ascending_shown fun c => ?_
  rw [List.mem_reverse, List.mem_insertionSort, List.mem_filter, selectsSeries_iff, mem_shown]

variable [PyText] [AsciiUpper]

theorem restored_mapM (candles : List Candle) :
    (candles.map toRow).mapM rowToCandle = .ok (candles.map restored) := by
  induction candles with
  | nil => rfl
  | cons c rest ih =>
    rw [List.map_cons, List.mapM_cons, rowToCandle_toRow, ih]
    rfl

theorem latest_eq (history : List (List Candle)) (symbol : Symbol) (timeframe : Timeframe)
    (n : ℕ) : latest (appends history) symbol timeframe n =
      .ok (((shown history.flatten symbol timeframe).rtake n).map restored) := by
  have hRows : ((final CandleRow.key CandleRow.version (appends history)).filter
      (selectsSeries symbol timeframe)).insertionSort (fun a b => b.openedAt ≤ a.openedAt) =
      (shown history.flatten symbol timeframe).reverse.map toRow := by
    rw [appends_eq, final_map, List.filter_map, ← descending_eq,
      List.map_insertionSort (fun a b => time b ≤ time a)
        (fun a b : CandleRow => b.openedAt ≤ a.openedAt) toRow _ fun _ _ _ _ => Iff.rfl]
    rfl
  rw [latest, hRows, ← List.map_take, ← List.map_reverse, restored_mapM, List.take_reverse,
    List.reverse_reverse]
  rfl

theorem queryRange_shown (history : List (List Candle)) (symbol : Symbol) (timeframe : Timeframe)
    (start stop : Datetime) : queryRange (appends history) symbol timeframe start stop =
      .ok (((shown history.flatten symbol timeframe).filter fun c =>
        ClickHouse.bound start ≤ time c ∧ time c ≤ ClickHouse.bound stop).map restored) := by
  rw [queryRange_eq, found_eq]

omit [PyText] [AsciiUpper] in
/-- What is shown is determined by the last candle of each key. -/
theorem shown_congr {appended appended' : List Candle}
    (h : ∀ k, last slot appended k = last slot appended' k) (symbol : Symbol)
    (timeframe : Timeframe) :
    shown appended symbol timeframe = shown appended' symbol timeframe := by
  refine eq_of_mem_iff ascending_shown ascending_shown fun c => ?_
  rw [mem_shown, mem_shown, mem_held, mem_held, h]

end Store

end ClickHouseCandleStore

/-! ## The query service -/

section Service

open ClickHouseCandleStore

variable [ClickHouse] [PyText]

namespace CandleQueryService

def range (rows : List CandleRow) (symbol : Symbol) (timeframe : Timeframe)
    (start stop : Datetime) : Except Exn (List Candle) :=
  queryRange rows symbol timeframe start stop

omit [ClickHouse] in
def latest (rows : List CandleRow) (symbol : Symbol) (timeframe : Timeframe) (n : ℕ) :
    Except Exn (List Candle) :=
  ClickHouseCandleStore.latest rows symbol timeframe n

end CandleQueryService

/-- A call of the service. -/
inductive CandleQuery
  | range (symbol : Symbol) (timeframe : Timeframe) (start stop : Datetime)
  | latest (symbol : Symbol) (timeframe : Timeframe) (n : ℕ)

def CandleQuery.answer (rows : List CandleRow) : CandleQuery → Except Exn (List Candle)
  | .range symbol timeframe start stop =>
    CandleQueryService.range rows symbol timeframe start stop
  | .latest symbol timeframe n => CandleQueryService.latest rows symbol timeframe n

variable [AsciiUpper]

/-- **The latest candles.** They are the last ones of any range that covers all candles of
the symbol and the timeframe. -/
theorem latest_eq_rtake (history : List (List Candle)) (symbol : Symbol) (timeframe : Timeframe)
    (n : ℕ) {start stop : Datetime}
    (hCovers : ∀ c ∈ history.flatten, c.symbol.code = symbol.code → c.timeframe = timeframe →
      ClickHouse.bound start ≤ time c ∧ time c ≤ ClickHouse.bound stop) :
    ∃ all,
      CandleQueryService.range (appends history) symbol timeframe start stop = .ok all ∧
      CandleQueryService.latest (appends history) symbol timeframe n = .ok (all.rtake n) := by
  refine ⟨_, queryRange_shown history symbol timeframe start stop, ?_⟩
  have hAll : ((shown history.flatten symbol timeframe).filter fun c =>
      ClickHouse.bound start ≤ time c ∧ time c ≤ ClickHouse.bound stop) =
      shown history.flatten symbol timeframe := by
    refine List.filter_eq_self.mpr fun c hc => decide_eq_true ?_
    obtain ⟨hHeld, hCode, hTimeframe⟩ := mem_shown.mp hc
    exact hCovers c (mem_of_mem_final hHeld) hCode hTimeframe
  rw [hAll, CandleQueryService.latest, latest_eq, List.rtake, List.rtake, List.length_map,
    List.map_drop]

/-- **Adjacent ranges.** A range is the range up to a time and, of the range from that time,
the candles after it. -/
theorem range_split (history : List (List Candle)) (symbol : Symbol) (timeframe : Timeframe)
    {start middle stop : Datetime} (hLow : ClickHouse.bound start ≤ ClickHouse.bound middle)
    (hHigh : ClickHouse.bound middle ≤ ClickHouse.bound stop) :
    ∃ before after,
      CandleQueryService.range (appends history) symbol timeframe start middle = .ok before ∧
      CandleQueryService.range (appends history) symbol timeframe middle stop = .ok after ∧
      CandleQueryService.range (appends history) symbol timeframe start stop =
        .ok (before ++ after.filter fun c => ClickHouse.bound middle < c.openedAt) := by
  refine ⟨_, _, queryRange_shown history symbol timeframe start middle,
    queryRange_shown history symbol timeframe middle stop, ?_⟩
  rw [CandleQueryService.range, queryRange_shown, filter_split ascending_shown hLow hHigh,
    List.map_append, List.filter_map]
  rfl

/-- **The last candle of each key.** It determines the answers to all queries. So to append a
batch again changes no answer, and neither does the order of batches without a common key. -/
theorem answers_of_last (query : CandleQuery) :
    (∀ history history' : List (List Candle),
        (∀ k, last slot history.flatten k = last slot history'.flatten k) →
          query.answer (appends history) = query.answer (appends history')) ∧
      (∀ history batch,
        query.answer (appends (history ++ [batch, batch])) =
          query.answer (appends (history ++ [batch]))) ∧
      ∀ history a b, (∀ c ∈ a, ∀ d ∈ b, slot c ≠ slot d) →
        query.answer (appends (history ++ [a, b])) =
          query.answer (appends (history ++ [b, a])) := by
  have hLast : ∀ history history' : List (List Candle),
      (∀ k, last slot history.flatten k = last slot history'.flatten k) →
        query.answer (appends history) = query.answer (appends history') := by
    intro history history' hSame
    cases query with
    | range symbol timeframe start stop =>
      rw [CandleQuery.answer, CandleQuery.answer, CandleQueryService.range,
        CandleQueryService.range, queryRange_shown, queryRange_shown, shown_congr hSame]
    | latest symbol timeframe n =>
      rw [CandleQuery.answer, CandleQuery.answer, CandleQueryService.latest,
        CandleQueryService.latest, latest_eq, latest_eq, shown_congr hSame]
  refine ⟨hLast, fun history batch => hLast _ _ fun k => ?_,
    fun history a b hApart => hLast _ _ fun k => ?_⟩
  · simpa using last_again history.flatten batch k
  · simpa using last_comm hApart k

end Service

/-! ## Two daily candles -/

namespace Queried

open ClickHouseCandleStore

local instance : PyText := asciiText

local instance : AsciiUpper := ⟨fun _ _ => rfl⟩

theorem whole_second (s : ℤ) : id (1000000 * s) = 1000000 * s := rfl

/-- A server that keeps every time as it is. -/
local instance : ClickHouse where
  time t := t
  time_time _ := rfl
  bound := id
  bound_second := whole_second

def candle (openedAt : Datetime) (price : ℚ) : Candle where
  symbol := { code := "BTC/USDT", formed := Replaced.pair_formed }
  timeframe := .d1
  openedAt := openedAt
  «open» := price
  high := price
  low := price
  close := price
  volume := 1
  exchange := "binance"

def day : Datetime := 86400000000

/-- The first day is appended twice, with two prices. -/
def history : List (List Candle) := [[candle day 2, candle 0 1], [candle 0 3]]

theorem latest_found : ∃ all,
    CandleQueryService.range (appends history) (candle 0 1).symbol .d1 0 day = .ok all ∧
      CandleQueryService.latest (appends history) (candle 0 1).symbol .d1 1 =
        .ok (all.rtake 1) := by
  refine latest_eq_rtake history _ _ 1 fun c hc _ _ => ?_
  have hTimes : ∀ c ∈ history.flatten, (0 : ℤ) ≤ time c ∧ time c ≤ day := by decide
  exact hTimes c hc

theorem days_split : ∃ before after,
    CandleQueryService.range (appends history) (candle 0 1).symbol .d1 0 0 = .ok before ∧
      CandleQueryService.range (appends history) (candle 0 1).symbol .d1 0 day = .ok after ∧
      CandleQueryService.range (appends history) (candle 0 1).symbol .d1 0 day =
        .ok (before ++ after.filter fun c => ClickHouse.bound 0 < c.openedAt) :=
  range_split history _ _ (by decide) (by decide)

theorem batch_again :
    (CandleQuery.latest (candle 0 1).symbol .d1 2).answer
        (appends ([[candle day 2]] ++ [[candle 0 1], [candle 0 1]])) =
      (CandleQuery.latest (candle 0 1).symbol .d1 2).answer
        (appends ([[candle day 2]] ++ [[candle 0 1]])) :=
  (answers_of_last (.latest (candle 0 1).symbol .d1 2)).2.1 [[candle day 2]] [candle 0 1]

end Queried

end TradingAgent.Marketdata
