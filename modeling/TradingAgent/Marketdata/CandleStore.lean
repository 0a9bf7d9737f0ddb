import TradingAgent.Marketdata.Entities
import TradingAgent.Table.Replacing
import Mathlib.Data.List.Sort

/-!
# The store of candles

The rows of `market_candles` have the key `(symbol, timeframe, opened_at)`, and of the rows with
one key the table shows the last. A row has the exchange of its candle, but it is not part of
the key, and the exchange of the symbol has no column. So the store returns what was appended
exactly if the candles of one symbol, timeframe and time have one exchange, the column of times
keeps their times, and the symbols name no exchange (`candles_returned_iff`); a candle of one
exchange takes the place of that of another (`Replaced`).

Prices are kept exactly: their conversion to `float` is set aside.
-/

namespace TradingAgent.Marketdata

open Table

/-- `str.upper` on ASCII texts. -/
class AsciiUpper [PyText] : Prop where
  upper_ascii : ∀ s : String, (∀ c ∈ s.toList, c.toNat < 128) →
    PyText.upper s = String.ofList (s.toList.map upperAscii)

/-- What the server makes of times. `time` is what the column `DateTime64(3, 'UTC')` gives back,
and `bound` the time for which the text of a query parameter stands. The times are those of the
range of the column, in which whole seconds stand for themselves. -/
class ClickHouse where
  time : Datetime → Datetime
  time_time : ∀ t, time (time t) = time t
  bound : Datetime → Datetime
  bound_second : ∀ s : ℤ, bound (1000000 * s) = 1000000 * s

/-! ## Codes are in upper case -/

theorem codePattern_chars {code : String} (h : codePattern code = true) :
    ∀ c ∈ code.toList, codeChar c = true ∨ c = '/' := by
  intro c hc
  rw [← List.takeWhile_append_dropWhile (p := codeChar) (l := code.toList)] at hc
  unfold codePattern at h
  split at h
  · next quote hQuote =>
    rw [hQuote] at hc
    simp only [Bool.and_eq_true, List.all_eq_true] at h
    rcases List.mem_append.mp hc with hBase | hRest
    · exact .inl (List.mem_takeWhile_imp hBase)
    · rcases List.mem_cons.mp hRest with hSlash | hMem
      · exact .inr hSlash
      · exact .inl (h.2 c hMem)
  · cases h

theorem upperAscii_codeChar {c : Char} (h : codeChar c = true ∨ c = '/') :
    c.toNat < 128 ∧ upperAscii c = c := by
  have hBelow : c.toNat < 97 := by
    rcases h with hCode | rfl
    · rcases (Bool.or_eq_true _ _).mp hCode with hUpper | hDigit
      · have hLe : c.val ≤ 'Z'.val := (of_decide_eq_true hUpper : _ ∧ _).2
        exact lt_of_le_of_lt (UInt32.le_iff_toNat_le.mp hLe) (by decide)
      · have hLe : c.val ≤ '9'.val := of_decide_eq_true ((Bool.and_eq_true _ _).mp hDigit).2
        exact lt_of_le_of_lt (UInt32.le_iff_toNat_le.mp hLe) (by decide)
    · decide
  refine ⟨by omega, ?_⟩
  rw [upperAscii, if_neg (by omega)]

theorem Symbol.of_code [PyText] [AsciiUpper] (symbol : Symbol) :
    Symbol.of symbol.code = .ok { symbol with exchange := "" } := by
  have hUpper : PyText.upper symbol.code = symbol.code := by
    have hChars := codePattern_chars symbol.formed
    rw [AsciiUpper.upper_ascii _ fun c hc => (upperAscii_codeChar (hChars c hc)).1]
    have hMap : symbol.code.toList.map upperAscii = symbol.code.toList.map id :=
      List.map_congr_left fun c hc => (upperAscii_codeChar (hChars c hc)).2
    rw [hMap, List.map_id, String.ofList_toList]
  simp only [Symbol.of, hUpper, symbol.formed, dif_pos]

/-! ## Rows -/

structure CandleRow where
  symbol : String
  timeframe : String
  openedAt : Datetime
  «open» : ℚ
  high : ℚ
  low : ℚ
  close : ℚ
  volume : ℚ
  exchange : String
  deriving DecidableEq, Repr

/-- `ORDER BY (symbol, timeframe, opened_at)`. -/
def CandleRow.key (row : CandleRow) : String × String × Datetime :=
  (row.symbol, row.timeframe, row.openedAt)

/-- `ReplacingMergeTree(opened_at)`. -/
def CandleRow.version (row : CandleRow) : Datetime := row.openedAt

namespace ClickHouseCandleStore

variable [ClickHouse]

def toRow (c : Candle) : CandleRow where
  symbol := c.symbol.code
  timeframe := c.timeframe.value
  openedAt := ClickHouse.time c.openedAt
  «open» := c.open
  high := c.high
  low := c.low
  close := c.close
  volume := c.volume
  exchange := c.exchange

omit [ClickHouse] in
def rowToCandle [PyText] (row : CandleRow) : Except Exn Candle := do
  let symbol ← Symbol.of row.symbol
  let timeframe ← Timeframe.ofValue row.timeframe
  return ⟨symbol, timeframe, row.openedAt, row.open, row.high, row.low, row.close, row.volume,
    row.exchange⟩

/-- The rows after a call, and what it returns. -/
def append (rows : List CandleRow) (candles : List Candle) : List CandleRow × ℕ :=
  if candles = [] then (rows, 0) else (rows ++ candles.map toRow, candles.length)

/-- The rows after some calls. -/
def appends (history : List (List Candle)) : List CandleRow :=
  history.foldl (fun rows candles => (append rows candles).1) []

/-- The `WHERE` of the query. -/
def selects (symbol : Symbol) (timeframe : Timeframe) (start stop : Datetime) (row : CandleRow) :
    Bool :=
  row.symbol = symbol.code ∧ row.timeframe = timeframe.value ∧
    ClickHouse.bound start ≤ row.openedAt ∧ row.openedAt ≤ ClickHouse.bound stop

def queryRange [PyText] (rows : List CandleRow) (symbol : Symbol) (timeframe : Timeframe)
    (start stop : Datetime) : Except Exn (List Candle) :=
  (((final CandleRow.key CandleRow.version rows).filter
      (selects symbol timeframe start stop)).insertionSort
    fun a b => a.openedAt ≤ b.openedAt).mapM rowToCandle

/-! ## What is to be returned -/

omit [ClickHouse] in
/-- The symbol code, timeframe, exchange and time of a candle. -/
def series (c : Candle) : String × Timeframe × String × Datetime :=
  (c.symbol.code, c.timeframe, c.exchange, c.openedAt)

omit [ClickHouse] in
/-- In ascending order, and for every exchange and every time between the bounds exactly the
last candle that was appended. -/
structure Lists (appended : List Candle) (symbol : Symbol) (timeframe : Timeframe)
    (start stop : Datetime) (candles : List Candle) : Prop where
  ascending : candles.Pairwise fun a b => a.openedAt ≤ b.openedAt
  exact : ∀ exchange t,
    (candles.filter fun c => c.exchange = exchange ∧ c.openedAt = t) =
      if start ≤ t ∧ t ≤ stop then
        (last series appended (symbol.code, timeframe, exchange, t)).toList
      else []

/-- Every query whose bounds stand for themselves returns what was appended. -/
def Returned [PyText] (history : List (List Candle)) : Prop :=
  ∀ symbol timeframe start stop, ClickHouse.bound start = start → ClickHouse.bound stop = stop →
    ∃ candles, queryRange (appends history) symbol timeframe start stop = .ok candles ∧
      Lists history.flatten symbol timeframe start stop candles

/-- A call with candles of one exchange removes no candle of another from any query. -/
def Separate [PyText] (history : List (List Candle)) : Prop :=
  ∀ before batch after exchange, history = before ++ batch :: after →
    (∀ c ∈ batch, c.exchange = exchange) →
    ∀ symbol timeframe start stop, ∃ candles candles',
      queryRange (appends before) symbol timeframe start stop = .ok candles ∧
      queryRange (appends (before ++ [batch])) symbol timeframe start stop = .ok candles' ∧
      ∀ c ∈ candles, c.exchange ≠ exchange → c ∈ candles'

/-- The candles of one symbol, timeframe and time have one exchange, the column keeps their
times, and the symbol of the last one of an exchange names no exchange. -/
structure Plain (appended : List Candle) : Prop where
  time : ∀ c ∈ appended, ClickHouse.time c.openedAt = c.openedAt
  exchange : ∀ a ∈ appended, ∀ b ∈ appended, a.symbol.code = b.symbol.code →
    a.timeframe = b.timeframe → a.openedAt = b.openedAt → a.exchange = b.exchange
  symbol : ∀ c, last series appended (series c) = some c → c.symbol.exchange = ""

/-! ## The table, by its candles -/

theorem appends_eq (history : List (List Candle)) :
    appends history = history.flatten.map toRow := by
  induction history using List.reverseRecOn with
  | nil => rfl
  | append_singleton history candles ih =>
    have hStep : appends (history ++ [candles]) = (append (appends history) candles).1 := by
      simp [appends]
    rw [hStep, ih, List.flatten_append, List.map_append, append]
    split
    · next hEmpty => simp [hEmpty]
    · simp

/-- The key of the row of a candle. -/
def slot (c : Candle) : String × String × Datetime := (toRow c).key

/-- The candles whose rows the table shows. -/
def held (appended : List Candle) : List Candle :=
  final slot (fun c => (toRow c).version) appended

/-- The candles whose rows a query finds, in order. -/
def found (appended : List Candle) (symbol : Symbol) (timeframe : Timeframe)
    (start stop : Datetime) : List Candle :=
  ((held appended).filter fun c => selects symbol timeframe start stop (toRow c)).insertionSort
    fun a b => (toRow a).openedAt ≤ (toRow b).openedAt

/-- What is read back of a candle. -/
def restored (c : Candle) : Candle :=
  { c with symbol := { c.symbol with exchange := "" }, openedAt := ClickHouse.time c.openedAt }

theorem rowToCandle_toRow [PyText] [AsciiUpper] (c : Candle) :
    rowToCandle (toRow c) = .ok (restored c) := by
  refine bind_eq_ok.mpr ⟨_, Symbol.of_code c.symbol, ?_⟩
  exact bind_eq_ok.mpr ⟨_, Timeframe.ofValue_value c.timeframe, rfl⟩

theorem queryRange_eq [PyText] [AsciiUpper] (history : List (List Candle)) (symbol : Symbol)
    (timeframe : Timeframe) (start stop : Datetime) :
    queryRange (appends history) symbol timeframe start stop =
      .ok ((found history.flatten symbol timeframe start stop).map restored) := by
  have hMap (candles : List Candle) :
      (candles.map toRow).mapM rowToCandle = .ok (candles.map restored) := by
    induction candles with
    | nil => rfl
    | cons c rest ih =>
      rw [List.map_cons, List.mapM_cons, rowToCandle_toRow, ih]
      rfl
  have hRows : ((final CandleRow.key CandleRow.version (appends history)).filter
      (selects symbol timeframe start stop)).insertionSort (fun a b => a.openedAt ≤ b.openedAt) =
      (found history.flatten symbol timeframe start stop).map toRow := by
    rw [appends_eq, final_map, List.filter_map, found,
      List.map_insertionSort _ (fun a b : CandleRow => a.openedAt ≤ b.openedAt) _ _
        fun _ _ _ _ => Iff.rfl]
    rfl
  rw [queryRange, hRows, hMap]

theorem slot_eq {a b : Candle} : slot a = slot b ↔
    a.symbol.code = b.symbol.code ∧ a.timeframe = b.timeframe ∧
      ClickHouse.time a.openedAt = ClickHouse.time b.openedAt := by
  have hTimeframe : a.timeframe.value = b.timeframe.value ↔ a.timeframe = b.timeframe :=
    ⟨Timeframe.value_injective, congrArg _⟩
  simp only [slot, CandleRow.key, toRow, Prod.mk.injEq, hTimeframe]

theorem version_of_slot (a b : Candle) (h : slot a = slot b) :
    (toRow a).version = (toRow b).version :=
  (slot_eq.mp h).2.2

theorem mem_held {appended : List Candle} {c : Candle} :
    c ∈ held appended ↔ last slot appended (slot c) = some c :=
  mem_final version_of_slot

theorem mem_found {appended : List Candle} {symbol : Symbol} {timeframe : Timeframe}
    {start stop : Datetime} {c : Candle} :
    c ∈ found appended symbol timeframe start stop ↔
      c ∈ held appended ∧ c.symbol.code = symbol.code ∧ c.timeframe = timeframe ∧
        ClickHouse.bound start ≤ ClickHouse.time c.openedAt ∧
        ClickHouse.time c.openedAt ≤ ClickHouse.bound stop := by
  have hTimeframe : c.timeframe.value = timeframe.value ↔ c.timeframe = timeframe :=
    ⟨Timeframe.value_injective, congrArg _⟩
  rw [found, List.mem_insertionSort, List.mem_filter]
  simp [selects, toRow, hTimeframe]

theorem pairwise_found (appended : List Candle) (symbol : Symbol) (timeframe : Timeframe)
    (start stop : Datetime) : (found appended symbol timeframe start stop).Pairwise fun a b =>
      ClickHouse.time a.openedAt ≤ ClickHouse.time b.openedAt := by
  have hTotal : Std.Total fun a b : Candle => (toRow a).openedAt ≤ (toRow b).openedAt :=
    ⟨fun a b => le_total _ _⟩
  have hTrans : IsTrans Candle fun a b => (toRow a).openedAt ≤ (toRow b).openedAt :=
    ⟨fun a b c => le_trans⟩
  exact List.pairwise_insertionSort _ _

/-! ## Where the store returns what was appended -/

variable {appended : List Candle} {history : List (List Candle)}

/-- The candle of a row that is shown is the last one of its series. -/
theorem last_of_held {c : Candle} (hHeld : c ∈ held appended) :
    last series appended (series c) = some c := by
  refine last_of_finer (fun other hSeries => ?_) (mem_held.mp hHeld)
  simp only [series, Prod.mk.injEq] at hSeries
  exact slot_eq.mpr ⟨hSeries.1, hSeries.2.1, by rw [hSeries.2.2.2]⟩

theorem Plain.time_held (h : Plain appended) {c : Candle}
    (hHeld : c ∈ held appended) : ClickHouse.time c.openedAt = c.openedAt :=
  h.time c (mem_of_mem_final hHeld)

/-- It is read back as it is. -/
theorem Plain.restored_eq (h : Plain appended) {c : Candle}
    (hHeld : c ∈ held appended) : restored c = c := by
  have hTime := h.time_held hHeld
  have hExchange := h.symbol c (last_of_held hHeld)
  obtain ⟨⟨code, exchange, formed⟩, timeframe, openedAt, _⟩ := c
  simp only at hTime hExchange
  simp [restored, hTime, hExchange]

/-- The last candle of a series is that of its row, if the row has the exchange. -/
theorem Plain.last_series (h : Plain appended) (code : String)
    (timeframe : Timeframe) (exchange : String) (t : Datetime) :
    (last slot appended (code, timeframe.value, t)).toList.filter (fun c => c.exchange = exchange) =
      (last series appended (code, timeframe, exchange, t)).toList := by
  have hSlot {c : Candle} (hc : c ∈ appended)
      (hSeries : series c = (code, timeframe, exchange, t)) :
      slot c = (code, timeframe.value, t) := by
    obtain ⟨rfl, rfl, rfl, rfl⟩ : c.symbol.code = code ∧ c.timeframe = timeframe ∧
        c.exchange = exchange ∧ c.openedAt = t := by simpa [series] using hSeries
    simp [slot, CandleRow.key, toRow, h.time c hc]
  cases hFound : last slot appended (code, timeframe.value, t) with
  | none =>
    cases hLast : last series appended (code, timeframe, exchange, t) with
    | none => rfl
    | some c =>
      obtain ⟨hMem, hSeries⟩ := last_eq_some hLast
      obtain ⟨other, hOther⟩ := exists_last slot hMem
      rw [hSlot hMem hSeries, hFound] at hOther
      cases hOther
  | some row =>
    obtain ⟨hRow, hRowSlot⟩ := last_eq_some hFound
    have hRowSeries : series row = (code, timeframe, row.exchange, t) := by
      simp only [slot, CandleRow.key, toRow, Prod.mk.injEq, h.time row hRow] at hRowSlot
      simp only [series, hRowSlot.1, Timeframe.value_injective hRowSlot.2.1, hRowSlot.2.2]
    have hHeld : row ∈ held appended := mem_held.mpr (by rw [hRowSlot, hFound])
    by_cases hExchange : row.exchange = exchange
    · have hLast := last_of_held hHeld
      rw [hRowSeries, hExchange] at hLast
      simp [hLast, hExchange]
    · cases hLast : last series appended (code, timeframe, exchange, t) with
      | none => simp [hExchange]
      | some c =>
        -- The candle has the symbol, timeframe and time of the row, so it has its exchange.
        obtain ⟨hMem, hSeries⟩ := last_eq_some hLast
        simp only [series, Prod.mk.injEq] at hSeries hRowSeries
        refine absurd ?_ hExchange
        rw [← hSeries.2.2.1]
        refine h.exchange row hRow c hMem ?_ ?_ ?_
        · rw [hRowSeries.1, hSeries.1]
        · rw [hRowSeries.2.1, hSeries.2.1]
        · rw [hRowSeries.2.2.2, hSeries.2.2.2]

/-- The rows of an exchange and a time that a query finds. -/
theorem Plain.filter_found (h : Plain appended) (symbol : Symbol) (timeframe : Timeframe)
    {start stop : Datetime} (hStart : ClickHouse.bound start = start)
    (hStop : ClickHouse.bound stop = stop) (exchange : String) (t : Datetime) :
    ((found appended symbol timeframe start stop).filter
      fun c => c.exchange = exchange ∧ c.openedAt = t) =
      if start ≤ t ∧ t ≤ stop then
        (last series appended (symbol.code, timeframe, exchange, t)).toList
      else [] := by
  have hTimeframe (c : Candle) : c.timeframe.value = timeframe.value ↔ c.timeframe = timeframe :=
    ⟨Timeframe.value_injective, congrArg _⟩
  split
  · next hRange =>
    have hSame : ((held appended).filter fun c =>
          selects symbol timeframe start stop (toRow c)).filter
          (fun c => c.exchange = exchange ∧ c.openedAt = t) =
        (last series appended (symbol.code, timeframe, exchange, t)).toList := by
      rw [← h.last_series, ← filter_final version_of_slot, List.filter_filter, List.filter_filter]
      refine List.filter_congr fun c hc => ?_
      have hTime := h.time_held hc
      rw [Bool.eq_iff_iff]
      simp only [selects, slot, CandleRow.key, toRow, hTime, hStart, hStop, Bool.and_eq_true,
        decide_eq_true_eq, Prod.mk.injEq]
      constructor
      · rintro ⟨⟨hExchange, hOpened⟩, hCode, hValue, -⟩
        exact ⟨hExchange, hCode, hValue, hOpened⟩
      · rintro ⟨hExchange, hCode, hValue, rfl⟩
        exact ⟨⟨hExchange, rfl⟩, hCode, hValue, hRange⟩
    have hPerm := (List.perm_insertionSort (fun a b => (toRow a).openedAt ≤ (toRow b).openedAt)
      ((held appended).filter fun c => selects symbol timeframe start stop (toRow c))).filter
        fun c => c.exchange = exchange ∧ c.openedAt = t
    rw [hSame] at hPerm
    exact eq_toList_of_perm hPerm
  · next hRange =>
    refine List.filter_eq_nil_iff.mpr fun c hc hMatch => hRange ?_
    obtain ⟨hHeld, -, -, hBounds⟩ := mem_found.mp hc
    obtain ⟨-, rfl⟩ := of_decide_eq_true hMatch
    rw [h.time_held hHeld, hStart, hStop] at hBounds
    exact hBounds

variable [PyText] [AsciiUpper]

/-- The last candle of a series is read back from a row that the table shows. -/
theorem Returned.shown (h : Returned history) {c : Candle}
    (hLast : last series history.flatten (series c) = some c) :
    ∃ row ∈ held history.flatten, restored row = c := by
  have hRange (t : ℤ) : 1000000 * (t / 1000000) ≤ t ∧ t ≤ 1000000 * (t / 1000000 + 1) := by omega
  obtain ⟨candles, hQuery, hLists⟩ := h c.symbol c.timeframe (1000000 * (c.openedAt / 1000000))
    (1000000 * (c.openedAt / 1000000 + 1)) (ClickHouse.bound_second _) (ClickHouse.bound_second _)
  rw [queryRange_eq] at hQuery
  obtain rfl := Except.ok.inj hQuery
  have hExact := hLists.exact c.exchange c.openedAt
  have hKey : (c.symbol.code, c.timeframe, c.exchange, c.openedAt) = series c := rfl
  rw [if_pos (hRange c.openedAt), hKey, hLast] at hExact
  have hMem : c ∈ [c] := List.mem_singleton_self c
  rw [← Option.toList_some, ← hExact] at hMem
  obtain ⟨row, hRow, hRestored⟩ := List.mem_map.mp (List.mem_filter.mp hMem).1
  exact ⟨row, (mem_found.mp hRow).1, hRestored⟩

theorem Returned.plain (h : Returned history) : Plain history.flatten := by
  -- A candle that was appended stands for the last one of its series.
  have hShown {c : Candle} (hc : c ∈ history.flatten) : ∃ row ∈ held history.flatten,
      series (restored row) = series c := by
    obtain ⟨lastOne, hLast⟩ := exists_last series hc
    have hSeries := (last_eq_some hLast).2
    rw [← hSeries] at hLast
    obtain ⟨row, hRow, hRestored⟩ := h.shown hLast
    exact ⟨row, hRow, by rw [hRestored, hSeries]⟩
  constructor
  case time =>
    intro c hc
    obtain ⟨row, -, hSeries⟩ := hShown hc
    have hTime : ClickHouse.time row.openedAt = c.openedAt := congrArg (·.2.2.2) hSeries
    rw [← hTime, ClickHouse.time_time]
  case exchange =>
    intro a ha b hb hCode hTimeframe hOpened
    obtain ⟨row, hRow, hSeries⟩ := hShown ha
    obtain ⟨row', hRow', hSeries'⟩ := hShown hb
    have hSlot : slot row = slot row' := by
      have hSame (x y : Candle) (hxy : series (restored x) = series y) :
          x.symbol.code = y.symbol.code ∧ x.timeframe = y.timeframe ∧
            ClickHouse.time x.openedAt = y.openedAt :=
        ⟨congrArg (·.1) hxy, congrArg (·.2.1) hxy, congrArg (·.2.2.2) hxy⟩
      obtain ⟨hCodeA, hTimeframeA, hTimeA⟩ := hSame row a hSeries
      obtain ⟨hCodeB, hTimeframeB, hTimeB⟩ := hSame row' b hSeries'
      refine slot_eq.mpr ⟨?_, ?_, ?_⟩
      · rw [hCodeA, hCodeB, hCode]
      · rw [hTimeframeA, hTimeframeB, hTimeframe]
      · rw [hTimeA, hTimeB, hOpened]
    have hRows : row = row' := by
      have hA := mem_held.mp hRow
      have hB := mem_held.mp hRow'
      rw [hSlot] at hA
      exact Option.some.inj (hA.symm.trans hB)
    have hExchange : row.exchange = a.exchange := congrArg (·.2.2.1) hSeries
    have hExchange' : row'.exchange = b.exchange := congrArg (·.2.2.1) hSeries'
    rw [← hExchange, ← hExchange', hRows]
  case symbol =>
    intro c hLast
    obtain ⟨row, -, rfl⟩ := h.shown hLast
    rfl

theorem Plain.returned (h : Plain history.flatten) : Returned history := by
  intro symbol timeframe start stop hStart hStop
  refine ⟨_, queryRange_eq history symbol timeframe start stop, ?_⟩
  have hMap : (found history.flatten symbol timeframe start stop).map restored =
      found history.flatten symbol timeframe start stop := by
    have hSame : ∀ c ∈ found history.flatten symbol timeframe start stop, restored c = id c :=
      fun c hc => h.restored_eq (mem_found.mp hc).1
    rw [List.map_congr_left hSame, List.map_id]
  rw [hMap]
  constructor
  case ascending =>
    refine (pairwise_found _ _ _ _ _).imp_of_mem fun {a b} ha hb hOrder => ?_
    rw [h.time_held (mem_found.mp ha).1, h.time_held (mem_found.mp hb).1] at hOrder
    exact hOrder
  case exact =>
    exact h.filter_found symbol timeframe hStart hStop

theorem Plain.separate (h : Plain history.flatten) : Separate history := by
  rintro before batch after exchange rfl hBatch symbol timeframe start stop
  refine ⟨_, _, queryRange_eq before symbol timeframe start stop,
    queryRange_eq (before ++ [batch]) symbol timeframe start stop, ?_⟩
  intro c hc hOther
  obtain ⟨row, hRow, rfl⟩ := List.mem_map.mp hc
  obtain ⟨hHeld, hSelected⟩ := mem_found.mp hRow
  refine List.mem_map.mpr ⟨row, mem_found.mpr ⟨?_, hSelected⟩, rfl⟩
  rw [List.flatten_append]
  refine mem_final_append version_of_slot hHeld fun added hAdded hSlot => hOther ?_
  -- A candle of the batch with the key of the row would have its exchange.
  obtain ⟨hCode, hTimeframe, hTime⟩ := slot_eq.mp hSlot
  have hAddedMem : added ∈ (before ++ batch :: after).flatten := by
    simp at hAdded
    simp [hAdded]
  have hRowMem : row ∈ (before ++ batch :: after).flatten := by
    rw [List.flatten_append]
    exact List.mem_append_left _ (mem_of_mem_final hHeld)
  rw [h.time _ hAddedMem, h.time _ hRowMem] at hTime
  have hExchange := h.exchange _ hAddedMem _ hRowMem hCode hTimeframe hTime
  rw [← hBatch added (by simpa using hAdded), hExchange]
  rfl

/-- **What is appended is returned.** -/
theorem candles_returned_iff :
    Returned history ∧ Separate history ↔ Plain history.flatten :=
  ⟨fun h => h.1.plain, fun h => ⟨h.returned, h.separate⟩⟩

end ClickHouseCandleStore

namespace Replaced

open ClickHouseCandleStore

local instance : PyText := asciiText

local instance : AsciiUpper := ⟨fun _ _ => rfl⟩

/-- A column of whole milliseconds, and parameters of whole seconds. -/
local instance : ClickHouse where
  time t := t / 1000 * 1000
  time_time t := by
    have hExact (n : ℤ) : n / 1000 * 1000 / 1000 * 1000 = n / 1000 * 1000 := by omega
    exact hExact t
  bound t := t / 1000000 * 1000000
  bound_second s := by
    have hExact (n : ℤ) : 1000000 * n / 1000000 * 1000000 = 1000000 * n := by omega
    exact hExact s

theorem pair_formed : codePattern "BTC/USDT" = true := by decide

def candle (price : ℚ) (exchange : String) : Candle where
  symbol := { code := "BTC/USDT", formed := pair_formed }
  timeframe := .d1
  openedAt := 0
  «open» := price
  high := price
  low := price
  close := price
  volume := 1
  exchange := exchange

/-- The daily candle of one exchange, and then that of another. -/
def history : List (List Candle) := [[candle 1 "yahoo"], [candle 2 "binance"]]

/-- The store returns the second candle only: the call that appended it removed the first. -/
theorem not_returned : (¬∀ history, Returned history) ∧ ¬∀ history, Separate history := by
  constructor
  · intro h
    obtain ⟨candles, hQuery, hLists⟩ := h history (candle 1 "yahoo").symbol .d1 0 0 rfl rfl
    have hExact := hLists.exact "yahoo" 0
    have hFound : queryRange (appends history) (candle 1 "yahoo").symbol .d1 0 0 =
        .ok [candle 2 "binance"] := by
      decide +kernel
    rw [hFound] at hQuery
    obtain rfl := Except.ok.inj hQuery
    revert hExact
    decide +kernel
  · intro h
    obtain ⟨candles, candles', hBefore, hAfter, hKept⟩ :=
      h history [[candle 1 "yahoo"]] [candle 2 "binance"] [] "binance" rfl (by decide)
        (candle 1 "yahoo").symbol .d1 0 0
    have hOne : queryRange (appends [[candle 1 "yahoo"]]) (candle 1 "yahoo").symbol .d1 0 0 =
        .ok [candle 1 "yahoo"] := by
      decide +kernel
    have hOther : queryRange (appends history) (candle 1 "yahoo").symbol .d1 0 0 =
        .ok [candle 2 "binance"] := by
      decide +kernel
    rw [hOne] at hBefore
    obtain rfl := Except.ok.inj hBefore
    have hHistory : [[candle 1 "yahoo"]] ++ [[candle 2 "binance"]] = history := rfl
    rw [hHistory, hOther] at hAfter
    obtain rfl := Except.ok.inj hAfter
    have hMem := hKept (candle 1 "yahoo") (List.mem_singleton_self _) (by decide)
    revert hMem
    decide +kernel

/-- The candles of one exchange are returned. -/
theorem returned_one : (Returned [[candle 1 "yahoo"], [candle 2 "yahoo"]] ∧
      Separate [[candle 1 "yahoo"], [candle 2 "yahoo"]]) ∧
    Plain [candle 1 "yahoo", candle 2 "yahoo"] := by
  have hPlain : Plain [candle 1 "yahoo", candle 2 "yahoo"] := by
    constructor
    case time => decide
    case exchange => decide
    case symbol =>
      intro c hLast
      have hMem := (last_eq_some hLast).1
      simp only [List.mem_cons, List.not_mem_nil, or_false] at hMem
      rcases hMem with rfl | rfl <;> rfl
  exact ⟨candles_returned_iff.mpr hPlain, hPlain⟩

end Replaced

end TradingAgent.Marketdata
