import TradingAgent.Marketdata.Limits
import TradingAgent.Marketdata.Tickers

/-!
# What leaves the adapters

The rest of the program handles domain errors. Whatever a vendor answers, the policy of an
adapter raises no exception of another kind (`run_contained`); what the mapping raises after the
policy has returned is another matter.

The mapping of Binance runs under the policy, and that of Twelve Data catches what it can raise.
The mappings of Yahoo and of Kraken let some exceptions through, and `candles_contained` says for
which payloads.
-/

namespace TradingAgent.Tooling

open Coroutine

variable {A B T : Type}

/-- No exception but a domain error is raised, unless the caller itself is interrupted. -/
def Contained (out : Except Raised A) : Prop := ∀ name, out ≠ .error (.exception name)

theorem contained_ok (a : A) : Contained (.ok a) := fun _ h => nomatch h

theorem contained_domain (exc : DomainError) : Contained (.error (.domain exc) : Except Raised A) :=
  fun _ h => nomatch h

theorem contained_bind_iff {x : Except Raised A} {f : A → Except Raised B} :
    Contained (x >>= f) ↔ Contained x ∧ ∀ a, x = .ok a → Contained (f a) := by
  cases x with
  | ok a =>
    constructor
    · intro h
      refine ⟨contained_ok a, ?_⟩
      rintro _ ⟨⟩
      exact h
    · rintro ⟨-, h⟩
      exact h a rfl
  | error e =>
    constructor
    · intro h
      refine ⟨fun name hEq => h name ?_, fun a hEq => nomatch hEq⟩
      cases hEq
      rfl
    · rintro ⟨h, -⟩ name hEq
      cases hEq
      exact h name rfl

theorem contained_map_iff {x : Except Raised A} {f : A → B} :
    Contained (f <$> x) ↔ Contained x := by
  cases x with
  | ok a => exact iff_of_true (contained_ok _) (contained_ok _)
  | error e => exact ⟨fun h name hEq => h name (by cases hEq; rfl),
      fun h name hEq => h name (by cases hEq; rfl)⟩

/-- A wait ends, or the caller is interrupted. -/
def Awaited (r : Except Raised Unit) : Prop := r = .ok () ∨ ∃ name, r = .error (.interrupt name)

variable {policy : Policy} {retry : RetryPolicy} {breaker : CircuitBreaker}

/-- The rounds of a retry policy raise domain errors only. -/
theorem round_contained {n : ℕ} {ended : Except Raised T} {out : Except Raised (Option T)}
    (h : Rounded Awaited retry n ended out) : Contained out := by
  intro name hOut
  cases h with
  | returned result => cases hOut
  | raised exc => cases hOut
  | interrupted exc _ _ e hWait =>
    rcases hWait with hOk | ⟨name', hInterrupt⟩
    · cases hOk
    · cases hInterrupt
      cases hOut
  | again => cases hOut
  | unexpected => cases hOut
  | broke => cases hOut

/-- **The policy contains.** However the wrapped function answers, nothing but domain errors
leaves a policy with a retry policy and a breaker. -/
theorem run_contained (hRetry : policy.retry = some retry)
    (hBreaker : policy.breaker = some breaker) {answers : Except Raised T → Prop}
    {f : Fields} {made : List (Except Raised T)} {out : Except Raised T}
    {w : Fields × List (Except Raised T)}
    (h : LoopRuns (outside answers Awaited) policy.run (f, made) policy.run.first out w) :
    Contained out := by
  have hWaits : ∀ r, Awaited r → Waits r := by
    rintro r (rfl | ⟨name, rfl⟩) exc hEq
    · cases hEq
    · cases hEq
  rw [retry_rounds_iff hRetry] at h
  generalize hFrom : ({ f with attempts := 0 }, made) = from' at h
  clear hFrom
  generalize hBody : retry.round policy.core = m at h
  induction h with
  | returned hRound => exact contained_ok _
  | @raised w w' m e hRound =>
    subst hBody
    obtain ⟨more, ended, -, -, -, hRounded⟩ := round_cases hWaits hBreaker hRound
    intro name hOut
    cases hOut
    exact round_contained hRounded name rfl
  | again hRound hRest ih => exact ih rfl

end TradingAgent.Tooling

namespace TradingAgent.Marketdata

open Collecting Coroutine Tooling

section

variable {C P R : Type}

/-- A call of an adapter, of which each attempt is answered as the client likes: what the policy
has returned, and the outcome. -/
inductive Source.Ends (source : Source C P R) (f : Fields) (c : C) :
    Option P → Except Raised R → Fields → Prop
  | refused (exc : DomainError) (hRefused : source.refused c = some exc) :
    Ends source f c none (.error (.domain exc)) f
  | failed {e : Raised} {answers : Except Raised P → Prop} {made : List (Except Raised P)}
      {f' : Fields} (hAdmitted : source.refused c = none)
      (hRun : LoopRuns (outside answers Awaited) source.policy.run (f, [])
        source.policy.run.first (.error e) (f', made)) :
    Ends source f c none (.error e) f'
  | mapped {payload : P} {answers : Except Raised P → Prop} {made : List (Except Raised P)}
      {f' : Fields} (hAdmitted : source.refused c = none)
      (hRun : LoopRuns (outside answers Awaited) source.policy.run (f, [])
        source.policy.run.first (.ok payload) (f', made)) :
    Ends source f c (some payload) (source.map c payload) f'

/-- What leaves an adapter is what leaves its mapping. -/
theorem Source.Ends.contained_iff {source : Source C P R} {retry : RetryPolicy}
    {breaker : CircuitBreaker} {f f' : Fields} {c : C} {payload : Option P} {out : Except Raised R}
    (hRetry : source.policy.retry = some retry) (hBreaker : source.policy.breaker = some breaker)
    (h : source.Ends f c payload out f') :
    Contained out ↔ ∀ p, payload = some p → Contained (source.map c p) := by
  cases h with
  | refused exc => exact iff_of_true (contained_domain exc) fun p h => nomatch h
  | failed hAdmitted hRun =>
    refine iff_of_true (fun name hEq => ?_) fun p h => nomatch h
    cases hEq
    exact run_contained hRetry hBreaker hRun name rfl
  | mapped hAdmitted hRun =>
    constructor
    · rintro h p ⟨⟩
      exact h
    · exact fun h => h _ rfl

end

theorem mapM_contained_iff {A B : Type} {f : A → Except Raised B} {xs : List A} :
    Contained (xs.mapM f) ↔ ∀ before x after, xs = before ++ x :: after →
      (∀ y ∈ before, ∃ b, f y = .ok b) → Contained (f x) := by
  constructor
  · intro h before x after hSplit hOk name hError
    exact h name (mapM_eq_error_iff.mpr ⟨before, x, after, hSplit, hOk, hError⟩)
  · intro h name hError
    obtain ⟨before, x, after, hSplit, hOk, hRaises⟩ := mapM_eq_error_iff.mp hError
    exact h before x after hSplit hOk name hRaises

/-- Of 64 bits, but of a year that the platform does not know: `fromtimestamp` raises
`OSError`. -/
def Unknown (timestamp : ℤ) : Prop :=
  Wide timestamp ∧ ¬(-67768040609740800 ≤ timestamp ∧ timestamp ≤ 67768036191676799)

/-! ## Twelve Data -/

namespace TwelveData

variable [JsonLibrary] [TwelveModels] [PyText] [Moments]

omit [TwelveModels] [PyText] in
theorem parseDatetime_contained (raw : String) : Contained (parseDatetime raw) := by
  unfold parseDatetime
  split
  · exact contained_ok _
  · split
    · exact contained_ok _
    · exact contained_domain _

theorem toCandles_contained (values : List TwelveValue) (symbol : Symbol) (timeframe : Timeframe)
    (exchange : String) : Contained (toCandles values symbol timeframe exchange) := by
  have hValue (value : TwelveValue) :
      Contained (valueToCandle symbol timeframe exchange value) := by
    refine contained_bind_iff.mpr ⟨parseDatetime_contained _, fun openedAt _ => ?_⟩
    dsimp only
    split
    · exact contained_ok _
    · exact contained_domain _
  refine contained_bind_iff.mpr
    ⟨mapM_contained_iff.mpr fun _ value _ _ _ => hValue value, fun candles _ => ?_⟩
  split
  · exact contained_domain _
  · exact contained_ok _

end TwelveData

/-! ## Yahoo -/

namespace Yahoo

variable [YahooModels]

/-- A row with all four prices, at a time that the platform does not know. -/
structure Row.Escapes (row : Row) : Prop where
  «open» : row.open.isSome
  high : row.high.isSome
  low : row.low.isSome
  close : row.close.isSome
  timestamp : Unknown row.timestamp

omit [YahooModels] in
theorem fromtimestamp_eq_osError_iff {timestamp : ℤ} :
    fromtimestamp timestamp = .error (.other "OSError") ↔ Unknown timestamp := by
  unfold fromtimestamp Unknown Wide
  split_ifs with hDated hKnown hWide
  · exact iff_of_false (fun h => nomatch h) (by omega)
  · exact iff_of_false (fun h => by cases h) (by omega)
  · exact iff_of_true rfl ⟨hWide, hKnown⟩
  · refine iff_of_false (fun h => ?_) fun h => hWide h.1
    injection h with hName
    injection hName with hName
    exact absurd hName (by decide)

theorem rowError_contained_iff {A : Type} {row : Row} {exchange : String} {e : Exn} :
    Contained (.error (rowError row exchange e) : Except Raised A) ↔ e ≠ .other "OSError" := by
  unfold rowError
  split
  · exact iff_of_false (fun h => h _ rfl) fun h => h rfl
  · next hOther => exact iff_of_true (contained_domain _) hOther

theorem rowToCandle_contained_iff {row : Row} {symbol : Symbol} {timeframe : Timeframe}
    {exchange : String} :
    Contained (rowToCandle row symbol timeframe exchange) ↔ ¬row.Escapes := by
  unfold rowToCandle
  split
  · next opening high low close hOpen hHigh hLow hClose =>
    have hEscapes : row.Escapes ↔ fromtimestamp row.timestamp = .error (.other "OSError") := by
      rw [fromtimestamp_eq_osError_iff]
      exact ⟨Row.Escapes.timestamp, fun h =>
        ⟨hOpen ▸ rfl, hHigh ▸ rfl, hLow ▸ rfl, hClose ▸ rfl, h⟩⟩
    rw [hEscapes]
    cases fromtimestamp row.timestamp with
    | error e =>
      refine rowError_contained_iff.trans (not_congr ⟨?_, ?_⟩)
      · rintro rfl
        rfl
      · rintro ⟨⟩
        rfl
    | ok openedAt =>
      refine iff_of_true ?_ fun h => nomatch h
      dsimp only
      split
      · exact contained_ok _
      · exact rowError_contained_iff.mpr fun h => nomatch h
  · next hNone =>
    refine iff_of_true (contained_ok _) fun h => ?_
    obtain ⟨opening, hOpen⟩ := Option.isSome_iff_exists.mp h.open
    obtain ⟨high, hHigh⟩ := Option.isSome_iff_exists.mp h.high
    obtain ⟨low, hLow⟩ := Option.isSome_iff_exists.mp h.low
    obtain ⟨close, hClose⟩ := Option.isSome_iff_exists.mp h.close
    exact hNone opening high low close hOpen hHigh hLow hClose

/-- The rows of a chart. -/
def chartRows (chart : YahooChartResult) : List Row :=
  match chart.quote with
  | [] => []
  | series :: _ => rows (chart.timestamp.getD []) series

/-- The first row that is not mapped to a candle or skipped has a time that the platform does
not know. -/
def ChartEscapes (c : FetchCandles) (chart : YahooChartResult) : Prop :=
  ∃ before row after, chartRows chart = before ++ row :: after ∧
    (∀ r ∈ before, ∃ mapped, rowToCandle r c.symbol c.timeframe exchange = .ok mapped) ∧ row.Escapes

theorem toCandles_contained_iff {c : FetchCandles} {chart : YahooChartResult} :
    Contained (toCandles chart c.symbol c.timeframe exchange) ↔ ¬ChartEscapes c chart := by
  unfold toCandles ChartEscapes chartRows
  cases chart.quote with
  | nil =>
    refine iff_of_true (contained_domain _) ?_
    rintro ⟨before, row, after, hNil, -⟩
    exact absurd hNil.symm (List.append_ne_nil_of_right_ne_nil _ (List.cons_ne_nil _ _))
  | cons series more =>
    dsimp only
    rw [contained_bind_iff, mapM_contained_iff, and_iff_left]
    · push Not
      exact forall_congr' fun before => forall_congr' fun row => forall_congr' fun after =>
        imp_congr_right fun _ => imp_congr_right fun _ => rowToCandle_contained_iff
    · intro candles _
      split
      · exact contained_domain _
      · exact contained_ok _

end Yahoo

/-! ## Kraken -/

namespace Kraken

/-- A row that has no length, or that is a mapping of seven keys or more, or at whose time the
platform does not know the year. -/
inductive Escapes [IntText] (row : Json) : Prop
  | unsized (fault : Fault) (hLen : len row = .error fault)
  | mapping (fields : List (String × Json)) (hLong : ohlcColumns ≤ fields.length)
      (hRow : row = .obj fields)
  | unknown (columns : ℕ) (hLen : len row = .ok columns) (hLong : ohlcColumns ≤ columns)
      (value : Json) (time : ℤ) (hValue : item row 0 = .ok value) (hTime : toInt value = .ok time)
      (hUnknown : Unknown time)

/-- What the handler of a row catches. -/
abbrev rowClasses : List ExceptClass :=
  [.validationError, .arithmeticError, .typeError, .valueError]

/-- What leaves a handler. -/
theorem contained_handle_iff {A : Type} {classes : List ExceptClass} {exc : DomainError}
    {x : Except Fault A} :
    Contained (x.mapError (handle classes exc)) ↔ Raises (Caught classes) x := by
  cases x with
  | ok a => exact iff_of_true (contained_ok a) fun fault h => nomatch h
  | error fault =>
    show Contained (.error (if classes.any fault.isA then _ else _)) ↔ _
    split
    · next hCaught =>
      refine iff_of_true (contained_domain exc) ?_
      rintro _ ⟨⟩
      exact hCaught
    · next hNot => exact iff_of_false (fun h => h _ rfl) fun h => hNot (h fault rfl)

theorem raises_bind_ok_iff {A B : Type} {P : Fault → Prop} {x : Except Fault A}
    {f : A → Except Fault B} :
    Raises P (x >>= f) ↔ Raises P x ∧ ∀ a, x = .ok a → Raises P (f a) := by
  cases x with
  | ok a =>
    constructor
    · intro h
      refine ⟨fun fault hEq => (nomatch hEq), ?_⟩
      rintro _ ⟨⟩
      exact h
    · rintro ⟨-, h⟩
      exact h a rfl
  | error e =>
    constructor
    · intro h
      refine ⟨?_, fun a hEq => nomatch hEq⟩
      rintro fault ⟨⟩
      exact h e rfl
    · rintro ⟨h, -⟩ fault ⟨⟩
      exact h e rfl

theorem raises_toInt [IntText] (value : Json) : Raises (Caught rowClasses) (toInt value) := by
  rcases Binance.toInt_cases value with ⟨n, hInt⟩ | hInt | hInt | hInt
  · rw [hInt]
    exact fun fault h => nomatch h
  · rw [hInt]
    rintro fault ⟨⟩
    rfl
  · rw [hInt]
    rintro fault ⟨⟩
    rfl
  · rw [hInt]
    rintro fault ⟨⟩
    rfl

theorem raises_candleOf {symbol : Symbol} {timeframe : Timeframe} {openedAt : Datetime}
    {opening high low close volume : Decimal} {exchange : String} :
    Raises (Caught rowClasses)
      (candleOf symbol timeframe openedAt opening high low close volume exchange) := by
  intro fault h
  unfold candleOf at h
  split at h
  · cases h
  · cases h
    rfl

theorem raises_instant_iff {time : ℤ} :
    Raises (Caught rowClasses) (instant time) ↔ ¬Unknown time := by
  rw [← Yahoo.fromtimestamp_eq_osError_iff]
  unfold instant Yahoo.fromtimestamp
  split_ifs
  · exact iff_of_true (fun fault h => nomatch h) fun h => nomatch h
  · refine iff_of_true ?_ fun h => nomatch h
    rintro fault ⟨⟩
    rfl
  · exact iff_of_false (fun h => Bool.false_ne_true (h _ rfl)) fun h => h rfl
  · refine iff_of_true ?_ fun h => ?_
    · rintro fault ⟨⟩
      rfl
    · injection h with hName
      injection hName with hName
      exact absurd hName (by decide)

/-- A value of a row that is no mapping and long enough is there. -/
theorem item_ok {row : Json} {columns index : ℕ} (hLen : len row = .ok columns)
    (hNot : ¬∃ fields, row = .obj fields) (hIndex : index < columns) :
    ∃ value, item row index = .ok value := by
  obtain ⟨values, hItems, hLength⟩ :
      ∃ values, items row = .ok values ∧ values.length = columns := by
    unfold len at hLen
    cases hItems : items row with
    | error fault =>
      rw [hItems] at hLen
      cases hLen
    | ok values =>
      rw [hItems] at hLen
      exact ⟨values, rfl, Except.ok.inj hLen⟩
  have hShort : index < values.length := hLength ▸ hIndex
  refine ⟨values[index], ?_⟩
  unfold item
  split
  · next fields => exact absurd ⟨fields, rfl⟩ hNot
  · rw [hItems]
    dsimp only [bind, Except.bind]
    rw [List.getElem?_eq_getElem hShort]

variable [JsonLibrary] [KrakenModels] [PyText] [IntText]

omit [KrakenModels] in
/-- What the handler lets through, of a row that is long enough. -/
theorem raises_rowCandle_iff {row : Json} {columns : ℕ} {symbol : Symbol} {timeframe : Timeframe}
    {exchange : String} (hLen : len row = .ok columns) (hLong : ohlcColumns ≤ columns) :
    Raises (Caught rowClasses) (rowCandle row symbol timeframe exchange) ↔ ¬Escapes row := by
  by_cases hMapping : ∃ fields, row = .obj fields
  · obtain ⟨fields, rfl⟩ := hMapping
    refine iff_of_false (fun h => Bool.false_ne_true (h .keyError rfl)) fun h =>
      h (.mapping fields ?_ rfl)
    have hColumns : (fields.map fun field => Json.str field.1).length = columns :=
      Except.ok.inj hLen
    rw [← hColumns, List.length_map] at hLong
    exact hLong
  · have hFirst : 0 < ohlcColumns := by decide
    obtain ⟨value, hValue⟩ := item_ok hLen hMapping (Nat.lt_of_lt_of_le hFirst hLong)
    have hNumber {A : Type} {index : ℕ} {f : Decimal → Except Fault A} (hIndex : index ≤ 6)
        (h : ∀ number, Raises (Caught rowClasses) (f number)) :
        Raises (Caught rowClasses) (item row index >>= fun value => toDecimal value >>= f) := by
      have hColumn : index < columns := Nat.lt_of_lt_of_le (Nat.lt_succ_of_le hIndex) hLong
      obtain ⟨value, hValue⟩ := item_ok hLen hMapping hColumn
      rw [hValue]
      exact raises_bind (x := toDecimal value) (raises_decimalOf (by rfl) _) h
    unfold rowCandle
    rw [hValue]
    show Raises _ (toInt value >>= _) ↔ _
    have hRest (openedAt : Datetime) : Raises (Caught rowClasses) (do
        let opening ← toDecimal (← item row 1)
        let high ← toDecimal (← item row 2)
        let low ← toDecimal (← item row 3)
        let close ← toDecimal (← item row 4)
        let volume ← toDecimal (← item row 6)
        candleOf symbol timeframe openedAt opening high low close volume exchange) :=
      hNumber (by decide) fun opening => hNumber (by decide) fun high =>
        hNumber (by decide) fun low => hNumber (by decide) fun close =>
          hNumber (by decide) fun volume => raises_candleOf
    rw [raises_bind_ok_iff, and_iff_right (raises_toInt value)]
    constructor
    · rintro h (⟨fault, hUnsized⟩ | ⟨fields, -, hRow⟩ |
        ⟨columns', -, -, value', time, hFirst, hTime, hUnknown⟩)
      · rw [hLen] at hUnsized
        cases hUnsized
      · exact hMapping ⟨fields, hRow⟩
      · rw [hValue] at hFirst
        cases hFirst
        exact raises_instant_iff.mp (raises_bind_ok_iff.mp (h time hTime)).1 hUnknown
    · intro h time hTime
      refine raises_bind (raises_instant_iff.mpr fun hUnknown => ?_) hRest
      exact h (.unknown columns hLen hLong value time hValue hTime hUnknown)

theorem rowToCandle_contained_iff {row : Json} {symbol : Symbol} {timeframe : Timeframe}
    {exchange : String} :
    Contained (rowToCandle row symbol timeframe exchange) ↔ ¬Escapes row := by
  unfold rowToCandle
  cases hLen : len row with
  | error fault => exact iff_of_false (fun h => h _ rfl) fun h => h (.unsized fault hLen)
  | ok columns =>
    show Contained (if columns < ohlcColumns then _ else _) ↔ _
    split
    · next hShort =>
      refine iff_of_true (contained_ok _) ?_
      rintro (⟨fault, hUnsized⟩ | ⟨fields, hLong, rfl⟩ | ⟨columns', hColumns, hLong, -⟩)
      · rw [hLen] at hUnsized
        cases hUnsized
      · have hColumns : (fields.map fun field => Json.str field.1).length = columns :=
          Except.ok.inj hLen
        rw [List.length_map] at hColumns
        omega
      · cases hLen.symm.trans hColumns
        omega
    · next hLong =>
      rw [contained_bind_iff, contained_handle_iff]
      exact (and_iff_left fun candle _ => contained_ok (some candle)).trans
        (raises_rowCandle_iff hLen (not_lt.mp hLong))

/-- The rows that are looked up have no entries to go through, or the first row that is not
mapped to a candle or skipped is one that escapes. -/
inductive ResultEscapes (c : FetchCandles) (result : List (String × Json)) : Prop
  | scalar (looked : Json) (fault : Fault) (hRows : rowsOf c result = .ok looked)
      (hItems : items looked = .error fault)
  | row (looked : Json) (before : List Json) (row : Json) (after : List Json)
      (hRows : rowsOf c result = .ok looked) (hItems : items looked = .ok (before ++ row :: after))
      (hBefore : ∀ r ∈ before, ∃ mapped, rowToCandle r c.symbol c.timeframe exchange = .ok mapped)
      (hEscapes : Escapes row)

theorem candlesOf_contained_iff {c : FetchCandles} {result : List (String × Json)} :
    Contained (candlesOf c result) ↔ ¬ResultEscapes c result := by
  rw [candlesOf_eq, contained_map_iff]
  unfold series
  cases hRows : rowsOf c result with
  | error e =>
    have hEntry : ∃ exc, e = .domain exc := by
      unfold rowsOf firstEntry at hRows
      split at hRows
      · cases hRows
      · cases hRows
        exact ⟨_, rfl⟩
    obtain ⟨exc, rfl⟩ := hEntry
    refine iff_of_true (contained_domain exc) ?_
    rintro (⟨_, _, hLooked, -⟩ | ⟨_, _, _, _, hLooked, -⟩)
    · rw [hRows] at hLooked
      cases hLooked
    · rw [hRows] at hLooked
      cases hLooked
  | ok looked =>
    show Contained (toCandles looked c.symbol c.timeframe exchange) ↔ _
    unfold toCandles
    cases hItems : items looked with
    | error fault =>
      exact iff_of_false (fun h => h _ rfl) fun h => h (.scalar looked fault hRows hItems)
    | ok rows =>
      show Contained (rows.mapM _ >>= _) ↔ _
      rw [contained_bind_iff, mapM_contained_iff, and_iff_left]
      · constructor
        · rintro h (⟨looked', fault, hLooked, hScalar⟩ |
            ⟨looked', before, row, after, hLooked, hSplit, hBefore, hEscapes⟩)
          · cases hRows.symm.trans hLooked
            cases hItems.symm.trans hScalar
          · cases hRows.symm.trans hLooked
            cases hItems.symm.trans hSplit
            exact rowToCandle_contained_iff.mp (h before row after rfl hBefore) hEscapes
        · rintro h before row after rfl hBefore
          refine rowToCandle_contained_iff.mpr fun hEscapes => h ?_
          exact .row looked before row after hRows hItems hBefore hEscapes
      · intro candles _
        split
        · exact contained_domain _
        · exact contained_ok _

end Kraken

/-! ## The adapters -/

/-- **What leaves the adapters.** However each attempt ends, `fetch_candles` of the adapters of
Twelve Data and of Binance returns candles or raises a domain error. That of Yahoo does so unless
the first row that has no candle has a time that the platform does not know, and that of Kraken
unless what is looked up has no entries or the first row that has no candle is one that escapes
the handler. -/
theorem candles_contained [JsonLibrary] [PyText] [IntText] [Moments] [Yahoo.YahooModels]
    [TwelveData.TwelveModels] [Kraken.KrakenModels] [Binance.BinanceModels]
    (yahoo : Yahoo.YahooConfig) (twelve : TwelveData.TwelveDataConfig)
    (kraken : Kraken.KrakenConfig) (binance : Binance.BinanceConfig) (vendor : Request → Exchange)
    (sdk : Binance.Sdk) (f f' : Fields) (c : FetchCandles) (out : Except Raised (List Candle)) :
    (∀ candles, (Binance.source binance sdk).Ends f c candles out f' → Contained out) ∧
      (∀ values, (TwelveData.source twelve vendor).Ends f c values out f' → Contained out) ∧
      (∀ chart, (Yahoo.source yahoo vendor).Ends f c chart out f' →
        (Contained out ↔ ∀ p, chart = some p → ¬Yahoo.ChartEscapes c p)) ∧
      ∀ result, (Kraken.source kraken vendor).Ends f c result out f' →
        (Contained out ↔ ∀ p, result = some p → ¬Kraken.ResultEscapes c p) := by
  refine ⟨fun candles h => ?_, fun values h => ?_, fun chart h => ?_, fun result h => ?_⟩
  · exact (h.contained_iff rfl rfl).mpr fun p _ => contained_ok p
  · exact (h.contained_iff rfl rfl).mpr fun p _ =>
      contained_map_iff.mpr (TwelveData.toCandles_contained p _ _ _)
  · exact (h.contained_iff rfl rfl).trans <| forall_congr' fun p => imp_congr_right fun _ =>
      contained_map_iff.trans Yahoo.toCandles_contained_iff
  · exact (h.contained_iff rfl rfl).trans <| forall_congr' fun p => imp_congr_right fun _ =>
      Kraken.candlesOf_contained_iff

namespace Escaping

/-! A chart at a time of which the platform does not know the year. -/

def prices : List (Option Decimal) := [some (.finite 1)]

def chart : Yahoo.YahooChartResult where
  timestamp := some [10 ^ 17]
  quote := [⟨prices, prices, prices, prices, prices⟩]

local instance : JsonLibrary where
  loads _ := none
  repr _ := "None"

local instance : PyText := asciiText

local instance : IntText where
  int s := (digitsAscii s.toList).map Nat.cast

local instance : Moments where
  timestamp moment := moment / 1000000
  strftime _ _ := "1970-01-01"
  strptime _ _ := none

local instance : Yahoo.YahooModels where
  chart _ := .error "chart: Field required"
  rowText _ := "Input should be a finite number"

local instance : TwelveData.TwelveModels where
  series _ := .error "values: Field required"
  valueText _ := "Input should be a finite number"

local instance : Kraken.KrakenModels where
  response _ := .error "result: Field required"
  lower := id
  rowText _ := "Input should be a finite number"

local instance : Binance.BinanceModels where
  rowText _ := "Input should be a finite number"

def vendor (_ : Request) : Exchange := .transport

def call : FetchCandles where
  symbol := btcUsd
  timeframe := .h1
  now := 1710007200000000

theorem chart_escapes : Yahoo.ChartEscapes call chart := by
  refine ⟨[], ⟨10 ^ 17, some (.finite 1), some (.finite 1), some (.finite 1), some (.finite 1),
    some (.finite 1)⟩, [], rfl, fun r hr => absurd hr List.not_mem_nil, ⟨rfl, rfl, rfl, rfl, ?_⟩⟩
  exact ⟨by unfold Wide; decide, by decide⟩

/-- The chart is answered to the first attempt. -/
theorem call_ends : ∃ out f', (Yahoo.source {} vendor).Ends {} call (some chart) out f' := by
  have hAnswer (made : List (Except Raised Yahoo.YahooChartResult)) (op : Tooling.Op) :
      outside (fun _ => True) Awaited made op (always (.ok chart) made op).1
        (always (.ok chart) made op).2 := by
    cases op with
    | acquire => exact ⟨.inl rfl, rfl⟩
    | invoke => exact ⟨trivial, rfl⟩
    | sleep n => exact ⟨.inl rfl, rfl⟩
  have hRuns : Runs (Shared.alone (outside (fun _ => True) Awaited)) ({}, [])
      (Yahoo.source {} vendor).policy.run.first (.ok (some chart))
      ({ attempts := 1 }, [.ok chart]) := runs_drive (Shared.alone_answer hAnswer) _ _
  exact ⟨_, _, .mapped rfl (.returned hRuns)⟩

theorem call_escapes : ∃ out f', (Yahoo.source {} vendor).Ends {} call (some chart) out f' ∧
    ¬Contained out := by
  obtain ⟨out, f', hEnds⟩ := call_ends
  refine ⟨out, f', hEnds, fun hContained => ?_⟩
  obtain ⟨-, -, hYahoo, -⟩ :=
    candles_contained {} { apiKey := "demo" } {} {} vendor (fun _ => .ok []) {} f' call out
  exact (hYahoo _ hEnds).mp hContained chart rfl chart_escapes

end Escaping

end TradingAgent.Marketdata
