import TradingAgent.Marketdata.Binance
import TradingAgent.Marketdata.Kraken
import TradingAgent.Marketdata.TwelveData

/-!
# Tickers

The mappings of the four vendors make a `Ticker` of a payload. Each converts its fields inside or
outside a handler of its own, and the adapters call them outside of the policy. `tickers_iff` says
for which payloads a mapping raises nothing but `MalformedDataError`.
-/

namespace TradingAgent.Marketdata

open Rounding Tooling

structure Ticker where
  symbol : Symbol
  timestamp : Datetime
  bid : ℚ
  ask : ℚ
  last : ℚ
  volume24h : ℚ
  exchange : String := ""
  deriving DecidableEq, Repr

structure TwelveData.TwelveQuote where
  close : String := ""
  volume : Option String := none
  timestamp : Option ℤ := none
  deriving DecidableEq, Repr

/-- The texts of what is raised for a payload. -/
class TickerTexts where
  quote : TwelveData.TwelveQuote → String
  entry : List (String × Json) → String
  raw : List (String × Json) → String

/-- `Ticker(...)`, which refuses the numbers that are not finite. -/
def tickerOf (symbol : Symbol) (timestamp : Datetime) (bid ask last volume : Decimal)
    (exchange : String) : Except Fault Ticker :=
  match finite? bid, finite? ask, finite? last, finite? volume with
  | some bid, some ask, some last, some volume =>
    .ok
      { symbol := symbol, timestamp := timestamp, bid := bid, ask := ask, last := last,
        volume24h := volume, exchange := exchange }
  | _, _, _, _ => .error .validationError

/-! ## Yahoo -/

namespace Yahoo

/-- The price of a chart. -/
def lastPrice (chart : YahooChartResult) : Option Decimal :=
  match chart.meta.regularMarketPrice with
  | some price => some price
  | none => chart.meta.chartPreviousClose

/-- The time of a chart. A time of zero is none. -/
def observedAt (chart : YahooChartResult) : Option ℤ :=
  match chart.meta.regularMarketTime with
  | some 0 => (chart.timestamp.getD []).getLast?
  | some time => some time
  | none => (chart.timestamp.getD []).getLast?

def toTicker (chart : YahooChartResult) (symbol : Symbol) (exchange : String) :
    Except Raised Ticker :=
  match lastPrice chart, observedAt chart with
  | some price, some observedAt => Except.mapError stray do
    let timestamp ← instant observedAt
    tickerOf symbol timestamp price price price (.finite 0) exchange
  | _, _ => .error (malformed "yahoo chart carried no tradable price")

end Yahoo

/-! ## Twelve Data -/

namespace TwelveData

section

variable [PyText]

/-- `datetime.fromtimestamp(quote.timestamp, UTC) if quote.timestamp else observed_at`. -/
def timestampOf (quote : TwelveQuote) (observedAt : Datetime) : Except Fault Datetime :=
  match quote.timestamp with
  | some time => if time ≠ 0 then instant time else .ok observedAt
  | none => .ok observedAt

/-- `Decimal(quote.volume) if quote.volume else Decimal(0)`. -/
def volumeOf (quote : TwelveQuote) : Except Fault Decimal :=
  match quote.volume with
  | some volume => if volume ≠ "" then decimalOf volume else .ok (.finite 0)
  | none => .ok (.finite 0)

def toTicker [TickerTexts] (quote : TwelveQuote) (symbol : Symbol) (observedAt : Datetime)
    (exchange : String) : Except Raised Ticker :=
  if quote.close = "" then .error (malformed "twelve data quote carried no close price")
  else
    match PyText.decimal quote.close with
    | none => .error (.domain
        { cls := .malformedDataError
          message := "twelve data quote normalization failed: " ++ TickerTexts.quote quote
          provider := some exchange })
    | some price => Except.mapError stray do
      let timestamp ← timestampOf quote observedAt
      let volume ← volumeOf quote
      tickerOf symbol timestamp price price price volume exchange

end

end TwelveData

/-! ## Kraken -/

namespace Kraken

variable [JsonLibrary] [PyText]

/-- `Decimal(str(entry[key][index]))`. -/
def number (entry : List (String × Json)) (key : String) (index : ℕ) : Except Fault Decimal := do
  toDecimal (← item (← valueAt entry key) index)

def entryTicker (entry : List (String × Json)) (symbol : Symbol) (observedAt : Datetime)
    (exchange : String) : Except Fault Ticker := do
  let bid ← number entry "b" 0
  let ask ← number entry "a" 0
  let last ← number entry "c" 0
  let volume ← number entry "v" 1
  tickerOf symbol observedAt bid ask last volume exchange

def toTicker [TickerTexts] (entry : List (String × Json)) (symbol : Symbol)
    (observedAt : Datetime) (exchange : String) : Except Raised Ticker :=
  (entryTicker entry symbol observedAt exchange).mapError
    (handle [.validationError, .arithmeticError, .keyError, .indexError, .typeError]
      { cls := .malformedDataError
        message := "kraken ticker normalization failed: " ++ TickerTexts.entry entry
        provider := some exchange })

end Kraken

/-! ## Binance -/

namespace Binance

variable [JsonLibrary] [PyText] [IntText]

/-- `Decimal(str(raw.get(key, "0")))`. -/
def number (raw : List (String × Json)) (key : String) : Except Fault Decimal :=
  toDecimal ((raw.lookup key).getD (.str "0"))

/-- `datetime.fromtimestamp(int(value) / 1000.0, UTC)`. -/
def closeTime (value : Json) : Except Fault Datetime := do
  instantOf (double (double (← toInt value) / 1000))

def rawTicker (raw : List (String × Json)) (symbol : Symbol) (exchange : String) :
    Except Fault Ticker := do
  let timestamp ← closeTime (← valueAt raw "closeTime")
  let bid ← number raw "bidPrice"
  let ask ← number raw "askPrice"
  let last ← number raw "lastPrice"
  let volume ← number raw "quoteVolume"
  tickerOf symbol timestamp bid ask last volume exchange

def toTicker [TickerTexts] (raw : List (String × Json)) (symbol : Symbol) (exchange : String) :
    Except Raised Ticker :=
  (rawTicker raw symbol exchange).mapError
    (handle [.validationError, .arithmeticError, .keyError]
      (domainError .malformedDataError
        ("binance ticker normalization failed: " ++ TickerTexts.raw raw)))

end Binance

/-! ## The failure mode -/

/-- A ticker, or `MalformedDataError`. -/
def Normalized (out : Except Raised Ticker) : Prop :=
  (∃ ticker, out = .ok ticker) ∨
    ∃ exc, out = .error (.domain exc) ∧ exc.cls = .malformedDataError

/-- Every exception is of a kind. -/
def Raises {A : Type} (P : Fault → Prop) (x : Except Fault A) : Prop :=
  ∀ fault, x = .error fault → P fault

/-- An `except` clause catches the exception. -/
def Caught (classes : List ExceptClass) (fault : Fault) : Prop := classes.any fault.isA = true

theorem not_normalized {out : Except Raised Ticker} {name : String}
    (h : out = .error (.exception name)) : ¬Normalized out := by
  rintro (⟨ticker, hOk⟩ | ⟨exc, hError, -⟩)
  · rw [h] at hOk
    cases hOk
  · rw [h] at hError
    cases hError

/-- Without a handler. -/
theorem normalized_stray_iff {x : Except Fault Ticker} :
    Normalized (x.mapError stray) ↔ ∃ ticker, x = .ok ticker := by
  cases x with
  | ok ticker => exact iff_of_true (.inl ⟨ticker, rfl⟩) ⟨ticker, rfl⟩
  | error fault => exact iff_of_false (not_normalized rfl) (by simp)

/-- With a handler. -/
theorem normalized_handle_iff {x : Except Fault Ticker} {classes : List ExceptClass}
    {exc : DomainError} (hClass : exc.cls = .malformedDataError) :
    Normalized (x.mapError (handle classes exc)) ↔ Raises (Caught classes) x := by
  cases x with
  | ok ticker => exact iff_of_true (.inl ⟨ticker, rfl⟩) fun _ hError => by cases hError
  | error fault =>
    by_cases hCaught : classes.any fault.isA = true
    · refine iff_of_true (.inr ⟨exc, ?_, hClass⟩) fun _ hError => ?_
      · exact congrArg Except.error (if_pos hCaught)
      · cases hError
        exact hCaught
    · have hStray : (Except.error fault : Except Fault Ticker).mapError (handle classes exc) =
          .error (stray fault) := congrArg Except.error (if_neg hCaught)
      exact iff_of_false (not_normalized hStray) fun hAll => hCaught (hAll fault rfl)

/-! ## Exceptions of a sequence -/

section

variable {A B : Type} {P : Fault → Prop} {x : Except Fault A} {f : A → Except Fault B}

theorem raises_bind_iff (hRest : ∀ a, Raises P (f a)) : Raises P (x >>= f) ↔ Raises P x := by
  cases x with
  | ok a => exact iff_of_true (hRest a) fun _ hError => by cases hError
  | error fault =>
    constructor
    · rintro h _ ⟨⟩
      exact h fault rfl
    · rintro h _ ⟨⟩
      exact h fault rfl

theorem raises_bind (hFirst : Raises P x) (hRest : ∀ a, Raises P (f a)) : Raises P (x >>= f) :=
  (raises_bind_iff hRest).mpr hFirst

theorem exists_ok_bind : (∃ b, x >>= f = .ok b) ↔ ∃ a, x = .ok a ∧ ∃ b, f a = .ok b := by
  simp only [bind_eq_ok]
  constructor
  · rintro ⟨b, a, hFirst, hRest⟩
    exact ⟨a, hFirst, b, hRest⟩
  · rintro ⟨a, hFirst, b, hRest⟩
    exact ⟨b, a, hFirst, hRest⟩

end

theorem tickerOf_ok_iff {symbol : Symbol} {timestamp : Datetime} {bid ask last volume : Decimal}
    {exchange : String} :
    (∃ ticker, tickerOf symbol timestamp bid ask last volume exchange = .ok ticker) ↔
      (finite? bid).isSome ∧ (finite? ask).isSome ∧ (finite? last).isSome ∧
        (finite? volume).isSome := by
  unfold tickerOf
  cases finite? bid <;> cases finite? ask <;> cases finite? last <;> cases finite? volume <;> simp

theorem raises_tickerOf {P : Fault → Prop} (hP : P .validationError) (symbol : Symbol)
    (timestamp : Datetime) (bid ask last volume : Decimal) (exchange : String) :
    Raises P (tickerOf symbol timestamp bid ask last volume exchange) := by
  intro fault hError
  unfold tickerOf at hError
  split at hError
  · cases hError
  · cases hError
    exact hP

theorem raises_decimalOf [PyText] {P : Fault → Prop} (hP : P .invalidOperation) (text : String) :
    Raises P (decimalOf text) := by
  intro fault hError
  unfold decimalOf at hError
  split at hError
  · cases hError
  · cases hError
    exact hP

theorem raises_valueAt {P : Fault → Prop} (hP : P .keyError) (fields : List (String × Json))
    (key : String) : Raises P (valueAt fields key) := by
  intro fault hError
  unfold valueAt at hError
  split at hError
  · cases hError
  · cases hError
    exact hP

theorem raises_item {P : Fault → Prop} (hType : P .typeError) (hKey : P .keyError)
    (hIndex : P .indexError) (value : Json) (index : ℕ) : Raises P (item value index) := by
  have hItems : Raises P (items value) := by
    intro fault hError
    cases value with
    | str s => cases hError
    | arr items => cases hError
    | obj fields => cases hError
    | null => cases hError; exact hType
    | bool b => cases hError; exact hType
    | int n => cases hError; exact hType
    | float q => cases hError; exact hType
  unfold item
  split
  · intro fault hError
    cases hError
    exact hKey
  · refine raises_bind hItems fun values fault hError => ?_
    split at hError
    · cases hError
    · cases hError
      exact hIndex

/-! ## The four mappings -/

/-- The price is finite and the time is known, if there are a price and a time. -/
def Yahoo.Priced (chart : YahooChartResult) : Prop :=
  ∀ price, lastPrice chart = some price → ∀ time, observedAt chart = some time →
    (finite? price).isSome ∧ Dated time

theorem Yahoo.normalized_iff (chart : YahooChartResult) (symbol : Symbol) (exchange : String) :
    Normalized (toTicker chart symbol exchange) ↔ Priced chart := by
  unfold toTicker Priced
  cases lastPrice chart with
  | none => exact iff_of_true (.inr ⟨_, rfl, rfl⟩) fun _ hNone => by cases hNone
  | some price =>
    cases observedAt chart with
    | none => exact iff_of_true (.inr ⟨_, rfl, rfl⟩) fun _ _ _ hNone => by cases hNone
    | some time =>
      dsimp only
      rw [normalized_stray_iff, exists_ok_bind]
      simp only [tickerOf_ok_iff, finite?, Option.isSome_some, and_true, and_self,
        exists_and_right, instant_ok_iff, Option.some.injEq, forall_eq']
      exact and_comm

namespace TwelveData

/-- The close is finite, the time is known, and the volume is a finite decimal. -/
structure Quoted [PyText] (quote : TwelveQuote) (price : Decimal) : Prop where
  price : (finite? price).isSome
  timestamp : ∀ time, quote.timestamp = some time → time ≠ 0 → Dated time
  volume : ∀ volume, quote.volume = some volume → volume ≠ "" →
    ∃ q, PyText.decimal volume = some (.finite q)

theorem timestampOf_ok_iff {quote : TwelveQuote} {observedAt : Datetime} :
    (∃ moment, timestampOf quote observedAt = .ok moment) ↔
      ∀ time, quote.timestamp = some time → time ≠ 0 → Dated time := by
  unfold timestampOf
  cases quote.timestamp with
  | none => exact iff_of_true ⟨_, rfl⟩ fun _ hNone => by cases hNone
  | some time =>
    by_cases hZero : time = 0
    · simp [hZero]
    · simp [hZero, instant_ok_iff]

theorem volumeOf_ok_iff [PyText] {quote : TwelveQuote} :
    (∃ volume, volumeOf quote = .ok volume ∧ (finite? volume).isSome) ↔
      ∀ volume, quote.volume = some volume → volume ≠ "" →
        ∃ q, PyText.decimal volume = some (.finite q) := by
  unfold volumeOf
  cases quote.volume with
  | none => exact iff_of_true ⟨_, rfl, rfl⟩ fun _ hNone => by cases hNone
  | some text =>
    by_cases hEmpty : text = ""
    · simp [hEmpty, finite?]
    · cases hText : PyText.decimal text with
      | none => simp [hEmpty, decimalOf, hText]
      | some volume => cases volume <;> simp [hEmpty, decimalOf, hText, finite?]

theorem normalized_iff [PyText] [TickerTexts] (quote : TwelveQuote) (symbol : Symbol)
    (observedAt : Datetime) (exchange : String) :
    Normalized (toTicker quote symbol observedAt exchange) ↔
      (quote.close ≠ "" → ∀ price, PyText.decimal quote.close = some price →
        Quoted quote price) := by
  unfold toTicker
  by_cases hClose : quote.close = ""
  · rw [if_pos hClose]
    exact iff_of_true (.inr ⟨_, rfl, rfl⟩) fun hNot => absurd hClose hNot
  · rw [if_neg hClose]
    cases PyText.decimal quote.close with
    | none => exact iff_of_true (.inr ⟨_, rfl, rfl⟩) fun _ _ hNone => by cases hNone
    | some price =>
      dsimp only
      rw [normalized_stray_iff]
      simp only [exists_ok_bind, tickerOf_ok_iff]
      constructor
      · rintro ⟨moment, hMoment, volume, hVolume, hPrice, -, -, hFinite⟩ - _ ⟨⟩
        exact ⟨hPrice, timestampOf_ok_iff.mp ⟨moment, hMoment⟩,
          volumeOf_ok_iff.mp ⟨volume, hVolume, hFinite⟩⟩
      · intro h
        have hQuoted := h hClose price rfl
        obtain ⟨moment, hMoment⟩ := timestampOf_ok_iff.mpr hQuoted.timestamp
        obtain ⟨volume, hVolume, hFinite⟩ := volumeOf_ok_iff.mpr hQuoted.volume
        exact ⟨moment, hMoment, volume, hVolume, hQuoted.price, hQuoted.price, hQuoted.price,
          hFinite⟩

end TwelveData

namespace Kraken

variable [JsonLibrary] [PyText] [TickerTexts]

/-- The handler catches whatever the conversions raise. -/
theorem normalized (entry : List (String × Json)) (symbol : Symbol) (observedAt : Datetime)
    (exchange : String) : Normalized (toTicker entry symbol observedAt exchange) := by
  unfold toTicker
  rw [normalized_handle_iff rfl]
  have hNumber (key : String) (index : ℕ) :
      Raises (Caught [.validationError, .arithmeticError, .keyError, .indexError, .typeError])
        (number entry key index) := by
    have hKey : Caught [.validationError, .arithmeticError, .keyError, .indexError, .typeError]
        .keyError := rfl
    refine raises_bind (raises_valueAt hKey _ _) fun value => ?_
    refine raises_bind (raises_item (by rfl) hKey (by rfl) _ _) fun value => ?_
    exact raises_decimalOf (by rfl) _
  refine raises_bind (hNumber "b" 0) fun bid => ?_
  refine raises_bind (hNumber "a" 0) fun ask => ?_
  refine raises_bind (hNumber "c" 0) fun last => ?_
  refine raises_bind (hNumber "v" 1) fun volume => ?_
  exact raises_tickerOf (by rfl) _ _ _ _ _ _ _

end Kraken

namespace Binance

variable [JsonLibrary] [PyText] [IntText] [TickerTexts]

/-- The second of a time in milliseconds. -/
def second (n : ℤ) : ℤ := microseconds (double (double n / 1000)) / 10 ^ 6

omit [JsonLibrary] [PyText] [TickerTexts] in
/-- `int` reads a time in milliseconds that `fromtimestamp` knows or that does not have 64 bits, or
the value is infinite. -/
def Timely (value : Json) : Prop :=
  match toInt value with
  | .ok n => Dated (second n) ∨ ¬Wide (second n)
  | .error fault => fault = .overflowError

omit [JsonLibrary] [PyText] [TickerTexts] in
theorem toInt_cases (value : Json) : (∃ n, toInt value = .ok n) ∨
    toInt value = .error .overflowError ∨ toInt value = .error .typeError ∨
      toInt value = .error .valueError := by
  cases value with
  | null => exact .inr (.inr (.inl rfl))
  | bool b => exact .inl ⟨_, rfl⟩
  | int n => exact .inl ⟨_, rfl⟩
  | float x =>
    cases x with
    | finite q => exact .inl ⟨_, rfl⟩
    | infinity negative => exact .inr (.inl rfl)
    | nan => exact .inr (.inr (.inr rfl))
  | str s =>
    cases hRead : IntText.int s with
    | none => exact .inr (.inr (.inr (by rw [toInt, hRead])))
    | some n => exact .inl ⟨n, by rw [toInt, hRead]⟩
  | arr items => exact .inr (.inr (.inl rfl))
  | obj fields => exact .inr (.inr (.inl rfl))

omit [JsonLibrary] [PyText] [TickerTexts] in
theorem raises_closeTime_iff (value : Json) :
    Raises (Caught [.validationError, .arithmeticError, .keyError]) (closeTime value) ↔
      Timely value := by
  unfold closeTime Timely
  rcases toInt_cases value with ⟨n, hInt⟩ | hInt | hInt | hInt
  · rw [hInt]
    show Raises _ ((instant (second n)).map _) ↔ Dated (second n) ∨ ¬Wide (second n)
    rcases instant_cases (second n) with
      ⟨hDated, hInstant⟩ | ⟨hNot, hWide, hInstant | hInstant⟩ | ⟨hNot, hWide, hInstant⟩
    · rw [hInstant]
      exact iff_of_true (fun _ hError => by cases hError) (.inl hDated)
    · rw [hInstant]
      exact iff_of_false (fun h => absurd (h _ rfl) Bool.false_ne_true) (by simp [hNot, hWide])
    · rw [hInstant]
      exact iff_of_false (fun h => absurd (h _ rfl) Bool.false_ne_true) (by simp [hNot, hWide])
    · rw [hInstant]
      exact iff_of_true (by rintro _ ⟨⟩; rfl) (.inr hWide)
  · rw [hInt]
    exact iff_of_true (by rintro _ ⟨⟩; rfl) rfl
  · rw [hInt]
    exact iff_of_false (fun h => absurd (h _ rfl) Bool.false_ne_true) (by simp)
  · rw [hInt]
    exact iff_of_false (fun h => absurd (h _ rfl) Bool.false_ne_true) (by simp)

theorem normalized_iff (raw : List (String × Json)) (symbol : Symbol) (exchange : String) :
    Normalized (toTicker raw symbol exchange) ↔
      ∀ value, raw.lookup "closeTime" = some value → Timely value := by
  unfold toTicker
  rw [normalized_handle_iff rfl]
  have hNumber (key : String) :
      Raises (Caught [.validationError, .arithmeticError, .keyError]) (number raw key) :=
    raises_decimalOf (by rfl) _
  unfold rawTicker valueAt
  cases raw.lookup "closeTime" with
  | none => exact iff_of_true (by rintro _ ⟨⟩; rfl) fun _ hNone => by cases hNone
  | some value =>
    have hRest (timestamp : Datetime) :
        Raises (Caught [.validationError, .arithmeticError, .keyError]) (do
          let bid ← number raw "bidPrice"
          let ask ← number raw "askPrice"
          let last ← number raw "lastPrice"
          let volume ← number raw "quoteVolume"
          tickerOf symbol timestamp bid ask last volume exchange) := by
      refine raises_bind (hNumber _) fun bid => ?_
      refine raises_bind (hNumber _) fun ask => ?_
      refine raises_bind (hNumber _) fun last => ?_
      refine raises_bind (hNumber _) fun volume => ?_
      exact raises_tickerOf (by rfl) _ _ _ _ _ _ _
    show Raises _ (closeTime value >>= _) ↔ _
    rw [raises_bind_iff hRest, raises_closeTime_iff]
    simp only [Option.some.injEq, forall_eq']

end Binance

/-- **The failure modes of the mappings.** -/
theorem tickers_iff [JsonLibrary] [PyText] [IntText] [TickerTexts] :
    (∀ (chart : Yahoo.YahooChartResult) (symbol : Symbol) (exchange : String),
      Normalized (Yahoo.toTicker chart symbol exchange) ↔ Yahoo.Priced chart) ∧
    (∀ (quote : TwelveData.TwelveQuote) (symbol : Symbol) (observedAt : Datetime)
      (exchange : String),
      Normalized (TwelveData.toTicker quote symbol observedAt exchange) ↔
        (quote.close ≠ "" → ∀ price, PyText.decimal quote.close = some price →
          TwelveData.Quoted quote price)) ∧
    (∀ (entry : List (String × Json)) (symbol : Symbol) (observedAt : Datetime)
      (exchange : String), Normalized (Kraken.toTicker entry symbol observedAt exchange)) ∧
    ∀ (raw : List (String × Json)) (symbol : Symbol) (exchange : String),
      Normalized (Binance.toTicker raw symbol exchange) ↔
        ∀ value, raw.lookup "closeTime" = some value → Binance.Timely value :=
  ⟨Yahoo.normalized_iff, TwelveData.normalized_iff, Kraken.normalized, Binance.normalized_iff⟩

namespace Stray

/-! A price that is no number, a volume that is none, and a time that is null. -/

def chart : Yahoo.YahooChartResult where
  «meta» := { regularMarketPrice := some .nan, regularMarketTime := some 1710003600 }

def quote : TwelveData.TwelveQuote where
  close := "64000.0"
  volume := some "n/a"

def raw : List (String × Json) := [("closeTime", .null), ("lastPrice", .str "64000.0")]

local instance : JsonLibrary where
  loads _ := none
  repr _ := "None"

local instance : PyText := asciiText

local instance : IntText where
  int s := (digitsAscii s.toList).map Nat.cast

local instance : TickerTexts where
  quote _ := "Input should be a finite number"
  entry _ := "Input should be a finite number"
  raw _ := "Input should be a finite number"

theorem not_always_normalized :
    Yahoo.toTicker chart btcUsd "yahoo" = .error (.exception "ValidationError") ∧
    TwelveData.toTicker quote btcUsd 0 "twelvedata" = .error (.exception "InvalidOperation") ∧
    Binance.toTicker raw btcUsd "binance" = .error (.exception "TypeError") ∧
    ¬Normalized (Yahoo.toTicker chart btcUsd "yahoo") ∧
    ¬Normalized (TwelveData.toTicker quote btcUsd 0 "twelvedata") ∧
    ¬Normalized (Binance.toTicker raw btcUsd "binance") := by
  have hYahoo : Yahoo.toTicker chart btcUsd "yahoo" = .error (.exception "ValidationError") := rfl
  have hTwelve : TwelveData.toTicker quote btcUsd 0 "twelvedata" =
      .error (.exception "InvalidOperation") := rfl
  have hBinance : Binance.toTicker raw btcUsd "binance" = .error (.exception "TypeError") := rfl
  exact ⟨hYahoo, hTwelve, hBinance, not_normalized hYahoo, not_normalized hTwelve,
    not_normalized hBinance⟩

end Stray

end TradingAgent.Marketdata
