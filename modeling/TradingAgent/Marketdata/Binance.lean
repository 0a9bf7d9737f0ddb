import Mathlib.Data.List.Sort
import TradingAgent.Marketdata.Payloads

/-!
# The Binance adapter

The candles are fetched through an SDK, and mapped, sorted and freed of repeated seconds inside the
policy.
-/

namespace TradingAgent.Marketdata.Binance

open Rounding Tooling

def provider : String := "binance"

def exchange : String := "binance"

structure BinanceConfig where
  retries : ℤ := 3
  circuitOpenAfter : ℤ := 5
  deriving DecidableEq, Repr

/-! ## Errors -/

/-- The classes of exceptions that the error mapping names. -/
inductive SdkClass
  | rateLimitExceeded
  | authenticationError
  | requestTimeout
  | networkError
  | exchangeNotAvailable
  | onMaintenance
  | ddosProtection
  | exchangeError
  | badRequest
  | badSymbol
  | invalidOrder
  | argumentsRequired
  | valueError
  deriving DecidableEq, Repr

/-- An exception of the SDK: the classes of which it is an instance, `str(exc)` and `repr(exc)`. -/
structure SdkError where
  classes : List SdkClass
  text : String
  repr : String
  deriving DecidableEq, Repr

/-- `_is_any`. -/
def SdkError.isAny (exc : SdkError) (types : List SdkClass) : Bool :=
  types.any fun cls => cls ∈ exc.classes

def domainError (cls : ErrorClass) (message : String) : DomainError where
  cls := cls
  message := message
  provider := some provider

def handleBinanceError (exc : SdkError) : DomainError :=
  if exc.isAny [.rateLimitExceeded] then
    domainError .rateLimitedError "binance rate limit exceeded"
  else if exc.isAny [.authenticationError] then
    domainError .authenticationError "binance authentication failed"
  else if exc.isAny [.requestTimeout] then
    domainError .providerTimeoutError "binance request timed out"
  else if exc.isAny [.networkError, .exchangeNotAvailable, .onMaintenance, .ddosProtection,
      .exchangeError] then
    domainError .providerUnavailableError "binance unavailable"
  else if exc.isAny [.badRequest, .badSymbol, .invalidOrder, .argumentsRequired] then
    domainError .providerValidationError ("binance rejected request: " ++ exc.text)
  else if exc.isAny [.valueError] then
    domainError .malformedDataError ("binance payload error: " ++ exc.text)
  else
    domainError .providerUnavailableError ("unexpected binance error: " ++ exc.repr)

/-! ## Rows -/

structure RawKline where
  openTimeMs : ℤ
  «open» : String
  high : String
  low : String
  close : String
  volume : String
  deriving DecidableEq, Repr

/-- `rowText` is the text of what is raised for a row. -/
class BinanceModels where
  rowText : RawKline → String

section

variable [JsonLibrary] [IntText] [PyText] [BinanceModels]

omit [PyText] [BinanceModels] in
/-- `RawKline.of`. -/
def RawKline.of : List Json → Except Fault RawKline
  | openTime :: opening :: high :: low :: close :: volume :: _ => do
    return { openTimeMs := ← toInt openTime, «open» := opening.text, high := high.text,
             low := low.text, close := close.text, volume := volume.text }
  | _ => .error .valueError

def klineCandle (kline : RawKline) (symbol : Symbol) (timeframe : Timeframe) (exchange : String) :
    Except Fault Candle := do
  let openedAt ← instantOf (double (double kline.openTimeMs / 1000))
  let opening ← decimalOf kline.open
  let high ← decimalOf kline.high
  let low ← decimalOf kline.low
  let close ← decimalOf kline.close
  let volume ← decimalOf kline.volume
  candleOf symbol timeframe openedAt opening high low close volume exchange

def toCandle (kline : RawKline) (symbol : Symbol) (timeframe : Timeframe) (exchange : String) :
    Except Raised Candle :=
  (klineCandle kline symbol timeframe exchange).mapError
    (handle [.validationError, .arithmeticError]
      (domainError .malformedDataError
        ("binance kline normalization failed: " ++ BinanceModels.rowText kline)))

/-! ## The adapter -/

variable [Moments]

omit [JsonLibrary] [IntText] [PyText] [BinanceModels] in
/-- The candles of seconds that have not been seen. -/
def unseen : List ℤ → List Candle → List Candle
  | _, [] => []
  | seen, c :: candles =>
    let ts := Moments.timestamp c.openedAt
    if ts ∈ seen then unseen seen candles else c :: unseen (ts :: seen) candles

omit [JsonLibrary] [IntText] [PyText] [BinanceModels] in
/-- `_sort_unique`. -/
def sortUnique (candles : List Candle) : List Candle :=
  unseen [] (candles.insertionSort fun a b => a.openedAt ≤ b.openedAt)

/-- The arguments of `fetch_ohlcv`. -/
structure OhlcvRequest where
  symbolCode : String
  timeframe : String
  sinceMs : Option ℤ
  limit : ℤ
  deriving DecidableEq, Repr

/-- What the SDK returns for a request, or raises. -/
abbrev Sdk := OhlcvRequest → Except SdkError (List (List Json))

def fetchAndMapOhlcv (sdk : Sdk) (c : FetchCandles) (request : OhlcvRequest) :
    Except Raised (List Candle) := do
  let rows ← (sdk request).mapError fun exc => .domain (handleBinanceError exc)
  let candles ← (rows.filter fun row => !row.isEmpty).mapM fun row => do
    toCandle (← (RawKline.of row).mapError stray) c.symbol c.timeframe exchange
  return sortUnique candles

/-- The request of a call. -/
def requestOf (c : FetchCandles) : OhlcvRequest where
  symbolCode := PyText.upper c.symbol.code
  timeframe := c.timeframe.value
  sinceMs := c.since.map milliseconds
  limit := c.limit

/-- `BinanceMarketDataSource`, over the SDK. -/
def source (config : BinanceConfig) (sdk : Sdk) :
    Source FetchCandles (List Candle) (List Candle) where
  policy :=
    { retry := some { retries := config.retries }
      breaker := some { failureThreshold := config.circuitOpenAfter }
      limiter := true }
  refused _ := none
  fetch c := fetchAndMapOhlcv sdk c (requestOf c)
  map _ candles := .ok candles

end

end TradingAgent.Marketdata.Binance
