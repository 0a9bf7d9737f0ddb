import TradingAgent.Marketdata.Source

/-!
# The Yahoo adapter
-/

namespace TradingAgent.Marketdata.Yahoo

open Tooling

def provider : String := "yahoo"

def exchange : String := "yahoo"

structure YahooConfig where
  retries : ℤ := 3
  circuitOpenAfter : ℤ := 5
  deriving DecidableEq, Repr

/-! ## Payloads -/

structure YahooQuoteSeries where
  «open» : List (Option Decimal) := []
  high : List (Option Decimal) := []
  low : List (Option Decimal) := []
  close : List (Option Decimal) := []
  volume : List (Option Decimal) := []
  deriving DecidableEq, Repr

structure YahooMeta where
  regularMarketPrice : Option Decimal := none
  chartPreviousClose : Option Decimal := none
  regularMarketTime : Option ℤ := none
  deriving DecidableEq, Repr

structure YahooChartResult where
  «meta» : YahooMeta := {}
  timestamp : Option (List ℤ) := none
  quote : List YahooQuoteSeries := []
  deriving DecidableEq, Repr

structure YahooChart where
  result : Option (List YahooChartResult) := none
  error : Option (List (String × Json)) := none
  deriving Repr

/-- The entries of a chart at one index. -/
structure Row where
  timestamp : ℤ
  «open» : Option Decimal
  high : Option Decimal
  low : Option Decimal
  close : Option Decimal
  volume : Option Decimal
  deriving DecidableEq, Repr

/-- `chart` is the chart of `YahooEnvelope.model_validate(payload)`, or the text of the
`ValidationError`; `rowText` is the text of what is raised for a row. -/
class YahooModels where
  chart : Json → Except String YahooChart
  rowText : Row → String

/-! ## Errors -/

def authCodes : List String := ["401", "403"]

def requestCodes : List String := ["400", "404", "422"]

section

variable [JsonLibrary]

/-- `error.get(key)`. -/
def field (error : List (String × Json)) (key : String) : Json := (error.lookup key).getD .null

/-- `str(error.get("code", "")).strip()`. -/
def errorCode (error : List (String × Json)) : String :=
  strip ((error.lookup "code").getD (.str "")).text

def handleYahooError (error : List (String × Json)) : DomainError :=
  let code := errorCode error
  let description :=
    if (field error "description").truthy then (field error "description").text
    else "yahoo request failed"
  if code ∈ authCodes then
    { cls := .authenticationError, message := description, provider := some provider }
  else if code = "429" then
    { cls := .rateLimitedError, message := description, provider := some provider }
  else if code ∈ requestCodes then
    { cls := .providerValidationError, message := description, provider := some provider }
  else
    { cls := .providerUnavailableError
      message := "yahoo error " ++ (if code ≠ "" then code else "?") ++ ": " ++ description
      provider := some provider }

def malformed (message : String) : Raised :=
  .domain { cls := .malformedDataError, message := message, provider := some provider }

/-! ## The client -/

/-- `BTC/USDT` is asked for as `BTC-USD`. -/
def quoteAlias (quote : String) : String :=
  if quote = "USDT" ∨ quote = "USDC" ∨ quote = "BUSD" then "USD" else quote

def toYahooSymbol (symbol : Symbol) : String :=
  let base := symbol.code.toList.takeWhile (· ≠ '/')
  let quote := (symbol.code.toList.dropWhile (· ≠ '/')).tail
  String.ofList base ++ "-" ++ quoteAlias (String.ofList quote)

def chartRequest (symbolCode interval : String) (period : Option (ℤ × ℤ)) : Request where
  path := "/v8/finance/chart/" ++ symbolCode
  params :=
    [("interval", .str interval), ("includePrePost", .str "false")] ++
      match period with
      | some (period1, period2) => [("period1", .int period1), ("period2", .int period2)]
      | none => [("range", .str "1mo")]

variable [YahooModels]

/-- What `fetch_chart` makes of a payload. -/
def resultOf (payload : Json) : Except Raised YahooChartResult :=
  match YahooModels.chart payload with
  | .error text => .error (malformed ("yahoo payload did not match the expected schema: " ++ text))
  | .ok chart =>
    match chart.error with
    | some (entry :: rest) => .error (.domain (handleYahooError (entry :: rest)))
    | _ =>
      match chart.result with
      | some (result :: _) => .ok result
      | _ => .error (malformed "yahoo chart returned no result")

/-- The rest of `fetch_chart`, once the exchange is over. -/
def chartOf (exchanged : Exchange) : Except Raised YahooChartResult :=
  getJson provider exchanged >>= resultOf

/-- The payload says, by its code, that the request is rejected. -/
def rejectsIn (payload : Json) : Bool :=
  match YahooModels.chart payload with
  | .ok { error := some (entry :: rest), .. } => errorCode (entry :: rest) ∈ requestCodes
  | _ => false

/-- The vendor rejects the request, by the status or in the payload. -/
def rejects : Exchange → Bool
  | .response status text =>
    if 400 ≤ status then status ∈ Tooling.requestCodes
    else
      match JsonLibrary.loads text with
      | none => false
      | some payload => rejectsIn payload
  | _ => false

omit [YahooModels] in
theorem handleYahooError_cls {error : List (String × Json)} (h : errorCode error ∈ requestCodes) :
    (handleYahooError error).cls = .providerValidationError := by
  have hNotAuth : errorCode error ∉ authCodes := by
    intro hAuth
    unfold requestCodes at h
    unfold authCodes at hAuth
    generalize errorCode error = code at h hAuth
    simp only [List.mem_cons, List.not_mem_nil, or_false] at h hAuth
    rcases h with rfl | rfl | rfl <;> simp at hAuth
  have hNotLimited : errorCode error ≠ "429" := by
    intro hLimited
    rw [hLimited] at h
    simp [requestCodes] at h
  unfold handleYahooError
  simp only [if_neg hNotAuth, if_neg hNotLimited, if_pos h]

theorem rejectsIn_validation {payload : Json} (h : rejectsIn payload = true) :
    ∃ exc, resultOf payload = .error (.domain exc) ∧ exc.cls = .providerValidationError := by
  unfold rejectsIn at h
  unfold resultOf
  cases hChart : YahooModels.chart payload with
  | error text => simp [hChart] at h
  | ok chart =>
    obtain ⟨result, error⟩ := chart
    rw [hChart] at h
    cases error with
    | none => cases h
    | some error =>
      cases error with
      | nil => cases h
      | cons entry rest =>
        have hCode : errorCode (entry :: rest) ∈ requestCodes := by simpa using h
        exact ⟨handleYahooError (entry :: rest), rfl, handleYahooError_cls hCode⟩

/-- A rejected request is a validation error. -/
theorem rejects_validation {exchanged : Exchange} (h : rejects exchanged = true) :
    ∃ exc, chartOf exchanged = .error (.domain exc) ∧ exc.cls = .providerValidationError := by
  match exchanged, h with
  | .response status text, h =>
    unfold rejects at h
    unfold chartOf getJson
    by_cases hStatus : 400 ≤ status
    · simp only [if_pos hStatus, decide_eq_true_eq] at h ⊢
      exact ⟨mapHttpError status provider (truncated text), rfl, mapHttpError_cls h _ _⟩
    · simp only [if_neg hStatus] at h ⊢
      cases hLoads : JsonLibrary.loads text with
      | none => simp [hLoads] at h
      | some payload =>
        simp only [hLoads] at h
        exact rejectsIn_validation h

/-! ## Mapping -/

/-- `datetime.fromtimestamp(timestamp, UTC)`: years 1 to 9999, of the years that the platform
knows, of the seconds that fit into 64 bits. -/
def fromtimestamp (timestamp : ℤ) : Except Exn Datetime :=
  if -62135596800 ≤ timestamp ∧ timestamp ≤ 253402300799 then .ok (timestamp * 1000000)
  else if -67768040609740800 ≤ timestamp ∧ timestamp ≤ 67768036191676799 then
    .error (.valueError "year is out of range")
  else if -2 ^ 63 ≤ timestamp ∧ timestamp < 2 ^ 63 then .error (.other "OSError")
  else .error (.other "OverflowError")

/-- The handler of a row: an `OSError` is none of the exceptions that it catches. -/
def rowError (row : Row) (exchange : String) : Exn → Raised
  | .other "OSError" => .exception "OSError"
  | _ => .domain
    { cls := .malformedDataError
      message := "yahoo candle normalization failed: " ++ YahooModels.rowText row
      provider := some exchange }

def rowToCandle (row : Row) (symbol : Symbol) (timeframe : Timeframe) (exchange : String) :
    Except Raised (Option Candle) :=
  match row.open, row.high, row.low, row.close with
  | some opening, some high, some low, some close =>
    match fromtimestamp row.timestamp with
    | .error e => .error (rowError row exchange e)
    | .ok openedAt =>
      match finite? opening, finite? high, finite? low, finite? close,
        finite? (row.volume.getD (.finite 0)) with
      | some opening, some high, some low, some close, some volume =>
        .ok (some
          { symbol := symbol, timeframe := timeframe, openedAt := openedAt, «open» := opening,
            high := high, low := low, close := close, volume := volume, exchange := exchange })
      | _, _, _, _, _ => .error (rowError row exchange (.valueError "finite_number"))
  | _, _, _, _ => .ok none

/-- The series of a chart, index by index, as long as every series goes on. -/
def rows (timestamps : List ℤ) (series : YahooQuoteSeries) : List Row :=
  (timestamps.zip (series.open.zip (series.high.zip (series.low.zip
    (series.close.zip series.volume))))).map fun (ts, o, h, low, close, volume) =>
      { timestamp := ts, «open» := o, high := h, low := low, close := close, volume := volume }

def toCandles (chart : YahooChartResult) (symbol : Symbol) (timeframe : Timeframe)
    (exchange : String) : Except Raised (List Candle) :=
  match chart.quote with
  | [] => .error (malformed "yahoo chart carried no quote series")
  | series :: _ => do
    let candles ← (rows (chart.timestamp.getD []) series).mapM fun row =>
      rowToCandle row symbol timeframe exchange
    match candles.filterMap id with
    | [] => .error (malformed "yahoo chart returned no usable candles")
    | candles => .ok candles

/-! ## The adapter -/

def intervals : Timeframe → Option String
  | .m1 => some "1m"
  | .m5 => some "5m"
  | .h1 => some "1h"
  | .h4 => none
  | .d1 => some "1d"

/-- `yahoo does not serve … candles`. -/
def unsupported (timeframe : Timeframe) : DomainError where
  cls := .unsupportedCapabilityError
  message := "yahoo does not serve " ++ timeframe.value ++ " candles"
  provider := some exchange

variable [Moments]

def window (since : Option Datetime) (now : Datetime) : Option (ℤ × ℤ) :=
  since.map fun since => (Moments.timestamp since, Moments.timestamp now)

/-- The request of a call. -/
def requestOf (c : FetchCandles) : Request :=
  chartRequest (toYahooSymbol c.symbol) ((intervals c.timeframe).getD "") (window c.since c.now)

/-- `YahooMarketDataSource`, over the exchanges with the vendor. -/
def source (config : YahooConfig) (vendor : Request → Exchange) :
    Source FetchCandles YahooChartResult (List Candle) where
  policy :=
    { retry := some { retries := config.retries }
      breaker := some { failureThreshold := config.circuitOpenAfter }
      limiter := true }
  refused c := if intervals c.timeframe = none then some (unsupported c.timeframe) else none
  fetch c := chartOf (vendor (requestOf c))
  map c chart := lastOf c.limit <$> toCandles chart c.symbol c.timeframe exchange

/-- A call for which the vendor rejects the request. -/
def rejected (vendor : Request → Exchange) (c : FetchCandles) : Bool :=
  rejects (vendor (requestOf c))

theorem not_served {config : YahooConfig} {vendor : Request → Exchange} {c : FetchCandles}
    (h : rejected vendor c = true) : (source config vendor).served c = false := by
  obtain ⟨exc, hFetch, -⟩ := rejects_validation h
  exact Source.served_of_error hFetch

end

end TradingAgent.Marketdata.Yahoo
