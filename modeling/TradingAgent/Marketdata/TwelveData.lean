import TradingAgent.Marketdata.Source

/-!
# The Twelve Data adapter
-/

namespace TradingAgent.Marketdata.TwelveData

open Tooling

def provider : String := "twelvedata"

def exchange : String := "twelvedata"

structure TwelveDataConfig where
  apiKey : String
  retries : ℤ := 3
  circuitOpenAfter : ℤ := 4
  deriving DecidableEq, Repr

/-! ## Payloads -/

structure TwelveValue where
  datetime : String
  «open» : String
  high : String
  low : String
  close : String
  volume : Option String := none
  deriving DecidableEq, Repr

/-- `series` is the list `values` of `TwelveTimeSeries.model_validate(payload)`, or the text of
the `ValidationError`; `valueText` is the text of what is raised for a value. -/
class TwelveModels where
  series : Json → Except String (List TwelveValue)
  valueText : TwelveValue → String

/-! ## Errors -/

/-- An instance of `int`. -/
inductive Code
  | int (n : ℤ)
  | bool (b : Bool)
  deriving DecidableEq, Repr

namespace Code

def value : Code → ℤ
  | int n => n
  | bool b => if b then 1 else 0

def text : Code → String
  | int n => toString n
  | bool b => if b then "True" else "False"

/-- `code if isinstance(code, int) else None`. -/
def of : Json → Option Code
  | .int n => some (int n)
  | .bool b => some (bool b)
  | _ => none

end Code

def handleTwelvedataError (code : Option Code) (message : String) : DomainError :=
  let detail := if message ≠ "" then message else "twelve data request failed"
  match code with
  | some code =>
    if code.value = 401 ∨ code.value = 403 then
      { cls := .authenticationError, message := detail, provider := some provider }
    else if code.value = 429 then
      { cls := .rateLimitedError, message := detail, provider := some provider }
    else if 500 ≤ code.value then
      { cls := .providerUnavailableError
        message := "twelve data error " ++ code.text ++ ": " ++ detail
        provider := some provider }
    else
      { cls := .providerValidationError
        message := "twelve data error " ++ code.text ++ ": " ++ detail
        provider := some provider }
  | none => { cls := .providerUnavailableError, message := detail, provider := some provider }

def malformed (message : String) : Raised :=
  .domain { cls := .malformedDataError, message := message, provider := some provider }

section

variable [JsonLibrary]

/-- The fields of a payload that reports an error. -/
def errorFields : Json → Option (List (String × Json))
  | .obj fields =>
    match fields.lookup "status" with
    | some (.str status) => if status = "error" then some fields else none
    | _ => none
  | _ => none

/-- `payload.get(key)`. -/
def field (fields : List (String × Json)) (key : String) : Json := (fields.lookup key).getD .null

/-- `str(payload.get("message") or "")`. -/
def errorMessage (fields : List (String × Json)) : String :=
  if (field fields "message").truthy then (field fields "message").text else ""

def raiseIfError (payload : Json) : Except Raised Unit :=
  match errorFields payload with
  | some fields =>
    .error (.domain (handleTwelvedataError (Code.of (field fields "code")) (errorMessage fields)))
  | none => .ok ()

/-! ## The client -/

def seriesRequest (config : TwelveDataConfig) (symbolCode interval : String) (outputsize : ℤ)
    (startDate : Option String) : Request where
  path := "/time_series"
  params :=
    [("symbol", .str symbolCode), ("interval", .str interval), ("outputsize", .int outputsize),
      ("apikey", .str config.apiKey)] ++
      match startDate with
      | some date => if date ≠ "" then [("start_date", .str date)] else []
      | none => []

/-- The vendor rejects the request, by the status or by the code in the payload. -/
def rejects : Exchange → Bool
  | .response status text =>
    if 400 ≤ status then status ∈ requestCodes
    else
      match (JsonLibrary.loads text).bind errorFields with
      | none => false
      | some fields =>
        match Code.of (field fields "code") with
        | some code => code.value ∈ requestCodes.map Nat.cast
        | none => false
  | _ => false

omit [JsonLibrary] in
theorem handleTwelvedataError_cls {code : Code} (h : code.value ∈ requestCodes.map Nat.cast)
    (message : String) :
    (handleTwelvedataError (some code) message).cls = .providerValidationError := by
  unfold handleTwelvedataError
  simp only [requestCodes, List.map_cons, List.map_nil, List.mem_cons, List.not_mem_nil,
    or_false] at h
  generalize hValue : code.value = n at h
  rcases h with rfl | rfl | rfl <;> simp [hValue]

variable [TwelveModels]

/-- The rest of `fetch_time_series`, once the exchange is over. -/
def seriesOf (exchanged : Exchange) : Except Raised (List TwelveValue) := do
  let payload ← getJson provider exchanged
  raiseIfError payload
  match TwelveModels.series payload with
  | .ok values => .ok values
  | .error text =>
    .error (malformed ("twelve data payload did not match the expected schema: " ++ text))

/-- A rejected request is a validation error. -/
theorem rejects_validation {exchanged : Exchange} (h : rejects exchanged = true) :
    ∃ exc, seriesOf exchanged = .error (.domain exc) ∧ exc.cls = .providerValidationError := by
  match exchanged, h with
  | .response status text, h =>
    unfold rejects at h
    unfold seriesOf getJson
    by_cases hStatus : 400 ≤ status
    · simp only [if_pos hStatus, decide_eq_true_eq] at h ⊢
      exact ⟨mapHttpError status provider (truncated text), rfl, mapHttpError_cls h _ _⟩
    · simp only [if_neg hStatus] at h ⊢
      cases hLoads : JsonLibrary.loads text with
      | none => simp [hLoads] at h
      | some payload =>
        simp only [hLoads, Option.bind_some] at h
        cases hFields : errorFields payload with
        | none => simp [hFields] at h
        | some fields =>
          simp only [hFields] at h
          cases hCode : Code.of (field fields "code") with
          | none => simp [hCode] at h
          | some code =>
            simp only [hCode, decide_eq_true_eq] at h
            refine ⟨handleTwelvedataError (some code) (errorMessage fields), ?_,
              handleTwelvedataError_cls h _⟩
            have hRaise : raiseIfError payload =
                .error (.domain (handleTwelvedataError (some code) (errorMessage fields))) := by
              unfold raiseIfError
              rw [hFields, ← hCode]
            show (raiseIfError payload >>= _) = _
            rw [hRaise]
            rfl

/-! ## Mapping -/

variable [PyText] [Moments]

def parseDatetime (raw : String) : Except Raised Datetime :=
  match Moments.strptime (strip raw) "%Y-%m-%d %H:%M:%S" with
  | some moment => .ok moment
  | none =>
    match Moments.strptime (strip raw) "%Y-%m-%d" with
    | some moment => .ok moment
    | none =>
      .error (malformed ("unparseable twelve data timestamp: " ++ JsonLibrary.repr (.str raw)))

/-- `Decimal(text)`, in a field that must be finite. -/
def number (text : String) : Option ℚ := (PyText.decimal text).bind finite?

def valueToCandle (symbol : Symbol) (timeframe : Timeframe) (exchange : String)
    (value : TwelveValue) : Except Raised Candle := do
  let openedAt ← parseDatetime value.datetime
  let volume :=
    match value.volume with
    | some volume => if volume ≠ "" then number volume else some 0
    | none => some 0
  match number value.open, number value.high, number value.low, number value.close, volume with
  | some opening, some high, some low, some close, some volume =>
    .ok
      { symbol := symbol, timeframe := timeframe, openedAt := openedAt, «open» := opening,
        high := high, low := low, close := close, volume := volume, exchange := exchange }
  | _, _, _, _, _ => .error (.domain
      { cls := .malformedDataError
        message := "twelve data candle normalization failed: " ++ TwelveModels.valueText value
        provider := some exchange })

def toCandles (values : List TwelveValue) (symbol : Symbol) (timeframe : Timeframe)
    (exchange : String) : Except Raised (List Candle) := do
  match ← values.reverse.mapM (valueToCandle symbol timeframe exchange) with
  | [] => .error (malformed "twelve data returned no usable candles")
  | candles => .ok candles

/-! ## The adapter -/

def intervals : Timeframe → Option String
  | .m1 => some "1min"
  | .m5 => some "5min"
  | .h1 => some "1h"
  | .h4 => some "4h"
  | .d1 => some "1day"

def maxOutput : ℤ := 5000

def stamp (moment : Datetime) (timeframe : Timeframe) : String :=
  if timeframe = .d1 then Moments.strftime moment "%Y-%m-%d"
  else Moments.strftime moment "%Y-%m-%d %H:%M:%S"

/-- `twelve data does not serve … candles`. -/
def unsupported (timeframe : Timeframe) : DomainError where
  cls := .unsupportedCapabilityError
  message := "twelve data does not serve " ++ timeframe.value ++ " candles"
  provider := some exchange

/-- The request of a call. -/
def requestOf (config : TwelveDataConfig) (c : FetchCandles) : Request :=
  seriesRequest config c.symbol.code ((intervals c.timeframe).getD "") (min c.limit maxOutput)
    (c.since.map fun since => stamp since c.timeframe)

/-- `TwelveDataMarketDataSource`, over the exchanges with the vendor. -/
def source (config : TwelveDataConfig) (vendor : Request → Exchange) :
    Source FetchCandles (List TwelveValue) (List Candle) where
  policy :=
    { retry := some { retries := config.retries }
      breaker := some { failureThreshold := config.circuitOpenAfter }
      limiter := true }
  refused c := if intervals c.timeframe = none then some (unsupported c.timeframe) else none
  fetch c := seriesOf (vendor (requestOf config c))
  map c values := lastOf c.limit <$> toCandles values c.symbol c.timeframe exchange

/-- A call for which the vendor rejects the request. -/
def rejected (config : TwelveDataConfig) (vendor : Request → Exchange) (c : FetchCandles) : Bool :=
  rejects (vendor (requestOf config c))

theorem not_served {config : TwelveDataConfig} {vendor : Request → Exchange} {c : FetchCandles}
    (h : rejected config vendor c = true) : (source config vendor).served c = false := by
  obtain ⟨exc, hFetch, -⟩ := rejects_validation h
  exact Source.served_of_error hFetch

end

end TradingAgent.Marketdata.TwelveData
