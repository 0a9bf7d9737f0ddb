import Mathlib.Data.List.Infix
import TradingAgent.Marketdata.Payloads

/-!
# The Kraken adapter

A result of the vendor maps the name of a pair to its rows, and `last` to a cursor. The rows are
looked up by the requested pair, with the first entry as the default. The default is evaluated
before the lookup, and `first_entry` only finds mappings, as the ticker endpoint sends them: where
the rows are a list it raises, so that no well-formed result yields a candle
(`candles_not_delivered`).
-/

namespace TradingAgent.Marketdata.Kraken

open Coroutine Tooling

def provider : String := "kraken"

def exchange : String := "kraken"

structure KrakenConfig where
  retries : ℤ := 3
  circuitOpenAfter : ℤ := 5
  deriving DecidableEq, Repr

/-! ## Payloads -/

structure KrakenResponse where
  error : List String := []
  result : List (String × Json) := []
  deriving Repr

/-- `response` is `KrakenResponse.model_validate(payload)`, or the text of the
`ValidationError`; `lower` is `str.lower`, and `rowText` the text of what is raised for a row. -/
class KrakenModels where
  response : Json → Except String KrakenResponse
  lower : String → String
  rowText : Json → String

def malformed (message : String) : DomainError where
  cls := .malformedDataError
  message := message
  provider := some provider

/-- `needle in text`. -/
def within (needle text : String) : Bool := needle.toList <:+: text.toList

/-! ## The client -/

/-- The class of an error that is known. -/
def errorClass (lowered : String) : Option ErrorClass :=
  if within "rate limit" lowered || within "too many requests" lowered then
    some .rateLimitedError
  else if within "invalid key" lowered || within "invalid signature" lowered ||
      within "invalid nonce" lowered then
    some .authenticationError
  else if within "invalid arguments" lowered || within "unknown asset pair" lowered ||
      within "invalid asset pair" lowered then
    some .providerValidationError
  else none

def handleKrakenErrors [KrakenModels] (errors : List String) : DomainError :=
  let joined := String.intercalate "; " errors
  let known := errors.findSome? fun error => errorClass (KrakenModels.lower error)
  { cls := known.getD .providerUnavailableError
    message := if joined ≠ "" then joined else "unknown kraken error"
    provider := some provider }

/-- `BTC/USDT` is asked for as `XBTUSDT`. -/
def baseAlias (base : String) : String :=
  if base = "BTC" then "XBT" else if base = "DOGE" then "XDG" else base

def toKrakenPair (symbol : Symbol) : String :=
  let base := symbol.code.toList.takeWhile (· ≠ '/')
  let quote := (symbol.code.toList.dropWhile (· ≠ '/')).tail
  baseAlias (String.ofList base) ++ String.ofList quote

def ohlcRequest (pair : String) (interval : ℤ) (sinceMs : Option ℤ) : Request where
  path := "/0/public/OHLC"
  params :=
    [("pair", .str pair), ("interval", .int interval)] ++
      match sinceMs with
      | some since => [("since", .int since)]
      | none => []

section

variable [JsonLibrary] [KrakenModels]

/-- The rest of `_request`, once the exchange is over. -/
def resultOf (exchanged : Exchange) : Except Raised (List (String × Json)) := do
  let payload ← getJson provider exchanged
  match KrakenModels.response payload with
  | .error text =>
    .error (.domain (malformed ("kraken payload did not match the expected schema: " ++ text)))
  | .ok response =>
    if response.error ≠ [] then .error (.domain (handleKrakenErrors response.error))
    else .ok response.result

/-! ## Mapping -/

/-- `kraken response carried no result entry`. -/
def noEntry : DomainError := malformed "kraken response carried no result entry"

/-- A mapping under another key than the cursor. -/
def entry? : String × Json → Option (List (String × Json))
  | (key, .obj fields) => if key ≠ "last" then some fields else none
  | _ => none

def firstEntry (result : List (String × Json)) : Except Raised (List (String × Json)) :=
  match result.findSome? entry? with
  | some fields => .ok fields
  | none => .error (.domain noEntry)

/-- `time`, `open`, `high`, `low`, `close`, `vwap` and `volume`. -/
def ohlcColumns : ℕ := 7

variable [PyText] [IntText]

/-- The candle of a row. -/
def rowCandle (row : Json) (symbol : Symbol) (timeframe : Timeframe) (exchange : String) :
    Except Fault Candle := do
  let openedAt ← instant (← toInt (← item row 0))
  let opening ← toDecimal (← item row 1)
  let high ← toDecimal (← item row 2)
  let low ← toDecimal (← item row 3)
  let close ← toDecimal (← item row 4)
  let volume ← toDecimal (← item row 6)
  candleOf symbol timeframe openedAt opening high low close volume exchange

/-- What a row is mapped to. A short row is skipped, and its length is taken outside the handler. -/
def rowToCandle (row : Json) (symbol : Symbol) (timeframe : Timeframe) (exchange : String) :
    Except Raised (Option Candle) := do
  let columns ← (len row).mapError stray
  if columns < ohlcColumns then return none
  let candle ← (rowCandle row symbol timeframe exchange).mapError
    (handle [.validationError, .arithmeticError, .typeError, .valueError]
      { cls := .malformedDataError
        message := "kraken OHLC normalization failed: " ++ KrakenModels.rowText row
        provider := some exchange })
  return some candle

def toCandles (rows : Json) (symbol : Symbol) (timeframe : Timeframe) (exchange : String) :
    Except Raised (List Candle) := do
  let rows ← (items rows).mapError stray
  let candles ← rows.mapM fun row => rowToCandle row symbol timeframe exchange
  match candles.filterMap id with
  | [] => .error (.domain (malformed "kraken OHLC returned no usable rows"))
  | candles => .ok candles

/-! ## The adapter -/

def intervals : Timeframe → ℤ
  | .m1 => 1
  | .m5 => 5
  | .h1 => 60
  | .h4 => 240
  | .d1 => 1440

/-- The request of a call. -/
def requestOf (c : FetchCandles) : Request :=
  ohlcRequest (toKrakenPair c.symbol) (intervals c.timeframe) (c.since.map milliseconds)

/-- The rest of `fetch_candles`, once the policy has returned. The default of `get` is evaluated
first. -/
def candlesOf (c : FetchCandles) (result : List (String × Json)) :
    Except Raised (List Candle) := do
  let entry ← firstEntry result
  let rows := (result.lookup (toKrakenPair c.symbol)).getD (.obj entry)
  lastOf c.limit <$> toCandles rows c.symbol c.timeframe exchange

/-- `KrakenMarketDataSource`, over the exchanges with the vendor. -/
def source (config : KrakenConfig) (vendor : Request → Exchange) :
    Source FetchCandles (List (String × Json)) (List Candle) where
  policy :=
    { retry := some { retries := config.retries }
      breaker := some { failureThreshold := config.circuitOpenAfter }
      limiter := true }
  refused _ := none
  fetch c := resultOf (vendor (requestOf c))
  map := candlesOf

/-! ## No candle is delivered -/

/-- A row as the vendor sends it. -/
structure OhlcRow where
  time : ℤ
  «open» : String
  high : String
  low : String
  close : String
  vwap : String
  volume : String
  rest : List Json := []

def OhlcRow.texts (row : OhlcRow) : List String :=
  [row.open, row.high, row.low, row.close, row.vwap, row.volume]

def OhlcRow.json (row : OhlcRow) : Json := .arr (.int row.time :: row.texts.map .str ++ row.rest)

/-- A well-formed result: rows of decimals under the name of a pair, and a cursor. -/
structure WellFormed (result : List (String × Json)) (name : String) (rows : List OhlcRow)
    (cursor : Json) : Prop where
  entries : result.Perm [(name, .arr (rows.map OhlcRow.json)), ("last", cursor)]
  named : name ≠ "last"
  nonempty : rows ≠ []
  decimals : ∀ row ∈ rows, ∀ text ∈ row.texts, ∃ q, PyText.decimal text = some (.finite q)

/-- The candle has the values of the row. -/
structure Shows (c : FetchCandles) (row : OhlcRow) (candle : Candle) : Prop where
  symbol : candle.symbol = c.symbol
  timeframe : candle.timeframe = c.timeframe
  openedAt : instant row.time = .ok candle.openedAt
  «open» : PyText.decimal row.open = some (.finite candle.open)
  high : PyText.decimal row.high = some (.finite candle.high)
  low : PyText.decimal row.low = some (.finite candle.low)
  close : PyText.decimal row.close = some (.finite candle.close)
  volume : PyText.decimal row.volume = some (.finite candle.volume)

/-- One candle for each of the last rows. -/
def Delivers (c : FetchCandles) (rows : List OhlcRow) (out : Except Raised (List Candle)) : Prop :=
  ∃ candles, out = .ok candles ∧ List.Forall₂ (Shows c) (lastOf c.limit rows) candles

omit [JsonLibrary] [KrakenModels] [IntText] in
/-- The rows are a list and no mapping. -/
theorem firstEntry_wellFormed {result : List (String × Json)} {name : String}
    {rows : List OhlcRow} {cursor : Json} (h : WellFormed result name rows cursor) :
    firstEntry result = .error (.domain noEntry) := by
  have hNone : result.findSome? entry? = none := by
    rw [List.findSome?_eq_none_iff]
    intro field hField
    have hCases := h.entries.mem_iff.mp hField
    rw [List.mem_cons, List.mem_singleton] at hCases
    rcases hCases with rfl | rfl
    · rfl
    · cases cursor <;> rfl
  rw [firstEntry, hNone]

/-- A call that a well-formed result answers raises. -/
theorem fetch_raises {config : KrakenConfig} {vendor : Request → Exchange} {c : FetchCandles}
    {result : List (String × Json)} {name : String} {rows : List OhlcRow} {cursor : Json}
    (hResult : resultOf (vendor (requestOf c)) = .ok result)
    (hFormed : WellFormed result name rows cursor) {f f' : Fields}
    {out : Except Raised (List Candle)} (hFetches : (source config vendor).Fetches f c out f') :
    out = .error (.domain (if f.opened = true then circuitOpen else noEntry)) := by
  have hMapped : candlesOf c result = .error (.domain noEntry) := by
    rw [candlesOf, firstEntry_wellFormed hFormed]
    rfl
  cases hFetches with
  | refused exc hRefused => cases hRefused
  | @ran ended made f' _ hRun =>
    obtain ⟨-, hRejected, hReturned⟩ := steady_run rfl rfl hRun
    by_cases hOpen : f.opened = true
    · rw [if_pos hOpen, hRejected hOpen]
      rfl
    · rw [if_neg hOpen, hReturned (Bool.not_eq_true _ ▸ hOpen) result hResult]
      exact hMapped

/-- **No well-formed result is delivered.** -/
theorem candles_not_delivered {config : KrakenConfig} {vendor : Request → Exchange}
    {c : FetchCandles} {result : List (String × Json)} {name : String} {rows : List OhlcRow}
    {cursor : Json} (hResult : resultOf (vendor (requestOf c)) = .ok result)
    (hFormed : WellFormed result name rows cursor) {f f' : Fields}
    {out : Except Raised (List Candle)} (hFetches : (source config vendor).Fetches f c out f') :
    ¬Delivers c rows out ∧ (f.opened = false → out = .error (.domain noEntry)) := by
  have hRaises := fetch_raises hResult hFormed hFetches
  constructor
  · rintro ⟨candles, hCandles, -⟩
    rw [hRaises] at hCandles
    cases hCandles
  · intro hClosed
    rw [hRaises, hClosed]
    rfl

end

namespace Bitcoin

/-! Kraken answers a request for `BTC/USD` with the rows of `XXBTZUSD`. -/

def row : OhlcRow where
  time := 1710000000
  «open» := "1.0"
  high := "2.0"
  low := "0.5"
  close := "1.5"
  vwap := "1.4"
  volume := "100.0"
  rest := [.int 5]

def result : List (String × Json) :=
  [("XXBTZUSD", .arr [row.json]), ("last", .int 1710000000)]

def resultText : String :=
  "\x7b\"error\":[],\"result\":\x7b\"XXBTZUSD\":[[1710000000,\"1.0\",\"2.0\",\"0.5\",\"1.5\"," ++
  "\"1.4\",\"100.0\",5]],\"last\":1710000000\x7d\x7d"

def payload : Json := .obj [("error", .arr []), ("result", .obj result)]

local instance : JsonLibrary where
  loads text := if text = resultText then some payload else none
  repr _ := "None"

local instance : KrakenModels where
  response
    | .obj [("error", .arr []), ("result", .obj result)] => .ok { result := result }
    | _ => .error "Input should be a valid dictionary"
  lower s := s
  rowText _ := "Input should be a finite number"

local instance : PyText := asciiText

local instance : IntText where
  int s := (digitsAscii s.toList).map Nat.cast

def vendor (_ : Request) : Exchange := .response 200 resultText

def call : FetchCandles where
  symbol := btcUsd
  timeframe := .h1
  now := 1710000000000000

theorem call_answered : resultOf (vendor (requestOf call)) = .ok result := by
  have hLoads : JsonLibrary.loads resultText = some payload := if_pos rfl
  show resultOf (.response 200 resultText) = _
  rw [resultOf, getJson_ok (by decide) hLoads]
  rfl

theorem result_formed : WellFormed result "XXBTZUSD" [row] (.int 1710000000) where
  entries := .refl _
  named := by decide
  nonempty := List.cons_ne_nil _ _
  decimals := by
    intro r hRow text hText
    rw [List.mem_singleton.mp hRow] at hText
    simp only [OhlcRow.texts, row, List.mem_cons, List.not_mem_nil, or_false] at hText
    rcases hText with rfl | rfl | rfl | rfl | rfl | rfl <;> exact ⟨_, rfl⟩

theorem call_ends : ∃ out f', (source {} vendor).Fetches {} call out f' := by
  have hRetry : (source {} vendor).policy.retry = some {} := rfl
  have hBreaker : (source {} vendor).policy.breaker = some {} := rfl
  obtain ⟨out, f', made, hRun⟩ :=
    steady_ends hRetry hBreaker (resultOf (vendor (requestOf call))) {}
  exact ⟨_, f', .ran rfl hRun⟩

theorem call_not_delivered : ∃ out f', (source {} vendor).Fetches {} call out f' ∧
    ¬Delivers call [row] out ∧ (({} : Fields).opened = false → out = .error (.domain noEntry)) := by
  obtain ⟨out, f', hFetches⟩ := call_ends
  exact ⟨out, f', hFetches, candles_not_delivered call_answered result_formed hFetches⟩

theorem not_always_delivered : ¬∀ (config : KrakenConfig) (vendor : Request → Exchange)
    (c : FetchCandles) (result : List (String × Json)) (name : String) (rows : List OhlcRow)
    (cursor : Json), resultOf (vendor (requestOf c)) = .ok result →
      WellFormed result name rows cursor → 1 ≤ c.limit →
        ∀ out f', (source config vendor).Fetches {} c out f' → Delivers c rows out := by
  intro hAlways
  obtain ⟨out, f', hFetches⟩ := call_ends
  obtain ⟨candles, hCandles, -⟩ := hAlways {} vendor call result "XXBTZUSD" [row] (.int 1710000000)
    call_answered result_formed (by decide) out f' hFetches
  rw [fetch_raises call_answered result_formed hFetches] at hCandles
  cases hCandles

end Bitcoin

end TradingAgent.Marketdata.Kraken
