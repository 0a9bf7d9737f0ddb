import TradingAgent.Tooling.Policy
import TradingAgent.Core.Python

/-!
# The transport of the vendor clients

A request is exchanged for a status and a text, or the exchange fails. `get_json` reports
every failure as a domain error, by the status where there is one (`mapHttpError`).
-/

namespace TradingAgent.Tooling

/-- A JSON payload. A float is the decimal that its text denotes. -/
inductive Json
  | null
  | bool (b : Bool)
  | int (n : ℤ)
  | float (x : Decimal)
  | str (s : String)
  | arr (items : List Json)
  | obj (fields : List (String × Json))
  deriving Repr

namespace Json

/-- `bool(payload)`. -/
def truthy : Json → Bool
  | null => false
  | bool b => b
  | int n => n ≠ 0
  | float x => x ≠ .finite 0
  | str s => s ≠ ""
  | arr items => !items.isEmpty
  | obj fields => !fields.isEmpty

end Json

/-- The parts of the standard library that the transport rests on: `loads` is
`response.json()`, and `none` where that raises `ValueError`; `repr` is `repr(value)`. -/
class JsonLibrary where
  loads : String → Option Json
  repr : Json → String

/-- `str(payload)`. -/
def Json.text [JsonLibrary] : Json → String
  | .str s => s
  | payload => JsonLibrary.repr payload

structure Request where
  path : String
  params : List (String × Json)
  deriving Repr

/-- What comes of a request: a response, a timeout or another failure of the transport, or an
exception that the client does not catch, such as the `TimeoutError` of `asyncio.wait_for`. -/
inductive Exchange
  | response (status : ℕ) (text : String)
  | timeout
  | transport
  | aborted (name : String)
  deriving DecidableEq, Repr

/-- `text[:200]`. -/
def truncated (text : String) : String := String.ofList (text.toList.take 200)

def mapHttpError (status : ℕ) (provider : String) (message : String := "") : DomainError :=
  let detail := provider ++ " http " ++ toString status
  let detail := if message ≠ "" then detail ++ ": " ++ message else detail
  if status = 401 ∨ status = 403 then
    { cls := .authenticationError, message := detail, provider := some provider }
  else if status = 429 then
    { cls := .rateLimitedError, message := detail, provider := some provider }
  else if status = 408 ∨ status = 504 then
    { cls := .providerTimeoutError, message := detail, provider := some provider }
  else if 500 ≤ status ∧ status < 600 then
    { cls := .providerUnavailableError, message := detail, provider := some provider }
  else
    { cls := .providerValidationError, message := detail, provider := some provider }

def getJson [JsonLibrary] (provider : String) : Exchange → Except Raised Json
  | .timeout => .error (.domain
      { cls := .providerTimeoutError
        message := provider ++ " request timed out"
        provider := some provider })
  | .transport => .error (.domain
      { cls := .providerUnavailableError
        message := provider ++ " transport error"
        provider := some provider })
  | .aborted name => .error (.exception name)
  | .response status text =>
    if 400 ≤ status then .error (.domain (mapHttpError status provider (truncated text)))
    else
      match JsonLibrary.loads text with
      | some payload => .ok payload
      | none => .error (.domain
          { cls := .malformedDataError
            message := provider ++ " returned a non-JSON payload"
            provider := some provider })

theorem getJson_ok [JsonLibrary] {status : ℕ} {text : String} {payload : Json}
    (hStatus : status < 400) (hLoads : JsonLibrary.loads text = some payload) (provider : String) :
    getJson provider (.response status text) = .ok payload := by
  unfold getJson
  simp only [if_neg (not_le.mpr hStatus), hLoads]

/-- The codes of a rejected request. -/
def requestCodes : List ℕ := [400, 404, 422]

theorem mapHttpError_cls {status : ℕ} (h : status ∈ requestCodes) (provider message : String) :
    (mapHttpError status provider message).cls = .providerValidationError := by
  unfold requestCodes at h
  simp only [List.mem_cons, List.not_mem_nil, or_false] at h
  rcases h with rfl | rfl | rfl <;> rfl

end TradingAgent.Tooling
