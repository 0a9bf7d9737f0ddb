import TradingAgent.Ports
import Mathlib.Data.Rat.Floor

/-!
# Order gateways

The paper gateway fills an order at its requested price, rounded to eight places. The
CCXT gateway submits the order to the exchange and reads `status`, `filled`, `average` and
`price` of the response. Both hand back the order they were given, filled or as it is.
-/

namespace TradingAgent.Trading

open Coroutine Coro

/-- Round half to even. -/
def roundHalfEven (x : ℚ) : ℤ :=
  let low := ⌊x⌋
  let rest := x - low
  if rest < 1 / 2 then low
  else if 1 / 2 < rest then low + 1
  else if low % 2 = 0 then low
  else low + 1

/-- `x.quantize(Decimal("0.00000001"))` in the default context of 28 digits. -/
def quantize (x : ℚ) : Except Exn ℚ :=
  let coefficient := roundHalfEven (x * 10 ^ 8)
  if 10 ^ 28 ≤ |coefficient| then .error (.other "InvalidOperation")
  else .ok (coefficient / 10 ^ 8)

namespace PaperOrderGateway

def submitMarketOrder (order : TradeOrder) : Except Exn TradeOrder :=
  match quantize order.requestedPrice with
  | .ok executedPrice => order.fill executedPrice
  | .error e => .error e

theorem executed (order : TradeOrder) : order.Executed (submitMarketOrder order) := by
  unfold submitMarketOrder
  split
  · exact .filled _
  · exact .raised _

end PaperOrderGateway

namespace CcxtOrderGateway

variable [PyText]

/-- `Decimal(text)`. -/
def decimal (text : String) : Except Exn Decimal :=
  match PyText.decimal text with
  | some d => .ok d
  | none => .error (.other "InvalidOperation")

/-- `d > 0`; NaN does not compare. -/
def positive : Decimal → Except Exn Bool
  | .finite q => .ok (decide (0 < q))
  | .infinity negative => .ok (!negative)
  | .nan => .error (.other "InvalidOperation")

/-- `status in {"closed", "filled"}` for `str(result.get("status") or "").lower()`. -/
def closed (status : PyObj) : Bool :=
  let text := if status.truthy then status.text.toLower else ""
  text = "closed" || text = "filled"

/-- `order.fill(price)`. An infinite price passes its check, but no `Numeric` column holds
it, so that storing the order raises; the exception is raised here already. -/
def fillAt (order : TradeOrder) : Decimal → Except Exn TradeOrder
  | .finite price => order.fill price
  | .infinity true => .error (.valueError "executed_price must be positive")
  | .infinity false => .error (.other "DBAPIError")
  | .nan => .error (.other "InvalidOperation")

/-- `str(result.get("filled") or "0")`. -/
def filledText (get : String → PyObj) : String :=
  if (get "filled").truthy then (get "filled").text else "0"

/-- `status in {"closed", "filled"} or filled > 0`. -/
def executed (get : String → PyObj) (filled : Decimal) : Except Exn Bool :=
  if closed (get "status") then .ok true else positive filled

/-- `Decimal(str(average))` for the first of `average`, `price` and the requested price. -/
def average (order : TradeOrder) (get : String → PyObj) : Except Exn Decimal :=
  if (get "average").truthy then decimal (get "average").text
  else if (get "price").truthy then decimal (get "price").text
  else .ok (.finite order.requestedPrice)

/-- The reading of the response, after the `try` block. -/
def read (order : TradeOrder) : Response → Except Exn TradeOrder
  | .other => .error (.other "AttributeError")
  | .mapping get => do
    let filled ← decimal (filledText get)
    if ← executed get filled then
      fillAt order (← average order get)
    else
      return order

def exceptionName : Exn → String
  | .valueError _ => "ValueError"
  | .runtimeError _ => "RuntimeError"
  | .other name => name

def submitMarketOrder (order : TradeOrder) : Async TradeOrder := do
  match ← (perform (.createOrder order.symbol "market" order.side.value order.quantity)).attempt with
  | .error exc => raise (.runtimeError ("exchange_order_failed:" ++ exceptionName exc))
  | .ok result => ofExcept (read order result)

end CcxtOrderGateway

end TradingAgent.Trading
