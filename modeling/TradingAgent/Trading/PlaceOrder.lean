import TradingAgent.Ports

/-!
# Placing orders

`PlaceOrderService.execute` looks the client order id up, asks the risk gate, submits the
order, and then stores the order, books its fill and announces it. The service is built
from its ports, as in the source, so that each port may itself be a coroutine.

`uuid4()` and the clock are read once in a call, when the order is created; what they
return there is given with the call.
-/

namespace TradingAgent.Trading

open Coroutine Coro

variable [PyText]

structure PlaceOrderCommand where
  symbol : String
  side : OrderSide
  quantity : ℚ
  price : ℚ
  clientOrderId : String
  equity : ℚ
  deriving DecidableEq, Repr

structure PlaceOrderService where
  getByClientOrderId : String → Async (Option TradeOrder)
  saveOrder : TradeOrder → Async Unit
  submitMarketOrder : TradeOrder → Async TradeOrder
  authorize : String → ℚ → ℚ → Async (Bool × String)
  publish : DomainEvent → Async Unit
  getPosition : String → Async (Option Position)
  savePosition : Position → Async Unit

/-- A call of `execute`: its command, and what `uuid4()` and the clock return in it. -/
structure Call where
  command : PlaceOrderCommand
  id : UUID
  now : Datetime
  deriving DecidableEq, Repr

/-- `TradeOrder.create` with the arguments that `execute` passes. -/
def Call.createOrder (c : Call) : Except Exn TradeOrder :=
  TradeOrder.create c.id c.command.symbol c.command.side c.command.quantity c.command.price
    c.command.clientOrderId c.now

def TradeOrder.stateChanged (order : TradeOrder) : DomainEvent :=
  .orderStateChanged { orderId := order.id.text, status := order.status, symbol := order.symbol }

namespace PlaceOrderService

variable (self : PlaceOrderService)

/-- Book the fill of a filled order: read the position, apply the fill, write it back. -/
def book (submitted : TradeOrder) : Async Unit :=
  match submitted.status, submitted.executedPrice with
  | .filled, some executedPrice => do
    let stored ← self.getPosition submitted.symbol
    let position := stored.getD (Position.empty submitted.symbol)
    let updated ← ofExcept
      (position.applyFill submitted.side.value submitted.quantity executedPrice)
    self.savePosition updated
  | _, _ => pure ()

/-- What follows the submission: store, book, announce. -/
def record (submitted : TradeOrder) : Async (Result TradeOrder String) := do
  self.saveOrder submitted
  self.book submitted
  self.publish submitted.stateChanged
  return .ok submitted

/-- The `try` block: create the order and submit it. -/
def submit (c : Call) : Async TradeOrder := do
  let order ← ofExcept c.createOrder
  self.submitMarketOrder order

/-- What follows the risk gate's approval. -/
def place (c : Call) : Async (Result TradeOrder String) := do
  match ← (self.submit c).attempt with
  | .ok submitted => self.record submitted
  | .error (.valueError message) => return .err message
  | .error (.runtimeError message) => return .err message
  | .error exc => raise exc

def execute (c : Call) : Async (Result TradeOrder String) := do
  let existing ← self.getByClientOrderId c.command.clientOrderId
  match existing with
  | some order => return .ok order
  | none =>
    let (allowed, reason) ← self.authorize c.command.symbol
      (c.command.quantity * c.command.price) c.command.equity
    if !allowed then
      return .err ("risk_rejected:" ++ reason)
    else
      self.place c

/-- The service whose every port is a single awaited call. -/
def ports : PlaceOrderService where
  getByClientOrderId clientOrderId := perform (.getByClientOrderId clientOrderId)
  saveOrder order := perform (.saveOrder order)
  submitMarketOrder order := perform (.submitMarketOrder order)
  authorize symbol notional equity := perform (.authorize symbol notional equity)
  publish event := perform (.publish event)
  getPosition symbol := perform (.getPosition symbol)
  savePosition position := perform (.savePosition position)

end PlaceOrderService

end TradingAgent.Trading
