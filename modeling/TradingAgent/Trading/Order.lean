import TradingAgent.Trading.Portfolio

/-!
# Trade orders

An order is created pending, and a pending order can be filled or rejected. `create` checks
its arguments in the order of the source; the identifier that `uuid4()` draws and the time
of the clock are arguments here.

`Executed order x` is what a gateway of the program may make of an order it is given: the
order as it is, the order filled at some price, or an exception.
-/

namespace TradingAgent.Trading

inductive OrderType
  | market
  deriving DecidableEq, Repr

inductive OrderStatus
  | pending
  | filled
  | rejected
  deriving DecidableEq, Repr

/-- An identifier, by its text. -/
structure UUID where
  text : String
  deriving DecidableEq, Repr

structure TradeOrder where
  id : UUID
  symbol : String
  side : OrderSide
  quantity : ℚ
  orderType : OrderType
  status : OrderStatus
  requestedPrice : ℚ
  executedPrice : Option ℚ
  clientOrderId : String
  createdAt : Datetime
  rejectionReason : Option String := none
  deriving DecidableEq, Repr

namespace TradeOrder

variable [PyText]

def create (id : UUID) (symbol : String) (side : OrderSide) (quantity requestedPrice : ℚ)
    (clientOrderId : String) (now : Datetime) : Except Exn TradeOrder :=
  if quantity ≤ 0 then .error (.valueError "quantity must be positive")
  else if requestedPrice ≤ 0 then .error (.valueError "requested_price must be positive")
  else if strip symbol = "" then .error (.valueError "symbol must not be empty")
  else if strip clientOrderId = "" then .error (.valueError "client_order_id must not be empty")
  else
    .ok
      { id := id
        symbol := PyText.upper symbol
        side := side
        quantity := quantity
        orderType := .market
        status := .pending
        requestedPrice := requestedPrice
        executedPrice := none
        clientOrderId := clientOrderId
        createdAt := now }

omit [PyText] in
def fill (self : TradeOrder) (executedPrice : ℚ) : Except Exn TradeOrder :=
  if self.status ≠ .pending then .error (.valueError "only pending orders can be filled")
  else if executedPrice ≤ 0 then .error (.valueError "executed_price must be positive")
  else .ok { self with status := .filled, executedPrice := some executedPrice }

omit [PyText] in
def reject (self : TradeOrder) (reason : String) : Except Exn TradeOrder :=
  if self.status ≠ .pending then .error (.valueError "only pending orders can be rejected")
  else .ok { self with status := .rejected, rejectionReason := some reason }

theorem create_ok {id : UUID} {symbol clientOrderId : String} {side : OrderSide}
    {quantity requestedPrice : ℚ} {now : Datetime} {order : TradeOrder}
    (h : create id symbol side quantity requestedPrice clientOrderId now = .ok order) :
    0 < quantity ∧ 0 < requestedPrice ∧ strip symbol ≠ "" ∧ strip clientOrderId ≠ "" ∧
      order =
        { id := id
          symbol := PyText.upper symbol
          side := side
          quantity := quantity
          orderType := .market
          status := .pending
          requestedPrice := requestedPrice
          executedPrice := none
          clientOrderId := clientOrderId
          createdAt := now } := by
  unfold create at h
  split at h
  · cases h
  · split at h
    · cases h
    · split at h
      · cases h
      · split at h
        · cases h
        · rename_i hQuantity hPrice hSymbol hClient
          exact ⟨not_le.mp hQuantity, not_le.mp hPrice, hSymbol, hClient, (Except.ok.inj h).symm⟩

/-- `create` raises nothing but `ValueError`. -/
theorem create_error {id : UUID} {symbol clientOrderId : String} {side : OrderSide}
    {quantity requestedPrice : ℚ} {now : Datetime} {e : Exn}
    (h : create id symbol side quantity requestedPrice clientOrderId now = .error e) :
    ∃ message, e = .valueError message := by
  unfold create at h
  repeat' split at h
  all_goals cases h
  all_goals exact ⟨_, rfl⟩

omit [PyText] in
theorem fill_ok {self order : TradeOrder} {price : ℚ} (h : self.fill price = .ok order) :
    self.status = .pending ∧ 0 < price ∧
      order = { self with status := .filled, executedPrice := some price } := by
  unfold fill at h
  split at h
  · cases h
  · split at h
    · cases h
    · rename_i hStatus hPrice
      exact ⟨not_not.mp hStatus, not_le.mp hPrice, (Except.ok.inj h).symm⟩

/-- The answers that a gateway of the program gives for an order. -/
inductive Executed (order : TradeOrder) : Except Exn TradeOrder → Prop
  | unchanged : Executed order (.ok order)
  | filled (price : ℚ) : Executed order (order.fill price)
  | raised (e : Exn) : Executed order (.error e)

omit [PyText] in
/-- A gateway hands back the order it was given, at most filled at a positive price. -/
theorem Executed.ok_cases {order submitted : TradeOrder} (h : Executed order (.ok submitted)) :
    submitted = order ∨ ∃ price, 0 < price ∧
      submitted = { order with status := .filled, executedPrice := some price } := by
  generalize hAnswer : (Except.ok submitted : Except Exn TradeOrder) = answer at h
  cases h with
  | unchanged => exact .inl (Except.ok.inj hAnswer)
  | filled price =>
    obtain ⟨-, hPrice, hFilled⟩ := fill_ok hAnswer.symm
    exact .inr ⟨price, hPrice, hFilled⟩
  | raised e => cases hAnswer

end TradeOrder

structure OrderStateChanged where
  orderId : String
  status : OrderStatus
  symbol : String
  deriving DecidableEq, Repr

end TradingAgent.Trading
