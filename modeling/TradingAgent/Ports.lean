import TradingAgent.Coroutine.Runs
import TradingAgent.Trading.Order
import TradingAgent.Risk.Entities

/-!
# The awaited operations

The services reach the outside only through awaited calls of their ports. `Op` lists the
calls and `Ret` the type of what each returns; a service is a coroutine over this
signature, and an exception of a call may propagate through it.
-/

namespace TradingAgent

open Coroutine Trading Risk

/-- What the event bus carries. -/
inductive DomainEvent
  | orderStateChanged (event : OrderStateChanged)
  | riskBreached (event : RiskBreached)
  | killSwitchTriggered (event : KillSwitchTriggered)
  deriving DecidableEq, Repr

/-- What the gateway asks of a Python object: its truth value and its text. -/
structure PyObj where
  truthy : Bool
  text : String
  deriving DecidableEq, Repr

/-- `None`, which `get` returns for a missing field. -/
def PyObj.none : PyObj := ⟨false, "None"⟩

/-- What `create_order` of the exchange returns: a mapping, by its `get`, or an object
without `get`. -/
inductive Response
  | mapping (get : String → PyObj)
  | other

inductive Op
  /- OrderRepository -/
  | getByClientOrderId (clientOrderId : String)
  | saveOrder (order : TradeOrder)
  /- PositionRepository -/
  | getPosition (symbol : String)
  | savePosition (position : Position)
  /- RiskGate -/
  | authorize (symbol : String) (notional equity : ℚ)
  /- OrderGateway, and the exchange behind one of its adapters -/
  | submitMarketOrder (order : TradeOrder)
  | createOrder (symbol orderType side : String) (amount : ℚ)
  /- EventBus -/
  | publish (event : DomainEvent)
  /- RiskProfileStore, and the Redis client behind its adapter -/
  | getProfile
  | saveProfile (profile : RiskProfile)
  | getKillSwitch
  | setKillSwitch (state : KillSwitchState)
  | redisGet (name : String)
  | redisSet (name value : String)

@[reducible] def Ret : Op → Type
  | .getByClientOrderId _ => Option TradeOrder
  | .saveOrder _ => Unit
  | .getPosition _ => Option Position
  | .savePosition _ => Unit
  | .authorize _ _ _ => Bool × String
  | .submitMarketOrder _ => TradeOrder
  | .createOrder _ _ _ _ => Response
  | .publish _ => Unit
  | .getProfile => RiskProfile
  | .saveProfile _ => Unit
  | .getKillSwitch => KillSwitchState
  | .setKillSwitch _ => Unit
  | .redisGet _ => Option String
  | .redisSet _ _ => Unit

/-- An `async` function that returns an `α`. -/
abbrev Async (α : Type) := Coro Exn Ret α

/-- Await one call of a port. -/
abbrev perform (op : Op) : Async (Ret op) := Coro.call op

end TradingAgent
