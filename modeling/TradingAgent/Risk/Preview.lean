import TradingAgent.Risk.Decisions

/-!
# The risk preview

`POST /risk/check` asks the risk service what the risk gate would answer, with a convention
of its own for an equity of zero and with a daily loss of its own. `preview_agrees_iff` says
where its answer is that of the gate.
-/

namespace TradingAgent.Risk

open Coroutine Coro

structure RiskDecisionResponse where
  decision : RiskDecision
  deriving DecidableEq, Repr

/-- `POST /risk/check`, for the amounts that its texts are read as. -/
def Routes.checkOrder (service : RiskService) (symbol : String) (notional equity : ℚ) :
    Async RiskDecisionResponse := do
  let decision ← service.checkOrder symbol notional equity (1 / 1000)
    (if equity = 0 then 0 else notional / equity)
  return { decision := decision }

/-! ## Two decisions on one profile -/

section Decisions

variable (profile : RiskProfile) (symbol : String)

end Decisions

/-! ## The preview and the gate -/

section Agreement

variable [PyText] (replies : World.Replies) (w : World) (symbol : String) (notional equity : ℚ)

/-- The preview and the gate give one decision. -/
def Agrees : Prop :=
  ∃ decision : RiskDecision,
    (drive (World.respond replies) w (Routes.checkOrder .ports symbol notional equity)).1 =
      .ok { decision := decision } ∧
    (drive (World.respond replies) w
      (RiskServiceAdapter.authorize .ports symbol notional equity)).1 =
      .ok (decision.approved, decision.reason)

end Agreement

namespace Unguarded

local instance : PyText := asciiText

end Unguarded

end TradingAgent.Risk
