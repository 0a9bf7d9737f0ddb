import TradingAgent.Core.Python
import Mathlib.Tactic.NormNum

/-!
# Risk settings, decisions and events
-/

namespace TradingAgent.Risk

structure RiskProfile where
  maxPositionPct : ℚ := 10 / 100
  maxDailyLossPct : ℚ := 2 / 100
  maxDrawdownPct : ℚ := 15 / 100
  allowLeverage : Bool := false
  failedClosed : Bool := true
  deriving DecidableEq, Repr

structure RiskDecision where
  approved : Bool
  reason : String
  deriving DecidableEq, Repr

structure KillSwitchState where
  active : Bool := false
  reason : Option String := none
  deriving DecidableEq, Repr

structure RiskBreached where
  symbol : String
  reason : String
  deriving DecidableEq, Repr

structure KillSwitchTriggered where
  reason : String
  deriving DecidableEq, Repr

end TradingAgent.Risk
