import TradingAgent.Core.Python
import Mathlib.Tactic.NormNum

/-!
# Candles, signals and the records of a backtest
-/

namespace TradingAgent.Backtest

inductive SignalDirection
  | buy
  | sell
  | hold
  deriving DecidableEq, Repr

/-- `SignalDirection(signal)`, and `HOLD` for a text that is none of the three. -/
def SignalDirection.ofSignal (signal : String) : SignalDirection :=
  if signal = "BUY" then .buy
  else if signal = "SELL" then .sell
  else .hold

structure Candle where
  openedAt : Datetime
  close : ℚ
  deriving DecidableEq, Repr

structure BacktestConfig where
  symbol : String := "BTC/USDT"
  timeframe : String := "1h"
  strategyId : String
  start : Datetime
  «end» : Datetime
  initialCapital : ℚ := 10000
  feePct : ℚ := 1 / 1000
  seed : Option ℤ := none
  deriving DecidableEq, Repr

structure BacktestTrade where
  symbol : String
  openedAt : Datetime
  closedAt : Option Datetime := none
  side : String
  entry : ℚ
  exit : Option ℚ := none
  quantity : ℚ
  pnl : Option ℚ := none
  deriving DecidableEq, Repr

/-- `t.pnl is not None and t.pnl > 0`. -/
def BacktestTrade.wins (t : BacktestTrade) : Bool :=
  match t.pnl with
  | some pnl => 0 < pnl
  | none => false

structure BacktestResult where
  config : BacktestConfig
  trades : List BacktestTrade
  initialCapital : ℚ
  finalCapital : ℚ
  totalReturnPct : ℚ
  maxDrawdownPct : ℚ
  winRatePct : ℚ
  tradeCount : ℕ
  deriving DecidableEq, Repr

end TradingAgent.Backtest
