import TradingAgent.Trading.Submission
import TradingAgent.Trading.Booking
import TradingAgent.Trading.Retry
import TradingAgent.Trading.Ccxt
import TradingAgent.Trading.Idempotence
import TradingAgent.Trading.Conflict
import TradingAgent.Risk.Approvals
import TradingAgent.Risk.Limits
import TradingAgent.Messaging.Dispatch
import TradingAgent.Backtest.Liquidation
import TradingAgent.Backtest.Reconciliation
import TradingAgent.Backtest.Pairing
import TradingAgent.Backtest.WalkForward
import TradingAgent.Auth.Owners
import TradingAgent.Auth.Disabled
import TradingAgent.Tooling.Budget
import TradingAgent.Tooling.Recovery
import TradingAgent.Tooling.SharedRetry
import TradingAgent.Marketdata.Bystanders
import TradingAgent.Marketdata.CandleStore
import TradingAgent.Trading.Storage
import TradingAgent.Backtest.Drawdown
import TradingAgent.Backtest.Scaling
import TradingAgent.Backtest.Computed
import TradingAgent.Backtest.Failures
import TradingAgent.Trading.Legs
import TradingAgent.Trading.Paper
import TradingAgent.Risk.Preview
import TradingAgent.Signals.Units
import TradingAgent.Signals.Ranges
import TradingAgent.Marketdata.Tickers
import TradingAgent.Marketdata.Limits
import TradingAgent.Marketdata.Backfill
import TradingAgent.Marketdata.Batches
import TradingAgent.Marketdata.Boundaries
import TradingAgent.Marketdata.Stamps
import TradingAgent.Tooling.Timeouts
import TradingAgent.Tooling.FailFast
import TradingAgent.Tooling.Limiter
import TradingAgent.Tooling.InFlight
import TradingAgent.Messaging.Starvation
import TradingAgent.Marketdata.Ingest
import TradingAgent.Marketdata.Rejections
import TradingAgent.Workers.Promotion
import TradingAgent.Workers.Plateau
import TradingAgent.Auth.Passwords
import TradingAgent.Auth.Registration
import TradingAgent.Trading.Announcements
import TradingAgent.Messaging.Groups
import TradingAgent.Marketdata.Announced
import TradingAgent.Auth.Requests
import TradingAgent.Messaging.Publication
import TradingAgent.Messaging.Delivery
import TradingAgent.Backtest.Fees
import TradingAgent.Backtest.Folds
