import TradingAgent.Backtest.WalkForward
import TradingAgent.Core.Decimals

/-!
# The backtest in a decimal context

The engine computes with decimals, which a context rounds after every operation. Here `simulate`
and `run` are written over a context; the program has the default one, where the amounts are
rounded to 28 digits and may overflow. In exact arithmetic they are those of the engine
(`simulate_exact`, `run_exact`), about which the results on prices, capital and returns are.
-/

namespace TradingAgent.Backtest.Computed

variable (context : DecimalContext) {F : Type} (evaluate : Evaluate F) (config : BacktestConfig)

/-- What a quantity brings at a price, net of the exit fee. -/
def gross (quantity price : ℚ) : Except Exn ℚ := do
  let value ← context (quantity * price)
  let kept ← context (1 - config.feePct)
  context (value * kept)

def pnl (entry quantity price : ℚ) : Except Exn ℚ := do
  let rise ← context (price - entry)
  let gain ← context (rise * quantity)
  let cost ← context (entry * quantity)
  let fee ← context (cost * config.feePct)
  context (gain - fee)

/-- The trade that closes the open quantity on a candle, and its proceeds. -/
def settle (state : State) (candle : Candle) : Except Exn State := do
  let proceeds ← gross context config state.quantity candle.close
  let profit ← pnl context config state.entryPrice state.quantity candle.close
  return { state with
    trades := state.trades ++
      [{ symbol := config.symbol
         openedAt := state.entryAt
         closedAt := some candle.openedAt
         side := "long"
         entry := state.entryPrice
         exit := some candle.close
         quantity := state.quantity
         pnl := some profit }]
    capital := proceeds }

/-- The trade, if any, on a direction. -/
def act (state : State) (candle : Candle) (direction : SignalDirection) : Except Exn State :=
  if state.position = none ∧ direction = .buy then do
    let quantity ← context.divide state.capital candle.close
    return { state with
      position := some .buy
      entryAt := candle.openedAt
      entryPrice := candle.close
      quantity := quantity
      capital := 0 }
  else if state.position = some .buy ∧ direction = .sell then do
    let settled ← settle context config state candle
    return { settled with quantity := 0, position := none }
  else return state

/-- `capital + quantity * price` of a position. -/
def worth (state : State) (price : ℚ) : Except Exn ℚ := do
  let value ← context (state.quantity * price)
  context (state.capital + value)

def mark (state : State) (candle : Candle) : Except Exn ℚ :=
  if state.position = some .buy then worth context state candle.close else return state.capital

/-- `(peak - mark) / peak * 100`. -/
def drawdown (peak mark : ℚ) : Except Exn ℚ := do
  let fall ← context (peak - mark)
  let part ← context.divide fall peak
  context (part * 100)

/-- The peak and the drawdown after a candle. -/
def watch (state : State) (mark : ℚ) : Except Exn State :=
  let peak := max state.peak mark
  if peak > 0 then do
    let fallen ← drawdown context peak mark
    return { state with peak := peak, maxDd := max state.maxDd fallen }
  else return { state with peak := peak }

/-- One iteration of the loop, once the direction is known. -/
def step (state : State) (bar : Candle × SignalDirection) : Except Exn State := do
  let acted ← act context config state bar.1 bar.2
  watch context acted (← mark context acted bar.1)

/-- The liquidation of what is open after the last candle. It leaves the quantity. -/
def liquidate (state : State) (last : Candle) : Except Exn State :=
  if state.position = some .buy then settle context config state last else return state

/-- `(final_capital - initial_capital) / base * 100`. -/
def totalReturn (finalCapital : ℚ) : Except Exn ℚ := do
  let gain ← context (finalCapital - config.initialCapital)
  let part ← context.divide gain (if config.initialCapital = 0 then 1 else config.initialCapital)
  context (part * 100)

def winRate (trades : List BacktestTrade) : Except Exn ℚ :=
  if trades = [] then return 0
  else do
    let part ← context.divide (trades.filter BacktestTrade.wins).length trades.length
    context (part * 100)

/-- The result of the loop's last state. -/
def finish (state : State) (last : Candle) : Except Exn BacktestResult := do
  let ended ← liquidate context config state last
  let finalCapital ← mark context ended last
  let totalReturnPct ← totalReturn context config finalCapital
  let winRatePct ← winRate context ended.trades
  return {
    config := config
    trades := ended.trades
    initialCapital := config.initialCapital
    finalCapital := finalCapital
    totalReturnPct := totalReturnPct
    maxDrawdownPct := ended.maxDd
    winRatePct := winRatePct
    tradeCount := ended.trades.length }

/-- One iteration of the loop over the candles and their indices. -/
def iterate (candles : List Candle) (feats : List F) (state : State) (bar : Candle × ℕ) :
    Except Exn State :=
  match direction evaluate config (candles.take (bar.2 + 1)) (feats.take (bar.2 + 1)) with
  | .error e => .error e
  | .ok direction => step context config state (bar.1, direction)

/-- `BacktestEngine._simulate`. -/
def simulate (candles : List Candle) (feats : List F) : Except Exn BacktestResult :=
  match candles.head?, candles.getLast? with
  | some first, some last => do
    let state ← candles.zipIdx.foldlM (iterate context evaluate config candles feats)
      (State.start config first)
    finish context config state last
  | _, _ => .error (.other "IndexError")

/-- `BacktestEngine.run`, with the events that it publishes. -/
def run (services : Services F) [PyText] (config : BacktestConfig) :
    Except Exn (Result BacktestResult DomainError × List BacktestCompleted) := do
  requireStrategy services config.strategyId
  let symbol ← Marketdata.Symbol.of config.symbol
  let timeframe ← Marketdata.Timeframe.ofValue config.timeframe
  let candles := services.queryRange symbol timeframe config.start config.end
  if candles.length < 30 then
    return (.err
      { cls := .insufficientDataError, message := "not enough candles for backtest" }, [])
  let result ← simulate context services.evaluate config candles (services.compute candles)
  return (.ok result,
    [{ symbol := config.symbol
       strategyId := config.strategyId
       tradeCount := result.tradeCount
       totalReturnPct := result.totalReturnPct }])

/-- The marks of the bars. -/
def marks (state : State) : List (Candle × SignalDirection) → Except Exn (List ℚ)
  | [] => return []
  | bar :: bars => do
    let acted ← act context config state bar.1 bar.2
    let mark ← mark context acted bar.1
    let later ← marks (← watch context acted mark) bars
    return mark :: later

/-! ## In exact arithmetic -/

section Exact

variable {evaluate config}

theorem act_exact (state : State) (candle : Candle) (direction : SignalDirection) :
    act .exact config state candle direction = state.act config candle direction := by
  unfold act State.act
  rw [DecimalContext.exact_divide]
  split_ifs
  · cases divide state.capital candle.close with
    | error e => rfl
    | ok q => rfl
  · rfl
  · rfl

theorem mark_exact (state : State) (candle : Candle) :
    mark .exact state candle = .ok (state.mark candle) := by
  unfold mark State.mark
  split_ifs
  · rfl
  · rfl

theorem drawdown_exact {peak : ℚ} (h : 0 < peak) (mark : ℚ) :
    drawdown .exact peak mark = .ok ((peak - mark) / peak * 100) := by
  unfold drawdown
  rw [DecimalContext.exact_bind, DecimalContext.exact_divide_of_ne h.ne']
  rfl

theorem watch_exact (state : State) (candle : Candle) :
    watch .exact state (state.mark candle) = .ok (state.watch candle) := by
  unfold watch State.watch
  dsimp only
  split_ifs with hPeak
  · rw [drawdown_exact hPeak]
    rfl
  · rfl

theorem step_exact (state : State) (bar : Candle × SignalDirection) :
    step .exact config state bar = state.step config bar := by
  unfold step State.step
  rw [act_exact]
  cases state.act config bar.1 bar.2 with
  | error e => rfl
  | ok acted =>
    dsimp only [bind, Except.bind]
    rw [mark_exact]
    exact watch_exact acted bar.1

theorem totalReturn_exact (finalCapital : ℚ) :
    totalReturn .exact config finalCapital = .ok ((finalCapital - config.initialCapital) /
      (if config.initialCapital = 0 then 1 else config.initialCapital) * 100) := by
  have hBase : (if config.initialCapital = 0 then 1 else config.initialCapital) ≠ 0 := by
    split_ifs with hZero
    · exact one_ne_zero
    · exact hZero
  unfold totalReturn
  rw [DecimalContext.exact_bind, DecimalContext.exact_divide_of_ne hBase]
  rfl

theorem winRate_exact (trades : List BacktestTrade) :
    winRate .exact trades = .ok (if trades = [] then 0
      else (trades.filter BacktestTrade.wins).length / trades.length * 100) := by
  unfold winRate
  split_ifs with hNone
  · rfl
  · have hCount : (trades.length : ℚ) ≠ 0 :=
      Nat.cast_ne_zero.mpr (List.length_pos_of_ne_nil hNone).ne'
    rw [DecimalContext.exact_divide_of_ne hCount]
    rfl

theorem liquidate_exact (state : State) (last : Candle) :
    liquidate .exact config state last = .ok (state.liquidate config last) := by
  unfold liquidate State.liquidate
  split_ifs
  · rfl
  · rfl

theorem finish_exact (state : State) (last : Candle) :
    finish .exact config state last = .ok (state.finish config last) := by
  unfold finish State.finish
  rw [liquidate_exact]
  dsimp only [bind, Except.bind]
  rw [mark_exact]
  dsimp only
  rw [totalReturn_exact]
  dsimp only
  rw [winRate_exact]
  rfl

/-- **Exact arithmetic.** In the exact context the engine is the simulation over rationals. -/
theorem simulate_exact (candles : List Candle) (feats : List F) :
    simulate .exact evaluate config candles feats =
      Backtest.simulate evaluate config candles feats := by
  have hIterate : iterate .exact evaluate config candles feats =
      Backtest.iterate evaluate config candles feats := by
    funext state bar
    unfold iterate Backtest.iterate
    cases direction evaluate config (candles.take (bar.2 + 1)) (feats.take (bar.2 + 1)) with
    | error e => rfl
    | ok direction => exact step_exact state (bar.1, direction)
  unfold simulate Backtest.simulate
  rw [hIterate]
  cases candles.head? with
  | none => rfl
  | some first =>
    cases candles.getLast? with
    | none => rfl
    | some last =>
      dsimp only
      cases candles.zipIdx.foldlM (Backtest.iterate evaluate config candles feats)
          (State.start config first) with
      | error e => rfl
      | ok state => exact finish_exact state last

theorem run_exact (services : Services F) [PyText] (config : BacktestConfig) :
    run .exact services config = Backtest.run services config := by
  unfold run Backtest.run
  simp only [simulate_exact]

end Exact

end TradingAgent.Backtest.Computed
