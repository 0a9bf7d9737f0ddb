import TradingAgent.Backtest.Engine
import Mathlib.Algebra.Order.Field.Rat
import Mathlib.Tactic.Ring

/-!
# Backtests are scale-free

`scaled` multiplies the amounts of a record by a factor and leaves its prices, its times and
its percentages. Every step of the loop commutes with it, and so does the backtest:
`simulate_scaled`.
-/

namespace TradingAgent.Backtest

variable (k : ℚ)

/-! ## The records on another scale -/

def BacktestConfig.scaled (config : BacktestConfig) : BacktestConfig :=
  { config with initialCapital := k * config.initialCapital }

def BacktestTrade.scaled (t : BacktestTrade) : BacktestTrade :=
  { t with quantity := k * t.quantity, pnl := t.pnl.map (k * ·) }

def BacktestResult.scaled (result : BacktestResult) : BacktestResult :=
  { result with
    config := result.config.scaled k
    trades := result.trades.map (BacktestTrade.scaled k)
    initialCapital := k * result.initialCapital
    finalCapital := k * result.finalCapital }

def State.scaled (state : State) : State :=
  { state with
    capital := k * state.capital
    quantity := k * state.quantity
    trades := state.trades.map (BacktestTrade.scaled k)
    peak := k * state.peak }

variable {k}

theorem divide_scaled (hk : k ≠ 0) (a b : ℚ) : divide (k * a) b = (divide a b).map (k * ·) := by
  unfold divide
  by_cases hb : b ≠ 0
  · rw [if_pos hb, if_pos hb, mul_div_assoc]
    rfl
  · have hZero : k * a = 0 ↔ a = 0 := by simp [hk]
    rw [if_neg hb, if_neg hb]
    by_cases ha : a = 0
    · rw [if_pos ha, if_pos (hZero.mpr ha)]
      rfl
    · rw [if_neg ha, if_neg fun h => ha (hZero.mp h)]
      rfl

/-- A share of a scaled amount in another. -/
theorem share_scaled (hk : k ≠ 0) (a b c : ℚ) : (k * a - k * b) / (k * c) = (a - b) / c := by
  rw [← mul_sub, mul_div_mul_left _ _ hk]

theorem BacktestTrade.wins_scaled (hk : 0 < k) (t : BacktestTrade) :
    (t.scaled k).wins = t.wins := by
  unfold wins scaled
  cases t.pnl with
  | none => rfl
  | some pnl => exact decide_eq_decide.mpr (mul_pos_iff_of_pos_left hk)

/-! ## One step -/

namespace State

variable (config : BacktestConfig) (state : State) (candle : Candle)

theorem start_scaled :
    State.start (config.scaled k) candle = (State.start config candle).scaled k := by
  simp [start, scaled, BacktestConfig.scaled]

theorem gross_scaled (price : ℚ) :
    (state.scaled k).gross (config.scaled k) price = k * state.gross config price := by
  simp only [gross, scaled, BacktestConfig.scaled]
  ring

theorem trade_scaled :
    (state.scaled k).trade (config.scaled k) candle = (state.trade config candle).scaled k := by
  have hPnl : (candle.close - state.entryPrice) * (k * state.quantity) -
      state.entryPrice * (k * state.quantity) * config.feePct =
      k * ((candle.close - state.entryPrice) * state.quantity -
        state.entryPrice * state.quantity * config.feePct) := by ring
  simp [trade, scaled, BacktestConfig.scaled, BacktestTrade.scaled, hPnl]

theorem act_scaled (hk : k ≠ 0) (direction : SignalDirection) :
    (state.scaled k).act (config.scaled k) candle direction =
      (state.act config candle direction).map (scaled k) := by
  have hPosition : (state.scaled k).position = state.position := rfl
  have hCapital : (state.scaled k).capital = k * state.capital := rfl
  unfold act
  rw [hPosition, hCapital, divide_scaled hk, trade_scaled, gross_scaled]
  by_cases hBuy : state.position = none ∧ direction = .buy
  · rw [if_pos hBuy, if_pos hBuy]
    cases divide state.capital candle.close with
    | error e => rfl
    | ok quantity => simp [Except.map, scaled]
  · rw [if_neg hBuy, if_neg hBuy]
    by_cases hSell : state.position = some .buy ∧ direction = .sell
    · rw [if_pos hSell, if_pos hSell]
      simp [Except.map, scaled]
    · rw [if_neg hSell, if_neg hSell]
      rfl

theorem mark_scaled : (state.scaled k).mark candle = k * state.mark candle := by
  unfold mark
  by_cases hOpen : state.position = some .buy
  · have hOpen' : (state.scaled k).position = some .buy := hOpen
    rw [if_pos hOpen, if_pos hOpen']
    simp only [scaled]
    ring
  · have hOpen' : ¬(state.scaled k).position = some .buy := hOpen
    rw [if_neg hOpen, if_neg hOpen']
    rfl

theorem watch_scaled (hk : 0 < k) :
    (state.scaled k).watch candle = (state.watch candle).scaled k := by
  have hPeak : max (k * state.peak) (k * state.mark candle) =
      k * max state.peak (state.mark candle) := (mul_max_of_nonneg _ _ hk.le).symm
  have hPos (m : ℚ) : k * m > 0 ↔ m > 0 := mul_pos_iff_of_pos_left hk
  unfold watch
  rw [mark_scaled]
  simp only [scaled, hPeak, hPos, share_scaled hk.ne']

theorem step_scaled (hk : 0 < k) (bar : Candle × SignalDirection) :
    (state.scaled k).step (config.scaled k) bar = (state.step config bar).map (scaled k) := by
  unfold step
  rw [act_scaled config state bar.1 hk.ne' bar.2]
  cases state.act config bar.1 bar.2 with
  | error e => rfl
  | ok acted => exact congrArg Except.ok (watch_scaled acted bar.1 hk)

theorem liquidate_scaled :
    (state.scaled k).liquidate (config.scaled k) candle =
      (state.liquidate config candle).scaled k := by
  unfold liquidate
  rw [trade_scaled, gross_scaled]
  by_cases hOpen : state.position = some .buy
  · have hOpen' : (state.scaled k).position = some .buy := hOpen
    rw [if_pos hOpen, if_pos hOpen']
    simp [scaled]
  · have hOpen' : ¬(state.scaled k).position = some .buy := hOpen
    rw [if_neg hOpen, if_neg hOpen']

/-- The wins among scaled trades. -/
theorem wins_length_scaled (hk : 0 < k) (trades : List BacktestTrade) :
    ((trades.map (BacktestTrade.scaled k)).filter BacktestTrade.wins).length =
      (trades.filter BacktestTrade.wins).length := by
  have hWins : BacktestTrade.wins ∘ BacktestTrade.scaled k = BacktestTrade.wins :=
    funext fun t => t.wins_scaled hk
  rw [List.filter_map, List.length_map, hWins]

theorem finish_scaled (hk : 0 < k) (hCapital : config.initialCapital ≠ 0) :
    (state.scaled k).finish (config.scaled k) candle = (state.finish config candle).scaled k := by
  have hBase : (config.scaled k).initialCapital = k * config.initialCapital := rfl
  have hBase' : k * config.initialCapital ≠ 0 := mul_ne_zero hk.ne' hCapital
  unfold finish
  rw [liquidate_scaled, hBase, if_neg hCapital, if_neg hBase']
  generalize state.liquidate config candle = ended
  have hFinal : (if (ended.scaled k).position = some .buy then
        (ended.scaled k).capital + (ended.scaled k).quantity * candle.close
      else (ended.scaled k).capital) =
      k * (if ended.position = some .buy then ended.capital + ended.quantity * candle.close
        else ended.capital) := mark_scaled ended candle
  have hTrades : (ended.scaled k).trades = ended.trades.map (BacktestTrade.scaled k) := rfl
  dsimp only
  rw [hFinal, hTrades, wins_length_scaled hk]
  simp only [share_scaled hk.ne', List.length_map, List.map_eq_nil_iff, BacktestResult.scaled,
    scaled]

end State

/-! ## The run -/

/-- A map that commutes with every step commutes with the fold. -/
theorem foldlM_map_comm {A B C : Type} {f : B → C} {step : B → A → Except Exn B}
    {step' : C → A → Except Exn C} {l : List A}
    (h : ∀ a ∈ l, ∀ b, step' (f b) a = (step b a).map f) (b : B) :
    l.foldlM step' (f b) = (l.foldlM step b).map f := by
  induction l generalizing b with
  | nil => rfl
  | cons a rest ih =>
    rw [List.foldlM_cons, List.foldlM_cons, h a List.mem_cons_self b]
    cases step b a with
    | error e => rfl
    | ok b' => exact ih (fun a' ha' => h a' (List.mem_cons_of_mem _ ha')) b'

section Run

variable {F : Type} {evaluate : Evaluate F} {config : BacktestConfig} {candles : List Candle}
  {feats : List F}

theorem iterate_scaled (hk : 0 < k) (state : State) (bar : Candle × ℕ) :
    iterate evaluate (config.scaled k) candles feats (state.scaled k) bar =
      (iterate evaluate config candles feats state bar).map (State.scaled k) := by
  have hDirection (candles : List Candle) (feats : List F) :
      direction evaluate (config.scaled k) candles feats =
        direction evaluate config candles feats := rfl
  unfold iterate
  rw [hDirection]
  cases direction evaluate config (candles.take (bar.2 + 1)) (feats.take (bar.2 + 1)) with
  | error e => rfl
  | ok direction => exact state.step_scaled config hk (bar.1, direction)

/-- **Scale.** Multiplying the initial capital by a positive factor multiplies the final
capital and the quantities and the profits of the trades by it, and leaves the rest of the
result: the entries, exits and times of the trades, the return, the drawdown, the rate of
wins and the number of trades. Where the one backtest raises, the other raises the same. -/
theorem simulate_scaled (hk : 0 < k) (hCapital : 0 < config.initialCapital) :
    simulate evaluate (config.scaled k) candles feats =
      (simulate evaluate config candles feats).map (BacktestResult.scaled k) := by
  unfold simulate
  cases candles.head? with
  | none => rfl
  | some first =>
    cases candles.getLast? with
    | none => rfl
    | some last =>
      dsimp only
      rw [State.start_scaled, foldlM_map_comm fun bar _ state => iterate_scaled hk state bar]
      cases candles.zipIdx.foldlM (iterate evaluate config candles feats)
          (State.start config first) with
      | error e => rfl
      | ok state => exact congrArg Except.ok (state.finish_scaled config last hk hCapital.ne')

end Run

namespace Doubled

def config : BacktestConfig where
  strategyId := "demo"
  start := 0
  «end» := 2

def candles : List Candle := [{ openedAt := 0, close := 100 }, { openedAt := 1, close := 120 }]

theorem round_trip_doubled :
    simulate (scripted ["BUY", "SELL"]) (config.scaled 2) candles [(), ()] =
      (simulate (scripted ["BUY", "SELL"]) config candles [(), ()]).map (.scaled 2) :=
  simulate_scaled (by decide) (by decide)

end Doubled

end TradingAgent.Backtest
