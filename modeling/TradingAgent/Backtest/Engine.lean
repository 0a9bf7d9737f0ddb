import TradingAgent.Backtest.Entities

/-!
# The backtest engine

`simulate` asks the strategy for a direction after every candle, with the candles and the
features so far, and trades all of its capital on it: BUY while flat opens a position, SELL
while long closes it, and what is open after the last candle is liquidated. Here the amounts are
exact; `Computed` has the same engine with the rounding of decimals.

The strategy gateway is a parameter. `Emits` says which directions it gives along a candle
list, and `simulate_eq` that the simulation is then the loop over candles and directions.
-/

namespace TradingAgent.Backtest

/-- `StrategyGateway.evaluate`, over feature vectors of type `F`. -/
abbrev Evaluate (F : Type) := String → List Candle → List F → Result String Exn

/-- The local variables of the loop. -/
structure State where
  position : Option SignalDirection
  entryAt : Datetime
  entryPrice : ℚ
  capital : ℚ
  quantity : ℚ
  trades : List BacktestTrade
  peak : ℚ
  maxDd : ℚ
  deriving DecidableEq, Repr

variable {F : Type} (evaluate : Evaluate F) (config : BacktestConfig)

/-- `BacktestEngine._direction`. -/
def direction (candles : List Candle) (feats : List F) : Except Exn SignalDirection :=
  match evaluate config.strategyId candles feats with
  | .err e => .error e
  | .ok signal => .ok (.ofSignal signal)

namespace State

def start (first : Candle) : State where
  position := none
  entryAt := first.openedAt
  entryPrice := 0
  capital := config.initialCapital
  quantity := 0
  trades := []
  peak := config.initialCapital
  maxDd := 0

/-- What the open quantity brings at a price, net of the exit fee. -/
def gross (state : State) (price : ℚ) : ℚ := state.quantity * price * (1 - config.feePct)

/-- The trade that closes the open quantity on a candle. -/
def trade (state : State) (candle : Candle) : BacktestTrade where
  symbol := config.symbol
  openedAt := state.entryAt
  closedAt := some candle.openedAt
  side := "long"
  entry := state.entryPrice
  exit := some candle.close
  quantity := state.quantity
  pnl := some ((candle.close - state.entryPrice) * state.quantity -
    state.entryPrice * state.quantity * config.feePct)

/-- The trade, if any, on a direction. -/
def act (state : State) (candle : Candle) (direction : SignalDirection) : Except Exn State :=
  if state.position = none ∧ direction = .buy then
    match divide state.capital candle.close with
    | .error e => .error e
    | .ok quantity =>
      .ok
        { state with
          position := some .buy
          entryAt := candle.openedAt
          entryPrice := candle.close
          quantity := quantity
          capital := 0 }
  else if state.position = some .buy ∧ direction = .sell then
    .ok
      { state with
        trades := state.trades ++ [state.trade config candle]
        capital := state.gross config candle.close
        quantity := 0
        position := none }
  else .ok state

def mark (state : State) (candle : Candle) : ℚ :=
  if state.position = some .buy then state.capital + state.quantity * candle.close
  else state.capital

/-- The peak and the drawdown after a candle. -/
def watch (state : State) (candle : Candle) : State :=
  let mark := state.mark candle
  let peak := max state.peak mark
  { state with
    peak := peak
    maxDd := if peak > 0 then max state.maxDd ((peak - mark) / peak * 100) else state.maxDd }

/-- One iteration of the loop, once the direction is known. -/
def step (state : State) (bar : Candle × SignalDirection) : Except Exn State :=
  match state.act config bar.1 bar.2 with
  | .error e => .error e
  | .ok acted => .ok (acted.watch bar.1)

/-- The liquidation of what is open after the last candle. It leaves the quantity. -/
def liquidate (state : State) (last : Candle) : State :=
  if state.position = some .buy then
    { state with
      trades := state.trades ++ [state.trade config last]
      capital := state.gross config last.close }
  else state

/-- The result of the loop's last state. -/
def finish (state : State) (last : Candle) : BacktestResult :=
  let ended := state.liquidate config last
  let finalCapital := if ended.position = some .buy then
    ended.capital + ended.quantity * last.close else ended.capital
  let base := if config.initialCapital = 0 then 1 else config.initialCapital
  { config := config
    trades := ended.trades
    initialCapital := config.initialCapital
    finalCapital := finalCapital
    totalReturnPct := (finalCapital - config.initialCapital) / base * 100
    maxDrawdownPct := ended.maxDd
    winRatePct := if ended.trades = [] then 0
      else (ended.trades.filter BacktestTrade.wins).length / ended.trades.length * 100
    tradeCount := ended.trades.length }

end State

/-- One iteration of the loop over the candles and their indices. -/
def iterate (candles : List Candle) (feats : List F) (state : State) (bar : Candle × ℕ) :
    Except Exn State :=
  match direction evaluate config (candles.take (bar.2 + 1)) (feats.take (bar.2 + 1)) with
  | .error e => .error e
  | .ok direction => state.step config (bar.1, direction)

/-- `BacktestEngine._simulate`, in exact arithmetic. -/
def simulate (candles : List Candle) (feats : List F) : Except Exn BacktestResult :=
  match candles.head?, candles.getLast? with
  | some first, some last =>
    (candles.zipIdx.foldlM (iterate evaluate config candles feats)
      (State.start config first)).map fun state => state.finish config last
  | _, _ => .error (.other "IndexError")

/-- The strategy gives these directions along the candles. -/
structure Emits (candles : List Candle) (feats : List F) (signals : List SignalDirection) :
    Prop where
  length_eq : signals.length = candles.length
  direction_eq : ∀ i < candles.length,
    direction evaluate config (candles.take (i + 1)) (feats.take (i + 1)) =
      .ok (signals.getD i .hold)

/-- The strategy that gives these texts along the candles. -/
def scripted (signals : List String) : Evaluate F := fun _ candles _ =>
  .ok (signals.getD (candles.length - 1) "HOLD")

/-- The loop over candles and directions. -/
def loop (state : State) (bars : List (Candle × SignalDirection)) : Except Exn State :=
  bars.foldlM (State.step config) state

theorem loop_concat (state : State) (bars : List (Candle × SignalDirection))
    (bar : Candle × SignalDirection) :
    loop config state (bars ++ [bar]) =
      (loop config state bars).bind fun state' => state'.step config bar := by
  rw [loop, List.foldlM_append]
  refine congrArg (bars.foldlM (State.step config) state >>= ·) (funext fun state' => ?_)
  rw [List.foldlM_cons]
  exact bind_pure _

/-- Folds of functions that agree on the list are equal. -/
theorem foldlM_congr {A B : Type} {l : List A} {f g : B → A → Except Exn B}
    (h : ∀ a ∈ l, ∀ b, f b a = g b a) (b : B) : l.foldlM f b = l.foldlM g b := by
  induction l generalizing b with
  | nil => rfl
  | cons a rest ih =>
    rw [List.foldlM_cons, List.foldlM_cons, h a List.mem_cons_self b]
    exact congrArg (g b a >>= ·) (funext (ih fun c hc => h c (List.mem_cons_of_mem _ hc)))

variable {evaluate config}

/-- Every list of signals is given by a strategy. -/
theorem scripted_emits {candles : List Candle} {feats : List F} {signals : List String}
    (hLength : signals.length = candles.length) :
    Emits (scripted signals) config candles feats (signals.map .ofSignal) := by
  refine ⟨by rw [List.length_map, hLength], fun i hi => ?_⟩
  have hSignal : i < signals.length := by omega
  have hTake : (candles.take (i + 1)).length - 1 = i := by
    rw [List.length_take]
    omega
  simp only [direction, scripted, hTake]
  simp [hSignal]

/-- The bars of the loop are the candles with their indices, read in the signals. -/
theorem zip_signals {candles : List Candle} {feats : List F} {signals : List SignalDirection}
    (h : Emits evaluate config candles feats signals) :
    candles.zip signals = candles.zipIdx.map fun p => (p.1, signals.getD p.2 .hold) := by
  refine List.ext_getElem (by simp [h.length_eq]) fun i hi hi' => ?_
  have hSignals : i < signals.length := by
    rw [h.length_eq]
    simpa using hi'
  simp [hSignals]

section Directed

variable {candles : List Candle} {feats : List F} {signals : List SignalDirection}
  {asking : State → Candle × ℕ → Except Exn State}
  {directed : State → Candle × SignalDirection → Except Exn State}

/-- A loop that asks for a direction after every candle is a loop over the bars. -/
theorem foldlM_take_directed (h : Emits evaluate config candles feats signals)
    (hAsking : ∀ state bar given, direction evaluate config (candles.take (bar.2 + 1))
      (feats.take (bar.2 + 1)) = .ok given → asking state bar = directed state (bar.1, given))
    (state : State) (k : ℕ) :
    (candles.zipIdx.take k).foldlM asking state =
      ((candles.zip signals).take k).foldlM directed state := by
  rw [zip_signals h, ← List.map_take, List.foldlM_map]
  refine foldlM_congr (fun p hp state => ?_) state
  have hIndex : p.2 < candles.length := by
    have hLt := List.snd_lt_of_mem_zipIdx (List.mem_of_mem_take hp)
    omega
  exact hAsking state p _ (h.direction_eq p.2 hIndex)

theorem foldlM_directed (h : Emits evaluate config candles feats signals)
    (hAsking : ∀ state bar given, direction evaluate config (candles.take (bar.2 + 1))
      (feats.take (bar.2 + 1)) = .ok given → asking state bar = directed state (bar.1, given))
    (state : State) : candles.zipIdx.foldlM asking state =
      (candles.zip signals).foldlM directed state := by
  have hTake := foldlM_take_directed h hAsking state candles.length
  have hZip : (candles.zip signals).length ≤ candles.length := by
    rw [List.length_zip]
    exact Nat.min_le_left _ _
  rwa [List.take_of_length_le List.length_zipIdx.le, List.take_of_length_le hZip] at hTake

end Directed

theorem iterate_of_direction {candles : List Candle} {feats : List F} (state : State)
    (bar : Candle × ℕ) (given : SignalDirection)
    (h : direction evaluate config (candles.take (bar.2 + 1)) (feats.take (bar.2 + 1)) =
      .ok given) :
    iterate evaluate config candles feats state bar = state.step config (bar.1, given) := by
  rw [iterate, h]

/-- The first bars of the loop. -/
theorem iterate_eq_loop {candles : List Candle} {feats : List F} {signals : List SignalDirection}
    (h : Emits evaluate config candles feats signals) (state : State) (k : ℕ) :
    (candles.zipIdx.take k).foldlM (iterate evaluate config candles feats) state =
      loop config state ((candles.zip signals).take k) :=
  foldlM_take_directed h iterate_of_direction state k

theorem simulate_eq {first last : Candle} {candles : List Candle} {feats : List F}
    {signals : List SignalDirection} (hFirst : candles.head? = some first)
    (hLast : candles.getLast? = some last) (h : Emits evaluate config candles feats signals) :
    simulate evaluate config candles feats =
      (loop config (State.start config first) (candles.zip signals)).map fun state =>
        state.finish config last := by
  have hLoop := foldlM_directed h iterate_of_direction (State.start config first)
  unfold simulate
  rw [hFirst, hLast]
  dsimp only
  rw [hLoop]
  rfl

end TradingAgent.Backtest
