import TradingAgent.Backtest.Ledger

/-!
# The final liquidation

A backtest that ends long sells what is open at the last close. The SELL branch of the loop
empties the quantity and the position; the liquidation after the loop does not, and the
final capital counts the quantity once more on top of what it brought. `liquidated_once_iff`
compares a run that ends long with the run whose last signal is SELL: they agree only where
there was nothing left to hold.
-/

namespace TradingAgent.Backtest

open Accounting

section Finish

variable (config : BacktestConfig) (state : State) (last : Candle)

/-- A run that ends long: the trade of the liquidation, and the quantity counted twice. -/
theorem finish_long {direction : SignalDirection} (hPosition : state.position = some .buy)
    (hHeld : direction ≠ .sell) :
    ∃ ended, state.step config (last, direction) = .ok ended ∧
      (ended.finish config last).trades = state.trades ++ [state.trade config last] ∧
      (ended.finish config last).finalCapital =
        state.gross config last.close + state.quantity * last.close := by
  have hAct : state.act config last direction = .ok state := by
    rw [State.act, if_neg (by simp [hPosition]), if_neg fun hSell => hHeld hSell.2]
  refine ⟨state.watch last, by rw [State.step, hAct], ?_, ?_⟩
  · have hWatched : (state.watch last).position = some .buy := hPosition
    simp only [State.finish, State.liquidate, hWatched, if_true]
    rfl
  · have hWatched : (state.watch last).position = some .buy := hPosition
    simp only [State.finish, State.liquidate, hWatched, if_true]
    rfl

/-- A run whose last signal sells: the same trade, and its proceeds. -/
theorem finish_sold (hPosition : state.position = some .buy) :
    ∃ ended, state.step config (last, .sell) = .ok ended ∧
      (ended.finish config last).trades = state.trades ++ [state.trade config last] ∧
      (ended.finish config last).finalCapital = state.gross config last.close := by
  have hNotFlat : ¬(state.position = none ∧ SignalDirection.sell = .buy) := by
    simp [hPosition]
  refine ⟨_, by rw [State.step, State.act, if_neg hNotFlat, if_pos ⟨hPosition, rfl⟩], ?_, ?_⟩
  · simp [State.finish, State.liquidate, State.watch]
  · simp [State.finish, State.liquidate, State.watch]

/-- The return is that of the final capital. -/
theorem totalReturnPct_eq {ended ended' : State}
    (h : (ended.finish config last).finalCapital = (ended'.finish config last).finalCapital) :
    (ended.finish config last).totalReturnPct = (ended'.finish config last).totalReturnPct := by
  have hReturn (state : State) : (state.finish config last).totalReturnPct =
      ((state.finish config last).finalCapital - config.initialCapital) /
        (if config.initialCapital = 0 then 1 else config.initialCapital) * 100 := rfl
  rw [hReturn, hReturn, h]

end Finish

section Liquidation

variable {F : Type} {evaluate sold : Evaluate F} {config : BacktestConfig}

/-- The simulation by its state before the last candle. -/
theorem simulate_concat {first last : Candle} {candles : List Candle} {feats : List F}
    {signals : List SignalDirection} {direction : SignalDirection} {state ended : State}
    (hSignals : Emits evaluate config (candles ++ [last]) feats (signals ++ [direction]))
    (hFirst : (candles ++ [last]).head? = some first)
    (hLoop : loop config (State.start config first) (candles.zip signals) = .ok state)
    (hStep : state.step config (last, direction) = .ok ended) :
    simulate evaluate config (candles ++ [last]) feats = .ok (ended.finish config last) := by
  have hLength : candles.length = signals.length := by
    have hEmits := hSignals.length_eq
    simp only [List.length_append, List.length_singleton] at hEmits
    omega
  rw [simulate_eq hFirst List.getLast?_concat hSignals, List.zip_append hLength]
  show (loop config _ (candles.zip signals ++ [(last, direction)])).map _ = _
  rw [loop_concat, hLoop]
  show (state.step config (last, direction)).map _ = _
  rw [hStep]
  rfl

/-- A loop that ends long holds a position, and holds nothing in it only if there was no
capital to begin with or the fee of an earlier round trip took all of it. -/
theorem loop_long (config : BacktestConfig) (first : Candle) {candles : List Candle}
    {signals : List SignalDirection} (hLength : signals.length = candles.length)
    (hClose : ∀ candle ∈ candles, 0 < candle.close) (hLong : long signals = true) :
    ∃ state, loop config (State.start config first) (candles.zip signals) = .ok state ∧
      state.position = some .buy ∧
      (state.quantity = 0 ↔
        config.initialCapital = 0 ∨ config.feePct = 1 ∧ [.buy, .sell].Sublist signals) := by
  have hSnd : (candles.zip signals).map Prod.snd = signals := List.map_snd_zip hLength.le
  obtain ⟨state, hLoop, hFollows⟩ := loop_follows config first (candles.zip signals)
    fun bar hBar => hClose bar.1 (List.of_mem_zip hBar).1
  obtain ⟨entry, hOpened⟩ : ∃ entry, (path (candles.zip signals)).opened = some entry := by
    rw [← Option.isSome_iff_exists, opened_isSome, hSnd, hLong]
  obtain ⟨hEntry, -, -, hQuantity⟩ := hFollows.held entry hOpened
  have hRatio : ∀ trip ∈ (path (candles.zip signals)).completed, trip.ratio ≠ 0 := by
    intro trip hTrip
    obtain ⟨hBought, hSold⟩ := hFollows.prices trip hTrip
    exact (div_pos hSold hBought).ne'
  refine ⟨state, hLoop, ?_, ?_⟩
  · rw [hFollows.position, hOpened]
    rfl
  · rw [hQuantity, div_eq_zero_iff, or_iff_left hEntry.ne', compound_eq_zero_iff _ hRatio,
      completed_ne_nil_iff, hSnd, sub_eq_zero, @eq_comm ℚ 1]

/-- **The liquidation.** A backtest that ends long and the one that sells on the last candle
have the same trades, final capital and return exactly when the capital in the position was
nothing: none to begin with, or all of it taken by the fee of an earlier round trip. -/
theorem liquidated_once_iff {candles : List Candle} {feats : List F}
    {signals : List SignalDirection} {direction : SignalDirection}
    (hSignals : Emits evaluate config candles feats (signals ++ [direction]))
    (hSold : Emits sold config candles feats (signals ++ [.sell]))
    (hClose : ∀ candle ∈ candles, 0 < candle.close) (hLong : long signals = true)
    (hHeld : direction ≠ .sell) :
    ∃ result result', simulate evaluate config candles feats = .ok result ∧
      simulate sold config candles feats = .ok result' ∧
      (result.trades = result'.trades ∧ result.finalCapital = result'.finalCapital ∧
          result.totalReturnPct = result'.totalReturnPct ↔
        config.initialCapital = 0 ∨
          config.feePct = 1 ∧ [.buy, .sell].Sublist signals) := by
  obtain ⟨before, last, rfl⟩ : ∃ before last, candles = before ++ [last] := by
    have hNonempty : candles ≠ [] := by
      rintro rfl
      simpa using hSignals.length_eq
    exact ⟨_, _, (List.dropLast_append_getLast hNonempty).symm⟩
  obtain ⟨first, hFirst⟩ : ∃ first, (before ++ [last]).head? = some first := by
    cases before with
    | nil => exact ⟨last, rfl⟩
    | cons first rest => exact ⟨first, rfl⟩
  have hLength : signals.length = before.length := by
    have hEmits := hSignals.length_eq
    simp only [List.length_append, List.length_singleton] at hEmits
    omega
  obtain ⟨state, hLoop, hPosition, hStake⟩ := loop_long config first hLength
    (fun candle hCandle => hClose candle (List.mem_append_left _ hCandle)) hLong
  obtain ⟨ended, hEnded, hTrades, hFinal⟩ := finish_long config state last hPosition hHeld
  obtain ⟨ended', hEnded', hTrades', hFinal'⟩ := finish_sold config state last hPosition
  refine ⟨_, _, simulate_concat hSignals hFirst hLoop hEnded,
    simulate_concat hSold hFirst hLoop hEnded', ?_⟩
  have hLast : last.close ≠ 0 :=
    (hClose last (List.mem_append_right _ (List.mem_singleton_self _))).ne'
  rw [← hStake, hTrades, hTrades']
  constructor
  · -- Equal capitals leave nothing for the quantity that is counted twice.
    rintro ⟨-, hCapital, -⟩
    rw [hFinal, hFinal'] at hCapital
    have hTwice : state.quantity * last.close = 0 := left_eq_add.mp hCapital.symm
    exact (mul_eq_zero.mp hTwice).resolve_right hLast
  · intro hNothing
    have hCapital : (ended.finish config last).finalCapital =
        (ended'.finish config last).finalCapital := by
      rw [hFinal, hFinal', hNothing, zero_mul, add_zero]
    exact ⟨rfl, hCapital, totalReturnPct_eq config last hCapital⟩

end Liquidation

namespace Flat

def config : BacktestConfig where
  strategyId := "demo"
  start := 0
  «end» := 2

/-- Two candles at one price. -/
def candles : List Candle := [{ openedAt := 0, close := 100 }, { openedAt := 1, close := 100 }]

/-- The run that ends long reports twice what the same trade brings. -/
theorem counted_twice :
    (simulate (scripted ["BUY", "HOLD"]) config candles [(), ()]).map (·.finalCapital) =
        .ok 19990 ∧
      (simulate (scripted ["BUY", "SELL"]) config candles [(), ()]).map (·.finalCapital) =
        .ok 9990 := by
  decide +kernel

theorem candles_priced : ∀ candle ∈ candles, 0 < candle.close := by
  decide +kernel

theorem held_miscounted :
    ∃ result result', simulate (scripted ["BUY", "HOLD"]) config candles [(), ()] = .ok result ∧
      simulate (scripted ["BUY", "SELL"]) config candles [(), ()] = .ok result' ∧
      (result.trades = result'.trades ∧ result.finalCapital = result'.finalCapital ∧
          result.totalReturnPct = result'.totalReturnPct ↔
        config.initialCapital = 0 ∨
          config.feePct = 1 ∧ [SignalDirection.buy, .sell].Sublist [SignalDirection.buy]) :=
  liquidated_once_iff (scripted_emits rfl) (scripted_emits rfl) candles_priced rfl
    (show SignalDirection.hold ≠ .sell by decide)

end Flat

end TradingAgent.Backtest
