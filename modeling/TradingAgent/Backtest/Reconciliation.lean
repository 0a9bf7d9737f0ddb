import TradingAgent.Backtest.Ledger
import Mathlib.Tactic.Linarith

/-!
# The trades against the capital

The loop charges the exit fee on the price of exit, the recorded profit of a trade charges it
on the price of entry. `reconciles_iff` says when the profits of a backtest that ends flat
still add up to the change of capital, and the winning trades are those that raised it.
-/

namespace TradingAgent.Backtest

open Accounting

/-! ## A trade and its round trip -/

theorem BacktestTrade.wins_iff {t : BacktestTrade} : t.wins = true ↔ 0 < t.profit := by
  unfold wins profit
  cases t.pnl with
  | none => simp
  | some pnl => simp

namespace Settled

variable {feePct stake : ℚ} {t : BacktestTrade} {trip : Trip ℚ}

theorem wins_iff (h : Settled feePct stake t trip) (hEntry : trip.entry ≠ 0)
    (hStake : 0 < stake) : t.wins = true ↔ 1 + feePct < trip.ratio := by
  rw [BacktestTrade.wins_iff, h.profit_eq hEntry, mul_pos_iff_of_pos_left hStake]
  constructor
  · intro hProfit
    linarith
  · intro hRatio
    linarith

theorem raises_iff (h : Settled feePct stake t trip) (hEntry : trip.entry ≠ 0)
    (hStake : 0 < stake) :
    t.capitalBefore < t.capitalAfter feePct ↔ 1 < trip.ratio * (1 - feePct) := by
  rw [h.capitalBefore_eq hEntry, h.capitalAfter_eq, Trip.settle, mul_assoc,
    lt_mul_iff_one_lt_right hStake]

/-- A trade that raised the capital wins. One that wins may not have raised it. -/
theorem counted_iff (h : Settled feePct stake t trip) (hEntry : trip.entry ≠ 0)
    (hStake : 0 < stake) (hFee : feePct < 1) :
    (t.wins = true ↔ t.capitalBefore < t.capitalAfter feePct) ↔
      ¬(1 + feePct < trip.ratio ∧ trip.ratio * (1 - feePct) ≤ 1) := by
  rw [h.wins_iff hEntry hStake, h.raises_iff hEntry hStake, not_and, not_le]
  refine ⟨fun hSame => hSame.mp, fun hWins => ⟨hWins, fun hRaised => ?_⟩⟩
  have hKeep : 0 < 1 - feePct := by linarith
  have hSquare : (1 + feePct) * (1 - feePct) ≤ 1 := by
    have hNonneg := mul_self_nonneg feePct
    linarith
  exact lt_of_mul_lt_mul_right (hSquare.trans_lt hRaised) hKeep.le

end Settled

/-- What holds of every trade, by what holds of every round trip. -/
theorem Settles.forall_iff {feePct stake : ℚ} {ts : List BacktestTrade} {trips : List (Trip ℚ)}
    {P : BacktestTrade → Prop} {Q : Trip ℚ → Prop} (h : Settles feePct stake ts trips)
    (hKeep : 0 < 1 - feePct) (hStake : 0 < stake)
    (hPrices : ∀ trip ∈ trips, 0 < trip.entry ∧ 0 < trip.exit)
    (hEach : ∀ stake t trip, 0 < stake → trip.entry ≠ 0 → Settled feePct stake t trip →
      (P t ↔ Q trip)) :
    (∀ t ∈ ts, P t) ↔ ∀ trip ∈ trips, Q trip := by
  induction ts generalizing stake trips with
  | nil =>
    cases trips with
    | nil => simp
    | cons trip trips => exact h.elim
  | cons t ts ih =>
    cases trips with
    | nil => exact h.elim
    | cons trip trips =>
      obtain ⟨hEntry, hExit⟩ := hPrices trip List.mem_cons_self
      have hLeft : 0 < trip.settle (1 - feePct) stake :=
        mul_pos (mul_pos hStake (div_pos hExit hEntry)) hKeep
      have hRest := ih h.2 hLeft fun u hu => hPrices u (List.mem_cons_of_mem _ hu)
      rw [List.forall_mem_cons, List.forall_mem_cons, hRest,
        hEach stake t trip hStake hEntry.ne' h.1]

/-! ## The result of a run that ends flat -/

theorem finish_flat (config : BacktestConfig) {state : State} (last : Candle)
    (hPosition : state.position = none) :
    (state.finish config last).trades = state.trades ∧
      (state.finish config last).finalCapital = state.capital := by
  simp [State.finish, State.liquidate, hPosition]

section Reconciliation

variable {F : Type} {evaluate : Evaluate F} {config : BacktestConfig} {candles : List Candle}
  {feats : List F} {signals : List SignalDirection}

/-- The simulation of a strategy that ends flat, by its round trips. -/
theorem simulate_flat (hSignals : Emits evaluate config candles feats signals)
    (hClose : ∀ candle ∈ candles, 0 < candle.close) (hFlat : long signals = false)
    (hCandles : candles ≠ []) :
    ∃ result, simulate evaluate config candles feats = .ok result ∧
      result.finalCapital = compound (1 - config.feePct) config.initialCapital
        (path (candles.zip signals)).completed ∧
      Settles config.feePct config.initialCapital result.trades
        (path (candles.zip signals)).completed ∧
      ∀ trip ∈ (path (candles.zip signals)).completed, 0 < trip.entry ∧ 0 < trip.exit := by
  have hFirst := List.head?_eq_some_head hCandles
  have hLast := List.getLast?_eq_some_getLast hCandles
  obtain ⟨state, hLoop, hFollows⟩ := loop_follows config (candles.head hCandles)
    (candles.zip signals) fun bar hBar => hClose bar.1 (List.of_mem_zip hBar).1
  have hOpened : (path (candles.zip signals)).opened = none := by
    have hSnd : (candles.zip signals).map Prod.snd = signals :=
      List.map_snd_zip hSignals.length_eq.le
    rw [← Option.not_isSome_iff_eq_none, opened_isSome, hSnd, hFlat]
    exact Bool.false_ne_true
  have hPosition : state.position = none := by
    rw [hFollows.position, hOpened]
    rfl
  obtain ⟨hTrades, hFinal⟩ := finish_flat config (candles.getLast hCandles) hPosition
  refine ⟨state.finish config (candles.getLast hCandles), ?_, ?_, ?_, hFollows.prices⟩
  · rw [simulate_eq hFirst hLast hSignals, hLoop]
    rfl
  · rw [hFinal, (hFollows.flat hOpened).1]
  · rw [hTrades]
    exact hFollows.trades

/-- **The reconciliation.** The profits of a backtest that ends flat add up to the change of
capital, and its winning trades are those that raised the capital, exactly when no fee is
charged or when what the stakes lost in price comes to nothing and no round trip gained more
than the fee on its entry and not more than the fee on its exit. -/
theorem reconciles_iff (hSignals : Emits evaluate config candles feats signals)
    (hClose : ∀ candle ∈ candles, 0 < candle.close) (hFlat : long signals = false)
    (hInitial : 0 < config.initialCapital) (hFee : config.feePct < 1) :
    (candles ≠ [] → ∃ result, simulate evaluate config candles feats = .ok result) ∧
      ∀ result, simulate evaluate config candles feats = .ok result →
        (result.finalCapital - config.initialCapital =
              (result.trades.map BacktestTrade.profit).sum ∧
            (∀ t ∈ result.trades,
              t.wins = true ↔ t.capitalBefore < t.capitalAfter config.feePct) ↔
          config.feePct = 0 ∨
            drift (1 - config.feePct) 1 (path (candles.zip signals)).completed = 0 ∧
              ∀ trip ∈ (path (candles.zip signals)).completed,
                ¬(1 + config.feePct < trip.ratio ∧ trip.ratio * (1 - config.feePct) ≤ 1)) := by
  refine ⟨fun hCandles => ?_, fun result hResult => ?_⟩
  · obtain ⟨result, hResult, -⟩ := simulate_flat hSignals hClose hFlat hCandles
    exact ⟨result, hResult⟩
  have hCandles : candles ≠ [] := by
    rintro rfl
    cases hResult
  obtain ⟨result', hResult', hFinal, hSettles, hPrices⟩ :=
    simulate_flat hSignals hClose hFlat hCandles
  obtain rfl := Except.ok.inj (hResult.symm.trans hResult')
  have hKeep : 0 < 1 - config.feePct := by linarith
  have hSum := hSettles.sum_profit fun trip hTrip => (hPrices trip hTrip).1.ne'
  have hAdds : result.finalCapital - config.initialCapital =
      (result.trades.map BacktestTrade.profit).sum ↔
      config.feePct = 0 ∨
        drift (1 - config.feePct) 1 (path (candles.zip signals)).completed = 0 := by
    rw [hFinal, hSum, add_eq_left, mul_eq_zero, drift_eq_mul, mul_eq_zero,
      or_iff_right hInitial.ne']
  have hWins := hSettles.forall_iff (P := fun t =>
      t.wins = true ↔ t.capitalBefore < t.capitalAfter config.feePct) hKeep hInitial hPrices
    fun stake t trip hStake hEntry hSettled =>
      hSettled.counted_iff hEntry hStake hFee
  rw [hAdds, hWins]
  constructor
  · rintro ⟨hNoFee | hDrift, hCounted⟩
    · exact .inl hNoFee
    · exact .inr ⟨hDrift, hCounted⟩
  · rintro (hNoFee | ⟨hDrift, hCounted⟩)
    · refine ⟨.inl hNoFee, fun trip _ hGain => ?_⟩
      rw [hNoFee] at hGain
      linarith [hGain.1, hGain.2]
    · exact ⟨.inr hDrift, hCounted⟩

end Reconciliation

namespace Thin

def config : BacktestConfig where
  strategyId := "demo"
  start := 0
  «end» := 2

/-- A gain of slightly more than the fee. -/
def candles : List Candle :=
  [{ openedAt := 0, close := 100000 }, { openedAt := 1, close := 2002001 / 20 }]

/-- The trade is recorded with a profit and counted as a win; it lowered the capital. -/
theorem loss_counted_as_win :
    (simulate (scripted ["BUY", "SELL"]) config candles [(), ()]).map
        (fun result => (result.initialCapital, result.finalCapital,
          result.trades.map BacktestTrade.profit, result.winRatePct)) =
      .ok (10000, 1999998999 / 200000, [1 / 200], 100) := by
  decide +kernel

theorem candles_priced : ∀ candle ∈ candles, 0 < candle.close := by
  decide +kernel

theorem thin_unreconciled :
    (candles ≠ [] →
        ∃ result, simulate (scripted ["BUY", "SELL"]) config candles [(), ()] = .ok result) ∧
      ∀ result, simulate (scripted ["BUY", "SELL"]) config candles [(), ()] = .ok result →
        (result.finalCapital - config.initialCapital =
              (result.trades.map BacktestTrade.profit).sum ∧
            (∀ t ∈ result.trades,
              t.wins = true ↔ t.capitalBefore < t.capitalAfter config.feePct) ↔
          config.feePct = 0 ∨
            drift (1 - config.feePct) 1 (path (candles.zip [.buy, .sell])).completed = 0 ∧
              ∀ trip ∈ (path (candles.zip [.buy, .sell])).completed,
                ¬(1 + config.feePct < trip.ratio ∧ trip.ratio * (1 - config.feePct) ≤ 1)) :=
  reconciles_iff (scripted_emits rfl) candles_priced rfl (by decide +kernel) (by decide +kernel)

end Thin

end TradingAgent.Backtest
