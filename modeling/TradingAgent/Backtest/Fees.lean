import TradingAgent.Backtest.Lockstep

/-!
# Fees never help

The same backtest at a higher fee runs in lockstep with the first and falls behind it at every
sale. So it makes the same trades with smaller quantities, and ends with less capital, no
less a drawdown and no more wins: `fees_never_help`.
-/

namespace TradingAgent.Backtest

open Accounting

/-- The backtest at another fee. -/
def BacktestConfig.charging (config : BacktestConfig) (feePct : ℚ) : BacktestConfig :=
  { config with feePct := feePct }

/-- The same trade with no larger a quantity; it wins only if the other does. -/
structure BacktestTrade.Shrinks (t t' : BacktestTrade) : Prop where
  symbol : t'.symbol = t.symbol
  openedAt : t'.openedAt = t.openedAt
  closedAt : t'.closedAt = t.closedAt
  side : t'.side = t.side
  entry : t'.entry = t.entry
  exit : t'.exit = t.exit
  quantity : t'.quantity ≤ t.quantity
  wins : t'.wins = true → t.wins = true

/-- The second result is no better than the first, for the same trades. -/
structure BacktestResult.Dominates (result result' : BacktestResult) : Prop where
  trades : List.Forall₂ BacktestTrade.Shrinks result.trades result'.trades
  finalCapital : result'.finalCapital ≤ result.finalCapital
  totalReturnPct : result'.totalReturnPct ≤ result.totalReturnPct
  maxDrawdownPct : result.maxDrawdownPct ≤ result'.maxDrawdownPct
  winRatePct : result'.winRatePct ≤ result.winRatePct
  tradeCount : result'.tradeCount = result.tradeCount

/-- The second state has fallen to `k` times the first. -/
structure State.Trails (k : ℚ) (s s' : State) : Prop where
  lags : s.Lags k s'
  factor : 0 ≤ k ∧ k ≤ 1
  solvent : s.Solvent
  entry : 0 ≤ s.entryPrice
  trades : List.Forall₂ BacktestTrade.Shrinks s.trades s'.trades
  behind : Watermark.Behind k s.watermark s'.watermark

section Fees

variable {config : BacktestConfig} {feePct k r : ℚ} {s s' : State}

/-- The part of what one fee leaves that another fee does. -/
theorem exists_keep (hFee : config.feePct ≤ feePct) (hAll : feePct ≤ 1) :
    ∃ r, 0 ≤ r ∧ r ≤ 1 ∧ 1 - (config.charging feePct).feePct = r * (1 - config.feePct) := by
  have hCharged : (config.charging feePct).feePct = feePct := rfl
  rcases (hFee.trans hAll).lt_or_eq with hLess | hWhole
  · have hLeft : 0 < 1 - config.feePct := by linarith
    refine ⟨(1 - feePct) / (1 - config.feePct), div_nonneg (by linarith) hLeft.le,
      (div_le_one hLeft).mpr (by linarith), ?_⟩
    rw [hCharged, div_mul_cancel₀ _ hLeft.ne']
  · refine ⟨1, zero_le_one, le_rfl, ?_⟩
    rw [hCharged]
    linarith

/-- The trade at the higher fee. -/
theorem State.Lags.shrinks (h : s.Lags k s') (hFactor : 0 ≤ k ∧ k ≤ 1) (hSolvent : s.Solvent)
    (hEntry : 0 ≤ s.entryPrice) (hFee : config.feePct ≤ feePct)
    (hLong : s.position = some .buy) (candle : Candle) :
    (s.trade config candle).Shrinks (s'.trade (config.charging feePct) candle) := by
  have hQuantity : k * s.quantity ≤ s.quantity :=
    mul_le_of_le_one_left hSolvent.quantity hFactor.2
  rw [h.trade hLong]
  refine ⟨rfl, rfl, rfl, rfl, rfl, rfl, hQuantity, fun hWins => ?_⟩
  have hGain : 0 < k * ((candle.close - s.entryPrice) * s.quantity -
      s.entryPrice * s.quantity * feePct) := of_decide_eq_true hWins
  have hGain' := pos_of_mul_pos_right hGain hFactor.1
  refine decide_eq_true (hGain'.trans_le ?_)
  exact sub_le_sub_left
    (mul_le_mul_of_nonneg_left hFee (mul_nonneg hEntry hSolvent.quantity)) _

theorem State.Trails.step (h : s.Trails k s') (hKeep : 1 - (config.charging feePct).feePct =
      r * (1 - config.feePct)) (hLeft : 0 ≤ r ∧ r ≤ 1) (hFee : config.feePct ≤ feePct)
    (hAll : feePct ≤ 1) (bar : Bar) (hClose : 0 < bar.1.close) :
    Both (fun t t' => ∃ k', t.Trails k' t') (s.step config bar)
      (s'.step (config.charging feePct) bar) := by
  obtain ⟨acted, acted', hAct, hAct', hBoth⟩ := h.lags.act hKeep hClose
  obtain ⟨k', hLags, hFactor, hLe, hEntry, hTrades⟩ : ∃ k', acted.Lags k' acted' ∧
      (0 ≤ k' ∧ k' ≤ 1) ∧ k' ≤ k ∧ 0 ≤ acted.entryPrice ∧
        List.Forall₂ BacktestTrade.Shrinks acted.trades acted'.trades := by
    rcases hBoth with ⟨hLags, hSame, hSame', hEntry⟩ | ⟨hLong, hLags, hSold, hSold', hEntry⟩
    · refine ⟨k, hLags, h.factor, le_rfl, ?_, ?_⟩
      · rcases hEntry with hEntry | hEntry
        · exact hEntry ▸ h.entry
        · exact hEntry ▸ hClose.le
      · rw [hSame, hSame']
        exact h.trades
    · have hLe : k * r ≤ k := mul_le_of_le_one_right h.factor.1 hLeft.2
      refine ⟨k * r, hLags, ⟨mul_nonneg h.factor.1 hLeft.1, hLe.trans h.factor.2⟩, hLe,
        hEntry ▸ h.entry, ?_⟩
      rw [hSold, hSold']
      exact List.rel_append h.trades
        (.cons (h.lags.shrinks h.factor h.solvent h.entry hFee hLong bar.1) .nil)
  have hSolvent : acted.Solvent := h.solvent.act (hFee.trans hAll) hClose.le hAct
  rw [State.step, State.step, hAct, hAct']
  refine .ok ⟨k', hLags.watch bar.1, hFactor, ⟨hSolvent.capital, hSolvent.quantity⟩, hEntry,
    hTrades, ?_⟩
  -- The marks are in the same relation as the states.
  have hBehind := h.behind
  rw [← State.act_watermark hAct, ← State.act_watermark hAct'] at hBehind
  have hMark := hBehind.watch (hSolvent.mark hClose.le) hFactor.1 hLe
  rw [← hLags.mark] at hMark
  exact hMark

/-! ## The end of the backtest -/

theorem wins_length_le {ts ts' : List BacktestTrade}
    (h : List.Forall₂ BacktestTrade.Shrinks ts ts') :
    (ts'.filter BacktestTrade.wins).length ≤ (ts.filter BacktestTrade.wins).length := by
  induction h with
  | nil => exact le_rfl
  | @cons t t' rest rest' hFirst _ ih =>
    by_cases hWins : t'.wins = true
    · rw [List.filter_cons_of_pos hWins, List.filter_cons_of_pos (hFirst.wins hWins),
        List.length_cons, List.length_cons]
      exact Nat.succ_le_succ ih
    · rw [List.filter_cons_of_neg hWins]
      by_cases hWon : t.wins = true
      · rw [List.filter_cons_of_pos hWon, List.length_cons]
        exact Nat.le_succ_of_le ih
      · rw [List.filter_cons_of_neg hWon]
        exact ih

theorem State.Trails.finish_trades (h : s.Trails k s') (hFee : config.feePct ≤ feePct)
    (last : Candle) : List.Forall₂ BacktestTrade.Shrinks (s.finish config last).trades
      (s'.finish (config.charging feePct) last).trades := by
  rw [State.finish_trades, State.finish_trades]
  refine List.rel_append h.trades ?_
  unfold State.liquidation
  rw [h.lags.position]
  split_ifs with hLong
  · exact .cons (h.lags.shrinks h.factor h.solvent h.entry hFee hLong last) .nil
  · exact .nil

theorem State.Trails.finish_finalCapital (h : s.Trails k s')
    (hKeep : 1 - (config.charging feePct).feePct = r * (1 - config.feePct))
    (hLeft : 0 ≤ r ∧ r ≤ 1) (hAll : config.feePct ≤ 1) {last : Candle} (hClose : 0 < last.close) :
    (s'.finish (config.charging feePct) last).finalCapital ≤
      (s.finish config last).finalCapital := by
  have hFactor : k * r ≤ 1 := (mul_le_of_le_one_right h.factor.1 hLeft.2).trans h.factor.2
  have hGross : 0 ≤ s.gross config last.close :=
    mul_nonneg (mul_nonneg h.solvent.quantity hClose.le) (by linarith)
  rw [State.finish_finalCapital, State.finish_finalCapital, h.lags.position, h.lags.capital,
    h.lags.quantity, h.lags.gross hKeep]
  split_ifs
  · refine add_le_add (mul_le_of_le_one_left hGross hFactor) ?_
    rw [mul_assoc]
    exact mul_le_of_le_one_left (mul_nonneg h.solvent.quantity hClose.le) h.factor.2
  · exact mul_le_of_le_one_left h.solvent.capital h.factor.2

theorem State.Trails.finish (h : s.Trails k s')
    (hKeep : 1 - (config.charging feePct).feePct = r * (1 - config.feePct))
    (hLeft : 0 ≤ r ∧ r ≤ 1) (hFee : config.feePct ≤ feePct) (hAll : config.feePct ≤ 1)
    (hCapital : 0 < config.initialCapital) {last : Candle} (hClose : 0 < last.close) :
    (s.finish config last).Dominates (s'.finish (config.charging feePct) last) := by
  have hTrades := h.finish_trades hFee last
  have hFinal := h.finish_finalCapital hKeep hLeft hAll hClose
  refine ⟨hTrades, hFinal, ?_, ?_, ?_, hTrades.length_eq.symm⟩
  · rw [State.finish_totalReturnPct _ _ _ hCapital.ne',
      State.finish_totalReturnPct _ _ _ (show (config.charging feePct).initialCapital ≠ 0 from
        hCapital.ne')]
    exact mul_le_mul_of_nonneg_right
      (div_le_div_of_nonneg_right (sub_le_sub_right hFinal _) hCapital.le) (by norm_num)
  · rw [State.finish_maxDrawdownPct, State.finish_maxDrawdownPct]
    exact h.behind.drawdown
  · have hWins := wins_length_le hTrades
    have hRate (state : State) (config : BacktestConfig) :
        (state.finish config last).winRatePct = if (state.finish config last).trades = [] then 0
          else (((state.finish config last).trades.filter BacktestTrade.wins).length : ℚ) /
            ((state.finish config last).trades.length : ℚ) * 100 := rfl
    have hLength := hTrades.length_eq
    rw [hRate, hRate]
    by_cases hNone : (s.finish config last).trades = []
    · have hNone' : (s'.finish (config.charging feePct) last).trades = [] := by
        rw [← List.length_eq_zero_iff, ← hLength, hNone, List.length_nil]
      rw [if_pos hNone, if_pos hNone']
    · have hSome' : (s'.finish (config.charging feePct) last).trades ≠ [] := by
        rwa [ne_eq, ← List.length_eq_zero_iff, ← hLength, List.length_eq_zero_iff]
      rw [if_neg hNone, if_neg hSome', ← hLength]
      refine mul_le_mul_of_nonneg_right (div_le_div_of_nonneg_right ?_ ?_) (by norm_num)
      · exact_mod_cast hWins
      · exact_mod_cast Nat.zero_le _

/-- **Fees never help.** At a higher fee, of at most everything, the same strategy on the same
candles with positive closes raises the same, or it makes the same trades with no larger
quantities and ends with no more capital, return or rate of wins and no less a drawdown. -/
theorem fees_never_help {F : Type} {evaluate : Evaluate F} {candles : List Candle}
    {feats : List F} (hFee : config.feePct ≤ feePct) (hAll : feePct ≤ 1)
    (hCapital : 0 < config.initialCapital) (hClose : ∀ candle ∈ candles, 0 < candle.close) :
    Both BacktestResult.Dominates (simulate evaluate config candles feats)
      (simulate evaluate (config.charging feePct) candles feats) := by
  obtain ⟨r, hLow, hHigh, hKeep⟩ := exists_keep hFee hAll
  unfold simulate
  cases hFirst : candles.head? with
  | none => exact .error _
  | some first =>
    cases hLast : candles.getLast? with
    | none => exact .error _
    | some last =>
      have hLastClose := hClose last (List.mem_of_getLast? hLast)
      have hStart : (State.start config first).Trails 1
          (State.start (config.charging feePct) first) :=
        { lags := .flat rfl rfl (one_mul _).symm (one_mul _).symm
          factor := ⟨zero_le_one, le_rfl⟩
          solvent := ⟨hCapital.le, le_rfl⟩
          entry := le_rfl
          trades := .nil
          behind := ⟨hCapital, hCapital, (one_mul _).le, le_rfl⟩ }
      refine Both.map (R := fun s s' => ∃ k, s.Trails k s') (Both.foldlM ?_ ⟨1, hStart⟩) ?_
      · rintro bar hBar s s' ⟨k, h⟩
        unfold iterate
        have hSame : direction evaluate (config.charging feePct) (candles.take (bar.2 + 1))
            (feats.take (bar.2 + 1)) =
          direction evaluate config (candles.take (bar.2 + 1)) (feats.take (bar.2 + 1)) := rfl
        rw [hSame]
        cases direction evaluate config (candles.take (bar.2 + 1)) (feats.take (bar.2 + 1)) with
        | error e => exact .error e
        | ok direction =>
          exact h.step hKeep ⟨hLow, hHigh⟩ hFee hAll (bar.1, direction)
            (hClose bar.1 (List.fst_mem_of_mem_zipIdx hBar))
      · rintro s s' ⟨k, h⟩
        exact h.finish hKeep ⟨hLow, hHigh⟩ hFee (hFee.trans hAll) hCapital hLastClose

end Fees

namespace Foresight

/-- The slump at ten times the fee. -/
theorem slump_charged : Both BacktestResult.Dominates
    (simulate (scripted ["BUY", "HOLD", "SELL"]) config falling [(), (), ()])
    (simulate (scripted ["BUY", "HOLD", "SELL"]) (config.charging (1 / 100)) falling
      [(), (), ()]) :=
  fees_never_help (by decide +kernel) (by decide +kernel) (by decide +kernel) (by decide +kernel)

end Foresight

end TradingAgent.Backtest
