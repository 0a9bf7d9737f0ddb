import TradingAgent.Backtest.Lockstep
import TradingAgent.Backtest.Scaling

/-!
# Backtests in a row

A backtest that is flat after its first part is two backtests in a row: its second part runs
in lockstep with a backtest that starts anew there, by the factor that the first part made of
the capital (`Resumes`). `backtests_compound` says what this makes of the results: the returns
compound, the trades come one after the other, and the drawdown lies between the larger of the
two and what the two lose one after the other.
-/

namespace TradingAgent.Backtest

open Accounting

/-- The backtests of two parts, and the backtest of the whole. -/
structure BacktestResult.InARow (first second whole : BacktestResult) : Prop where
  trades : whole.trades = first.trades ++
    second.trades.map (.scaled (first.finalCapital / first.initialCapital))
  finalCapital : whole.finalCapital =
    first.finalCapital / first.initialCapital * second.finalCapital
  totalReturnPct : 1 + whole.totalReturnPct / 100 =
    (1 + first.totalReturnPct / 100) * (1 + second.totalReturnPct / 100)
  maxDrawdownPct_ge : max first.maxDrawdownPct second.maxDrawdownPct ≤ whole.maxDrawdownPct
  maxDrawdownPct_le : kept first.maxDrawdownPct * kept second.maxDrawdownPct ≤
    kept whole.maxDrawdownPct

/-! ## The first part -/

section First

variable {config : BacktestConfig}

/-- What holds of the loop's state after every bar. -/
structure State.Sound (s : State) : Prop where
  solvent : s.Solvent
  positive : 0 < s.peak
  drawdown : 0 ≤ s.maxDd ∧ s.maxDd ≤ 100
  flat : s.position ≠ some .buy → s.capital ≤ s.peak ∧ kept s.maxDd * s.peak ≤ s.capital

theorem State.Sound.start (hCapital : 0 < config.initialCapital) (first : Candle) :
    (State.start config first).Sound := by
  refine ⟨⟨hCapital.le, le_rfl⟩, hCapital, ⟨le_rfl, by norm_num [State.start]⟩, fun _ => ?_⟩
  have hKept : kept (State.start config first).maxDd = 1 := by simp [kept, State.start]
  rw [hKept, one_mul]
  exact ⟨le_rfl, le_rfl⟩

theorem State.Sound.step {s t : State} (h : s.Sound) (hFee : config.feePct ≤ 1) {bar : Bar}
    (hClose : 0 < bar.1.close) (hStep : s.step config bar = .ok t) : t.Sound := by
  unfold State.step at hStep
  cases hAct : s.act config bar.1 bar.2 with
  | error e =>
    rw [hAct] at hStep
    cases hStep
  | ok acted =>
    rw [hAct] at hStep
    obtain rfl := Except.ok.inj hStep
    have hSolvent : acted.Solvent := h.solvent.act hFee hClose.le hAct
    have hMark := hSolvent.mark hClose.le
    have hWatermark := State.act_watermark hAct
    have hPositive : 0 < acted.watermark.peak := by
      rw [hWatermark]
      exact h.positive
    have hDrawdown : 0 ≤ acted.watermark.drawdown ∧ acted.watermark.drawdown ≤ 100 := by
      rw [hWatermark]
      exact h.drawdown
    have hPeak : 0 < max acted.watermark.peak (acted.mark bar.1) :=
      hPositive.trans_le (le_max_left _ _)
    have hWatched := Watermark.watch_drawdown hPositive (acted.mark bar.1)
    refine ⟨⟨hSolvent.capital, hSolvent.quantity⟩, hPeak, ⟨?_, ?_⟩, fun hFlat => ?_⟩
    · exact (hDrawdown.1.trans (le_max_left _ _)).trans_eq hWatched.symm
    · exact hWatched.trans_le (max_le hDrawdown.2 (fall_le_hundred hPeak hMark))
    · have hCapital : acted.mark bar.1 = acted.capital := if_neg hFlat
      refine ⟨hCapital ▸ le_max_right _ _, ?_⟩
      have hKept := Watermark.kept_watch_mul_le hPositive (acted.mark bar.1)
      exact hKept.trans_eq hCapital

theorem State.Sound.loop {s t : State} (h : s.Sound) (hFee : config.feePct ≤ 1)
    {bars : List Bar} (hClose : ∀ bar ∈ bars, 0 < bar.1.close)
    (hLoop : loop config s bars = .ok t) : t.Sound := by
  induction bars using List.reverseRecOn generalizing t with
  | nil =>
    obtain rfl := Except.ok.inj hLoop
    exact h
  | append_singleton bars bar ih =>
    rw [loop_concat] at hLoop
    cases hBefore : Backtest.loop config s bars with
    | error e =>
      rw [hBefore] at hLoop
      cases hLoop
    | ok u =>
      rw [hBefore] at hLoop
      have hSound := ih (fun b hb => hClose b (List.mem_append_left _ hb)) hBefore
      exact hSound.step hFee
        (hClose bar (List.mem_append_right _ (List.mem_singleton_self _))) hLoop

end First

/-! ## The second part -/

/-- The backtest of the whole, which was in the state `first` after its first part, against
one that starts anew. -/
structure State.Resumes (config : BacktestConfig) (k : ℚ) (first s s' : State) : Prop where
  lags : s.Lags k s'
  solvent : s.Solvent
  trades : s'.trades = first.trades ++ s.trades.map (.scaled k)
  behind : Watermark.Behind k s.watermark s'.watermark
  continues : Watermark.Continues k config.initialCapital first.watermark s.watermark
    s'.watermark
  drawdown : first.maxDd ≤ s'.maxDd

section Second

variable {config : BacktestConfig} {first s s' : State}

/-- The factor that the first part made of the capital. -/
def State.factor (config : BacktestConfig) (first : State) : ℚ :=
  first.capital / config.initialCapital

theorem State.Resumes.start (hSound : first.Sound) (hFlat : first.position = none)
    (hQuantity : first.quantity = 0) (hCapital : 0 < config.initialCapital) (candle : Candle) :
    State.Resumes config (first.factor config) first (State.start config candle) first := by
  have hBase : first.factor config * config.initialCapital = first.capital :=
    div_mul_cancel₀ _ hCapital.ne'
  obtain ⟨hPeak, -⟩ := hSound.flat (by simp [hFlat])
  have hKept : kept (State.start config candle).watermark.drawdown = 1 := by
    simp [kept, State.start, State.watermark]
  refine ⟨.flat rfl hFlat hBase.symm (hQuantity.trans (mul_zero _).symm),
    ⟨hCapital.le, le_rfl⟩, (List.append_nil _).symm,
    ⟨hCapital, hSound.positive, hBase.trans_le hPeak, hSound.drawdown.1⟩, ⟨le_rfl, ?_, ?_⟩,
    le_rfl⟩
  · exact (max_eq_left (hBase.trans_le hPeak)).symm
  · rw [hKept, mul_one]

theorem State.Lags.trade_scaled {k : ℚ} (h : s.Lags k s') (hLong : s.position = some .buy)
    (candle : Candle) : s'.trade config candle = (s.trade config candle).scaled k := by
  rw [h.trade hLong]
  rfl

theorem State.Resumes.step (hSound : first.Sound) (hFlat : first.position = none)
    (hCapital : 0 < config.initialCapital) (hKept : 0 < first.capital)
    (hFee : config.feePct ≤ 1) (h : State.Resumes config (first.factor config) first s s')
    (bar : Bar) (hClose : 0 < bar.1.close) :
    Both (State.Resumes config (first.factor config) first) (s.step config bar)
      (s'.step config bar) := by
  have hSame : 1 - config.feePct = 1 * (1 - config.feePct) := (one_mul _).symm
  obtain ⟨acted, acted', hAct, hAct', hBoth⟩ := h.lags.act hSame hClose
  obtain ⟨hLags, hTrades⟩ : acted.Lags (first.factor config) acted' ∧
      acted'.trades = first.trades ++ acted.trades.map (.scaled (first.factor config)) := by
    rcases hBoth with ⟨hLags, hSame, hSame', -⟩ | ⟨hLong, hLags, hSold, hSold', -⟩
    · exact ⟨hLags, by rw [hSame, hSame', h.trades]⟩
    · rw [mul_one] at hLags
      refine ⟨hLags, ?_⟩
      rw [hSold, hSold', h.trades, h.lags.trade_scaled hLong, List.map_append, List.append_assoc]
      rfl
  have hSolvent : acted.Solvent := h.solvent.act hFee hClose.le hAct
  have hFactor : 0 < first.factor config := div_pos hKept hCapital
  have hBase : first.factor config * config.initialCapital = first.capital :=
    div_mul_cancel₀ _ hCapital.ne'
  have hMark : 0 ≤ acted.mark bar.1 := hSolvent.mark hClose.le
  have hBehind := h.behind
  have hContinues := h.continues
  have hDrawdown : first.maxDd ≤ acted'.watermark.drawdown := by
    rw [State.act_watermark hAct']
    exact h.drawdown
  rw [← State.act_watermark hAct, ← State.act_watermark hAct'] at hBehind hContinues
  have hLeft := hContinues.watch hSound.positive
    (kept_mem_range hSound.drawdown.1 hSound.drawdown.2) hFactor hCapital
    ((hSound.flat (by simp [hFlat])).2.trans_eq hBase.symm) hMark
  have hNext := hBehind.watch hMark hFactor.le le_rfl
  rw [← hLags.mark] at hLeft hNext
  rw [State.step, State.step, hAct, hAct']
  refine .ok ⟨hLags.watch bar.1, ⟨hSolvent.capital, hSolvent.quantity⟩, hTrades, hNext, hLeft, ?_⟩
  have hWatched := Watermark.watch_drawdown hBehind.positive' (acted'.mark bar.1)
  exact (hDrawdown.trans (le_max_left _ _)).trans_eq hWatched.symm

/-- The results of the two parts and of the whole. -/
theorem State.Resumes.finish (hFlat : first.position = none)
    (hCapital : 0 < config.initialCapital)
    (h : State.Resumes config (first.factor config) first s s') (last later : Candle) :
    (first.finish config last).InARow (s.finish config later) (s'.finish config later) := by
  have hFirst : (first.finish config last).finalCapital = first.capital := by
    rw [State.finish_finalCapital, if_neg (by simp [hFlat])]
  have hFirstTrades : (first.finish config last).trades = first.trades := by
    rw [State.finish_trades, State.liquidation, if_neg (by simp [hFlat]), List.append_nil]
  have hFactor : (first.finish config last).finalCapital /
      (first.finish config last).initialCapital = first.factor config := by
    rw [hFirst]
    rfl
  have hFinal : (s'.finish config later).finalCapital =
      first.factor config * (s.finish config later).finalCapital := by
    rw [State.finish_finalCapital, State.finish_finalCapital, h.lags.position, h.lags.capital,
      h.lags.quantity, h.lags.gross (r := 1) (one_mul _).symm]
    split_ifs <;> ring
  have hReturn (state : State) (candle : Candle) :
      1 + (state.finish config candle).totalReturnPct / 100 =
        (state.finish config candle).finalCapital / config.initialCapital := by
    rw [State.finish_totalReturnPct _ _ _ hCapital.ne', sub_div, div_self hCapital.ne']
    ring
  refine ⟨?_, hFactor.symm ▸ hFinal, ?_, ?_, ?_⟩
  · rw [hFactor, hFirstTrades, State.finish_trades, State.finish_trades, h.trades,
      List.append_assoc, List.map_append]
    refine congrArg (fun sold => first.trades ++ (s.trades.map _ ++ sold)) ?_
    unfold State.liquidation
    rw [h.lags.position]
    split_ifs with hLong
    · rw [h.lags.trade_scaled hLong]
      rfl
    · rfl
  · rw [hReturn, hReturn, hReturn, hFinal, hFirst, State.factor]
    ring
  · rw [State.finish_maxDrawdownPct, State.finish_maxDrawdownPct, State.finish_maxDrawdownPct]
    exact max_le h.drawdown h.behind.drawdown
  · rw [State.finish_maxDrawdownPct, State.finish_maxDrawdownPct, State.finish_maxDrawdownPct]
    exact h.continues.floor

end Second

/-! ## The whole -/

section Whole

variable {F : Type} {evaluate evaluate₁ evaluate₂ : Evaluate F} {config : BacktestConfig}
  {left right : List Candle} {feats feats₁ feats₂ : List F}
  {signals later : List SignalDirection}

theorem loop_append (state : State) (bars more : List Bar) :
    loop config state (bars ++ more) =
      (loop config state bars).bind fun state' => loop config state' more :=
  List.foldlM_append

/-- The state after a first part that ends flat. -/
theorem loop_flat (first : Candle) (hLength : signals.length = left.length)
    (hClose : ∀ candle ∈ left, 0 < candle.close) (hFlat : long signals = false)
    (hCapital : 0 < config.initialCapital) (hFee : config.feePct < 1) :
    ∃ state, loop config (State.start config first) (left.zip signals) = .ok state ∧
      state.Sound ∧ state.position = none ∧ state.quantity = 0 ∧ 0 < state.capital := by
  have hBars : ∀ bar ∈ left.zip signals, 0 < bar.1.close := fun bar hBar =>
    hClose bar.1 (List.of_mem_zip hBar).1
  obtain ⟨state, hLoop, hFollows⟩ := loop_follows config first (left.zip signals) hBars
  have hOpened : (path (left.zip signals)).opened = none := by
    have hSnd : (left.zip signals).map Prod.snd = signals := List.map_snd_zip hLength.le
    rw [← Option.not_isSome_iff_eq_none, opened_isSome, hSnd, hFlat]
    exact Bool.false_ne_true
  have hSound := (State.Sound.start hCapital first).loop hFee.le hBars hLoop
  obtain ⟨hCompound, hQuantity⟩ := hFollows.flat hOpened
  refine ⟨state, hLoop, hSound, by rw [hFollows.position, hOpened]; rfl, hQuantity,
    hSound.solvent.capital.lt_of_ne' ?_⟩
  rw [hCompound, ne_eq, compound_eq_zero_iff _ fun trip hTrip => ?_]
  · rintro (hNothing | ⟨hAll, -⟩)
    · exact hCapital.ne' hNothing
    · linarith
  · obtain ⟨hBought, hSold⟩ := hFollows.prices trip hTrip
    exact (div_pos hSold hBought).ne'

/-- **Backtests compound.** Over candles with positive closes, at a fee of less than
everything: a backtest whose strategy is flat after a first part of the candles is the
backtests of the two parts in a row. Its trades are those of the first part and, by the factor
that this made of the capital, those of the second; the returns compound; and the drawdown is
that of either part at least, and at most what the two lose one after the other. -/
theorem backtests_compound (hSignals : Emits evaluate config (left ++ right) feats
      (signals ++ later))
    (hFirst : Emits evaluate₁ config left feats₁ signals)
    (hSecond : Emits evaluate₂ config right feats₂ later) (hLeft : left ≠ []) (hRight : right ≠ [])
    (hClose : ∀ candle ∈ left ++ right, 0 < candle.close) (hFlat : long signals = false)
    (hCapital : 0 < config.initialCapital) (hFee : config.feePct < 1) :
    ∃ first second whole, simulate evaluate₁ config left feats₁ = .ok first ∧
      simulate evaluate₂ config right feats₂ = .ok second ∧
      simulate evaluate config (left ++ right) feats = .ok whole ∧
      first.InARow second whole := by
  have hCloseRight : ∀ candle ∈ right, 0 < candle.close := fun candle hCandle =>
    hClose candle (List.mem_append_right _ hCandle)
  obtain ⟨state, hLoop, hSound, hPosition, hQuantity, hKept⟩ :=
    loop_flat (left.head hLeft) hFirst.length_eq
      (fun candle hCandle => hClose candle (List.mem_append_left _ hCandle)) hFlat hCapital hFee
  have hBoth : Both (State.Resumes config (state.factor config) state)
      (loop config (State.start config (right.head hRight)) (right.zip later))
      (loop config state (right.zip later)) :=
    Both.foldlM (fun bar hBar s s' h => h.step hSound hPosition hCapital hKept hFee.le bar
        (hCloseRight bar.1 (List.of_mem_zip hBar).1))
      (.start hSound hPosition hQuantity hCapital _)
  obtain ⟨ended, hEnded, -⟩ := loop_follows config (right.head hRight) (right.zip later)
    fun bar hBar => hCloseRight bar.1 (List.of_mem_zip hBar).1
  rw [hEnded] at hBoth
  generalize hWhole : loop config state (right.zip later) = out at hBoth
  cases hBoth with
  | @ok _ ended' hResumes =>
    have hHead : (left ++ right).head? = some (left.head hLeft) := by
      rw [List.head?_append_of_ne_nil _ hLeft, List.head?_eq_some_head hLeft]
    have hTail : (left ++ right).getLast? = some (right.getLast hRight) := by
      rw [List.getLast?_append_of_ne_nil _ hRight, List.getLast?_eq_some_getLast hRight]
    refine ⟨state.finish config (left.getLast hLeft), ended.finish config (right.getLast hRight),
      ended'.finish config (right.getLast hRight), ?_, ?_, ?_,
      hResumes.finish hPosition hCapital _ _⟩
    · rw [simulate_eq (List.head?_eq_some_head hLeft) (List.getLast?_eq_some_getLast hLeft) hFirst,
        hLoop]
      rfl
    · rw [simulate_eq (List.head?_eq_some_head hRight) (List.getLast?_eq_some_getLast hRight)
        hSecond, hEnded]
      rfl
    · rw [simulate_eq hHead hTail hSignals, List.zip_append hFirst.length_eq.symm, loop_append,
        hLoop]
      dsimp only [Except.bind]
      rw [hWhole]
      rfl

end Whole

namespace Refolded

def config : BacktestConfig where
  strategyId := "demo"
  start := 0
  «end» := 4

def left : List Candle := [{ openedAt := 0, close := 100 }, { openedAt := 1, close := 120 }]

def right : List Candle := [{ openedAt := 2, close := 80 }, { openedAt := 3, close := 60 }]

/-- A gain, and then a loss. -/
theorem gain_and_loss : ∃ first second whole,
    simulate (scripted ["BUY", "SELL"]) config left [(), ()] = .ok first ∧
      simulate (scripted ["BUY", "HOLD"]) config right [(), ()] = .ok second ∧
      simulate (scripted ["BUY", "SELL", "BUY", "HOLD"]) config (left ++ right)
        [(), (), (), ()] = .ok whole ∧
      first.InARow second whole := by
  have hSignals : Emits (scripted ["BUY", "SELL", "BUY", "HOLD"]) config (left ++ right)
    [(), (), (), ()] ([.buy, .sell] ++ [.buy, .hold]) := scripted_emits rfl
  have hFirst : Emits (scripted ["BUY", "SELL"]) config left [(), ()] [.buy, .sell] :=
    scripted_emits rfl
  have hSecond : Emits (scripted ["BUY", "HOLD"]) config right [(), ()] [.buy, .hold] :=
    scripted_emits rfl
  exact backtests_compound hSignals hFirst hSecond (by decide) (by decide) (by decide +kernel) rfl
    (by decide +kernel) (by decide +kernel)

end Refolded

end TradingAgent.Backtest
