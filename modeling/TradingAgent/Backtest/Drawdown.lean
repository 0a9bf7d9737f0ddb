import TradingAgent.Account.Drawdown
import TradingAgent.Backtest.Computed
import TradingAgent.Backtest.Ledger
import TradingAgent.Backtest.Lookahead

/-!
# The drawdown of a backtest

The loop keeps a running peak and a running drawdown over the equity marks of its bars.
`ended_watermark` says that this is the one-pass watermark of the marks, and
`drawdown_isGreatest` that the drawdown of the result is the greatest fall of the equity
curve, between 0 and 100, and does not decrease when candles are appended. This is so in exact
arithmetic; in 28 digits the drawdown may be a rounded one.
-/

namespace TradingAgent.Backtest

open Accounting

variable {F : Type} {evaluate : Evaluate F} {config : BacktestConfig}

/-! ## The peak and the drawdown of the loop -/

def State.watermark (state : State) : Watermark ℚ where
  peak := state.peak
  drawdown := state.maxDd

/-- What a bar shows is how its trade left the state, marked at the close and watched. -/
theorem State.tick_acted {state : State} {bar : Bar} {tick : Tick}
    (h : state.tick config bar = .ok tick) :
    ∃ acted, state.act config bar.1 bar.2 = .ok acted ∧ tick.mark = acted.mark bar.1 ∧
      tick.state = acted.watch bar.1 := by
  unfold State.tick at h
  cases hAct : state.act config bar.1 bar.2 with
  | error e =>
    rw [hAct] at h
    cases h
  | ok acted =>
    rw [hAct] at h
    obtain rfl := Except.ok.inj h
    exact ⟨acted, rfl, rfl, rfl⟩

/-- What a trade does to the state: it buys with the capital, it sells the quantity, or there
is none. -/
theorem State.act_cases {state acted : State} {bar : Bar}
    (h : state.act config bar.1 bar.2 = .ok acted) :
    (bar.1.close ≠ 0 ∧
        acted =
          { state with
            position := some .buy
            entryAt := bar.1.openedAt
            entryPrice := bar.1.close
            quantity := state.capital / bar.1.close
            capital := 0 }) ∨
      acted =
        { state with
          trades := state.trades ++ [state.trade config bar.1]
          capital := state.gross config bar.1.close
          quantity := 0
          position := none } ∨
      acted = state := by
  unfold State.act at h
  by_cases hBuy : state.position = none ∧ bar.2 = .buy
  · rw [if_pos hBuy] at h
    by_cases hClose : bar.1.close ≠ 0
    · rw [divide, if_pos hClose] at h
      exact .inl ⟨hClose, (Except.ok.inj h).symm⟩
    · rw [divide, if_neg hClose] at h
      split_ifs at h
  · rw [if_neg hBuy] at h
    split_ifs at h with hSell
    · exact .inr (.inl (Except.ok.inj h).symm)
    · exact .inr (.inr (Except.ok.inj h).symm)

/-- A trade leaves the peak and the drawdown. -/
theorem State.act_watermark {state acted : State} {bar : Bar}
    (h : state.act config bar.1 bar.2 = .ok acted) : acted.watermark = state.watermark := by
  rcases State.act_cases h with ⟨-, rfl⟩ | rfl | rfl
  · rfl
  · rfl
  · rfl

theorem State.tick_watermark {state : State} {bar : Bar} {tick : Tick}
    (h : state.tick config bar = .ok tick) :
    tick.state.watermark = state.watermark.watch tick.mark := by
  obtain ⟨acted, hAct, hMark, hState⟩ := State.tick_acted h
  rw [hState, hMark, ← State.act_watermark hAct]
  rfl

/-! ## Marks that are not negative -/

/-- Neither the capital nor the quantity is negative. -/
structure State.Solvent (state : State) : Prop where
  capital : 0 ≤ state.capital
  quantity : 0 ≤ state.quantity

theorem State.Solvent.act {state acted : State} {bar : Bar} (hState : state.Solvent)
    (hFee : config.feePct ≤ 1) (hClose : 0 ≤ bar.1.close)
    (h : state.act config bar.1 bar.2 = .ok acted) : acted.Solvent := by
  rcases State.act_cases h with ⟨-, rfl⟩ | rfl | rfl
  · exact ⟨le_rfl, div_nonneg hState.capital hClose⟩
  · have hKept : 0 ≤ 1 - config.feePct := by linarith
    exact ⟨mul_nonneg (mul_nonneg hState.quantity hClose) hKept, le_rfl⟩
  · exact hState

theorem State.Solvent.mark {state : State} (hState : state.Solvent) {candle : Candle}
    (hClose : 0 ≤ candle.close) : 0 ≤ state.mark candle := by
  unfold State.mark
  split_ifs
  · exact add_nonneg hState.capital (mul_nonneg hState.quantity hClose)
  · exact hState.capital

/-- A bar keeps a solvent state so, and its mark is not negative. -/
theorem State.Solvent.tick {state : State} {bar : Bar} {tick : Tick} (hState : state.Solvent)
    (hFee : config.feePct ≤ 1) (hClose : 0 ≤ bar.1.close)
    (h : state.tick config bar = .ok tick) : tick.state.Solvent ∧ 0 ≤ tick.mark := by
  obtain ⟨acted, hAct, hMark, hTick⟩ := State.tick_acted h
  obtain ⟨hCapital, hQuantity⟩ := hState.act hFee hClose hAct
  rw [hMark, hTick]
  exact ⟨⟨hCapital, hQuantity⟩, State.Solvent.mark ⟨hCapital, hQuantity⟩ hClose⟩

/-! ## The bars of a run -/

variable {candles : List Candle} {feats : List F}

/-- The loop ends with the watermark of the marks that its bars show. -/
theorem ended_watermark {state : State} {bars : List (Candle × ℕ)} {shown : List Tick}
    (h : reel evaluate config candles feats state bars = .ok shown) :
    (ended state shown).watermark =
      (shown.map Tick.mark).foldl Watermark.watch state.watermark := by
  induction bars generalizing state shown with
  | nil =>
    obtain rfl := Except.ok.inj h
    rfl
  | cons bar bars ih =>
    obtain ⟨tick, later, hTick, hLater, rfl⟩ := reel_cons_ok h
    obtain ⟨-, hStep⟩ := observe_ok hTick
    rw [List.map_cons, List.foldl_cons, ← State.tick_watermark hStep]
    exact ih hLater

/-- From a solvent state no mark is negative. -/
theorem marks_nonneg {state : State} {bars : List (Candle × ℕ)} {shown : List Tick}
    (hState : state.Solvent) (hFee : config.feePct ≤ 1) (hClose : ∀ bar ∈ bars, 0 ≤ bar.1.close)
    (h : reel evaluate config candles feats state bars = .ok shown) :
    ∀ m ∈ shown.map Tick.mark, 0 ≤ m := by
  induction bars generalizing state shown with
  | nil =>
    obtain rfl := Except.ok.inj h
    simp
  | cons bar bars ih =>
    obtain ⟨tick, later, hTick, hLater, rfl⟩ := reel_cons_ok h
    obtain ⟨-, hStep⟩ := observe_ok hTick
    obtain ⟨hNext, hMark⟩ := hState.tick hFee (hClose bar List.mem_cons_self) hStep
    intro m hm
    rcases List.mem_cons.mp hm with rfl | hm
    · exact hMark
    · exact ih hNext (fun b hb => hClose b (List.mem_cons_of_mem _ hb)) hLater m hm

theorem State.finish_maxDrawdownPct (state : State) (last : Candle) :
    (state.finish config last).maxDrawdownPct = state.watermark.drawdown := by
  show (state.liquidate config last).maxDd = state.maxDd
  unfold State.liquidate
  split_ifs
  · rfl
  · rfl

/-- The drawdown of a result is the greatest fall of the equity curve. -/
theorem simulate_isGreatest {result : BacktestResult} (hCapital : 0 < config.initialCapital)
    (hFee : config.feePct ≤ 1) (hClose : ∀ candle ∈ candles, 0 < candle.close)
    (h : simulate evaluate config candles feats = .ok result) :
    ∃ shown, ticks evaluate config candles feats candles.length = .ok shown ∧
      shown.length = candles.length ∧ (∀ m ∈ shown.map Tick.mark, 0 ≤ m) ∧
      IsGreatest (falls (config.initialCapital :: shown.map Tick.mark))
        result.maxDrawdownPct := by
  obtain ⟨first, last, shown, hFirst, -, hShown, rfl, -⟩ := simulate_reel h
  have hReel := hShown
  rw [ticks, hFirst] at hReel
  have hMarks : ∀ m ∈ shown.map Tick.mark, 0 ≤ m := by
    refine marks_nonneg ⟨hCapital.le, le_rfl⟩ hFee (fun bar hBar => ?_) hReel
    exact (hClose bar.1 (List.fst_mem_of_mem_zipIdx (List.mem_of_mem_take hBar))).le
  have hLength : shown.length = candles.length := by
    rw [reel_length hReel, List.take_of_length_le List.length_zipIdx.le, List.length_zipIdx]
  refine ⟨shown, hShown, hLength, hMarks, ?_⟩
  rw [State.finish_maxDrawdownPct, ended_watermark hReel]
  exact watched_isGreatest hCapital hMarks

/-! ## The signals and the bars -/

theorem observe_emits {signals : List SignalDirection}
    (h : Emits evaluate config candles feats signals) (state : State) {bar : Candle × ℕ}
    (hBar : bar.2 < candles.length) :
    observe evaluate config candles feats state bar =
      state.tick config (bar.1, signals.getD bar.2 .hold) := by
  rw [observe, h.direction_eq bar.2 hBar]

/-- The first bars show the same when candles and signals are appended. -/
theorem ticks_append {evaluate' : Evaluate F} {feats' : List F} {later : List Candle}
    {signals more : List SignalDirection} (hNonempty : candles ≠ [])
    (h : Emits evaluate config candles feats signals)
    (h' : Emits evaluate' config (candles ++ later) feats' (signals ++ more)) :
    ticks evaluate config candles feats candles.length =
      ticks evaluate' config (candles ++ later) feats' candles.length := by
  have hHead : (candles ++ later).head? = candles.head? := List.head?_append_of_ne_nil _ hNonempty
  rw [ticks, ticks, hHead, zipIdx_take, zipIdx_take, List.take_left,
    List.take_length]
  cases candles.head? with
  | none => rfl
  | some first =>
    refine reel_agree (fun bar hBar state => ?_) _
    have hIndex : bar.2 < candles.length := by
      have hLt := List.snd_lt_of_mem_zipIdx hBar
      omega
    have hSignal : bar.2 < signals.length := by
      rw [h.length_eq]
      exact hIndex
    have hIndex' : bar.2 < (candles ++ later).length := by
      rw [List.length_append]
      omega
    rw [observe_emits h state hIndex, observe_emits h' state hIndex',
      List.getD_eq_getElem?_getD, List.getD_eq_getElem?_getD, List.getElem?_append_left hSignal]

theorem simulate_ok_of_emits {signals : List SignalDirection}
    (hClose : ∀ candle ∈ candles, 0 < candle.close) (hNonempty : candles ≠ [])
    (h : Emits evaluate config candles feats signals) :
    ∃ result, simulate evaluate config candles feats = .ok result := by
  have hFirst := List.head?_eq_some_head hNonempty
  have hLast := List.getLast?_eq_some_getLast hNonempty
  obtain ⟨state, hLoop, -⟩ := loop_follows config (candles.head hNonempty)
    (candles.zip signals) fun bar hBar => hClose bar.1 (List.of_mem_zip hBar).1
  rw [simulate_eq hFirst hLast h, hLoop]
  exact ⟨_, rfl⟩

/-- **The drawdown.** In exact arithmetic, with positive capital, a fee of at most everything and
positive closes, whatever the signals: the drawdown of the result is the greatest fall from a
positive mark to a mark not before it, on the curve of the initial capital and the marks of the
bars. It lies between 0 and 100, and appended candles, with any signals on them, do not decrease
it. -/
theorem drawdown_isGreatest {signals : List SignalDirection}
    (hCapital : 0 < config.initialCapital) (hFee : config.feePct ≤ 1)
    (hClose : ∀ candle ∈ candles, 0 < candle.close) (hNonempty : candles ≠ [])
    (hSignals : Emits evaluate config candles feats signals) :
    ∃ result shown, simulate evaluate config candles feats = .ok result ∧
      ticks evaluate config candles feats candles.length = .ok shown ∧
      shown.length = candles.length ∧
      IsGreatest (falls (config.initialCapital :: shown.map Tick.mark)) result.maxDrawdownPct ∧
      0 ≤ result.maxDrawdownPct ∧ result.maxDrawdownPct ≤ 100 ∧
      ∀ (evaluate' : Evaluate F) (later : List Candle) (feats' : List F)
        (more : List SignalDirection) (result' : BacktestResult),
        (∀ candle ∈ later, 0 < candle.close) →
        Emits evaluate' config (candles ++ later) feats' (signals ++ more) →
        simulate evaluate' config (candles ++ later) feats' = .ok result' →
        result.maxDrawdownPct ≤ result'.maxDrawdownPct := by
  obtain ⟨result, hResult⟩ := simulate_ok_of_emits hClose hNonempty hSignals
  obtain ⟨shown, hShown, hLength, hMarks, hGreatest⟩ :=
    simulate_isGreatest hCapital hFee hClose hResult
  obtain ⟨hLow, hHigh⟩ := greatest_fall_mem_range hCapital hMarks hGreatest
  refine ⟨result, shown, hResult, hShown, hLength, hGreatest, hLow, hHigh, ?_⟩
  intro evaluate' later feats' more result' hLater hSignals' hResult'
  have hClose' : ∀ candle ∈ candles ++ later, 0 < candle.close := by
    intro candle hCandle
    rcases List.mem_append.mp hCandle with hCandle | hCandle
    · exact hClose candle hCandle
    · exact hLater candle hCandle
  obtain ⟨shown', hShown', -, -, hGreatest'⟩ :=
    simulate_isGreatest hCapital hFee hClose' hResult'
  have hPrefix : shown = shown'.take candles.length := by
    have hTake := ticks_take (k := candles.length) hShown'
    rw [← ticks_append hNonempty hSignals hSignals', hShown] at hTake
    exact Except.ok.inj hTake
  have hSplit : config.initialCapital :: shown'.map Tick.mark =
      (config.initialCapital :: shown.map Tick.mark) ++
        (shown'.drop candles.length).map Tick.mark := by
    rw [hPrefix, List.cons_append, ← List.map_append, List.take_append_drop]
  rw [hSplit] at hGreatest'
  exact greatest_fall_le hGreatest hGreatest'

namespace Foresight

/-- A slump from 110 to 50 while long. -/
theorem slump_drawdown :
    ∃ result shown,
      simulate (scripted ["BUY", "HOLD", "HOLD"]) Foresight.config falling [(), (), ()] =
        .ok result ∧
      ticks (scripted ["BUY", "HOLD", "HOLD"]) Foresight.config falling [(), (), ()] 3 =
        .ok shown ∧
      IsGreatest (falls (Foresight.config.initialCapital :: shown.map Tick.mark))
        result.maxDrawdownPct ∧
      0 ≤ result.maxDrawdownPct ∧ result.maxDrawdownPct ≤ 100 := by
  have hEmits : Emits (scripted ["BUY", "HOLD", "HOLD"]) Foresight.config falling [(), (), ()]
    (["BUY", "HOLD", "HOLD"].map .ofSignal) := scripted_emits rfl
  obtain ⟨result, shown, hResult, hShown, -, hGreatest, hLow, hHigh, -⟩ :=
    drawdown_isGreatest (by decide) (by norm_num [Foresight.config]) (by decide) (by decide)
      hEmits
  exact ⟨result, shown, hResult, hShown, hGreatest, hLow, hHigh⟩

end Foresight

namespace Slipping

def demo : BacktestConfig where
  strategyId := "demo"
  start := 0
  «end» := 2
  feePct := 0

/-- Closes that fall by a third in the end. -/
def slope : List Candle :=
  [{ openedAt := 0, close := 1 }, { openedAt := 1, close := 3 }, { openedAt := 2, close := 2 }]

def bars : List Bar := slope.zip [.buy, .hold, .hold]

/-- In 28 digits the drawdown of the result is less than the greatest fall, which is a third. -/
theorem drawdown_rounded :
    ∃ result marks,
      Computed.simulate .default (scripted ["BUY", "HOLD", "HOLD"]) demo slope [()] =
        .ok result ∧
      Computed.marks .default demo (State.start demo { openedAt := 0, close := 1 }) bars =
        .ok marks ∧
      ¬IsGreatest (falls (demo.initialCapital :: marks)) result.maxDrawdownPct := by
  refine ⟨{
    config := demo
    trades := [{
      symbol := "BTC/USDT"
      openedAt := 0
      closedAt := some 2
      side := "long"
      entry := 1
      exit := some 2
      quantity := 10000
      pnl := some 10000 }]
    initialCapital := 10000
    finalCapital := 40000
    totalReturnPct := 300
    maxDrawdownPct := 3333333333333333333333333333 / 10 ^ 26
    winRatePct := 100
    tradeCount := 1 }, [10000, 30000, 20000], by decide +kernel, by decide +kernel, fun h => ?_⟩
  have hGreatest : IsGreatest (falls (demo.initialCapital :: [10000, 30000, 20000]))
      (watched demo.initialCapital [10000, 30000, 20000]).drawdown :=
    watched_isGreatest (by decide) (by decide)
  have hDrawdown : (watched demo.initialCapital [10000, 30000, 20000]).drawdown = 100 / 3 := by
    decide +kernel
  have hEqual := hDrawdown ▸ h.unique hGreatest
  norm_num at hEqual

end Slipping

end TradingAgent.Backtest
