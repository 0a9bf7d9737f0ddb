import TradingAgent.Backtest.Computed
import TradingAgent.Backtest.Ledger
import TradingAgent.Backtest.Lookahead
import TradingAgent.Word.Pairing

/-!
# The trades are the greedy pairing of the signals

`loop_makes` runs the loop along the pairing of its signals: between two paired signals
nothing is traded (`loop_idle`), and each span is one trade, made with what the spans before
it left (`Makes`). `simulate_pairs` reads this in the result: the bars, the times, the prices
and the quantities of its trades. The quantities are compounded exactly; in 28 digits they are
rounded after every operation.
-/

namespace TradingAgent.Backtest

open Word

/-! ## What a bar does to the position -/

namespace State

variable (config : BacktestConfig)

/-- The direction neither opens nor closes the position. -/
def Idle (state : State) (direction : SignalDirection) : Prop :=
  ¬(state.position = none ∧ direction = .buy) ∧
    ¬(state.position = some .buy ∧ direction = .sell)

def bought (state : State) (candle : Candle) : State :=
  { state with
    position := some .buy
    entryAt := candle.openedAt
    entryPrice := candle.close
    quantity := state.capital / candle.close
    capital := 0 }

def sold (config : BacktestConfig) (state : State) (candle : Candle) : State :=
  { state with
    trades := state.trades ++ [state.trade config candle]
    capital := state.gross config candle.close
    quantity := 0
    position := none }

/-- The peak and the drawdown are watched and not read. -/
def seen (state : State) (peak maxDd : ℚ) : State := { state with peak := peak, maxDd := maxDd }

theorem step_idle {state : State} {bar : Bar} (h : state.Idle bar.2) :
    ∃ peak maxDd, state.step config bar = .ok (state.seen peak maxDd) := by
  rw [step, act, if_neg h.1, if_neg h.2]
  exact ⟨_, _, rfl⟩

theorem step_bought (state : State) {bar : Bar} (hFlat : state.position = none)
    (hBuy : bar.2 = .buy) (hClose : bar.1.close ≠ 0) :
    ∃ peak maxDd, state.step config bar = .ok ((state.bought bar.1).seen peak maxDd) := by
  rw [step, act, if_pos ⟨hFlat, hBuy⟩, divide, if_pos hClose]
  exact ⟨_, _, rfl⟩

theorem step_sold (state : State) {bar : Bar} (hLong : state.position = some .buy)
    (hSell : bar.2 = .sell) :
    ∃ peak maxDd, state.step config bar = .ok ((state.sold config bar.1).seen peak maxDd) := by
  rw [step, act, if_neg (by simp [hLong]), if_pos ⟨hLong, hSell⟩]
  exact ⟨_, _, rfl⟩

end State

/-! ## The loop from one paired signal to the next -/

section Loop

variable (config : BacktestConfig) {bars : List Bar} {i j : ℕ}

theorem loop_cons {state state' : State} {bar : Bar}
    (h : state.step config bar = .ok state') (later : List Bar) :
    loop config state (bar :: later) = loop config state' later := by
  rw [loop, List.foldlM_cons, h]
  rfl

/-- While no bar opens or closes the position, only the peak and the drawdown change. -/
theorem loop_idle (state : State) (before later : List Bar)
    (hIdle : ∀ bar ∈ before, state.Idle bar.2) :
    ∃ peak maxDd, loop config state (before ++ later) =
      loop config (state.seen peak maxDd) later := by
  induction before generalizing state with
  | nil => exact ⟨state.peak, state.maxDd, rfl⟩
  | cons bar before ih =>
    obtain ⟨peak, maxDd, hStep⟩ := State.step_idle config
      (hIdle bar List.mem_cons_self)
    obtain ⟨peak', maxDd', hRest⟩ := ih (state.seen peak maxDd) fun b hb =>
      hIdle b (List.mem_cons_of_mem _ hb)
    refine ⟨peak', maxDd', ?_⟩
    rw [List.cons_append, loop_cons config hStep, hRest]
    rfl

/-- From a flat state the loop runs to the next BUY. -/
theorem loop_to_buy {state : State} (hFlat : state.position = none)
    (hClose : ∀ bar ∈ bars, 0 < bar.1.close)
    (h : First (fun bar : Bar => bar.2 = .buy) bars i j) :
    ∃ bar peak maxDd, bars[j]? = some bar ∧
      loop config state (bars.drop i) =
        loop config ((state.bought bar.1).seen peak maxDd) (bars.drop (j + 1)) := by
  obtain ⟨before, bar, hSplit, hBar, hBuy, hBefore⟩ := h.split
  obtain ⟨peak, maxDd, hIdle⟩ := loop_idle config state before
    (bar :: bars.drop (j + 1)) fun b hb => ⟨fun hBoth => hBefore b hb hBoth.2, by simp [hFlat]⟩
  obtain ⟨peak', maxDd', hStep⟩ := State.step_bought config (state.seen peak maxDd)
    hFlat hBuy (hClose bar (List.mem_of_getElem? hBar)).ne'
  refine ⟨bar, peak', maxDd', hBar, ?_⟩
  rw [hSplit, hIdle, loop_cons config hStep]
  rfl

/-- From a long state the loop runs to the next SELL. -/
theorem loop_to_sell (state : State) (hLong : state.position = some .buy)
    (h : First (fun bar : Bar => bar.2 = .sell) bars i j) :
    ∃ bar peak maxDd, bars[j]? = some bar ∧
      loop config state (bars.drop i) =
        loop config ((state.sold config bar.1).seen peak maxDd) (bars.drop (j + 1)) := by
  obtain ⟨before, bar, hSplit, hBar, hSell, hBefore⟩ := h.split
  obtain ⟨peak, maxDd, hIdle⟩ := loop_idle config state before
    (bar :: bars.drop (j + 1)) fun b hb => ⟨by simp [hLong], fun hBoth => hBefore b hb hBoth.2⟩
  obtain ⟨peak', maxDd', hStep⟩ := State.step_sold config (state.seen peak maxDd) hLong hSell
  refine ⟨bar, peak', maxDd', hBar, ?_⟩
  rw [hSplit, hIdle, loop_cons config hStep]
  rfl

/-- With no such signal left, the loop ends where it is. -/
theorem loop_to_end (state : State) (hIdle : ∀ bar ∈ bars, state.Idle bar.2) :
    ∃ peak maxDd, loop config state bars = .ok (state.seen peak maxDd) := by
  obtain ⟨peak, maxDd, hLoop⟩ := loop_idle config state bars [] hIdle
  rw [List.append_nil] at hLoop
  exact ⟨peak, maxDd, hLoop⟩

end Loop

/-! ## Trades and spans -/

/-- What one unit of capital becomes in the trade. -/
def BacktestTrade.growth (feePct : ℚ) (t : BacktestTrade) : ℚ :=
  t.exit.getD 0 * (1 - feePct) / t.entry

/-- The trade is bought and sold on the candles of the span, with this stake. -/
structure Made (candles : List Candle) (stake : ℚ) (t : BacktestTrade) (span : Span) : Prop where
  opened : ∃ candle, candles[span.opened]? = some candle ∧
    t.openedAt = candle.openedAt ∧ t.entry = candle.close
  closed : ∃ candle, candles[span.closed]? = some candle ∧
    t.closedAt = some candle.openedAt ∧ t.exit = some candle.close
  quantity : t.quantity = stake / t.entry

/-- The trades are made on the spans, each with what the trades before it left. -/
def Makes (feePct : ℚ) (candles : List Candle) : ℚ → List BacktestTrade → List Span → Prop
  | _, [], [] => True
  | stake, t :: ts, span :: spans =>
    Made candles stake t span ∧ Makes feePct candles (stake * t.growth feePct) ts spans
  | _, _, _ => False

namespace Makes

variable {feePct stake : ℚ} {candles : List Candle} {ts : List BacktestTrade}
  {spans : List Span}

theorem length_eq (h : Makes feePct candles stake ts spans) : ts.length = spans.length := by
  induction ts generalizing stake spans with
  | nil =>
    cases spans with
    | nil => rfl
    | cons span spans => exact h.elim
  | cons t ts ih =>
    cases spans with
    | nil => exact h.elim
    | cons span spans => rw [List.length_cons, List.length_cons, ih h.2]

/-- The stake of a trade is the first one, grown in the trades before it. -/
theorem made (h : Makes feePct candles stake ts spans) {n : ℕ} {t : BacktestTrade}
    {span : Span} (hTrade : ts[n]? = some t) (hSpan : spans[n]? = some span) :
    Made candles (stake * ((ts.take n).map (BacktestTrade.growth feePct)).prod) t span := by
  induction ts generalizing stake spans n with
  | nil => cases hTrade
  | cons first ts ih =>
    cases spans with
    | nil => exact h.elim
    | cons firstSpan spans =>
      cases n with
      | zero =>
        obtain rfl := Option.some.inj hTrade
        obtain rfl := Option.some.inj hSpan
        rw [List.take_zero, List.map_nil, List.prod_nil, mul_one]
        exact h.1
      | succ n =>
        rw [List.getElem?_cons_succ] at hTrade hSpan
        rw [List.take_succ_cons, List.map_cons, List.prod_cons, ← mul_assoc]
        exact ih h.2 hTrade hSpan

end Makes

theorem candle_of_bar {bars : List Bar} {n : ℕ} {bar : Bar} (h : bars[n]? = some bar) :
    (bars.map Prod.fst)[n]? = some bar.1 := by
  rw [List.getElem?_map, h, Option.map_some]

/-- **The loop along the pairing.** From a flat state on, the loop makes one trade on each
span, the last of them by the liquidation if the pairing ends open. -/
theorem loop_makes {config : BacktestConfig} {bars : List Bar} {last : Bar}
    (hLast : bars.getLast? = some last) (hClose : ∀ bar ∈ bars, 0 < bar.1.close) {i : ℕ}
    {spans : List Span} (h : Pairing (· = .buy) (· = .sell) (bars.map Prod.snd) i spans)
    (state : State) (hFlat : state.position = none) :
    ∃ final ts, loop config state (bars.drop i) = .ok final ∧
      final.trades ++ final.liquidation config last.1 = state.trades ++ ts ∧
      Makes config.feePct (bars.map Prod.fst) state.capital ts spans := by
  induction h generalizing state with
  | @flat i hNoBuy =>
    obtain ⟨peak, maxDd, hLoop⟩ := loop_to_end config state
      fun bar hBar => ⟨fun hBoth => hNoBuy.of_map.drop bar hBar hBoth.2, by simp [hFlat]⟩
    refine ⟨_, [], hLoop, ?_, trivial⟩
    rw [State.liquidation, if_neg (by simp [State.seen, hFlat])]
    rfl
  | @closed i j k rest hBuys hSells _ ih =>
    obtain ⟨bought, peak, maxDd, hBought, hBuy⟩ :=
      loop_to_buy config hFlat hClose hBuys.of_map
    obtain ⟨sold, peak', maxDd', hSold, hSell⟩ := loop_to_sell config
      ((state.bought bought.1).seen peak maxDd) rfl hSells.of_map
    obtain ⟨final, ts, hRest, hTrades, hMakes⟩ := ih _ (rfl :
      ((((state.bought bought.1).seen peak maxDd).sold config sold.1).seen peak' maxDd').position =
        none)
    refine ⟨final, ((state.bought bought.1).seen peak maxDd).trade config sold.1 :: ts,
      hBuy.trans (hSell.trans hRest), ?_, ⟨⟨bought.1, candle_of_bar hBought, rfl, rfl⟩,
        ⟨sold.1, candle_of_bar hSold, rfl, rfl⟩, rfl⟩, ?_⟩
    · rw [hTrades]
      exact List.append_assoc _ _ _
    · -- What the sale leaves is the stake, grown in the trade.
      have hCapital : state.capital / bought.1.close * sold.1.close * (1 - config.feePct) =
          state.capital * (sold.1.close * (1 - config.feePct) / bought.1.close) := by
        ring
      exact hCapital ▸ hMakes
  | @opened i j hBuys hNoSell =>
    obtain ⟨bought, peak, maxDd, hBought, hBuy⟩ :=
      loop_to_buy config hFlat hClose hBuys.of_map
    obtain ⟨peak', maxDd', hLoop⟩ := loop_to_end config
      ((state.bought bought.1).seen peak maxDd) fun bar hBar =>
        ⟨by simp [State.seen, State.bought], fun hBoth => hNoSell.of_map.drop bar hBar hBoth.2⟩
    have hEnd : (bars.map Prod.fst)[(bars.map Prod.snd).length - 1]? = some last.1 := by
      rw [List.length_map]
      rw [List.getLast?_eq_getElem?] at hLast
      exact candle_of_bar hLast
    refine ⟨_, [((state.bought bought.1).seen peak maxDd).trade config last.1],
      hBuy.trans hLoop, ?_, ⟨⟨bought.1, candle_of_bar hBought, rfl, rfl⟩,
        ⟨last.1, hEnd, rfl, rfl⟩, rfl⟩, trivial⟩
    have hLong : (((state.bought bought.1).seen peak maxDd).seen peak' maxDd').position =
        some .buy := rfl
    rw [State.liquidation, if_pos hLong]
    rfl

/-! ## The result -/

/-- Trades follow one another as the candles do. -/
theorem trades_pairwise {r : Datetime → Datetime → Prop} {candles : List Candle}
    {ts : List BacktestTrade} {spans : List Span}
    (hCandles : candles.Pairwise fun a b => r a.openedAt b.openedAt)
    (hSpans : spans.Pairwise fun earlier later => earlier.closed < later.opened)
    (hLength : ts.length = spans.length)
    (hMade : ∀ (n : ℕ) (t : BacktestTrade) (span : Span), ts[n]? = some t →
      spans[n]? = some span → ∃ stake, Made candles stake t span) :
    ts.Pairwise fun earlier later =>
      ∃ closed, earlier.closedAt = some closed ∧ r closed later.openedAt := by
  rw [List.pairwise_iff_getElem] at hCandles hSpans ⊢
  intro m n hm hn hLt
  have hm' : m < spans.length := hLength ▸ hm
  have hn' : n < spans.length := hLength ▸ hn
  obtain ⟨stake, hEarlier⟩ := hMade m _ _ (List.getElem?_eq_getElem hm)
    (List.getElem?_eq_getElem hm')
  obtain ⟨stake', hLater⟩ := hMade n _ _ (List.getElem?_eq_getElem hn)
    (List.getElem?_eq_getElem hn')
  obtain ⟨sold, hSold, hClosed, -⟩ := hEarlier.closed
  obtain ⟨bought, hBought, hOpened, -⟩ := hLater.opened
  obtain ⟨hSoldLt, rfl⟩ := List.getElem?_eq_some_iff.mp hSold
  obtain ⟨hBoughtLt, rfl⟩ := List.getElem?_eq_some_iff.mp hBought
  exact ⟨_, hClosed, hOpened ▸ hCandles _ _ hSoldLt hBoughtLt (hSpans m n hm' hn' hLt)⟩

/-- No trade is closed before it is opened. -/
theorem trades_lasting {candles : List Candle} {ts : List BacktestTrade} {spans : List Span}
    (hCandles : candles.Pairwise fun a b => a.openedAt ≤ b.openedAt)
    (hSpans : ∀ span ∈ spans, span.opened ≤ span.closed) (hLength : ts.length = spans.length)
    (hMade : ∀ (n : ℕ) (t : BacktestTrade) (span : Span), ts[n]? = some t →
      spans[n]? = some span → ∃ stake, Made candles stake t span) :
    ∀ t ∈ ts, ∃ closed, t.closedAt = some closed ∧ t.openedAt ≤ closed := by
  intro t ht
  obtain ⟨n, hn, rfl⟩ := List.mem_iff_getElem.mp ht
  have hn' : n < spans.length := hLength ▸ hn
  obtain ⟨stake, hThis⟩ := hMade n _ _ (List.getElem?_eq_getElem hn)
    (List.getElem?_eq_getElem hn')
  obtain ⟨bought, hBought, hOpened, -⟩ := hThis.opened
  obtain ⟨sold, hSold, hClosed, -⟩ := hThis.closed
  obtain ⟨hBoughtLt, rfl⟩ := List.getElem?_eq_some_iff.mp hBought
  obtain ⟨hSoldLt, rfl⟩ := List.getElem?_eq_some_iff.mp hSold
  refine ⟨_, hClosed, ?_⟩
  rw [hOpened]
  rcases (hSpans _ (List.getElem_mem hn')).lt_or_eq with hLt | hEq
  · exact List.pairwise_iff_getElem.mp hCandles _ _ hBoughtLt hSoldLt hLt
  · simp only [hEq, le_refl]

/-- The trades of a result are made on the spans of the greedy pairing of the signals. -/
structure Paired {F : Type} (evaluate : Evaluate F) (config : BacktestConfig)
    (candles : List Candle) (feats : List F) (signals : List SignalDirection)
    (result : BacktestResult) (spans : List Span) : Prop where
  pairing : Pairing (· = .buy) (· = .sell) signals 0 spans
  only : ∀ spans', Pairing (· = .buy) (· = .sell) signals 0 spans' → spans' = spans
  length_eq : result.trades.length = spans.length
  /-- A trade is made with the initial capital, grown in the trades before it. -/
  made : ∀ (n : ℕ) (t : BacktestTrade) (span : Span), result.trades[n]? = some t →
    spans[n]? = some span →
    Made candles (config.initialCapital *
      ((result.trades.take n).map (BacktestTrade.growth config.feePct)).prod) t span
  lasting : ∀ t ∈ result.trades, ∃ closed, t.closedAt = some closed ∧ t.openedAt ≤ closed
  ordered : result.trades.Pairwise fun earlier later =>
    ∃ closed, earlier.closedAt = some closed ∧ closed ≤ later.openedAt
  apart : (candles.Pairwise fun a b => a.openedAt < b.openedAt) →
    result.trades.Pairwise fun earlier later =>
      ∃ closed, earlier.closedAt = some closed ∧ closed < later.openedAt
  /-- After any number of bars, the loop is flat with no quantity or long with no capital. -/
  exclusive : ∀ first, candles.head? = some first → ∀ k, ∃ state,
    (candles.zipIdx.take k).foldlM (iterate evaluate config candles feats)
        (State.start config first) = .ok state ∧
      Xor (state.position = none ∧ state.quantity = 0)
        (state.position = some .buy ∧ state.capital = 0)

section Pairs

variable {F : Type} {evaluate : Evaluate F} {config : BacktestConfig} {candles : List Candle}
  {feats : List F} {signals : List SignalDirection}

/-- After any number of bars the engine holds a quantity or capital, and not both. -/
theorem iterate_xor (hSignals : Emits evaluate config candles feats signals)
    (hClose : ∀ candle ∈ candles, 0 < candle.close) (first : Candle) (k : ℕ) :
    ∃ state, (candles.zipIdx.take k).foldlM (iterate evaluate config candles feats)
        (State.start config first) = .ok state ∧
      Xor (state.position = none ∧ state.quantity = 0)
        (state.position = some .buy ∧ state.capital = 0) := by
  obtain ⟨state, hLoop, hFollows⟩ := loop_follows config first ((candles.zip signals).take k)
    fun bar hBar => hClose bar.1 (List.of_mem_zip (List.mem_of_mem_take hBar)).1
  refine ⟨state, (iterate_eq_loop hSignals _ k).trans hLoop, ?_⟩
  have hPosition := hFollows.position
  cases hOpened : (path ((candles.zip signals).take k)).opened with
  | none =>
    rw [hOpened, Option.map_none] at hPosition
    exact .inl ⟨⟨hPosition, (hFollows.flat hOpened).2⟩, by simp [hPosition]⟩
  | some entry =>
    rw [hOpened, Option.map_some] at hPosition
    obtain ⟨-, -, hCapital, -⟩ := hFollows.held entry hOpened
    exact .inr ⟨⟨hPosition, hCapital⟩, by simp [hPosition]⟩

/-- **The trades are the pairing.** In exact arithmetic a backtest over positive closes succeeds
and is `Paired` with the greedy pairing of its signals. -/
theorem simulate_pairs (hSignals : Emits evaluate config candles feats signals)
    (hClose : ∀ candle ∈ candles, 0 < candle.close) (hCandles : candles ≠ [])
    (hAscending : candles.Pairwise fun a b => a.openedAt ≤ b.openedAt) :
    ∃ result spans, simulate evaluate config candles feats = .ok result ∧
      Paired evaluate config candles feats signals result spans := by
  have hFst : (candles.zip signals).map Prod.fst = candles :=
    List.map_fst_zip hSignals.length_eq.ge
  have hSnd : (candles.zip signals).map Prod.snd = signals :=
    List.map_snd_zip hSignals.length_eq.le
  have hBars : candles.zip signals ≠ [] := by
    intro hNil
    rw [hNil] at hFst
    exact hCandles hFst.symm
  obtain ⟨spans, hPairing⟩ : ∃ spans, Pairing (· = SignalDirection.buy)
      (· = SignalDirection.sell) signals 0 spans :=
    exists_pairing signals 0
  obtain ⟨last, hLastBar⟩ : ∃ last, (candles.zip signals).getLast? = some last :=
    ⟨_, List.getLast?_eq_some_getLast hBars⟩
  have hLast : candles.getLast? = some last.1 := by
    rw [← hFst, List.getLast?_map, hLastBar, Option.map_some]
  obtain ⟨final, ts, hLoop, hTrades, hMakes⟩ := loop_makes hLastBar
    (fun bar hBar => hClose bar.1 (List.of_mem_zip hBar).1) (hSnd.symm ▸ hPairing)
    (State.start config (candles.head hCandles)) rfl
  rw [hFst] at hMakes
  rw [← State.finish_trades] at hTrades
  have hResult : (final.finish config last.1).trades = ts :=
    hTrades
  obtain ⟨hInside, hApart⟩ := hPairing.ordered
  have hLength := hMakes.length_eq
  have hMade (n : ℕ) (t : BacktestTrade) (span : Span) (hTrade : ts[n]? = some t)
      (hSpan : spans[n]? = some span) := hMakes.made hTrade hSpan
  refine ⟨final.finish config last.1, spans, ?_, ?_⟩
  · rw [List.drop_zero] at hLoop
    rw [simulate_eq (List.head?_eq_some_head hCandles) hLast hSignals, hLoop]
    rfl
  exact
    { pairing := hPairing
      only := fun spans' h => h.unique hPairing
      length_eq := hResult.symm ▸ hLength
      made := hResult.symm ▸ hMade
      lasting := hResult.symm ▸ trades_lasting hAscending
        (fun span hSpan => (hInside span hSpan).2.1) hLength fun n t span ht hSpan =>
          ⟨_, hMade n t span ht hSpan⟩
      ordered := hResult.symm ▸ trades_pairwise hAscending hApart hLength
        fun n t span ht hSpan => ⟨_, hMade n t span ht hSpan⟩
      apart := fun hStrict => hResult.symm ▸ trades_pairwise hStrict hApart hLength
        fun n t span ht hSpan => ⟨_, hMade n t span ht hSpan⟩
      exclusive := fun first _ k => iterate_xor hSignals hClose first k }

end Pairs

namespace Churn

def config : BacktestConfig where
  strategyId := "demo"
  start := 0
  «end» := 4

/-- Signals that repeat, and a BUY on the last bar. -/
def candles : List Candle :=
  [{ openedAt := 0, close := 100 }, { openedAt := 1, close := 120 }, { openedAt := 2, close := 90 },
    { openedAt := 3, close := 110 }, { openedAt := 4, close := 100 }]

theorem churn_paired : ∃ result spans,
    simulate (scripted ["BUY", "BUY", "SELL", "SELL", "BUY"]) config candles [()] = .ok result ∧
      Paired (scripted ["BUY", "BUY", "SELL", "SELL", "BUY"]) config candles [()]
        [.buy, .buy, .sell, .sell, .buy] result spans :=
  simulate_pairs (scripted_emits rfl) (by decide +kernel) (by decide) (by decide)

end Churn

namespace Thirds

def config : BacktestConfig where
  strategyId := "demo"
  start := 0
  «end» := 3
  feePct := 0

/-- A round trip at 3 and one at 1. -/
def candles : List Candle :=
  [{ openedAt := 0, close := 3 }, { openedAt := 1, close := 3 }, { openedAt := 2, close := 1 },
    { openedAt := 3, close := 1 }]

/-- A third of the capital, in 28 digits. -/
def first : BacktestTrade where
  symbol := "BTC/USDT"
  openedAt := 0
  closedAt := some 1
  side := "long"
  entry := 3
  exit := some 3
  quantity := 3333333333333333333333333333 / 10 ^ 24
  pnl := some 0

/-- What it leaves, which is less than the capital. -/
def second : BacktestTrade where
  symbol := "BTC/USDT"
  openedAt := 2
  closedAt := some 3
  side := "long"
  entry := 1
  exit := some 1
  quantity := 9999999999999999999999999999 / 10 ^ 24
  pnl := some 0

/-- The second quantity is not the capital compounded over the first trade. -/
theorem quantity_rounded :
    Computed.simulate .default (scripted ["BUY", "SELL", "BUY", "SELL"]) config candles [()] =
        .ok {
          config := config
          trades := [first, second]
          initialCapital := 10000
          finalCapital := 9999999999999999999999999999 / 10 ^ 24
          totalReturnPct := -1 / 10 ^ 26
          maxDrawdownPct := 1 / 10 ^ 26
          winRatePct := 0
          tradeCount := 2 } ∧
      second.quantity ≠ config.initialCapital * first.growth config.feePct / second.entry :=
  ⟨by decide +kernel, by decide +kernel⟩

end Thirds

end TradingAgent.Backtest
