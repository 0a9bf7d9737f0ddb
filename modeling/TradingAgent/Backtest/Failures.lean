import TradingAgent.Account.Drawdown
import TradingAgent.Backtest.Computed
import TradingAgent.Backtest.Ledger

/-!
# When a backtest raises

`run` returns its failures as values only where candles are missing. It raises for an unknown
strategy, for a signal that the strategy gateway refuses, for a BUY on a candle that closes at
zero, and where an amount overflows. `run_returns_iff` says that, for configurations with a valid
symbol and timeframe, it raises nowhere else.

The amounts follow from the round trips of the signals. `Path.capital` is what the completed round
trips leave of the initial capital, rounded as the context does, and `amounts` are the exact
results of the operations on a bar. Every function of the engine has a specification that gives
its weakest precondition: these amounts are below the limit of the context.
-/

namespace TradingAgent.Backtest

open Accounting DecimalContext Marketdata Rounding

/-! ## The amounts -/

/-- Rounded to the digits of the default context. -/
def rounded (x : ℚ) : ℚ := decimal28.round x

section Amounts

variable (config : BacktestConfig)

/-- What a quantity brings at a price, net of the exit fee. -/
def net (quantity price : ℚ) : ℚ :=
  rounded (rounded (quantity * price) * rounded (1 - config.feePct))

def profit (entry quantity price : ℚ) : ℚ :=
  rounded (rounded (rounded (price - entry) * quantity) -
    rounded (rounded (entry * quantity) * config.feePct))

/-- What is left of a mark. -/
def returned (finalCapital : ℚ) : ℚ :=
  rounded (finalCapital - config.initialCapital) /
    if config.initialCapital = 0 then 1 else config.initialCapital

/-- The amounts of a trade that closes a position. -/
def settling (entry quantity price : ℚ) : List ℚ :=
  [quantity * price, 1 - config.feePct, rounded (quantity * price) * rounded (1 - config.feePct),
    price - entry, rounded (price - entry) * quantity, entry * quantity,
    rounded (entry * quantity) * config.feePct,
    rounded (rounded (price - entry) * quantity) -
      rounded (rounded (entry * quantity) * config.feePct)]

/-- The amounts of a return. -/
def returning (finalCapital : ℚ) : List ℚ :=
  [finalCapital - config.initialCapital, rounded (returned config finalCapital) * 100]

/-- The amounts of a drawdown. -/
def falling (peak mark : ℚ) : List ℚ :=
  if 0 < peak then [peak - mark, rounded (rounded (peak - mark) / peak) * 100] else []

namespace Path

/-- What the completed round trips leave of the initial capital. -/
def capital (p : Path) : ℚ :=
  p.completed.foldl
    (fun capital trip => net config (rounded (capital / trip.entry)) trip.exit)
    config.initialCapital

/-- The quantity that is bought with it at a price. -/
def quantity (p : Path) (entry : ℚ) : ℚ := rounded (p.capital config / entry)

def worth (p : Path) (close : ℚ) : ℚ :=
  match p.opened with
  | none => p.capital config
  | some entry => rounded (p.quantity config entry * close)

/-- The amounts of the trade, if any, on a bar. -/
def trading (p : Path) (bar : Bar) : List ℚ :=
  match p.opened, bar.2 with
  | none, .buy => [p.capital config / bar.1.close]
  | some entry, .sell => settling config entry (p.quantity config entry) bar.1.close
  | _, _ => []

/-- The amounts of a mark. -/
def marking (p : Path) (close : ℚ) : List ℚ :=
  match p.opened with
  | none => []
  | some entry => [p.quantity config entry * close]

/-- The amounts of the liquidation, after which the quantity still counts, and the return. -/
def ending (p : Path) (close : ℚ) : List ℚ :=
  match p.opened with
  | none => returning config (p.capital config)
  | some entry =>
    let total := net config (p.quantity config entry) close + p.worth config close
    settling config entry (p.quantity config entry) close ++
      total :: returning config (rounded total)

end Path

/-- The worth after each of some bars. -/
def worths (bars : List Bar) : List ℚ :=
  bars.zipIdx.map fun bar => (path (bars.take (bar.2 + 1))).worth config bar.1.1.close

/-- The highest worth so far. -/
def highest (bars : List Bar) : ℚ := (watched config.initialCapital (worths config bars)).peak

/-- The exact results of the operations on a bar. -/
def amounts (before : List Bar) (bar : Bar) : List ℚ :=
  let after := path (before ++ [bar])
  (path before).trading config bar ++ after.marking config bar.1.close ++
    falling (highest config (before ++ [bar])) (after.worth config bar.1.close)

/-- The bar is a BUY, while flat, on a candle that closes at zero. -/
def Worthless (p : Path) (bar : Bar) : Prop :=
  p.opened = none ∧ bar.2 = .buy ∧ bar.1.close = 0

/-- Nothing raises on a bar. -/
structure Computes (before : List Bar) (bar : Bar) : Prop where
  worthwhile : ¬Worthless (path before) bar
  bounded : ∀ x ∈ amounts config before bar, |x| < limit

/-- Nothing raises in the loop over some bars. -/
def Computable (bars : List Bar) : Prop :=
  ∀ before bar, before ++ [bar] <+: bars → Computes config before bar

/-- A bar that opens and closes nothing has no trade. -/
theorem Path.trading_idle {p : Path} {bar : Bar} (hNotBuy : ¬(p.opened = none ∧ bar.2 = .buy))
    (hNotSell : ¬(p.opened.isSome ∧ bar.2 = .sell)) : p.trading config bar = [] := by
  unfold trading
  cases hOpened : p.opened with
  | none =>
    cases hSignal : bar.2 with
    | buy => exact absurd ⟨hOpened, hSignal⟩ hNotBuy
    | sell => rfl
    | hold => rfl
  | some entry =>
    cases hSignal : bar.2 with
    | buy => rfl
    | sell => exact absurd ⟨by rw [hOpened]; rfl, hSignal⟩ hNotSell
    | hold => rfl

theorem worths_concat (bars : List Bar) (bar : Bar) :
    worths config (bars ++ [bar]) =
      worths config bars ++ [(path (bars ++ [bar])).worth config bar.1.close] := by
  have hEarlier : ∀ p ∈ bars.zipIdx,
      (path ((bars ++ [bar]).take (p.2 + 1))).worth config p.1.1.close =
        (path (bars.take (p.2 + 1))).worth config p.1.1.close := by
    intro p hp
    have hIndex := List.snd_lt_of_mem_zipIdx hp
    rw [List.take_append_of_le_length (by omega)]
  unfold worths
  rw [List.zipIdx_append, List.map_append, List.map_congr_left hEarlier]
  simp [List.take_of_length_le]

theorem highest_concat (bars : List Bar) (bar : Bar) :
    highest config (bars ++ [bar]) =
      max (highest config bars) ((path (bars ++ [bar])).worth config bar.1.close) := by
  rw [highest, worths_concat, watched_concat]
  rfl

theorem computable_concat (bars : List Bar) (bar : Bar) :
    Computable config (bars ++ [bar]) ↔ Computable config bars ∧ Computes config bars bar := by
  unfold Computable
  constructor
  · intro h
    exact ⟨fun before b hPrefix => h before b (hPrefix.trans (List.prefix_append _ _)),
      h bars bar List.prefix_rfl⟩
  · rintro ⟨hBars, hBar⟩ before b hPrefix
    rcases List.prefix_concat_iff.mp hPrefix with hAll | hPrefix
    · obtain ⟨rfl, hLast⟩ := List.append_inj' hAll rfl
      obtain rfl := List.singleton_inj.mp hLast
      exact hBar
    · exact hBars before b hPrefix

end Amounts

/-! ## One bar -/

section Bars

/-- The state of a strategy that has made these round trips. -/
structure Held (config : BacktestConfig) (p : Path) (state : State) : Prop where
  position : state.position = if p.opened.isSome then some .buy else none
  flat : p.opened = none → state.capital = p.capital config
  long : ∀ entry, p.opened = some entry → state.capital = 0 ∧ state.entryPrice = entry ∧
    state.quantity = p.quantity config entry

variable {config : BacktestConfig} {p : Path} {state : State}

theorem Held.of_none (hOpened : p.opened = none) (hPosition : state.position = none)
    (hCapital : state.capital = p.capital config) : Held config p state where
  position := by rw [hPosition, hOpened]; rfl
  flat _ := hCapital
  long entry h := by rw [hOpened] at h; cases h

theorem Held.of_some {entry : ℚ} (hOpened : p.opened = some entry)
    (hPosition : state.position = some .buy) (hCapital : state.capital = 0)
    (hEntry : state.entryPrice = entry) (hQuantity : state.quantity = p.quantity config entry) :
    Held config p state where
  position := by rw [hPosition, hOpened]; rfl
  flat h := by rw [hOpened] at h; cases h
  long entry' h := by
    obtain rfl := Option.some.inj (hOpened.symm.trans h)
    exact ⟨hCapital, hEntry, hQuantity⟩

/-- The peak and the drawdown are not part of what is held. -/
theorem Held.watch (h : Held config p state) (peak maxDd : ℚ) :
    Held config p { state with peak := peak, maxDd := maxDd } := ⟨h.position, h.flat, h.long⟩

theorem Held.position_eq_none_iff (h : Held config p state) :
    state.position = none ↔ p.opened = none := by
  rw [h.position]
  cases p.opened with
  | none => simp
  | some entry => simp

theorem Held.position_eq_buy_iff (h : Held config p state) :
    state.position = some .buy ↔ p.opened.isSome := by
  rw [h.position]
  cases p.opened with
  | none => simp
  | some entry => simp

theorem Held.long_of_some (h : Held config p state) {entry : ℚ} (hOpened : p.opened = some entry) :
    state.position = some .buy :=
  h.position_eq_buy_iff.mpr (Option.isSome_iff_exists.mpr ⟨entry, hOpened⟩)

theorem Held.not_long_of_none (h : Held config p state) (hOpened : p.opened = none) :
    ¬state.position = some .buy := by
  rw [h.position_eq_buy_iff, hOpened]
  exact Bool.false_ne_true

/-- A settlement returns where its amounts are below the limit. -/
theorem settle_spec (config : BacktestConfig) (state : State) (candle : Candle) :
    ∃ trades, ∀ post : State → Prop,
      Returns (Computed.settle .default config state candle) post ↔
        (∀ x ∈ settling config state.entryPrice state.quantity candle.close, |x| < limit) ∧
          post { state with
            trades := trades
            capital := net config state.quantity candle.close } := by
  refine ⟨state.trades ++
    [{ symbol := config.symbol
       openedAt := state.entryAt
       closedAt := some candle.openedAt
       side := "long"
       entry := state.entryPrice
       exit := some candle.close
       quantity := state.quantity
       pnl := some (profit config state.entryPrice state.quantity candle.close) }], fun post => ?_⟩
  simp only [Computed.settle, Computed.gross, Computed.pnl, settling, returns_bind,
    returns_default, returns_pure, List.forall_mem_cons, List.not_mem_nil, false_implies,
    implies_true, and_true, and_assoc]
  exact Iff.rfl

/-- The trade on a bar is that of the path. -/
theorem act_spec (h : Held config p state) (bar : Bar) :
    ∃ acted, Held config (p.next bar) acted ∧ acted.peak = state.peak ∧ ∀ post : State → Prop,
      Returns (Computed.act .default config state bar.1 bar.2) post ↔
        ¬Worthless p bar ∧ (∀ x ∈ p.trading config bar, |x| < limit) ∧ post acted := by
  unfold Computed.act
  rcases p.next_cases bar with ⟨hOpened, hSignal, hNext⟩ | ⟨entry, hOpened, hSignal, hNext⟩ |
    ⟨hNotBuy, hNotSell, hNext⟩
  · have hTrading : p.trading config bar = [p.capital config / bar.1.close] := by
      rw [Path.trading, hOpened, hSignal]
    have hWorthless : ¬Worthless p bar ↔ bar.1.close ≠ 0 := by
      rw [Worthless, and_iff_right hOpened, and_iff_right hSignal]
    refine ⟨{ state with
      position := some .buy
      entryAt := bar.1.openedAt
      entryPrice := bar.1.close
      quantity := p.quantity config bar.1.close
      capital := 0 }, ?_, rfl, fun post => ?_⟩
    · rw [hNext]
      exact .of_some rfl rfl rfl rfl rfl
    · rw [if_pos ⟨h.position_eq_none_iff.mpr hOpened, hSignal⟩, hTrading, hWorthless,
        h.flat hOpened, returns_bind, returns_default_divide, List.forall_mem_singleton,
        returns_pure]
      rfl
  · obtain ⟨hCapital, hEntry, hQuantity⟩ := h.long entry hOpened
    have hTrading : p.trading config bar =
        settling config state.entryPrice state.quantity bar.1.close := by
      rw [Path.trading, hOpened, hSignal, hEntry, hQuantity]
    have hWorthless : ¬Worthless p bar := fun hBar => by
      rw [hBar.1] at hOpened
      cases hOpened
    obtain ⟨trades, hSettle⟩ := settle_spec config state bar.1
    refine ⟨{ state with
      trades := trades
      capital := net config state.quantity bar.1.close
      quantity := 0
      position := none }, ?_, rfl, fun post => ?_⟩
    · rw [hNext]
      refine .of_none rfl rfl ?_
      rw [Path.capital, List.foldl_concat, hQuantity]
      rfl
    · rw [if_neg (by simp [hSignal]), if_pos ⟨h.long_of_some hOpened, hSignal⟩, hTrading,
        returns_bind, hSettle, returns_pure, and_iff_right hWorthless]
  · refine ⟨state, by rwa [hNext], rfl, fun post => ?_⟩
    rw [if_neg (by rwa [h.position_eq_none_iff]), if_neg (by rwa [h.position_eq_buy_iff]),
      Path.trading_idle config hNotBuy hNotSell, returns_pure,
      and_iff_right fun hBar => hNotBuy ⟨hBar.1, hBar.2.1⟩]
    simp

theorem mark_spec (h : Held config p state) (candle : Candle) (post : ℚ → Prop) :
    Returns (Computed.mark .default state candle) post ↔
      (∀ x ∈ p.marking config candle.close, |x| < limit) ∧ post (p.worth config candle.close) := by
  unfold Computed.mark Computed.worth Path.marking Path.worth
  cases hOpened : p.opened with
  | none =>
    rw [if_neg (h.not_long_of_none hOpened), returns_pure, h.flat hOpened]
    simp
  | some entry =>
    obtain ⟨hCapital, -, hQuantity⟩ := h.long entry hOpened
    rw [if_pos (h.long_of_some hOpened), hCapital, hQuantity, returns_bind, returns_default,
      returns_default, zero_add, abs_round_lt_limit_iff, decimal28.round_round,
      List.forall_mem_singleton]
    exact and_congr_right fun hValue => and_iff_right hValue

theorem drawdown_spec {peak : ℚ} (hPeak : 0 < peak) (mark : ℚ) (post : ℚ → Prop) :
    Returns (Computed.drawdown .default peak mark) post ↔
      (∀ x ∈ falling peak mark, |x| < limit) ∧
        post (rounded (rounded (rounded (peak - mark) / peak) * 100)) := by
  unfold Computed.drawdown falling
  rw [if_pos hPeak, returns_bind, returns_default, returns_bind, returns_default_divide,
    returns_default, and_iff_right hPeak.ne', List.forall_mem_cons, List.forall_mem_singleton,
    and_assoc]
  exact and_congr_right fun _ => and_iff_right_of_imp fun h => abs_lt_limit_of_percent h.1

/-- The drawdown is watched from the highest mark. -/
theorem watch_spec (state : State) (mark : ℚ) :
    ∃ maxDd, ∀ post : State → Prop,
      Returns (Computed.watch .default state mark) post ↔
        (∀ x ∈ falling (max state.peak mark) mark, |x| < limit) ∧
          post { state with peak := max state.peak mark, maxDd := maxDd } := by
  unfold Computed.watch
  dsimp only
  by_cases hPeak : max state.peak mark > 0
  · refine ⟨max state.maxDd (rounded (rounded (rounded (max state.peak mark - mark) /
      max state.peak mark) * 100)), fun post => ?_⟩
    rw [if_pos hPeak, returns_bind, drawdown_spec hPeak, returns_pure]
  · refine ⟨state.maxDd, fun post => ?_⟩
    rw [if_neg hPeak, returns_pure, falling, if_neg hPeak]
    simp

/-- **One bar.** It is computed just if its amounts are below the limit and it buys nothing at
zero. -/
theorem step_spec {before : List Bar} (h : Held config (path before) state)
    (hPeak : state.peak = highest config before) (bar : Bar) :
    ∃ next, Held config (path (before ++ [bar])) next ∧
      next.peak = highest config (before ++ [bar]) ∧ ∀ post : State → Prop,
        Returns (Computed.step .default config state bar) post ↔
          Computes config before bar ∧ post next := by
  obtain ⟨acted, hActed, hActedPeak, hAct⟩ := act_spec h bar
  rw [← path_concat] at hActed
  obtain ⟨maxDd, hWatch⟩ := watch_spec acted ((path (before ++ [bar])).worth config bar.1.close)
  rw [hActedPeak, hPeak, ← highest_concat] at hWatch
  refine ⟨{ acted with peak := highest config (before ++ [bar]), maxDd := maxDd },
    hActed.watch _ maxDd, rfl, fun post => ?_⟩
  have hComputes : Computes config before bar ↔
      ¬Worthless (path before) bar ∧
        (∀ x ∈ (path before).trading config bar, |x| < limit) ∧
        (∀ x ∈ (path (before ++ [bar])).marking config bar.1.close, |x| < limit) ∧
        ∀ x ∈ falling (highest config (before ++ [bar]))
          ((path (before ++ [bar])).worth config bar.1.close), |x| < limit := by
    constructor
    · rintro ⟨hWorthwhile, hBounded⟩
      refine ⟨hWorthwhile, ?_⟩
      simpa only [amounts, List.forall_mem_append, and_assoc] using hBounded
    · rintro ⟨hWorthwhile, hBounded⟩
      refine ⟨hWorthwhile, ?_⟩
      simpa only [amounts, List.forall_mem_append, and_assoc] using hBounded
  unfold Computed.step
  simp only [returns_bind, hAct, mark_spec hActed, hWatch, hComputes, and_assoc]

/-! ## The loop -/

/-- **The loop.** It runs just if nothing raises on any bar, and holds what the path holds. -/
theorem loop_spec (config : BacktestConfig) (first : Candle) (bars : List Bar) :
    ∃ state, Held config (path bars) state ∧ state.peak = highest config bars ∧
      ∀ post : State → Prop,
        Returns (bars.foldlM (Computed.step .default config) (State.start config first)) post ↔
          Computable config bars ∧ post state := by
  induction bars using List.reverseRecOn with
  | nil =>
    refine ⟨State.start config first, .of_none rfl rfl rfl, rfl, fun post => ?_⟩
    rw [List.foldlM_nil, returns_pure]
    refine (and_iff_right fun before bar hPrefix => ?_).symm
    simp at hPrefix
  | append_singleton bars bar ih =>
    obtain ⟨state, hHeld, hPeak, hLoop⟩ := ih
    obtain ⟨next, hNext, hNextPeak, hStep⟩ := step_spec hHeld hPeak bar
    refine ⟨next, hNext, hNextPeak, fun post => ?_⟩
    rw [List.foldlM_append, returns_bind, hLoop, List.foldlM_cons, returns_bind, hStep,
      List.foldlM_nil, returns_pure, computable_concat, and_assoc]

/-! ## The result -/

theorem totalReturn_spec (finalCapital : ℚ) (post : ℚ → Prop) :
    Returns (Computed.totalReturn .default config finalCapital) post ↔
      (∀ x ∈ returning config finalCapital, |x| < limit) ∧
        post (rounded (rounded (returned config finalCapital) * 100)) := by
  have hBase : (if config.initialCapital = 0 then 1 else config.initialCapital) ≠ 0 := by
    split_ifs with hZero
    · exact one_ne_zero
    · exact hZero
  unfold Computed.totalReturn returning
  rw [returns_bind, returns_default, returns_bind, returns_default_divide, returns_default,
    and_iff_right hBase, List.forall_mem_cons, List.forall_mem_singleton, and_assoc]
  exact and_congr_right fun _ => and_iff_right_of_imp fun h => abs_lt_limit_of_percent h.1

/-- A win rate never overflows. -/
theorem winRate_spec (trades : List BacktestTrade) :
    ∃ rate, ∀ post : ℚ → Prop, Returns (Computed.winRate .default trades) post ↔ post rate := by
  unfold Computed.winRate
  by_cases hNone : trades = []
  · refine ⟨0, fun post => ?_⟩
    rw [if_pos hNone, returns_pure]
  · have hCount : 0 < (trades.length : ℚ) := Nat.cast_pos.mpr (List.length_pos_of_ne_nil hNone)
    have hWins : ((trades.filter BacktestTrade.wins).length : ℚ) ≤ trades.length :=
      Nat.cast_le.mpr (List.length_filter_le _ _)
    have hRate := percent_lt_limit (div_nonneg (Nat.cast_nonneg _) hCount.le)
      ((div_le_one hCount).mpr hWins)
    refine ⟨rounded (rounded ((trades.filter BacktestTrade.wins).length / trades.length) * 100),
      fun post => ?_⟩
    rw [if_neg hNone, returns_bind, returns_default_divide, returns_default,
      and_iff_right hCount.ne', and_iff_right (abs_lt_limit_of_percent hRate), and_iff_right hRate]
    rfl

/-- The liquidation and the return are those of the path. -/
theorem finish_returns_iff (h : Held config p state) (last : Candle) :
    (∃ result, Computed.finish .default config state last = .ok result) ↔
      ∀ x ∈ p.ending config last.close, |x| < limit := by
  rw [exists_ok_iff]
  unfold Computed.finish Computed.liquidate Path.ending
  cases hOpened : p.opened with
  | none =>
    have hFlat := h.not_long_of_none hOpened
    obtain ⟨rate, hRate⟩ := winRate_spec state.trades
    rw [if_neg hFlat, returns_bind, returns_pure, returns_bind, Computed.mark, if_neg hFlat,
      returns_pure, h.flat hOpened, returns_bind, totalReturn_spec, returns_bind, hRate,
      returns_pure, and_true]
  | some entry =>
    obtain ⟨-, hEntry, hQuantity⟩ := h.long entry hOpened
    have hLong := h.long_of_some hOpened
    have hWorth : p.worth config last.close = rounded (p.quantity config entry * last.close) := by
      rw [Path.worth, hOpened]
    obtain ⟨trades, hSettle⟩ := settle_spec config state last
    obtain ⟨rate, hRate⟩ := winRate_spec trades
    rw [hEntry, hQuantity] at hSettle
    rw [if_pos hLong, returns_bind, hSettle, returns_bind, Computed.mark, if_pos hLong,
      Computed.worth, returns_bind, returns_default, returns_default, returns_bind,
      totalReturn_spec, returns_bind, hRate, returns_pure, and_true,
      List.forall_mem_append, List.forall_mem_cons, hWorth]
    -- The value of the quantity is the first amount of the settlement.
    refine and_congr_right fun hSettling => and_iff_right ?_
    exact hSettling _ List.mem_cons_self

end Bars

/-! ## The run -/

section Run

variable {F : Type} {config : BacktestConfig} {evaluate : Evaluate F} {candles : List Candle}
  {feats : List F}

/-- Where a loop returns, every element of the list was taken in some state. -/
theorem foldlM_visits {A B : Type} {l : List A} {f : B → A → Except Exn B} {b b' : B}
    (h : l.foldlM f b = .ok b') : ∀ a ∈ l, ∃ before after, f before a = .ok after := by
  induction l generalizing b with
  | nil => exact fun a ha => absurd ha List.not_mem_nil
  | cons first rest ih =>
    rw [List.foldlM_cons] at h
    obtain ⟨next, hFirst, hRest⟩ := bind_eq_ok.mp h
    intro a ha
    rcases List.mem_cons.mp ha with rfl | ha
    · exact ⟨b, next, hFirst⟩
    · exact ih hRest a ha

/-- Where the loop returns, the strategy gave a direction after every candle. -/
theorem emits_of_foldlM_ok {state state' : State}
    (h : candles.zipIdx.foldlM (Computed.iterate .default evaluate config candles feats) state =
      .ok state') : ∃ signals, Emits evaluate config candles feats signals := by
  have hGiven (i : ℕ) (hi : i < candles.length) : ∃ given,
      direction evaluate config (candles.take (i + 1)) (feats.take (i + 1)) = .ok given := by
    have hMem : (candles[i], i) ∈ candles.zipIdx := List.mk_mem_zipIdx_iff_getElem?.mpr (by simp)
    obtain ⟨before, after, hStep⟩ := foldlM_visits h _ hMem
    unfold Computed.iterate at hStep
    cases hDirection : direction evaluate config (candles.take (i + 1)) (feats.take (i + 1)) with
    | error e =>
      rw [hDirection] at hStep
      cases hStep
    | ok given => exact ⟨given, rfl⟩
  choose given hGiven using hGiven
  refine ⟨List.ofFn fun i : Fin candles.length => given i i.isLt, List.length_ofFn, fun i hi => ?_⟩
  rw [hGiven i hi]
  simp [hi]

variable (evaluate config candles feats) in
/-- The strategy gives directions along the candles, with which nothing raises. -/
def Tradable : Prop :=
  ∃ signals, Emits evaluate config candles feats signals ∧
    Computable config (candles.zip signals) ∧
    ∀ last ∈ candles.getLast?, ∀ x ∈ (path (candles.zip signals)).ending config last.close,
      |x| < limit

theorem simulate_returns_iff (hNonempty : candles ≠ []) :
    (∃ result, Computed.simulate .default evaluate config candles feats = .ok result) ↔
      Tradable config evaluate candles feats := by
  have hFirst := List.head?_eq_some_head hNonempty
  have hLast := List.getLast?_eq_some_getLast hNonempty
  have hRun (signals : List SignalDirection)
      (hEmits : Emits evaluate config candles feats signals) :
      (∃ result, Computed.simulate .default evaluate config candles feats = .ok result) ↔
        Computable config (candles.zip signals) ∧
          ∀ last ∈ candles.getLast?, ∀ x ∈ (path (candles.zip signals)).ending config last.close,
            |x| < limit := by
    obtain ⟨state, hHeld, -, hLoop⟩ := loop_spec config (candles.head hNonempty)
      (candles.zip signals)
    have hFold : candles.zipIdx.foldlM (Computed.iterate .default evaluate config candles feats)
        (State.start config (candles.head hNonempty)) =
        (candles.zip signals).foldlM (Computed.step .default config)
          (State.start config (candles.head hNonempty)) :=
      foldlM_directed hEmits (fun state bar given hGiven => by rw [Computed.iterate, hGiven]) _
    rw [Computed.simulate, hFirst, hLast]
    dsimp only
    rw [hFold, exists_ok_iff, returns_bind, hLoop, ← exists_ok_iff, finish_returns_iff hHeld]
    simp
  constructor
  · rintro ⟨result, hResult⟩
    have hBind := hResult
    rw [Computed.simulate, hFirst, hLast] at hBind
    obtain ⟨state, hState, -⟩ := bind_eq_ok.mp hBind
    obtain ⟨signals, hEmits⟩ := emits_of_foldlM_ok hState
    exact ⟨signals, hEmits, (hRun signals hEmits).mp ⟨result, hResult⟩⟩
  · rintro ⟨signals, hEmits, hComputed⟩
    exact (hRun signals hEmits).mpr hComputed

variable (services : Services F)

theorem returns_requireStrategy (strategyId : String) (post : Unit → Prop) :
    Returns (requireStrategy services strategyId) post ↔
      strategyId ∈ services.strategies ∧ post () := by
  unfold requireStrategy
  split_ifs with hKnown
  · rw [returns_ok, and_iff_right hKnown]
  · exact iff_of_false (not_returns_error _ _) fun h => hKnown h.1

variable [PyText]

variable (config) in
/-- Nothing that a run reads makes it raise. -/
structure Runnable : Prop where
  known : config.strategyId ∈ services.strategies
  symbol : ∃ symbol, Symbol.of config.symbol = .ok symbol
  timeframe : ∃ timeframe, Timeframe.ofValue config.timeframe = .ok timeframe
  traded : (used services config).length < 30 ∨
    Tradable config services.evaluate (used services config)
      (services.compute (used services config))

variable {services}

/-- With a valid symbol and timeframe, a run misses candles or simulates. -/
theorem run_returns_of_valid {symbol : Symbol} {timeframe : Timeframe}
    (hSymbol : Symbol.of config.symbol = .ok symbol)
    (hTimeframe : Timeframe.ofValue config.timeframe = .ok timeframe) :
    (∃ outcome, Computed.run .default services config = .ok outcome) ↔
      config.strategyId ∈ services.strategies ∧ ((used services config).length < 30 ∨
        Tradable config services.evaluate (used services config)
          (services.compute (used services config))) := by
  have hUsed : services.queryRange symbol timeframe config.start config.end =
      used services config := by
    rw [used, series, hSymbol, hTimeframe]
    rfl
  rw [Computed.run, hSymbol, hTimeframe, exists_ok_iff, returns_bind, returns_requireStrategy,
    returns_bind, returns_ok, returns_bind, returns_ok, hUsed]
  dsimp only
  by_cases hFew : (used services config).length < 30
  · rw [if_pos hFew, returns_pure]
    simp [hFew]
  · have hNonempty : used services config ≠ [] := fun hEmpty => hFew (by simp [hEmpty])
    rw [if_neg hFew, or_iff_right hFew, ← simulate_returns_iff hNonempty, exists_ok_iff,
      returns_bind]
    simp only [returns_pure]

/-- **Failures as values.** A run returns `Ok` or `Err` exactly when the strategy is known,
the symbol and the timeframe are valid, and either there are fewer than thirty candles or the
strategy gives a direction after every one of them, none of which is a BUY, while flat, on a
candle that closes at zero, and no amount overflows. -/
theorem run_returns_iff :
    (∃ outcome, Computed.run .default services config = .ok outcome) ↔
      Runnable config services := by
  constructor
  · rintro ⟨outcome, hRun⟩
    obtain ⟨_, -, hRest⟩ := bind_eq_ok.mp hRun
    obtain ⟨symbol, hSymbol, hRest⟩ := bind_eq_ok.mp hRest
    obtain ⟨timeframe, hTimeframe, -⟩ := bind_eq_ok.mp hRest
    obtain ⟨hKnown, hTraded⟩ := (run_returns_of_valid hSymbol hTimeframe).mp ⟨outcome, hRun⟩
    exact ⟨hKnown, ⟨symbol, hSymbol⟩, ⟨timeframe, hTimeframe⟩, hTraded⟩
  · rintro ⟨hKnown, ⟨symbol, hSymbol⟩, ⟨timeframe, hTimeframe⟩, hTraded⟩
    exact (run_returns_of_valid hSymbol hTimeframe).mpr ⟨hKnown, hTraded⟩

end Run

namespace Raising

local instance : PyText := asciiText

/-- Thirty candles with one close, a strategy that buys and one that fails. -/
def services (close : ℚ) : Services Unit where
  strategies := ["demo", "failing"]
  stored _ _ := (List.range 30).map fun minute : ℕ => { openedAt := minute, close := close }
  compute := fun _ => []
  evaluate strategyId _ _ :=
    if strategyId = "demo" then .ok "BUY" else .err (.other "ConfigurationError")

def config (strategyId : String) (initialCapital : ℚ) : BacktestConfig where
  strategyId := strategyId
  start := 0
  «end» := 30
  initialCapital := initialCapital

/-- An unknown strategy, a signal that is an error, a BUY on a candle that closes at zero and a
capital of `1E999999` on candles that close at `0.05` raise. -/
theorem failures_raised :
    Computed.run .default (services 1) (config "unknown" 10000) =
        .error (.other "NotFoundError") ∧
      Computed.run .default (services 1) (config "failing" 10000) =
        .error (.other "ConfigurationError") ∧
      Computed.run .default (services 0) (config "demo" 10000) =
        .error (.other "DivisionByZero") ∧
      Computed.run .default (services (1 / 20)) (config "demo" (10 ^ 999999)) =
        .error (.other "Overflow") ∧
      ¬∀ (F : Type) (services : Services F) (config : BacktestConfig),
        (∀ symbol timeframe, ∀ candle ∈ services.stored symbol timeframe, 0 ≤ candle.close) →
        ∃ outcome, Computed.run .default services config = .ok outcome := by
  have hUnknown : Computed.run .default (services 1) (config "unknown" 10000) =
      .error (.other "NotFoundError") := by rfl
  refine ⟨hUnknown, by decide +kernel, by decide +kernel, by decide +kernel, fun hReturns => ?_⟩
  obtain ⟨outcome, hOutcome⟩ := hReturns Unit (services 1) (config "unknown" 10000)
    fun symbol timeframe candle hCandle => by
      obtain ⟨minute, -, rfl⟩ := List.mem_map.mp hCandle
      exact zero_le_one
  rw [hUnknown] at hOutcome
  cases hOutcome

end Raising

end TradingAgent.Backtest
