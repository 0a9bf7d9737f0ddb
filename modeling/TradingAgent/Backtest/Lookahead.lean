import TradingAgent.Backtest.Engine

/-!
# No look-ahead

What a bar of the backtest shows is its `Tick`: the direction decided on it, the trade that a
SELL closed on it, its equity mark and the state that the loop goes on with. `simulate_reel`
reads a result from the ticks of its bars, and `no_lookahead` says that the ticks of the
first bars are a function of the candles and the features of these bars.
-/

namespace TradingAgent.Backtest

/-- What one bar shows. -/
structure Tick where
  direction : SignalDirection
  sold : Option BacktestTrade
  mark : ℚ
  state : State
  deriving DecidableEq, Repr

section Reel

variable {F : Type} (evaluate : Evaluate F) (config : BacktestConfig)

/-- A step of the loop with what it shows. -/
def State.tick (state : State) (bar : Candle × SignalDirection) : Except Exn Tick :=
  match state.act config bar.1 bar.2 with
  | .error e => .error e
  | .ok acted =>
    .ok
      { direction := bar.2
        sold := if state.position = some .buy ∧ bar.2 = .sell then
          some (state.trade config bar.1) else none
        mark := acted.mark bar.1
        state := acted.watch bar.1 }

/-- An iteration of the loop with what it shows. -/
def observe (candles : List Candle) (feats : List F) (state : State) (bar : Candle × ℕ) :
    Except Exn Tick :=
  match direction evaluate config (candles.take (bar.2 + 1)) (feats.take (bar.2 + 1)) with
  | .error e => .error e
  | .ok direction => state.tick config (bar.1, direction)

/-- What the bars show from a state on, or the exception that one of them raises. -/
def reel (candles : List Candle) (feats : List F) :
    State → List (Candle × ℕ) → Except Exn (List Tick)
  | _, [] => .ok []
  | state, bar :: bars =>
    match observe evaluate config candles feats state bar with
    | .error e => .error e
    | .ok tick => (reel candles feats tick.state bars).map (tick :: ·)

/-- The state that the ticks end in. -/
def ended (state : State) (shown : List Tick) : State :=
  shown.foldl (fun _ tick => tick.state) state

/-- What the first `k` bars of a backtest show. -/
def ticks (candles : List Candle) (feats : List F) (k : ℕ) : Except Exn (List Tick) :=
  match candles.head? with
  | none => .ok []
  | some first =>
    reel evaluate config candles feats (State.start config first) (candles.zipIdx.take k)

/-- The trade of the liquidation, if there is one. -/
def State.liquidation (state : State) (last : Candle) : List BacktestTrade :=
  if state.position = some .buy then [state.trade config last] else []

/-! ## The loop and its ticks -/

variable {evaluate config}

theorem State.step_eq_tick (state : State) (bar : Candle × SignalDirection) :
    state.step config bar = (state.tick config bar).map Tick.state := by
  unfold step tick
  cases state.act config bar.1 bar.2 with
  | error e => rfl
  | ok acted => rfl

theorem iterate_eq_observe (candles : List Candle) (feats : List F) (state : State)
    (bar : Candle × ℕ) :
    iterate evaluate config candles feats state bar =
      (observe evaluate config candles feats state bar).map Tick.state := by
  unfold iterate observe
  cases direction evaluate config (candles.take (bar.2 + 1)) (feats.take (bar.2 + 1)) with
  | error e => rfl
  | ok direction => exact state.step_eq_tick (bar.1, direction)

/-- The trades of a step: those before it, and the one that it sold. -/
theorem State.tick_trades {state : State} {bar : Candle × SignalDirection} {tick : Tick}
    (h : state.tick config bar = .ok tick) :
    tick.state.trades = state.trades ++ tick.sold.toList := by
  unfold State.tick State.act at h
  by_cases hBuy : state.position = none ∧ bar.2 = .buy
  · have hNoSell : ¬(state.position = some .buy ∧ bar.2 = .sell) := by simp [hBuy]
    rw [if_pos hBuy] at h
    cases hQuantity : divide state.capital bar.1.close with
    | error e =>
      rw [hQuantity] at h
      cases h
    | ok quantity =>
      rw [hQuantity, if_neg hNoSell] at h
      obtain rfl := Except.ok.inj h
      exact (List.append_nil _).symm
  · rw [if_neg hBuy] at h
    by_cases hSell : state.position = some .buy ∧ bar.2 = .sell
    · rw [if_pos hSell, if_pos hSell] at h
      obtain rfl := Except.ok.inj h
      rfl
    · rw [if_neg hSell, if_neg hSell] at h
      obtain rfl := Except.ok.inj h
      exact (List.append_nil _).symm

theorem State.tick_direction {state : State} {bar : Candle × SignalDirection} {tick : Tick}
    (h : state.tick config bar = .ok tick) : tick.direction = bar.2 := by
  unfold State.tick at h
  split at h
  · cases h
  · obtain rfl := Except.ok.inj h
    rfl

/-- A bar shows the tick of the direction that the strategy gave. -/
theorem observe_ok {candles : List Candle} {feats : List F} {state : State}
    {bar : Candle × ℕ} {tick : Tick}
    (h : observe evaluate config candles feats state bar = .ok tick) :
    direction evaluate config (candles.take (bar.2 + 1)) (feats.take (bar.2 + 1)) =
        .ok tick.direction ∧
      state.tick config (bar.1, tick.direction) = .ok tick := by
  unfold observe at h
  split at h
  · cases h
  · rename_i direction hDirection
    obtain rfl := State.tick_direction h
    exact ⟨hDirection, h⟩

theorem observe_trades {candles : List Candle} {feats : List F} {state : State}
    {bar : Candle × ℕ} {tick : Tick}
    (h : observe evaluate config candles feats state bar = .ok tick) :
    tick.state.trades = state.trades ++ tick.sold.toList :=
  State.tick_trades (observe_ok h).2

/-- One bar, and those after it. -/
theorem reel_cons_ok {candles : List Candle} {feats : List F} {state : State}
    {bar : Candle × ℕ} {bars : List (Candle × ℕ)} {shown : List Tick}
    (h : reel evaluate config candles feats state (bar :: bars) = .ok shown) :
    ∃ tick later, observe evaluate config candles feats state bar = .ok tick ∧
      reel evaluate config candles feats tick.state bars = .ok later ∧ shown = tick :: later := by
  rw [reel] at h
  split at h
  · cases h
  · rename_i tick hTick
    cases hLater : reel evaluate config candles feats tick.state bars with
    | error e =>
      rw [hLater] at h
      cases h
    | ok later =>
      rw [hLater] at h
      exact ⟨tick, later, hTick, hLater, (Except.ok.inj h).symm⟩

/-- Every bar shows a tick. -/
theorem reel_length {candles : List Candle} {feats : List F} {state : State}
    {bars : List (Candle × ℕ)} {shown : List Tick}
    (h : reel evaluate config candles feats state bars = .ok shown) :
    shown.length = bars.length := by
  induction bars generalizing state shown with
  | nil =>
    obtain rfl := Except.ok.inj h
    rfl
  | cons bar bars ih =>
    obtain ⟨tick, later, -, hLater, rfl⟩ := reel_cons_ok h
    rw [List.length_cons, List.length_cons, ih hLater]

theorem foldlM_eq_reel (candles : List Candle) (feats : List F) (state : State)
    (bars : List (Candle × ℕ)) :
    bars.foldlM (iterate evaluate config candles feats) state =
      (reel evaluate config candles feats state bars).map (ended state) := by
  induction bars generalizing state with
  | nil => rfl
  | cons bar bars ih =>
    rw [List.foldlM_cons, iterate_eq_observe, reel]
    cases observe evaluate config candles feats state bar with
    | error e => rfl
    | ok tick =>
      refine (ih tick.state).trans ?_
      cases hLater : reel evaluate config candles feats tick.state bars with
      | error e => simp only [hLater, Except.map]
      | ok later => simp only [hLater, Except.map, ended, List.foldl_cons]

theorem ended_trades {candles : List Candle} {feats : List F} {state : State}
    {bars : List (Candle × ℕ)} {shown : List Tick}
    (h : reel evaluate config candles feats state bars = .ok shown) :
    (ended state shown).trades = state.trades ++ shown.filterMap Tick.sold := by
  induction bars generalizing state shown with
  | nil =>
    obtain rfl := Except.ok.inj h
    exact (List.append_nil _).symm
  | cons bar bars ih =>
    obtain ⟨tick, later, hTick, hLater, rfl⟩ := reel_cons_ok h
    have hSold : (tick :: later).filterMap Tick.sold =
        tick.sold.toList ++ later.filterMap Tick.sold := by
      cases hTickSold : tick.sold with
      | none => rw [List.filterMap_cons_none hTickSold, Option.toList_none, List.nil_append]
      | some trade => rw [List.filterMap_cons_some hTickSold]; rfl
    rw [hSold, ← List.append_assoc, ← observe_trades hTick]
    exact ih hLater

/-- The first bars of a reel show the first of its ticks. -/
theorem reel_take {candles : List Candle} {feats : List F} {state : State}
    {bars : List (Candle × ℕ)} {shown : List Tick} (k : ℕ)
    (h : reel evaluate config candles feats state bars = .ok shown) :
    reel evaluate config candles feats state (bars.take k) = .ok (shown.take k) := by
  induction bars generalizing state shown k with
  | nil =>
    obtain rfl := Except.ok.inj h
    simp [reel]
  | cons bar bars ih =>
    obtain ⟨tick, later, hTick, hLater, rfl⟩ := reel_cons_ok h
    cases k with
    | zero => rfl
    | succ k =>
      rw [List.take_succ_cons, List.take_succ_cons, reel, hTick]
      dsimp only
      rw [ih k hLater]
      rfl

theorem State.finish_trades (state : State) (last : Candle) :
    (state.finish config last).trades = state.trades ++ state.liquidation config last := by
  by_cases hOpen : state.position = some .buy
  · simp [finish, liquidate, liquidation, hOpen]
  · simp [finish, liquidate, liquidation, hOpen]

/-- **A result by its ticks.** The trades of a backtest are those sold on its bars, and the
liquidation of what is open after them; its drawdown is the running one after the last bar. -/
theorem simulate_reel {candles : List Candle} {feats : List F} {result : BacktestResult}
    (h : simulate evaluate config candles feats = .ok result) :
    ∃ first last shown, candles.head? = some first ∧ candles.getLast? = some last ∧
      ticks evaluate config candles feats candles.length = .ok shown ∧
      result = (ended (State.start config first) shown).finish config last ∧
      result.trades = shown.filterMap Tick.sold ++
        (ended (State.start config first) shown).liquidation config last := by
  unfold simulate at h
  cases hFirst : candles.head? with
  | none =>
    rw [hFirst] at h
    cases h
  | some first =>
    cases hLast : candles.getLast? with
    | none =>
      rw [hFirst, hLast] at h
      cases h
    | some last =>
      rw [hFirst, hLast] at h
      dsimp only at h
      rw [foldlM_eq_reel] at h
      cases hShown : reel evaluate config candles feats (State.start config first)
          candles.zipIdx with
      | error e =>
        rw [hShown] at h
        cases h
      | ok shown =>
        rw [hShown] at h
        obtain rfl := Except.ok.inj h
        have hAll : candles.zipIdx.take candles.length = candles.zipIdx :=
          List.take_of_length_le List.length_zipIdx.le
        refine ⟨first, last, shown, rfl, rfl, ?_, rfl, ?_⟩
        · rw [ticks, hFirst]
          dsimp only
          rw [hAll, hShown]
        · have hTrades := ended_trades hShown
          rw [show (State.start config first).trades = [] from rfl, List.nil_append] at hTrades
          rw [← hTrades]
          exact State.finish_trades _ last

/-! ## Two runs that agree on the first bars -/

theorem zipIdx_take {A : Type} (l : List A) (k : ℕ) : l.zipIdx.take k = (l.take k).zipIdx := by
  refine List.ext_getElem (by simp) fun i hi hi' => ?_
  simp

variable {candles candles' : List Candle} {feats feats' : List F} {k : ℕ}

/-- Two strategies under which the bars show the same have the same reel. -/
theorem reel_agree {evaluate' : Evaluate F} {bars : List (Candle × ℕ)}
    (h : ∀ bar ∈ bars, ∀ state, observe evaluate config candles feats state bar =
      observe evaluate' config candles' feats' state bar) (state : State) :
    reel evaluate config candles feats state bars =
      reel evaluate' config candles' feats' state bars := by
  induction bars generalizing state with
  | nil => rfl
  | cons bar bars ih =>
    have hRest := ih fun later hLater => h later (List.mem_cons_of_mem _ hLater)
    rw [reel, reel, h bar List.mem_cons_self state]
    cases observe evaluate' config candles' feats' state bar with
    | error e => rfl
    | ok tick =>
      dsimp only
      rw [hRest]

/-- A bar below `k` is the same in two runs that agree on the first `k` bars. -/
theorem observe_congr (hCandles : candles.take k = candles'.take k)
    (hFeats : feats.take k = feats'.take k) (state : State) {bar : Candle × ℕ}
    (hBar : bar.2 < k) :
    observe evaluate config candles feats state bar =
      observe evaluate config candles' feats' state bar := by
  have hSlice {A : Type} (l : List A) : l.take (bar.2 + 1) = (l.take k).take (bar.2 + 1) := by
    rw [List.take_take, Nat.min_eq_left hBar]
  rw [observe, observe, hSlice candles, hSlice feats, hCandles, hFeats, ← hSlice, ← hSlice]

theorem reel_congr (hCandles : candles.take k = candles'.take k)
    (hFeats : feats.take k = feats'.take k) (state : State) {bars : List (Candle × ℕ)}
    (hBars : ∀ bar ∈ bars, bar.2 < k) :
    reel evaluate config candles feats state bars =
      reel evaluate config candles' feats' state bars :=
  reel_agree (fun bar hBar state => observe_congr hCandles hFeats state (hBars bar hBar)) state

theorem ticks_congr (hCandles : candles.take k = candles'.take k)
    (hFeats : feats.take k = feats'.take k) :
    ticks evaluate config candles feats k = ticks evaluate config candles' feats' k := by
  cases k with
  | zero =>
    have hNone (candles : List Candle) (feats : List F) :
        ticks evaluate config candles feats 0 = .ok [] := by
      unfold ticks
      cases candles.head? with
      | none => rfl
      | some first => rfl
    rw [hNone, hNone]
  | succ k =>
    have hHead : candles.head? = candles'.head? := by
      have hTake := congrArg List.head? hCandles
      rwa [List.head?_take, List.head?_take, if_neg k.succ_ne_zero, if_neg k.succ_ne_zero] at hTake
    rw [ticks, ticks, hHead, zipIdx_take, zipIdx_take, ← hCandles]
    cases candles'.head? with
    | none => rfl
    | some first =>
      refine reel_congr hCandles hFeats _ fun bar hBar => ?_
      have hIndex := List.snd_lt_of_mem_zipIdx hBar
      have hLength := List.length_take_le (k + 1) candles
      omega

/-- The ticks of all bars begin with those of the first `k`. -/
theorem ticks_take {shown : List Tick}
    (h : ticks evaluate config candles feats candles.length = .ok shown) :
    ticks evaluate config candles feats k = .ok (shown.take k) := by
  unfold ticks at h ⊢
  cases hFirst : candles.head? with
  | none =>
    rw [hFirst] at h
    obtain rfl := Except.ok.inj h
    simp
  | some first =>
    rw [hFirst] at h
    dsimp only at h ⊢
    rw [List.take_of_length_le List.length_zipIdx.le] at h
    exact reel_take k h

/-- **No look-ahead.** On candles and features that agree on their first `k` entries, the
first `k` bars show the same: the same decisions, trades sold, equity marks and states with
their running drawdowns, or the same exception. The trades of the two results begin with
those sold on these bars; what follows was sold on later bars or liquidated. -/
theorem no_lookahead (hCandles : candles.take k = candles'.take k)
    (hFeats : feats.take k = feats'.take k) :
    ticks evaluate config candles feats k = ticks evaluate config candles' feats' k ∧
      ∀ result result', simulate evaluate config candles feats = .ok result →
        simulate evaluate config candles' feats' = .ok result' →
        ∃ below later later' liquidated liquidated',
          ticks evaluate config candles feats k = .ok below ∧
          ticks evaluate config candles feats candles.length = .ok (below ++ later) ∧
          ticks evaluate config candles' feats' candles'.length = .ok (below ++ later') ∧
          liquidated.length ≤ 1 ∧ liquidated'.length ≤ 1 ∧
          result.trades =
            below.filterMap Tick.sold ++ (later.filterMap Tick.sold ++ liquidated) ∧
          result'.trades =
            below.filterMap Tick.sold ++ (later'.filterMap Tick.sold ++ liquidated') := by
  have hBelow : ticks evaluate config candles feats k = ticks evaluate config candles' feats' k :=
    ticks_congr hCandles hFeats
  refine ⟨hBelow, fun result result' hResult hResult' => ?_⟩
  obtain ⟨first, last, shown, -, -, hShown, -, hTrades⟩ := simulate_reel hResult
  obtain ⟨first', last', shown', -, -, hShown', -, hTrades'⟩ := simulate_reel hResult'
  have hTake := ticks_take (k := k) hShown
  have hTake' := ticks_take (k := k) hShown'
  have hSame : shown.take k = shown'.take k :=
    Except.ok.inj (hTake.symm.trans (hBelow.trans hTake'))
  have hSplit : shown = shown.take k ++ shown.drop k := (List.take_append_drop k shown).symm
  have hSplit' : shown' = shown.take k ++ shown'.drop k := by
    rw [hSame, List.take_append_drop]
  have hOne (state : State) (last : Candle) : (state.liquidation config last).length ≤ 1 := by
    unfold State.liquidation
    split
    · exact le_rfl
    · exact Nat.zero_le 1
  refine ⟨shown.take k, shown.drop k, shown'.drop k,
    (ended (State.start config first) shown).liquidation config last,
    (ended (State.start config first') shown').liquidation config last',
    hTake, hSplit ▸ hShown, hSplit' ▸ hShown', hOne _ last, hOne _ last', ?_, ?_⟩
  · rw [hTrades, ← List.append_assoc, ← List.filterMap_append, List.take_append_drop]
  · rw [hTrades', ← List.append_assoc, ← List.filterMap_append, ← hSplit']

end Reel

namespace Foresight

def config : BacktestConfig where
  strategyId := "demo"
  start := 0
  «end» := 3

/-- Two histories that differ in their last candle. -/
def rising : List Candle :=
  [{ openedAt := 0, close := 100 }, { openedAt := 1, close := 110 },
    { openedAt := 2, close := 200 }]

def falling : List Candle :=
  [{ openedAt := 0, close := 100 }, { openedAt := 1, close := 110 },
    { openedAt := 2, close := 50 }]

theorem last_candle_unseen :
    ticks (scripted ["BUY", "SELL", "BUY"]) config rising [(), (), ()] 2 =
        ticks (scripted ["BUY", "SELL", "BUY"]) config falling [(), (), ()] 2 ∧
      ∀ result result',
        simulate (scripted ["BUY", "SELL", "BUY"]) config rising [(), (), ()] = .ok result →
        simulate (scripted ["BUY", "SELL", "BUY"]) config falling [(), (), ()] = .ok result' →
        ∃ below later later' liquidated liquidated',
          ticks (scripted ["BUY", "SELL", "BUY"]) config rising [(), (), ()] 2 = .ok below ∧
          ticks (scripted ["BUY", "SELL", "BUY"]) config rising [(), (), ()] rising.length =
            .ok (below ++ later) ∧
          ticks (scripted ["BUY", "SELL", "BUY"]) config falling [(), (), ()] falling.length =
            .ok (below ++ later') ∧
          liquidated.length ≤ 1 ∧ liquidated'.length ≤ 1 ∧
          result.trades =
            below.filterMap Tick.sold ++ (later.filterMap Tick.sold ++ liquidated) ∧
          result'.trades =
            below.filterMap Tick.sold ++ (later'.filterMap Tick.sold ++ liquidated') :=
  no_lookahead rfl rfl

end Foresight

end TradingAgent.Backtest
