import TradingAgent.Account.Lagging
import TradingAgent.Backtest.Drawdown

/-!
# Backtests in lockstep

Two states of the loop are in lockstep when they have the same position and the second holds
`k` times what the first does (`Lags`). A bar with the same direction keeps them so, and the
factor changes only where a position is sold at different fees (`Lags.act`); their marks and
what they bring in the end are in the same relation.
-/

namespace TradingAgent.Backtest

open Accounting

/-! ## Two computations -/

/-- Both raise the same, or both return related values. -/
inductive Both {A B : Type} (R : A → B → Prop) : Except Exn A → Except Exn B → Prop
  | ok {a : A} {b : B} (h : R a b) : Both R (.ok a) (.ok b)
  | error (e : Exn) : Both R (.error e) (.error e)

namespace Both

variable {A B C D : Type} {R : A → B → Prop} {x : Except Exn A} {y : Except Exn B}

theorem map {S : C → D → Prop} {f : A → C} {g : B → D} (h : Both R x y)
    (hMap : ∀ a b, R a b → S (f a) (g b)) : Both S (x.map f) (y.map g) := by
  cases h with
  | ok h => exact .ok (hMap _ _ h)
  | error e => exact .error e

/-- Related folds over one list. -/
theorem foldlM {f : A → C → Except Exn A} {g : B → C → Except Exn B} {l : List C}
    (hStep : ∀ c ∈ l, ∀ a b, R a b → Both R (f a c) (g b c)) {a : A} {b : B} (h : R a b) :
    Both R (l.foldlM f a) (l.foldlM g b) := by
  induction l generalizing a b with
  | nil => exact .ok h
  | cons c rest ih =>
    rw [List.foldlM_cons, List.foldlM_cons]
    have hFirst := hStep c List.mem_cons_self a b h
    generalize f a c = x at hFirst ⊢
    generalize g b c = y at hFirst ⊢
    cases hFirst with
    | ok h => exact ih (fun c' hc' => hStep c' (List.mem_cons_of_mem _ hc')) h
    | error e => exact .error e

end Both

/-! ## States in lockstep -/

/-- The second state holds `k` times what the first does. -/
structure State.Lags (k : ℚ) (s s' : State) : Prop where
  position : s'.position = s.position
  entry : s.position = some .buy → s'.entryAt = s.entryAt ∧ s'.entryPrice = s.entryPrice
  capital : s'.capital = k * s.capital
  quantity : s'.quantity = k * s.quantity

namespace State.Lags

variable {config config' : BacktestConfig} {k r : ℚ} {s s' : State}

/-- Without a position the entries need not agree. -/
theorem flat (hFlat : s.position = none) (hSame : s'.position = s.position)
    (hCapital : s'.capital = k * s.capital) (hQuantity : s'.quantity = k * s.quantity) :
    s.Lags k s' := by
  refine ⟨hSame, fun hLong => ?_, hCapital, hQuantity⟩
  rw [hFlat] at hLong
  exact absurd hLong.symm (Option.some_ne_none _)

theorem watch (h : s.Lags k s') (candle : Candle) : (s.watch candle).Lags k (s'.watch candle) :=
  ⟨h.position, h.entry, h.capital, h.quantity⟩

theorem mark (h : s.Lags k s') (candle : Candle) : s'.mark candle = k * s.mark candle := by
  unfold State.mark
  rw [h.position, h.capital, h.quantity]
  split_ifs <;> ring

/-- What the quantity brings, at fees of which the second leaves `r` times what the first
does. -/
theorem gross (h : s.Lags k s') (hKeep : 1 - config'.feePct = r * (1 - config.feePct))
    (price : ℚ) : s'.gross config' price = k * r * s.gross config price := by
  unfold State.gross
  rw [h.quantity, hKeep]
  ring

/-- The trade that closes the position of both. -/
theorem trade (h : s.Lags k s') (hLong : s.position = some .buy) (candle : Candle) :
    s'.trade config' candle =
      { symbol := config'.symbol
        openedAt := s.entryAt
        closedAt := some candle.openedAt
        side := "long"
        entry := s.entryPrice
        exit := some candle.close
        quantity := k * s.quantity
        pnl := some (k * ((candle.close - s.entryPrice) * s.quantity -
          s.entryPrice * s.quantity * config'.feePct)) } := by
  obtain ⟨hAt, hPrice⟩ := h.entry hLong
  have hPnl : (candle.close - s.entryPrice) * (k * s.quantity) -
      s.entryPrice * (k * s.quantity) * config'.feePct =
        k * ((candle.close - s.entryPrice) * s.quantity -
          s.entryPrice * s.quantity * config'.feePct) := by ring
  unfold State.trade
  rw [hAt, hPrice, h.quantity, hPnl]

/-- What the two states do on a bar: they both sell, or neither does. -/
theorem act (h : s.Lags k s') (hKeep : 1 - config'.feePct = r * (1 - config.feePct)) {bar : Bar}
    (hClose : 0 < bar.1.close) :
    ∃ acted acted', s.act config bar.1 bar.2 = .ok acted ∧
      s'.act config' bar.1 bar.2 = .ok acted' ∧
      ((acted.Lags k acted' ∧ acted.trades = s.trades ∧ acted'.trades = s'.trades ∧
          (acted.entryPrice = s.entryPrice ∨ acted.entryPrice = bar.1.close)) ∨
        (s.position = some .buy ∧ acted.Lags (k * r) acted' ∧
          acted.trades = s.trades ++ [s.trade config bar.1] ∧
          acted'.trades = s'.trades ++ [s'.trade config' bar.1] ∧
          acted.entryPrice = s.entryPrice)) := by
  unfold State.act
  rw [h.position]
  by_cases hBuy : s.position = none ∧ bar.2 = .buy
  · rw [if_pos hBuy, if_pos hBuy, divide, divide, if_pos hClose.ne', if_pos hClose.ne']
    refine ⟨_, _, rfl, rfl, .inl ⟨⟨rfl, fun _ => ⟨rfl, rfl⟩, (mul_zero k).symm, ?_⟩, rfl, rfl,
      .inr rfl⟩⟩
    rw [h.capital, mul_div_assoc]
  · rw [if_neg hBuy, if_neg hBuy]
    by_cases hSell : s.position = some .buy ∧ bar.2 = .sell
    · rw [if_pos hSell, if_pos hSell]
      refine ⟨_, _, rfl, rfl, .inr ⟨hSell.1, ?_, rfl, rfl, rfl⟩⟩
      exact flat rfl rfl (h.gross hKeep bar.1.close) (mul_zero _).symm
    · rw [if_neg hSell, if_neg hSell]
      exact ⟨_, _, rfl, rfl, .inl ⟨h, rfl, rfl, .inl rfl⟩⟩

end State.Lags

/-! ## The end of a backtest -/

namespace State

variable (config : BacktestConfig) (s : State) (last : Candle)

/-- What is open in the end brings its price once with the fee and once without. -/
theorem finish_finalCapital : (s.finish config last).finalCapital =
    if s.position = some .buy then s.gross config last.close + s.quantity * last.close
    else s.capital := by
  unfold finish liquidate
  by_cases hLong : s.position = some .buy
  · simp only [if_pos hLong]
  · simp only [if_neg hLong]

theorem finish_totalReturnPct (hCapital : config.initialCapital ≠ 0) :
    (s.finish config last).totalReturnPct =
      ((s.finish config last).finalCapital - config.initialCapital) / config.initialCapital *
        100 := by
  unfold finish
  dsimp only
  rw [if_neg hCapital]

end State

end TradingAgent.Backtest
