import TradingAgent.Account.Compounding
import TradingAgent.Backtest.Engine
import Mathlib.Data.List.Induction
import Mathlib.Tactic.FieldSimp
import Mathlib.Tactic.LinearCombination

/-!
# The ledger of a backtest

`path` pairs the signals of a candle list greedily: a BUY while flat with the next SELL.
These are the round trips of the backtest. `loop_follows` is the refinement: the engine's
loop over positive closes succeeds, its trades are the round trips (`Settles`), and its
capital is the initial capital compounded over them (`Follows`).
-/

namespace TradingAgent.Backtest

open Accounting

/-- A candle and the direction after it. -/
abbrev Bar := Candle × SignalDirection

/-- The completed round trips, and the entry price of an open one. -/
structure Path where
  completed : List (Trip ℚ)
  opened : Option ℚ
  deriving DecidableEq, Repr

def Path.next (p : Path) (bar : Bar) : Path :=
  match p.opened, bar.2 with
  | none, .buy => { p with opened := some bar.1.close }
  | some entry, .sell =>
    { completed := p.completed ++ [{ entry := entry, exit := bar.1.close }], opened := none }
  | _, _ => p

def path (bars : List Bar) : Path := bars.foldl Path.next { completed := [], opened := none }

/-- Whether a strategy that gives these directions is long after them. -/
def long (signals : List SignalDirection) : Bool :=
  signals.foldl
    (fun long direction =>
      match direction with
      | .buy => true
      | .sell => false
      | .hold => long)
    false

theorem path_concat (bars : List Bar) (bar : Bar) :
    path (bars ++ [bar]) = (path bars).next bar := by
  simp [path]

theorem long_concat (signals : List SignalDirection) (direction : SignalDirection) :
    long (signals ++ [direction]) =
      match direction with
      | .buy => true
      | .sell => false
      | .hold => long signals := by
  simp [long]

/-- The steps of a path: it opens, it closes, or it stays. -/
theorem Path.next_cases (p : Path) (bar : Bar) :
    (p.opened = none ∧ bar.2 = .buy ∧
        p.next bar = { p with opened := some bar.1.close }) ∨
      (∃ entry, p.opened = some entry ∧ bar.2 = .sell ∧
        p.next bar =
          { completed := p.completed ++ [{ entry := entry, exit := bar.1.close }]
            opened := none }) ∨
      (¬(p.opened = none ∧ bar.2 = .buy) ∧ ¬(p.opened.isSome ∧ bar.2 = .sell) ∧
        p.next bar = p) := by
  cases hOpened : p.opened with
  | none =>
    cases hSignal : bar.2 with
    | buy => exact .inl ⟨rfl, rfl, by simp [next, hOpened, hSignal]⟩
    | sell => exact .inr (.inr ⟨by simp, by simp, by simp [next, hOpened, hSignal]⟩)
    | hold => exact .inr (.inr ⟨by simp, by simp, by simp [next, hOpened, hSignal]⟩)
  | some entry =>
    cases hSignal : bar.2 with
    | buy => exact .inr (.inr ⟨by simp, by simp, by simp [next, hOpened, hSignal]⟩)
    | sell => exact .inr (.inl ⟨entry, rfl, rfl, by simp [next, hOpened, hSignal]⟩)
    | hold => exact .inr (.inr ⟨by simp, by simp, by simp [next, hOpened, hSignal]⟩)

/-- The path is open exactly when the strategy is long. -/
theorem opened_isSome (bars : List Bar) :
    (path bars).opened.isSome = long (bars.map Prod.snd) := by
  induction bars using List.reverseRecOn with
  | nil => rfl
  | append_singleton bars bar ih =>
    rw [path_concat, List.map_append, List.map_singleton, long_concat, ← ih]
    rcases (path bars).next_cases bar with ⟨-, hSignal, hNext⟩ | ⟨entry, -, hSignal, hNext⟩ |
      ⟨hNotBuy, hNotSell, hNext⟩
    · rw [hNext, hSignal]
      rfl
    · rw [hNext, hSignal]
      rfl
    · rw [hNext]
      cases hSignal : bar.2 with
      | buy => exact Option.isSome_iff_ne_none.mpr fun hNone => hNotBuy ⟨hNone, hSignal⟩
      | sell => exact (Bool.not_eq_true _).mp fun hSome => hNotSell ⟨hSome, hSignal⟩
      | hold => rfl

theorem pair_sublist_concat {A : Type} {a b c : A} {l : List A} :
    [a, b].Sublist (l ++ [c]) ↔ [a, b].Sublist l ∨ c = b ∧ a ∈ l := by
  rw [List.sublist_append_iff]
  constructor
  · rintro ⟨l₁, l₂, hSplit, hLeft, hRight⟩
    rcases List.sublist_singleton.mp hRight with rfl | rfl
    · rw [List.append_nil] at hSplit
      exact .inl (hSplit ▸ hLeft)
    · have hPair : [a] ++ [b] = l₁ ++ [c] := hSplit
      obtain ⟨rfl, hLast⟩ := List.append_inj' hPair rfl
      exact .inr ⟨(List.singleton_inj.mp hLast).symm, List.singleton_sublist.mp hLeft⟩
  · rintro (hPair | ⟨rfl, hMem⟩)
    · exact ⟨[a, b], [], rfl, hPair, List.nil_sublist _⟩
    · exact ⟨[a], [c], rfl, List.singleton_sublist.mpr hMem, List.Sublist.refl _⟩

/-- A BUY is part of a round trip. -/
theorem buy_mem_iff (bars : List Bar) :
    .buy ∈ bars.map Prod.snd ↔ (path bars).completed ≠ [] ∨ (path bars).opened.isSome := by
  induction bars using List.reverseRecOn with
  | nil => simp [path]
  | append_singleton bars bar ih =>
    rw [path_concat, List.map_append, List.map_singleton, List.mem_append, List.mem_singleton, ih]
    rcases (path bars).next_cases bar with ⟨-, hSignal, hNext⟩ | ⟨entry, hOpened, hSignal, hNext⟩ |
      ⟨hNotBuy, hNotSell, hNext⟩
    · simp [hNext, hSignal]
    · simp [hNext, hSignal, hOpened]
    · rw [hNext, or_iff_left_of_imp]
      intro hSignal
      exact .inr (Option.isSome_iff_ne_none.mpr fun hNone => hNotBuy ⟨hNone, hSignal.symm⟩)

/-- A round trip is completed exactly when a SELL follows a BUY. -/
theorem completed_ne_nil_iff (bars : List Bar) :
    (path bars).completed ≠ [] ↔ [.buy, .sell].Sublist (bars.map Prod.snd) := by
  induction bars using List.reverseRecOn with
  | nil => simp [path]
  | append_singleton bars bar ih =>
    rw [path_concat, List.map_append, List.map_singleton, pair_sublist_concat, ← ih, buy_mem_iff]
    rcases (path bars).next_cases bar with ⟨hOpened, hSignal, hNext⟩ |
      ⟨entry, hOpened, hSignal, hNext⟩ | ⟨hNotBuy, hNotSell, hNext⟩
    · simp [hNext, hSignal]
    · simp [hNext, hSignal, hOpened]
    · rw [hNext, or_iff_left_of_imp]
      rintro ⟨hSignal, hCompleted | hOpened⟩
      · exact hCompleted
      · exact absurd ⟨hOpened, hSignal⟩ hNotSell

/-! ## Trades and round trips -/

namespace BacktestTrade

/-- The capital that bought the quantity. -/
def capitalBefore (t : BacktestTrade) : ℚ := t.quantity * t.entry

/-- What the quantity brought, net of the exit fee. -/
def capitalAfter (feePct : ℚ) (t : BacktestTrade) : ℚ :=
  t.quantity * t.exit.getD 0 * (1 - feePct)

def profit (t : BacktestTrade) : ℚ := t.pnl.getD 0

end BacktestTrade

/-- The trade is the round trip made with this stake. -/
structure Settled (feePct stake : ℚ) (t : BacktestTrade) (trip : Trip ℚ) : Prop where
  entry : t.entry = trip.entry
  exit : t.exit = some trip.exit
  quantity : t.quantity = stake / trip.entry
  pnl : t.pnl = some ((trip.exit - trip.entry) * t.quantity - trip.entry * t.quantity * feePct)

/-- The trades are the round trips, each made with what the trips before it left. -/
def Settles (feePct : ℚ) : ℚ → List BacktestTrade → List (Trip ℚ) → Prop
  | _, [], [] => True
  | stake, t :: ts, trip :: trips =>
    Settled feePct stake t trip ∧ Settles feePct (trip.settle (1 - feePct) stake) ts trips
  | _, _, _ => False

theorem Settles.concat {feePct stake : ℚ} {ts : List BacktestTrade} {trips : List (Trip ℚ)}
    {t : BacktestTrade} {trip : Trip ℚ} (h : Settles feePct stake ts trips)
    (hLast : Settled feePct (compound (1 - feePct) stake trips) t trip) :
    Settles feePct stake (ts ++ [t]) (trips ++ [trip]) := by
  induction ts generalizing stake trips with
  | nil =>
    cases trips with
    | nil => exact ⟨hLast, trivial⟩
    | cons first trips => exact h.elim
  | cons first ts ih =>
    cases trips with
    | nil => exact h.elim
    | cons firstTrip trips => exact ⟨h.1, ih h.2 hLast⟩

namespace Settled

variable {feePct stake : ℚ} {t : BacktestTrade} {trip : Trip ℚ}

theorem capitalBefore_eq (h : Settled feePct stake t trip) (hEntry : trip.entry ≠ 0) :
    t.capitalBefore = stake := by
  rw [BacktestTrade.capitalBefore, h.quantity, h.entry, div_mul_cancel₀ _ hEntry]

theorem capitalAfter_eq (h : Settled feePct stake t trip) :
    t.capitalAfter feePct = trip.settle (1 - feePct) stake := by
  rw [BacktestTrade.capitalAfter, h.quantity, h.exit, Trip.settle, Trip.ratio, Option.getD_some]
  ring

/-- The profit charges the fee on the price of entry, the capital on that of the exit. -/
theorem profit_eq (h : Settled feePct stake t trip) (hEntry : trip.entry ≠ 0) :
    t.profit = stake * (trip.ratio - 1 - feePct) := by
  rw [BacktestTrade.profit, h.pnl, Option.getD_some, h.quantity, Trip.ratio]
  field_simp

end Settled

/-- The profits fall short of the change of capital by the fee on the drift. -/
theorem Settles.sum_profit {feePct stake : ℚ} {ts : List BacktestTrade} {trips : List (Trip ℚ)}
    (hEntry : ∀ trip ∈ trips, trip.entry ≠ 0) (h : Settles feePct stake ts trips) :
    compound (1 - feePct) stake trips - stake =
      (ts.map BacktestTrade.profit).sum + feePct * drift (1 - feePct) stake trips := by
  induction ts generalizing stake trips with
  | nil =>
    cases trips with
    | nil => simp [drift]
    | cons trip trips => exact h.elim
  | cons t ts ih =>
    cases trips with
    | nil => exact h.elim
    | cons trip trips =>
      have hRest := ih (fun u hu => hEntry u (List.mem_cons_of_mem _ hu)) h.2
      have hFirst := h.1.profit_eq (hEntry trip List.mem_cons_self)
      rw [List.map_cons, List.sum_cons, compound_cons, drift, hFirst]
      have hSettle : trip.settle (1 - feePct) stake = stake * trip.ratio * (1 - feePct) := rfl
      linear_combination hRest + hSettle

/-! ## The loop -/

/-- The state of the loop follows a path: its trades are the round trips, and what it holds
is the initial capital compounded over them. -/
structure Follows (config : BacktestConfig) (state : State) (p : Path) : Prop where
  position : state.position = p.opened.map fun _ => .buy
  flat : p.opened = none →
    state.capital = compound (1 - config.feePct) config.initialCapital p.completed ∧
      state.quantity = 0
  held : ∀ entry, p.opened = some entry → 0 < entry ∧ state.entryPrice = entry ∧
    state.capital = 0 ∧
    state.quantity =
      compound (1 - config.feePct) config.initialCapital p.completed / entry
  trades : Settles config.feePct config.initialCapital state.trades p.completed
  prices : ∀ trip ∈ p.completed, 0 < trip.entry ∧ 0 < trip.exit

namespace Follows

variable {config : BacktestConfig} {state : State} {p : Path}

theorem start (first : Candle) :
    Follows config (State.start config first) { completed := [], opened := none } where
  position := rfl
  flat _ := ⟨rfl, rfl⟩
  held _ h := by cases h
  trades := trivial
  prices _ h := by cases h

/-- What the peak and the drawdown become does not matter to the path. -/
theorem watch (h : Follows config state p) (candle : Candle) :
    Follows config (state.watch candle) p :=
  ⟨h.position, h.flat, h.held, h.trades, h.prices⟩

/-- The trade that closes an open state is the round trip. -/
theorem settled (h : Follows config state p) {entry : ℚ} (hOpened : p.opened = some entry)
    (candle : Candle) :
    Settled config.feePct (compound (1 - config.feePct) config.initialCapital p.completed)
      (state.trade config candle) { entry := entry, exit := candle.close } := by
  obtain ⟨-, hEntry, -, hQuantity⟩ := h.held entry hOpened
  refine ⟨hEntry, rfl, hQuantity, ?_⟩
  simp only [State.trade, hEntry]

/-- One bar with a positive close. -/
theorem act (h : Follows config state p) (bar : Bar) (hClose : 0 < bar.1.close) :
    ∃ acted, state.act config bar.1 bar.2 = .ok acted ∧ Follows config acted (p.next bar) := by
  have hPosition := h.position
  unfold State.act
  rcases p.next_cases bar with ⟨hOpened, hSignal, hNext⟩ | ⟨entry, hOpened, hSignal, hNext⟩ |
    ⟨hNotBuy, hNotSell, hNext⟩
  · -- The capital goes into the position.
    rw [hOpened, Option.map_none] at hPosition
    obtain ⟨hCapital, -⟩ := h.flat hOpened
    rw [if_pos ⟨hPosition, hSignal⟩, divide, if_pos hClose.ne', hNext]
    refine ⟨_, rfl, rfl, nofun, fun entry hEntry => ?_, h.trades, h.prices⟩
    obtain rfl := Option.some.inj hEntry
    exact ⟨hClose, rfl, rfl, by rw [hCapital]⟩
  · -- The position is sold, and the trip is completed.
    rw [hOpened, Option.map_some] at hPosition
    obtain ⟨hEntry, -, -, hQuantity⟩ := h.held entry hOpened
    rw [if_neg (by simp [hPosition]), if_pos ⟨hPosition, hSignal⟩, hNext]
    refine ⟨_, rfl, rfl, fun _ => ⟨?_, rfl⟩, nofun, h.trades.concat (h.settled hOpened bar.1), ?_⟩
    · rw [compound_concat, State.gross, hQuantity, Trip.settle, Trip.ratio]
      ring
    · intro trip hTrip
      rcases List.mem_append.mp hTrip with hTrip | hTrip
      · exact h.prices trip hTrip
      · obtain rfl := List.mem_singleton.mp hTrip
        exact ⟨hEntry, hClose⟩
  · -- Nothing is traded.
    have hNoBuy : ¬(state.position = none ∧ bar.2 = .buy) := by
      rintro ⟨hNone, hSignal⟩
      rw [hPosition, Option.map_eq_none_iff] at hNone
      exact hNotBuy ⟨hNone, hSignal⟩
    have hNoSell : ¬(state.position = some .buy ∧ bar.2 = .sell) := by
      rintro ⟨hSome, hSignal⟩
      rw [hPosition, Option.map_eq_some_iff] at hSome
      obtain ⟨entry, hOpened, -⟩ := hSome
      exact hNotSell ⟨by rw [hOpened]; rfl, hSignal⟩
    rw [if_neg hNoBuy, if_neg hNoSell, hNext]
    exact ⟨state, rfl, h⟩

theorem step (h : Follows config state p) (bar : Bar) (hClose : 0 < bar.1.close) :
    ∃ state', state.step config bar = .ok state' ∧ Follows config state' (p.next bar) := by
  obtain ⟨acted, hAct, hFollows⟩ := h.act bar hClose
  refine ⟨acted.watch bar.1, ?_, hFollows.watch bar.1⟩
  rw [State.step, hAct]

end Follows

/-- **The refinement.** Over positive closes the loop succeeds and follows the path. -/
theorem loop_follows (config : BacktestConfig) (first : Candle) (bars : List Bar)
    (hClose : ∀ bar ∈ bars, 0 < bar.1.close) :
    ∃ state, loop config (State.start config first) bars = .ok state ∧
      Follows config state (path bars) := by
  induction bars using List.reverseRecOn with
  | nil => exact ⟨_, rfl, .start first⟩
  | append_singleton bars bar ih =>
    obtain ⟨state, hLoop, hFollows⟩ := ih fun b hb => hClose b (List.mem_append_left _ hb)
    obtain ⟨state', hStep, hFollows'⟩ := hFollows.step bar
      (hClose bar (List.mem_append_right _ (List.mem_singleton_self _)))
    refine ⟨state', ?_, path_concat bars bar ▸ hFollows'⟩
    rw [loop_concat, hLoop]
    exact hStep

end TradingAgent.Backtest
