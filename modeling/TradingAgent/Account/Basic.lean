import Mathlib.Algebra.BigOperators.Group.List.Basic
import Mathlib.Tactic.Ring

/-!
# Cash accounts

The plainest account of trading in one asset: a cash balance and a signed holding. A
trade moves an amount of the asset in and its cost out. Marked at a price, the account is
worth its cash and its holding at that price, and each trade changes that worth by the
amount traded times the distance of its price from the mark. Everything is stated over an
arbitrary commutative ring.
-/

namespace Accounting

structure Account (K : Type*) where
  cash : K
  holding : K

namespace Account

variable {K : Type*} [CommRing K]

/-- The account without cash and without a holding. -/
def opened : Account K := ⟨0, 0⟩

/-- Take in `amount` (negative for a sale) at `price`. -/
def trade (a : Account K) (amount price : K) : Account K :=
  ⟨a.cash - amount * price, a.holding + amount⟩

/-- The worth of the account at the price `mark`. -/
def equity (a : Account K) (mark : K) : K := a.cash + a.holding * mark

/-- Trade every amount of the list at the price beside it. -/
def trades (a : Account K) (orders : List (K × K)) : Account K :=
  orders.foldl (fun a t => a.trade t.1 t.2) a

@[simp] theorem equity_opened (mark : K) : (opened : Account K).equity mark = 0 := by
  simp [opened, equity]

theorem equity_trade (a : Account K) (amount price mark : K) :
    (a.trade amount price).equity mark = a.equity mark + amount * (mark - price) := by
  simp only [trade, equity]
  ring

theorem equity_trades (a : Account K) (orders : List (K × K)) (mark : K) :
    (a.trades orders).equity mark =
      a.equity mark + (orders.map fun t => t.1 * (mark - t.2)).sum := by
  induction orders generalizing a with
  | nil => simp [trades]
  | cons t rest ih =>
    have hStep : a.trades (t :: rest) = (a.trade t.1 t.2).trades rest := rfl
    rw [hStep, ih, equity_trade, List.map_cons, List.sum_cons, add_assoc]

theorem holding_trades (a : Account K) (orders : List (K × K)) :
    (a.trades orders).holding = a.holding + (orders.map Prod.fst).sum := by
  induction orders generalizing a with
  | nil => simp [trades]
  | cons t rest ih =>
    have hStep : a.trades (t :: rest) = (a.trade t.1 t.2).trades rest := rfl
    rw [hStep, ih, List.map_cons, List.sum_cons, ← add_assoc]
    rfl

theorem cash_trades (a : Account K) (orders : List (K × K)) :
    (a.trades orders).cash = a.cash + (orders.map fun t => -(t.1 * t.2)).sum := by
  induction orders generalizing a with
  | nil => simp [trades]
  | cons t rest ih =>
    have hStep : a.trades (t :: rest) = (a.trade t.1 t.2).trades rest := rfl
    rw [hStep, ih, List.map_cons, List.sum_cons, ← add_assoc]
    simp only [trade, sub_eq_add_neg]

end Account

end Accounting
