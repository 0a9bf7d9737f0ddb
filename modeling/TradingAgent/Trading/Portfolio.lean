import TradingAgent.Account.Basic
import TradingAgent.Core.Python
import Mathlib.Algebra.Order.Field.Basic
import Mathlib.Tactic.FieldSimp
import Mathlib.Tactic.Linarith

/-!
# Positions

A position holds a signed quantity, the average price at which it was entered, and the
profit realized so far. `Position.applyFill` follows the branches of the source: a fill
opens or increases the position, or it reduces, closes or flips it.

A position is a view of a cash account (`Position.account`): its cash is the realized
profit less what the open quantity cost. Every branch of `applyFill` is one trade of that
account (`applyFill_account`), so the accounting identity over any sequence of fills is
the one of accounts.
-/

namespace TradingAgent.Trading

open Accounting

inductive OrderSide
  | buy
  | sell
  deriving DecidableEq, Repr

def OrderSide.value : OrderSide → String
  | .buy => "buy"
  | .sell => "sell"

structure Position where
  symbol : String
  quantity : ℚ
  averageEntryPrice : ℚ
  realizedPnl : ℚ := 0
  deriving DecidableEq, Repr

namespace Position

def empty (symbol : String) : Position :=
  { symbol := symbol, quantity := 0, averageEntryPrice := 0 }

def signedQuantity (side : String) (quantity : ℚ) : ℚ :=
  if side = "buy" then quantity else -quantity

/-- The branch of `apply_fill` for a fill that opens or increases the position. The
divisor is not zero there: see `increased_ne_zero`. -/
def increase (self : Position) (newQty quantity price : ℚ) : Position :=
  let totalCost := |self.quantity| * self.averageEntryPrice + quantity * price
  { symbol := self.symbol
    quantity := newQty
    averageEntryPrice := totalCost / |newQty|
    realizedPnl := self.realizedPnl }

/-- The branch of `apply_fill` for a fill against the position. -/
def reduce (self : Position) (newQty quantity price : ℚ) : Position :=
  let oldQty := self.quantity
  let closed := min |oldQty| quantity
  let pnlPerUnit := if oldQty < 0 then -(price - self.averageEntryPrice)
    else price - self.averageEntryPrice
  let realized := closed * pnlPerUnit
  let remaining := newQty
  let average :=
    if remaining = 0 then 0
    else if (oldQty > 0 ∧ remaining > 0) ∨ (oldQty < 0 ∧ remaining < 0) then
      self.averageEntryPrice
    else price
  { symbol := self.symbol
    quantity := remaining
    averageEntryPrice := average
    realizedPnl := self.realizedPnl + realized }

def applyFill (self : Position) (side : String) (quantity price : ℚ) :
    Except Exn Position :=
  if quantity ≤ 0 ∨ price ≤ 0 then
    .error (.valueError "fill quantity and price must be positive")
  else
    let signed := signedQuantity side quantity
    let oldQty := self.quantity
    let newQty := oldQty + signed
    if oldQty = 0 ∨ (oldQty > 0 ∧ signed > 0) ∨ (oldQty < 0 ∧ signed < 0) then
      .ok (self.increase newQty quantity price)
    else
      .ok (self.reduce newQty quantity price)

theorem abs_signedQuantity (side : String) {quantity : ℚ} (h : 0 < quantity) :
    |signedQuantity side quantity| = quantity := by
  unfold signedQuantity
  split
  · exact abs_of_pos h
  · rw [abs_neg, abs_of_pos h]

theorem signedQuantity_ne_zero (side : String) {quantity : ℚ} (h : 0 < quantity) :
    signedQuantity side quantity ≠ 0 := by
  rw [← abs_pos, abs_signedQuantity side h]
  exact h

/-- The divisor of the average in an increasing fill. -/
theorem increased_ne_zero {oldQty signed : ℚ} (hSigned : signed ≠ 0)
    (h : oldQty = 0 ∨ (oldQty > 0 ∧ signed > 0) ∨ (oldQty < 0 ∧ signed < 0)) :
    oldQty + signed ≠ 0 := by
  rcases h with rfl | ⟨hOld, hNew⟩ | ⟨hOld, hNew⟩
  · simpa using hSigned
  · exact (add_pos hOld hNew).ne'
  · exact (add_neg hOld hNew).ne

theorem applyFill_ok (self : Position) (side : String) {quantity price : ℚ}
    (hQuantity : 0 < quantity) (hPrice : 0 < price) :
    ∃ p, self.applyFill side quantity price = .ok p := by
  unfold applyFill
  rw [if_neg (by simp [hQuantity, hPrice])]
  dsimp only
  split
  · exact ⟨_, rfl⟩
  · exact ⟨_, rfl⟩

/-- What a successful `apply_fill` did: the guard held, and it took one of its branches. -/
theorem applyFill_cases {self p : Position} {side : String} {quantity price : ℚ}
    (h : self.applyFill side quantity price = .ok p) :
    0 < quantity ∧ 0 < price ∧
      let signed := signedQuantity side quantity
      let newQty := self.quantity + signed
      ((self.quantity = 0 ∨ (self.quantity > 0 ∧ signed > 0) ∨
          (self.quantity < 0 ∧ signed < 0)) ∧ p = self.increase newQty quantity price) ∨
        ((0 < self.quantity ∧ signed < 0 ∨ self.quantity < 0 ∧ 0 < signed) ∧
          p = self.reduce newQty quantity price) := by
  unfold applyFill at h
  split at h
  · cases h
  · rename_i hGuard
    have hPositive : 0 < quantity ∧ 0 < price := by simpa using hGuard
    have hSigned := signedQuantity_ne_zero side hPositive.1
    refine ⟨hPositive.1, hPositive.2, ?_⟩
    dsimp only at h ⊢
    split at h
    · rename_i hSame
      exact .inl ⟨hSame, (Except.ok.inj h).symm⟩
    · rename_i hAgainst
      refine .inr ⟨?_, (Except.ok.inj h).symm⟩
      simp only [not_or, not_and, gt_iff_lt, not_lt] at hAgainst
      obtain ⟨hOpen, hLong, hShort⟩ := hAgainst
      rcases lt_or_gt_of_ne hOpen with hNeg | hPos
      · exact .inr ⟨hNeg, lt_of_le_of_ne (hShort hNeg) hSigned.symm⟩
      · exact .inl ⟨hPos, lt_of_le_of_ne (hLong hPos) hSigned⟩

/-! ## The cash account behind a position -/

/-- The cash account that a position stands for. -/
def account (p : Position) : Account ℚ :=
  ⟨p.realizedPnl - p.quantity * p.averageEntryPrice, p.quantity⟩

@[simp] theorem account_empty (symbol : String) : (empty symbol).account = Account.opened := by
  simp [account, empty, Account.opened]

theorem equity_account (p : Position) (mark : ℚ) :
    p.account.equity mark = p.realizedPnl + p.quantity * (mark - p.averageEntryPrice) := by
  simp only [account, Account.equity]
  ring

theorem increase_account {self : Position} {signed quantity price : ℚ}
    (hSize : |signed| = quantity) (hSigned : signed ≠ 0)
    (h : self.quantity = 0 ∨ (self.quantity > 0 ∧ signed > 0) ∨
      (self.quantity < 0 ∧ signed < 0)) :
    (self.increase (self.quantity + signed) quantity price).account =
      self.account.trade signed price := by
  have hNew := increased_ne_zero hSigned h
  -- The cost of the new size, with the sign of the new quantity, is the cost of both parts.
  have hCost : (self.quantity + signed) *
      ((|self.quantity| * self.averageEntryPrice + quantity * price) /
        |self.quantity + signed|) =
      self.quantity * self.averageEntryPrice + signed * price := by
    rw [mul_div_assoc', div_eq_iff (abs_pos.mpr hNew).ne', ← hSize]
    rcases h with hZero | ⟨hOld, hPos⟩ | ⟨hOld, hNeg⟩
    · simp only [hZero, abs_zero, zero_add, zero_mul]
      ring
    · rw [abs_of_pos hOld, abs_of_pos hPos, abs_of_pos (add_pos hOld hPos)]
      ring
    · rw [abs_of_neg hOld, abs_of_neg hNeg, abs_of_neg (add_neg hOld hNeg)]
      ring
  simp only [account, increase, Account.trade, hCost]
  congr 1
  ring

theorem reduce_account {self : Position} {signed quantity price : ℚ}
    (hSize : |signed| = quantity)
    (h : 0 < self.quantity ∧ signed < 0 ∨ self.quantity < 0 ∧ 0 < signed) :
    (self.reduce (self.quantity + signed) quantity price).account =
      self.account.trade signed price := by
  subst hSize
  simp only [account, reduce, Account.trade]
  congr 1
  rcases h with ⟨hOld, hSigned⟩ | ⟨hOld, hSigned⟩
  · rw [abs_of_pos hOld, abs_of_neg hSigned, if_neg hOld.le.not_gt]
    rcases lt_trichotomy (self.quantity + signed) 0 with hFlip | hFlat | hOpen
    · rw [min_eq_left (by linarith), if_neg hFlip.ne, if_neg (by simp [hOld, hFlip.le, hOld.le])]
      ring
    · rw [min_eq_left (by linarith), if_pos hFlat, hFlat]
      have : signed = -self.quantity := by linarith
      rw [this]
      ring
    · rw [min_eq_right (by linarith), if_neg hOpen.ne', if_pos (.inl ⟨hOld, hOpen⟩)]
      ring
  · rw [abs_of_neg hOld, abs_of_pos hSigned, if_pos hOld]
    rcases lt_trichotomy (self.quantity + signed) 0 with hOpen | hFlat | hFlip
    · rw [min_eq_right (by linarith), if_neg hOpen.ne, if_pos (.inr ⟨hOld, hOpen⟩)]
      ring
    · rw [min_eq_left (by linarith), if_pos hFlat, hFlat]
      have : signed = -self.quantity := by linarith
      rw [this]
      ring
    · rw [min_eq_left (by linarith), if_neg hFlip.ne', if_neg (by simp [hOld.le, hFlip.le])]
      ring

/-- A fill is one trade of the account behind the position. -/
theorem applyFill_account {self p : Position} {side : String} {quantity price : ℚ}
    (h : self.applyFill side quantity price = .ok p) :
    p.account = self.account.trade (signedQuantity side quantity) price := by
  obtain ⟨hQuantity, -, hBranch⟩ := applyFill_cases h
  have hSize := abs_signedQuantity side hQuantity
  rcases hBranch with ⟨hSame, rfl⟩ | ⟨hAgainst, rfl⟩
  · exact increase_account hSize (signedQuantity_ne_zero side hQuantity) hSame
  · exact reduce_account hSize hAgainst

theorem applyFill_symbol {self p : Position} {side : String} {quantity price : ℚ}
    (h : self.applyFill side quantity price = .ok p) : p.symbol = self.symbol := by
  obtain ⟨-, -, ⟨-, rfl⟩ | ⟨-, rfl⟩⟩ := applyFill_cases h
  · rfl
  · rfl

theorem applyFill_quantity {self p : Position} {side : String} {quantity price : ℚ}
    (h : self.applyFill side quantity price = .ok p) :
    p.quantity = self.quantity + signedQuantity side quantity :=
  congrArg Account.holding (applyFill_account h)

end Position

/-! ## Sequences of fills -/

/-- A fill that `apply_fill` accepts. -/
structure Fill where
  side : OrderSide
  quantity : ℚ
  price : ℚ
  quantity_pos : 0 < quantity
  price_pos : 0 < price

namespace Fill

def signedQuantity (f : Fill) : ℚ := Position.signedQuantity f.side.value f.quantity

/-- The fill as an order of the account: its signed quantity and its price. -/
def order (f : Fill) : ℚ × ℚ := (f.signedQuantity, f.price)

end Fill

namespace Position

/-- Fold `apply_fill` over a sequence of fills. -/
def applyFills (self : Position) (fills : List Fill) : Except Exn Position :=
  fills.foldlM (fun p f => p.applyFill f.side.value f.quantity f.price) self

@[simp] theorem applyFills_nil (self : Position) : self.applyFills [] = .ok self := rfl

theorem applyFills_cons (self : Position) (f : Fill) (fills : List Fill) :
    self.applyFills (f :: fills) =
      (self.applyFill f.side.value f.quantity f.price).bind fun p => p.applyFills fills := rfl

theorem applyFills_ok (self : Position) (fills : List Fill) :
    ∃ p, self.applyFills fills = .ok p := by
  induction fills generalizing self with
  | nil => exact ⟨self, rfl⟩
  | cons f rest ih =>
    obtain ⟨p, hp⟩ := self.applyFill_ok f.side.value f.quantity_pos f.price_pos
    rw [applyFills_cons, hp]
    exact ih p

/-- The run of fills simulates the run of the account's trades. -/
theorem applyFills_account {self p : Position} {fills : List Fill}
    (h : self.applyFills fills = .ok p) :
    p.account = self.account.trades (fills.map Fill.order) := by
  induction fills generalizing self with
  | nil =>
    obtain rfl := Except.ok.inj h
    rfl
  | cons f rest ih =>
    obtain ⟨q, hq⟩ := self.applyFill_ok f.side.value f.quantity_pos f.price_pos
    rw [applyFills_cons, hq] at h
    rw [ih h, applyFill_account hq]
    rfl

/-- **The accounting identity.** Any fills applied to the empty position succeed; marked
at any price, the profit realized and open is the sum over the fills of what each gained
against the mark. -/
theorem applyFills_equity (symbol : String) (fills : List Fill) :
    ∃ p, (empty symbol).applyFills fills = .ok p ∧
      (∀ mark : ℚ, p.realizedPnl + p.quantity * (mark - p.averageEntryPrice) =
        (fills.map fun f => f.signedQuantity * (mark - f.price)).sum) ∧
      p.quantity = (fills.map Fill.signedQuantity).sum ∧
      (p.quantity = 0 → p.realizedPnl = (fills.map fun f => -(f.signedQuantity * f.price)).sum) := by
  obtain ⟨p, hp⟩ := (empty symbol).applyFills_ok fills
  have hAccount := applyFills_account hp
  rw [account_empty] at hAccount
  refine ⟨p, hp, fun mark => ?_, ?_, fun hFlat => ?_⟩
  · rw [← equity_account, hAccount, Account.equity_trades, List.map_map]
    simp [Fill.order, Function.comp_def]
  · have hHolding := congrArg Account.holding hAccount
    rw [Account.holding_trades, List.map_map] at hHolding
    simpa [Account.opened, account, Fill.order, Function.comp_def] using hHolding
  · have hCash := congrArg Account.cash hAccount
    rw [Account.cash_trades, List.map_map] at hCash
    simpa [Account.opened, account, hFlat, Fill.order, Function.comp_def] using hCash

end Position

end TradingAgent.Trading
