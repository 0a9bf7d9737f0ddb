import TradingAgent.Account.Entry
import TradingAgent.Trading.Portfolio
import Mathlib.Algebra.Order.BigOperators.Group.List

/-!
# Fills in parts

`applyFill_entry` is the refinement of the average entry price: counted in the direction of
the fill, it moves as the `entry` of a holding. With the cash account behind a position this
determines what a fill does, so a fill can be made in parts at one price: `applyFill_parts`.
-/

namespace TradingAgent.Trading

open Accounting

namespace Position

/-! ## Quantities counted in the direction of a fill -/

theorem signedQuantity_add (side : String) (a b : ℚ) :
    signedQuantity side (a + b) = signedQuantity side a + signedQuantity side b := by
  unfold signedQuantity
  split
  · rfl
  · exact neg_add a b

theorem signedQuantity_signedQuantity (side : String) (a : ℚ) :
    signedQuantity side (signedQuantity side a) = a := by
  unfold signedQuantity
  split
  · rfl
  · exact neg_neg a

theorem abs_signedQuantity_eq (side : String) (a : ℚ) : |signedQuantity side a| = |a| := by
  unfold signedQuantity
  split
  · rfl
  · exact abs_neg a

theorem signedQuantity_eq_zero_iff (side : String) (a : ℚ) :
    signedQuantity side a = 0 ↔ a = 0 := by
  rw [← abs_eq_zero, abs_signedQuantity_eq, abs_eq_zero]

/-- A quantity and its size, when it lies in the direction of the fill. -/
theorem abs_of_along {side : String} {a : ℚ} (h : 0 ≤ signedQuantity side a) :
    |a| = signedQuantity side a := by
  rw [← abs_signedQuantity_eq side, abs_of_nonneg h]

/-- The quantity after a fill, counted in its direction. -/
theorem signedQuantity_filled (side : String) (held quantity : ℚ) :
    signedQuantity side (held + signedQuantity side quantity) =
      signedQuantity side held + quantity := by
  rw [signedQuantity_add, signedQuantity_signedQuantity]

/-- A fill opens or increases a position that does not go against it. -/
theorem along_iff (side : String) {held quantity : ℚ} (h : 0 < quantity) :
    held = 0 ∨ (held > 0 ∧ signedQuantity side quantity > 0) ∨
        (held < 0 ∧ signedQuantity side quantity < 0) ↔
      0 ≤ signedQuantity side held := by
  unfold signedQuantity
  split
  · simp only [gt_iff_lt, h, and_true, h.not_gt, and_false, or_false, le_iff_eq_or_lt, eq_comm]
  · simp only [gt_iff_lt, neg_pos, neg_lt_zero, h, and_true, h.not_gt, and_false, false_or,
      le_iff_eq_or_lt, zero_eq_neg]

/-- It goes against the other positions. -/
theorem against_iff (side : String) {held quantity : ℚ} (h : 0 < quantity) :
    0 < held ∧ signedQuantity side quantity < 0 ∨ held < 0 ∧ 0 < signedQuantity side quantity ↔
      signedQuantity side held < 0 := by
  unfold signedQuantity
  split
  · simp only [h, and_true, h.not_gt, and_false, false_or]
  · simp only [neg_pos, neg_lt_zero, h, and_true, h.not_gt, and_false, or_false]

/-- A position that goes against a fill keeps its sign as long as it goes against it. -/
theorem same_sign_iff (side : String) {held left : ℚ} (h : signedQuantity side held < 0) :
    (held > 0 ∧ left > 0) ∨ (held < 0 ∧ left < 0) ↔ signedQuantity side left < 0 := by
  unfold signedQuantity at h ⊢
  split at h
  · rename_i hBuy
    simp only [if_pos hBuy, gt_iff_lt, h, h.not_gt, true_and, false_and, false_or]
  · rename_i hSell
    rw [neg_lt_zero] at h
    simp only [if_neg hSell, gt_iff_lt, neg_lt_zero, h, h.not_gt, true_and, false_and, or_false]

/-! ## The average of a fill -/

/-- **The average.** A fill moves the average entry price as a trade in its direction. -/
theorem applyFill_entry {self p : Position} {side : String} {quantity price : ℚ}
    (h : self.applyFill side quantity price = .ok p) :
    p.averageEntryPrice =
      entry (signedQuantity side self.quantity) self.averageEntryPrice quantity price := by
  obtain ⟨hQuantity, -, hBranch⟩ := applyFill_cases h
  have hFilled := signedQuantity_filled side self.quantity quantity
  rcases hBranch with ⟨hSame, rfl⟩ | ⟨hAgainst, rfl⟩
  · have hAlong := (along_iff side hQuantity).mp hSame
    have hNew : 0 ≤ signedQuantity side (self.quantity + signedQuantity side quantity) := by
      rw [hFilled]
      exact add_nonneg hAlong hQuantity.le
    rw [entry_along hAlong, increase, abs_of_along hAlong, abs_of_along hNew, hFilled]
  · have hHeld := (against_iff side hQuantity).mp hAgainst
    have hClosed : self.quantity + signedQuantity side quantity = 0 ↔
        signedQuantity side self.quantity + quantity = 0 := by
      rw [← hFilled, signedQuantity_eq_zero_iff]
    simp only [reduce, same_sign_iff side hHeld, hClosed, hFilled]
    rcases lt_trichotomy (signedQuantity side self.quantity + quantity) 0 with hLeft | hNone |
      hTurned
    · rw [entry_against hHeld hLeft, if_neg hLeft.ne, if_pos hLeft]
    · rw [entry_closed hHeld hNone, if_pos hNone]
    · rw [entry_turned hHeld hTurned, if_neg hTurned.ne', if_neg hTurned.not_gt]

/-- The account behind a position, its average and its symbol make up the position. -/
theorem ext_account {p q : Position} (hSymbol : p.symbol = q.symbol)
    (hAverage : p.averageEntryPrice = q.averageEntryPrice) (hAccount : p.account = q.account) :
    p = q := by
  have hQuantity : p.quantity = q.quantity := congrArg Account.holding hAccount
  have hCash : p.realizedPnl - p.quantity * p.averageEntryPrice =
      q.realizedPnl - q.quantity * q.averageEntryPrice := congrArg Account.cash hAccount
  rw [hQuantity, hAverage, sub_left_inj] at hCash
  cases p
  cases q
  simp_all

/-! ## Parts -/

/-- A fill in two parts. -/
theorem applyFill_add (self : Position) (side : String) {a b price : ℚ} (ha : 0 < a)
    (hb : 0 < b) (hPrice : 0 < price) :
    self.applyFill side (a + b) price =
      (self.applyFill side a price).bind fun p => p.applyFill side b price := by
  obtain ⟨whole, hWhole⟩ := self.applyFill_ok side (add_pos ha hb) hPrice
  obtain ⟨first, hFirst⟩ := self.applyFill_ok side ha hPrice
  obtain ⟨second, hSecond⟩ := first.applyFill_ok side hb hPrice
  have hHeld : signedQuantity side first.quantity = signedQuantity side self.quantity + a := by
    rw [applyFill_quantity hFirst, signedQuantity_filled]
  have hSame : whole = second := by
    refine ext_account ?_ ?_ ?_
    · rw [applyFill_symbol hWhole, applyFill_symbol hSecond, applyFill_symbol hFirst]
    · rw [applyFill_entry hWhole, applyFill_entry hSecond, applyFill_entry hFirst, hHeld,
        entry_add ha hb]
    · rw [applyFill_account hWhole, applyFill_account hSecond, applyFill_account hFirst,
        signedQuantity_add]
      simp only [Account.trade, Account.mk.injEq]
      constructor
      · ring
      · ring
  rw [hWhole, hSame, hFirst]
  exact hSecond.symm

/-- **Parts.** A fill at one price can be made in two parts, and in any number of them: the
symbol, the quantity, the average entry price and the realized profit are the same. -/
theorem applyFill_parts (self : Position) (side : String) {price : ℚ} (hPrice : 0 < price) :
    (∀ a b : ℚ, 0 < a → 0 < b →
      self.applyFill side (a + b) price =
        (self.applyFill side a price).bind fun p => p.applyFill side b price) ∧
      ∀ parts : List ℚ, parts ≠ [] → (∀ a ∈ parts, 0 < a) →
        self.applyFill side parts.sum price =
          parts.foldlM (fun p a => p.applyFill side a price) self := by
  refine ⟨fun a b ha hb => self.applyFill_add side ha hb hPrice, fun parts => ?_⟩
  induction parts generalizing self with
  | nil => exact fun hEmpty => absurd rfl hEmpty
  | cons a rest ih =>
    intro _ hParts
    have ha : 0 < a := hParts a List.mem_cons_self
    have hRest : ∀ b ∈ rest, 0 < b := fun b hb => hParts b (List.mem_cons_of_mem _ hb)
    rw [List.sum_cons, List.foldlM_cons]
    by_cases hLast : rest = []
    · subst hLast
      rw [List.sum_nil, add_zero]
      exact (bind_pure _).symm
    · rw [self.applyFill_add side ha (List.sum_pos _ hRest hLast) hPrice]
      exact congrArg ((self.applyFill side a price).bind ·) (funext fun p => ih p hLast hRest)

/-- Buying at 90 from a short of five, in one fill and in parts. -/
theorem turned_over_parts :
    let short : Position :=
      { symbol := "BTC/USDT", quantity := -5, averageEntryPrice := 100, realizedPnl := 3 }
    (∀ a b : ℚ, 0 < a → 0 < b →
      short.applyFill "buy" (a + b) 90 =
        (short.applyFill "buy" a 90).bind fun p => p.applyFill "buy" b 90) ∧
      ∀ parts : List ℚ, parts ≠ [] → (∀ a ∈ parts, 0 < a) →
        short.applyFill "buy" parts.sum 90 =
          parts.foldlM (fun p a => p.applyFill "buy" a 90) short :=
  applyFill_parts _ "buy" (by decide)

end Position

end TradingAgent.Trading
