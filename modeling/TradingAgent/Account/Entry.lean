import Mathlib.Algebra.Order.Field.Basic
import Mathlib.Tactic.FieldSimp
import Mathlib.Tactic.Linarith
import Mathlib.Tactic.Ring

/-!
# Average entry prices

A trader holds an amount of an asset, counted in the direction of the next trade: it is
negative where the trade goes against it. `entry` is the average price at which the holding
after a trade was entered. A trade along the holding averages the prices; a trade against it
keeps the average, closes the holding, or turns it over at the price of the trade.
`entry_add` says that a trade can be made in two parts, and `entry_between` that an averaged
price lies between those that it averages. Everything is stated over an arbitrary linearly
ordered field.
-/

namespace Accounting

variable {K : Type*} [Field K] [LinearOrder K]

/-- The average entry price after a trade of `amount` at `price`, from a holding `held` with
an average. -/
def entry (held average amount price : K) : K :=
  if 0 ≤ held then (held * average + amount * price) / (held + amount)
  else if held + amount < 0 then average
  else if held + amount = 0 then 0
  else price

section Cases

variable {held average amount price : K}

theorem entry_along (h : 0 ≤ held) :
    entry held average amount price = (held * average + amount * price) / (held + amount) :=
  if_pos h

theorem entry_against (h : held < 0) (hLeft : held + amount < 0) :
    entry held average amount price = average := by
  rw [entry, if_neg h.not_ge, if_pos hLeft]

theorem entry_closed (h : held < 0) (hClosed : held + amount = 0) :
    entry held average amount price = 0 := by
  rw [entry, if_neg h.not_ge, if_neg hClosed.not_lt, if_pos hClosed]

theorem entry_turned (h : held < 0) (hTurned : 0 < held + amount) :
    entry held average amount price = price := by
  rw [entry, if_neg h.not_ge, if_neg hTurned.not_gt, if_neg hTurned.ne']

/-- From nothing the average is the price. -/
theorem entry_opened (h : amount ≠ 0) : entry 0 average amount price = price := by
  rw [entry_along le_rfl, zero_mul, zero_add, zero_add, mul_div_cancel_left₀ _ h]

end Cases

variable [IsStrictOrderedRing K] {held average amount price : K}

/-- More at the average price keeps the average. -/
theorem entry_same (h : 0 ≤ held) (hAmount : 0 < amount) :
    entry held price amount price = price := by
  have hNew : held + amount ≠ 0 := (add_pos_of_nonneg_of_pos h hAmount).ne'
  rw [entry_along h, ← add_mul, mul_div_cancel_left₀ _ hNew]

/-- **Parts.** A trade in two parts at one price leads to the average of the whole. -/
theorem entry_add {a b : K} (ha : 0 < a) (hb : 0 < b) :
    entry held average (a + b) price =
      entry (held + a) (entry held average a price) b price := by
  rcases le_or_gt 0 held with hAlong | hAgainst
  · -- Both parts go along the holding.
    have hFirst : 0 < held + a := add_pos_of_nonneg_of_pos hAlong ha
    rw [entry_along hAlong, entry_along hAlong, entry_along hFirst.le,
      mul_div_cancel₀ _ hFirst.ne']
    ring
  rcases lt_trichotomy (held + (a + b)) 0 with hLeft | hClosed | hTurned
  · rw [entry_against hAgainst hLeft, entry_against (by linarith) (by linarith),
      entry_against hAgainst (by linarith)]
  · rw [entry_closed hAgainst hClosed, entry_closed (by linarith) (by linarith)]
  · -- The holding turns over: in the first part, between the two, or in the second.
    rw [entry_turned hAgainst hTurned]
    rcases lt_trichotomy (held + a) 0 with hFirst | hFirst | hFirst
    · rw [entry_turned hFirst (by linarith)]
    · rw [hFirst, entry_opened hb.ne']
    · rw [entry_turned hAgainst hFirst, entry_same hFirst.le hb]

/-- An average of two prices lies between them. -/
theorem entry_between {low high : K} (h : 0 ≤ held) (hAmount : 0 < amount)
    (hAverage : low ≤ average ∧ average ≤ high) (hPrice : low ≤ price ∧ price ≤ high) :
    low ≤ entry held average amount price ∧ entry held average amount price ≤ high := by
  have hNew : 0 < held + amount := add_pos_of_nonneg_of_pos h hAmount
  rw [entry_along h, le_div_iff₀ hNew, div_le_iff₀ hNew, mul_add, mul_add, mul_comm low held,
    mul_comm low amount, mul_comm high held, mul_comm high amount]
  constructor
  · exact add_le_add (mul_le_mul_of_nonneg_left hAverage.1 h)
      (mul_le_mul_of_nonneg_left hPrice.1 hAmount.le)
  · exact add_le_add (mul_le_mul_of_nonneg_left hAverage.2 h)
      (mul_le_mul_of_nonneg_left hPrice.2 hAmount.le)

end Accounting
