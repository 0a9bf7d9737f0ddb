import TradingAgent.Core.Python
import TradingAgent.Number.Rounding

/-!
# Contexts of decimal arithmetic

An operation on decimals computes the exact result and hands it to the context, which rounds it.
A program is written once, over any context: in `exact` nothing is rounded, and `default` is the
context that a Python program has unless it sets another one. It rounds to 28 digits, ties to even,
and raises `Overflow` for what has no room below `10 ^ 1000000`.

`Returns` is the weakest precondition of a program that may raise, with a rule for each operation:
one of the default context returns exactly if its exact result is below `limit`.
-/

namespace TradingAgent

open Rounding

/-! ## Programs that may raise -/

section Returns

variable {A B E : Type}

/-- The weakest precondition: the program returns a value with the property. -/
def Returns (program : Except E A) (post : A → Prop) : Prop := ∃ a, program = .ok a ∧ post a

theorem exists_ok_iff (program : Except E A) :
    (∃ a, program = .ok a) ↔ Returns program fun _ => True := by
  simp [Returns]

theorem returns_ok (a : A) (post : A → Prop) :
    Returns (Except.ok a : Except E A) post ↔ post a := by
  constructor
  · rintro ⟨_, ⟨⟩, hPost⟩
    exact hPost
  · exact fun hPost => ⟨a, rfl, hPost⟩

theorem not_returns_error (e : E) (post : A → Prop) :
    ¬Returns (Except.error e : Except E A) post := by
  rintro ⟨_, h, -⟩
  cases h

theorem returns_bind (program : Except E A) (f : A → Except E B) (post : B → Prop) :
    Returns (program >>= f) post ↔ Returns program fun a => Returns (f a) post := by
  cases program with
  | error e => exact iff_of_false (not_returns_error _ _) (not_returns_error _ _)
  | ok a => exact (returns_ok a fun a => Returns (f a) post).symm

theorem returns_pure (a : A) (post : A → Prop) :
    Returns (pure a : Except E A) post ↔ post a := returns_ok a post

end Returns

/-! ## Contexts -/

/-- What an operation returns, by its exact result. -/
abbrev DecimalContext := ℚ → Except Exn ℚ

namespace DecimalContext

def exact : DecimalContext := .ok

/-- `decimal.DefaultContext`. -/
def default : DecimalContext := fun x =>
  if |decimal28.round x| < 10 ^ (1000000 : ℤ) then .ok (decimal28.round x)
  else .error (.other "Overflow")

theorem exact_bind {A : Type} (x : ℚ) (f : ℚ → Except Exn A) : exact x >>= f = f x := rfl

/-- `a / b`. -/
def divide (context : DecimalContext) (a b : ℚ) : Except Exn ℚ := do
  context (← TradingAgent.divide a b)

theorem exact_divide (a b : ℚ) : exact.divide a b = TradingAgent.divide a b := by
  unfold divide
  cases TradingAgent.divide a b with
  | error e => rfl
  | ok q => rfl

theorem exact_divide_of_ne {a b : ℚ} (h : b ≠ 0) : exact.divide a b = .ok (a / b) := by
  rw [exact_divide, TradingAgent.divide, if_pos h]

/-- The least number that is rounded out of the range of the default context. -/
def limit : ℚ := (10 ^ 28 - 1 / 2) * 10 ^ (999972 : ℤ)

theorem abs_round_lt_iff (x : ℚ) :
    |decimal28.round x| < 10 ^ (1000000 : ℤ) ↔ |x| < limit :=
  decimal28.abs_round_lt_iff (by decide) (by decide) x

/-- An operation returns where its exact result is below the limit. -/
theorem returns_default (x : ℚ) (post : ℚ → Prop) :
    Returns (default x) post ↔ |x| < limit ∧ post (decimal28.round x) := by
  unfold default
  split_ifs with hFits
  · rw [returns_ok]
    exact (and_iff_right ((abs_round_lt_iff x).mp hFits)).symm
  · exact iff_of_false (not_returns_error _ _) fun h => hFits ((abs_round_lt_iff x).mpr h.1)

theorem returns_default_divide (a b : ℚ) (post : ℚ → Prop) :
    Returns (default.divide a b) post ↔
      b ≠ 0 ∧ |a / b| < limit ∧ post (decimal28.round (a / b)) := by
  unfold divide
  rw [returns_bind]
  by_cases hZero : b = 0
  · refine iff_of_false ?_ fun h => h.1 hZero
    rw [TradingAgent.divide, if_neg (not_not.mpr hZero)]
    split_ifs
    · exact not_returns_error _ _
    · exact not_returns_error _ _
  · rw [TradingAgent.divide, if_pos hZero, and_iff_right hZero, returns_ok]
    exact returns_default (a / b) post

/-- A number is below the limit just if it is when rounded. -/
theorem abs_round_lt_limit_iff {x : ℚ} : |decimal28.round x| < limit ↔ |x| < limit := by
  rw [← abs_round_lt_iff, decimal28.round_round, abs_round_lt_iff]

theorem hundred_lt_limit : 100 < limit := by
  have hPower : (1 : ℚ) ≤ 10 ^ (999972 : ℤ) := one_le_zpow₀ (by norm_num) (by norm_num)
  have hDigits : (100 : ℚ) < 10 ^ 28 - 1 / 2 := by norm_num
  calc (100 : ℚ) < 10 ^ 28 - 1 / 2 := hDigits
    _ = (10 ^ 28 - 1 / 2) * 1 := (mul_one _).symm
    _ ≤ limit := mul_le_mul_of_nonneg_left hPower (by norm_num)

/-- A share is below the limit if it is in percent. -/
theorem abs_lt_limit_of_percent {x : ℚ} (h : |decimal28.round x * 100| < limit) :
    |x| < limit := by
  rw [← abs_round_lt_limit_iff]
  refine lt_of_le_of_lt ?_ h
  rw [abs_mul]
  exact le_mul_of_one_le_right (abs_nonneg _) (by norm_num)

/-- A part of a whole is no more than hundred percent. -/
theorem percent_lt_limit {x : ℚ} (hNonneg : 0 ≤ x) (hLe : x ≤ 1) :
    |decimal28.round x * 100| < limit := by
  have hOne : decimal28.round 1 = 1 := by
    simpa using decimal28.round_power (e := 0) (by decide)
  have hRounded : decimal28.round x ≤ 1 := hOne ▸ decimal28.round_monotone hLe
  have hRoundedNonneg : 0 ≤ decimal28.round x := decimal28.round_nonneg hNonneg
  rw [abs_of_nonneg (by positivity)]
  exact (by linarith : decimal28.round x * 100 ≤ 100).trans_lt hundred_lt_limit

end DecimalContext

end TradingAgent
