import TradingAgent.Core.Python
import TradingAgent.Number.Averages

/-!
# Series of floats

A series is the list of its cells. Finite cells are exact and a zero has no sign. The class
`Pandas` holds the methods of `pandas.Series` that the indicators call, each with the
recursion that its documentation gives.
-/

namespace TradingAgent.Signals

open Averages

inductive Cell
  | finite (q : ℚ)
  | infinity (negative : Bool)
  | nan
  deriving DecidableEq, Repr

namespace Cell

protected def neg : Cell → Cell
  | finite q => finite (-q)
  | infinity negative => infinity !negative
  | nan => nan

protected def add : Cell → Cell → Cell
  | finite p, finite q => finite (p + q)
  | infinity negative, finite _ => infinity negative
  | finite _, infinity negative => infinity negative
  | infinity negative, infinity other =>
    if negative = other then infinity negative else nan
  | _, _ => nan

protected def mul : Cell → Cell → Cell
  | finite p, finite q => finite (p * q)
  | infinity negative, finite q => if q = 0 then nan else infinity (negative != decide (q < 0))
  | finite p, infinity negative => if p = 0 then nan else infinity (negative != decide (p < 0))
  | infinity negative, infinity other => infinity (negative != other)
  | _, _ => nan

/-- Elementwise division does not raise at a zero. -/
protected def div : Cell → Cell → Cell
  | finite p, finite q =>
    if q ≠ 0 then finite (p / q)
    else if p = 0 then nan
    else infinity (p < 0)
  | finite _, infinity _ => finite 0
  | infinity negative, finite q => infinity (negative != decide (q < 0))
  | _, _ => nan

instance : Neg Cell := ⟨Cell.neg⟩
instance : Add Cell := ⟨Cell.add⟩
instance : Sub Cell := ⟨fun a b => a + -b⟩
instance : Mul Cell := ⟨Cell.mul⟩
instance : Div Cell := ⟨Cell.div⟩

/-- The cell, and the bound in its place where it is below the bound. -/
def atLeast (bound : ℚ) : Cell → Cell
  | finite q => finite (max q bound)
  | infinity true => finite bound
  | cell => cell

/-- The cell, and the bound in its place where it is above the bound. -/
def atMost (bound : ℚ) : Cell → Cell
  | finite q => finite (min q bound)
  | infinity false => finite bound
  | cell => cell

@[simp] theorem neg_finite (q : ℚ) : -finite q = finite (-q) := rfl

@[simp] theorem finite_add (p q : ℚ) : finite p + finite q = finite (p + q) := rfl

@[simp] theorem finite_sub (p q : ℚ) : finite p - finite q = finite (p - q) :=
  congrArg finite (sub_eq_add_neg p q).symm

@[simp] theorem finite_sub_nan (p : ℚ) : finite p - nan = nan := rfl

@[simp] theorem finite_div_infinity (p : ℚ) (negative : Bool) :
    finite p / infinity negative = finite 0 := rfl

theorem finite_div (p : ℚ) {q : ℚ} (hq : q ≠ 0) : finite p / finite q = finite (p / q) :=
  if_pos hq

@[simp] theorem atLeast_finite (bound q : ℚ) : atLeast bound (finite q) = finite (max q bound) :=
  rfl

@[simp] theorem atMost_finite (bound q : ℚ) : atMost bound (finite q) = finite (min q bound) :=
  rfl

end Cell

/-- The methods of `pandas.Series`. `clip` has its bounds `lower` and `upper`, and
`ewmMean series alpha` is `series.ewm(alpha=alpha, adjust=False).mean()`, which leaves the
gaps before the first entry. -/
class Pandas where
  diff : List Cell → List Cell
  clip : List Cell → Option ℚ → Option ℚ → List Cell
  replace : List Cell → Cell → Cell → List Cell
  ewmMean : List Cell → ℚ → Except Exn (List Cell)
  diff_eq : ∀ series, diff series = List.zipWith (· - ·) series (.nan :: series)
  clip_lower : ∀ series bound, clip series (some bound) none = series.map (Cell.atLeast bound)
  clip_upper : ∀ series bound, clip series none (some bound) = series.map (Cell.atMost bound)
  replace_eq : ∀ series old new,
    replace series old new = series.map fun cell => if cell = old then new else cell
  ewmMean_eq : ∀ (gaps : ℕ) (entries : List ℚ) (alpha : ℚ), 0 < alpha → alpha ≤ 1 →
    ewmMean (List.replicate gaps .nan ++ entries.map .finite) alpha =
      .ok (List.replicate gaps .nan ++ (smoothed alpha entries).map .finite)

/-! ## Series whose gaps all lead -/

def Cell.value? : Cell → Option ℚ
  | finite q => some q
  | _ => none

def clipCell (lower upper : Option ℚ) (cell : Cell) : Cell :=
  let raised := lower.elim cell cell.atLeast
  upper.elim raised raised.atMost

theorem leading_gaps (gaps : ℕ) (entries : List ℚ) :
    (List.replicate gaps Cell.nan ++ entries.map Cell.finite).takeWhile (· = .nan) =
      List.replicate gaps .nan := by
  rw [List.takeWhile_append_of_pos (by simp)]
  cases entries <;> simp

theorem filterMap_entries (gaps : ℕ) (entries : List ℚ) :
    (List.replicate gaps Cell.nan ++ entries.map Cell.finite).filterMap Cell.value? =
      entries := by
  rw [List.filterMap_append, List.filterMap_replicate_of_none rfl, List.nil_append,
    List.filterMap_map]
  exact List.filterMap_some

/-- The methods on series that have no gap after their first entry. -/
@[reducible] def leadingGaps : Pandas where
  diff series := List.zipWith (· - ·) series (.nan :: series)
  clip series lower upper := series.map (clipCell lower upper)
  replace series old new := series.map fun cell => if cell = old then new else cell
  ewmMean series alpha :=
    if 0 < alpha ∧ alpha ≤ 1 then
      .ok (series.takeWhile (· = .nan) ++
        (smoothed alpha (series.filterMap Cell.value?)).map .finite)
    else .error (.valueError "alpha must satisfy: 0 < alpha <= 1")
  diff_eq _ := rfl
  clip_lower _ _ := rfl
  clip_upper _ _ := rfl
  replace_eq _ _ _ := rfl
  ewmMean_eq gaps entries alpha hPos hLe := by
    rw [if_pos ⟨hPos, hLe⟩, leading_gaps, filterMap_entries]

end TradingAgent.Signals
