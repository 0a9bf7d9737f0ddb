import Mathlib.Algebra.Field.Basic
import Mathlib.Tactic.Ring

/-!
# Compounded round trips

A round trip buys at `entry` and sells at `exit`; it takes a stake to
`stake * (exit / entry) * keep`, where `keep` is the part that the fees leave. When all
that is held goes into every trip, the stakes compound. `compound` is what a stake has
become after a list of trips, and `drift` adds up, over the trips, what each stake lost in
price. Everything is stated over an arbitrary field.
-/

namespace Accounting

structure Trip (K : Type*) where
  entry : K
  exit : K
  deriving DecidableEq, Repr

namespace Trip

variable {K : Type*} [Field K]

/-- The price at the end of the trip for one at its start. -/
def ratio (t : Trip K) : K := t.exit / t.entry

/-- What a stake becomes in the trip. -/
def settle (t : Trip K) (keep stake : K) : K := stake * t.ratio * keep

end Trip

variable {K : Type*} [Field K] (keep : K)

/-- What a stake has become after the trips. -/
def compound (stake : K) (trips : List (Trip K)) : K :=
  trips.foldl (fun stake t => t.settle keep stake) stake

/-- The sum over the trips of what each stake lost in price. -/
def drift : K → List (Trip K) → K
  | _, [] => 0
  | stake, t :: rest => stake * (1 - t.ratio) + drift (t.settle keep stake) rest

@[simp] theorem compound_nil (stake : K) : compound keep stake [] = stake := rfl

theorem compound_cons (stake : K) (t : Trip K) (rest : List (Trip K)) :
    compound keep stake (t :: rest) = compound keep (t.settle keep stake) rest := rfl

theorem compound_concat (stake : K) (trips : List (Trip K)) (t : Trip K) :
    compound keep stake (trips ++ [t]) = t.settle keep (compound keep stake trips) := by
  rw [compound, List.foldl_append]
  rfl

/-- The drift of a stake is the stake times the drift of one unit. -/
theorem drift_eq_mul (stake : K) (trips : List (Trip K)) :
    drift keep stake trips = stake * drift keep 1 trips := by
  induction trips generalizing stake with
  | nil => simp [drift]
  | cons t rest ih =>
    rw [drift, drift, ih (t.settle keep stake), ih (t.settle keep 1)]
    simp only [Trip.settle]
    ring

/-- A compounded stake is nothing only if it was, or if a trip was made and kept nothing. -/
theorem compound_eq_zero_iff {stake : K} {trips : List (Trip K)}
    (hRatio : ∀ t ∈ trips, t.ratio ≠ 0) :
    compound keep stake trips = 0 ↔ stake = 0 ∨ keep = 0 ∧ trips ≠ [] := by
  induction trips generalizing stake with
  | nil => simp
  | cons t rest ih =>
    have hFirst := hRatio t List.mem_cons_self
    rw [compound_cons, ih fun u hu => hRatio u (List.mem_cons_of_mem _ hu)]
    simp only [Trip.settle, mul_eq_zero, hFirst, or_false, ne_eq, reduceCtorEq, not_false_eq_true,
      and_true]
    constructor
    · rintro ((hStake | hKeep) | ⟨hKeep, -⟩)
      · exact .inl hStake
      · exact .inr hKeep
      · exact .inr hKeep
    · rintro (hStake | hKeep)
      · exact .inl (.inl hStake)
      · exact .inl (.inr hKeep)

end Accounting
