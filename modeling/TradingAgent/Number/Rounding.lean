import Mathlib.Algebra.Order.Floor.Ring
import Mathlib.Algebra.Ring.Int.Parity
import Mathlib.Data.Int.Log
import Mathlib.Data.Rat.Floor
import Mathlib.Tactic.Linarith
import Mathlib.Tactic.Positivity

/-!
# Rounding

`halfEven` rounds a rational to the nearest integer, ties to the even one. A `Format` has numbers
of so many digits to a base, with gradual underflow, and rounds a rational to the nearest of them.
Both are monotone (`halfEven_mono`, `round_monotone`) and keep the numbers that they represent.

The exponents of a format are not bounded from above. Where those of a machine are, its operations
overflow just if the exact result reaches a limit (`abs_round_lt_iff`).

`double` rounds to the doubles, of 53 bits. `decimal28` has the decimals of 28 digits.
-/

namespace Rounding

/-- The nearest integer, and the even one of two. -/
def halfEven (x : ℚ) : ℤ :=
  if x - ⌊x⌋ < 1 / 2 then ⌊x⌋
  else if 1 / 2 < x - ⌊x⌋ then ⌊x⌋ + 1
  else if Even ⌊x⌋ then ⌊x⌋
  else ⌊x⌋ + 1

theorem floor_le_halfEven (x : ℚ) : ⌊x⌋ ≤ halfEven x := by
  unfold halfEven
  split_ifs <;> omega

theorem halfEven_le (x : ℚ) : halfEven x ≤ ⌊x⌋ + 1 := by
  unfold halfEven
  split_ifs <;> omega

@[simp] theorem halfEven_intCast (n : ℤ) : halfEven n = n := by
  rw [halfEven, Int.floor_intCast, sub_self, if_pos one_half_pos]

theorem halfEven_mono {x y : ℚ} (hLe : x ≤ y) : halfEven x ≤ halfEven y := by
  rcases (Int.floor_le_floor hLe).lt_or_eq with hLt | hEq
  · exact (halfEven_le x).trans ((Int.add_one_le_iff.mpr hLt).trans (floor_le_halfEven y))
  · have hPart : x - ⌊x⌋ ≤ y - ⌊y⌋ := by
      rw [hEq]
      linarith
    have hFloor : (⌊x⌋ : ℚ) = ⌊y⌋ := by rw [hEq]
    unfold halfEven
    rw [hEq] at hPart ⊢
    -- Both parts lie on one side of one half, or the parity decides for both.
    split_ifs <;> first | omega | linarith

theorem le_halfEven {n : ℤ} {x : ℚ} (h : (n : ℚ) ≤ x) : n ≤ halfEven x := by
  have hMono := halfEven_mono h
  rwa [halfEven_intCast] at hMono

theorem halfEven_le_of_le {n : ℤ} {x : ℚ} (h : x ≤ n) : halfEven x ≤ n := by
  have hMono := halfEven_mono h
  rwa [halfEven_intCast] at hMono

theorem halfEven_neg (x : ℚ) : halfEven (-x) = -halfEven x := by
  by_cases hWhole : ((⌊x⌋ : ℤ) : ℚ) = x
  · rw [← hWhole, ← Int.cast_neg, halfEven_intCast, halfEven_intCast]
  · have hLow : (⌊x⌋ : ℚ) < x := lt_of_le_of_ne (Int.floor_le x) hWhole
    have hHigh := Int.lt_floor_add_one x
    have hFloor : ⌊-x⌋ = -⌊x⌋ - 1 := by
      rw [Int.floor_eq_iff]
      push_cast
      constructor <;> linarith
    have hEven : Even (-⌊x⌋ - 1) ↔ ¬Even ⌊x⌋ := by
      rw [Int.even_sub_one, even_neg]
    unfold halfEven
    simp only [hFloor, hEven]
    push_cast
    -- Both parts of a whole are one half, or they lie on different sides of it.
    split_ifs <;> first | omega | (exfalso; linarith)

/-- A number is rounded by at most one half. -/
theorem abs_halfEven_sub_le (x : ℚ) : |halfEven x - x| ≤ 1 / 2 := by
  have hLow := Int.floor_le x
  have hHigh := Int.lt_floor_add_one x
  unfold halfEven
  split_ifs with hBelow hAbove hEven
  · rw [abs_le]
    constructor <;> linarith
  · push_cast
    rw [abs_le]
    constructor <;> linarith
  · rw [abs_le]
    constructor <;> linarith
  · push_cast
    rw [abs_le]
    constructor <;> linarith

/-- What is rounded above an odd number lies at its upper half or above. -/
theorem lt_halfEven_iff_of_odd {n : ℤ} (hn : ¬Even n) (x : ℚ) :
    n < halfEven x ↔ (n : ℚ) + 1 / 2 ≤ x := by
  rcases lt_trichotomy ⌊x⌋ n with hFloor | rfl | hFloor
  · have hRound := halfEven_le x
    have hLt : x < n := Int.floor_lt.mp hFloor
    exact iff_of_false (by omega) (by linarith)
  · unfold halfEven
    split_ifs with hBelow hAbove
    · exact iff_of_false (lt_irrefl _) (by linarith)
    · exact iff_of_true (by omega) (by linarith)
    · exact iff_of_true (by omega) (by linarith)
  · have hRound := floor_le_halfEven x
    have hLe : ((n + 1 : ℤ) : ℚ) ≤ x := Int.le_floor.mp hFloor
    push_cast at hLe
    exact iff_of_true (by omega) (by linarith)

/-! ## Formats -/

/-- Numbers of so many digits to a base, of which the last one has at least the place
`bottom`. -/
structure Format where
  base : ℕ
  digits : ℕ
  bottom : ℤ
  one_lt : 1 < base
  pos : 0 < digits

namespace Format

variable (f : Format)

/-- The exponent of the last place of the numbers near another one. -/
def lastPlace (x : ℚ) : ℤ := max (Int.log f.base |x| - (f.digits - 1)) f.bottom

/-- The number of the format that is nearest. -/
def round (x : ℚ) : ℚ := halfEven (x / f.base ^ f.lastPlace x) * f.base ^ f.lastPlace x

theorem one_lt_cast : (1 : ℚ) < f.base := Nat.one_lt_cast.mpr f.one_lt

theorem unit_pos (e : ℤ) : (0 : ℚ) < f.base ^ e :=
  zpow_pos (zero_lt_one.trans f.one_lt_cast) e

theorem unit_add (d e : ℤ) : (f.base : ℚ) ^ (d + e) = f.base ^ d * f.base ^ e :=
  zpow_add₀ (zero_lt_one.trans f.one_lt_cast).ne' d e

/-- The multiples of the last place are numbers of the format. -/
theorem round_of_multiple {x : ℚ} {n : ℤ} (h : x = n * f.base ^ f.lastPlace x) :
    f.round x = x := by
  have hScaled : x / f.base ^ f.lastPlace x = n := by
    rw [div_eq_iff (f.unit_pos _).ne']
    exact h
  rw [round, hScaled, halfEven_intCast]
  exact h.symm

@[simp] theorem round_zero : f.round 0 = 0 := by
  refine f.round_of_multiple (n := 0) ?_
  rw [Int.cast_zero, zero_mul]

/-- A multiple of a power of the base that is at least the last place. -/
theorem round_of_place {x : ℚ} {n e : ℤ} (h : x = n * f.base ^ e) (hPlace : f.lastPlace x ≤ e) :
    f.round x = x := by
  obtain ⟨k, hk⟩ := Int.eq_ofNat_of_zero_le (Int.sub_nonneg.mpr hPlace)
  refine f.round_of_multiple (n := n * f.base ^ k) ?_
  have hPower : (f.base : ℚ) ^ k * f.base ^ f.lastPlace x = f.base ^ e := by
    rw [← zpow_natCast, ← f.unit_add, ← hk, sub_add_cancel]
  push_cast
  rw [mul_assoc, hPower]
  exact h

theorem round_neg (x : ℚ) : f.round (-x) = -f.round x := by
  have hPlace : f.lastPlace (-x) = f.lastPlace x := by rw [lastPlace, lastPlace, abs_neg]
  rw [round, round, hPlace, neg_div, halfEven_neg, Int.cast_neg, neg_mul]

theorem round_nonneg {x : ℚ} (h : 0 ≤ x) : 0 ≤ f.round x := by
  have hScaled : (0 : ℤ) ≤ halfEven (x / f.base ^ f.lastPlace x) :=
    le_halfEven (by rw [Int.cast_zero]; exact div_nonneg h (f.unit_pos _).le)
  exact mul_nonneg (Int.cast_nonneg hScaled) (f.unit_pos _).le

theorem abs_round (x : ℚ) : |f.round x| = f.round |x| := by
  rcases le_total 0 x with h | h
  · rw [abs_of_nonneg h, abs_of_nonneg (f.round_nonneg h)]
  · have hNonneg := f.round_nonneg (neg_nonneg.mpr h)
    rw [abs_of_nonpos h, ← abs_neg, ← round_neg, abs_of_nonneg hNonneg]

/-- Below a power of the base a number is moved by half of the last place there at most. -/
theorem abs_round_sub_le {x : ℚ} {e : ℤ} (h : |x| < f.base ^ (f.digits + e))
    (hPlace : f.bottom ≤ e) : |f.round x - x| ≤ f.base ^ e / 2 := by
  by_cases hZero : x = 0
  · rw [hZero, round_zero, sub_zero, abs_zero]
    exact div_nonneg (f.unit_pos e).le two_pos.le
  have hLast : f.lastPlace x ≤ e := by
    have hLog := (Int.lt_zpow_iff_log_lt f.one_lt (abs_pos.mpr hZero)).mp h
    unfold lastPlace
    omega
  have hUnit := f.unit_pos (f.lastPlace x)
  have hSplit : f.round x - x =
      (halfEven (x / f.base ^ f.lastPlace x) - x / f.base ^ f.lastPlace x) *
        f.base ^ f.lastPlace x := by
    rw [sub_mul, div_mul_cancel₀ _ hUnit.ne', round]
  calc |f.round x - x|
      = |halfEven (x / f.base ^ f.lastPlace x) - x / f.base ^ f.lastPlace x| *
          f.base ^ f.lastPlace x := by rw [hSplit, abs_mul, abs_of_pos hUnit]
    _ ≤ 1 / 2 * f.base ^ f.lastPlace x :=
        mul_le_mul_of_nonneg_right (abs_halfEven_sub_le _) hUnit.le
    _ ≤ 1 / 2 * f.base ^ e :=
        mul_le_mul_of_nonneg_left (zpow_le_zpow_right₀ f.one_lt_cast.le hLast) one_half_pos.le
    _ = f.base ^ e / 2 := one_div_mul_eq_div _ _

/-- Numbers of all digits, and the next power of the base. -/
theorem round_scaled {n e : ℤ} (h : |n| ≤ f.base ^ f.digits) (hPlace : f.bottom ≤ e) :
    f.round (n * f.base ^ e) = n * f.base ^ e := by
  have hCast : (|n| : ℚ) ≤ f.base ^ (f.digits : ℤ) := by
    rw [zpow_natCast]
    exact_mod_cast h
  rcases hCast.lt_or_eq with hLt | hEq
  · rcases eq_or_ne n 0 with rfl | hZero
    · rw [Int.cast_zero, zero_mul, round_zero]
    · have hValue : (0 : ℚ) < |(n : ℚ) * f.base ^ e| :=
        abs_pos.mpr (mul_ne_zero (Int.cast_ne_zero.mpr hZero) (f.unit_pos e).ne')
      have hBelow : |(n : ℚ) * f.base ^ e| < (f.base : ℚ) ^ (f.digits + e) := by
        rw [abs_mul, abs_of_pos (f.unit_pos e), f.unit_add]
        exact mul_lt_mul_of_pos_right hLt (f.unit_pos e)
      have hLog := (Int.lt_zpow_iff_log_lt f.one_lt hValue).mp hBelow
      refine f.round_of_place rfl ?_
      unfold lastPlace
      omega
  · -- The power of the base has its own last place.
    obtain ⟨sign, hSign, hn⟩ :
        ∃ sign : ℤ, |sign| = 1 ∧ (n : ℚ) = sign * f.base ^ (f.digits : ℤ) := by
      rcases abs_cases (n : ℚ) with ⟨hAbs, -⟩ | ⟨hAbs, -⟩
      · exact ⟨1, abs_one, by rw [← hEq, hAbs, Int.cast_one, one_mul]⟩
      · exact ⟨-1, by rw [abs_neg, abs_one], by rw [← hEq, hAbs]; push_cast; ring⟩
    have hPower : (n : ℚ) * f.base ^ e = sign * f.base ^ (f.digits + e) := by
      rw [hn, mul_assoc, ← f.unit_add]
    have hAbs : |(n : ℚ) * f.base ^ e| = f.base ^ (f.digits + e) := by
      have hOne : |(sign : ℚ)| = 1 := by exact_mod_cast hSign
      rw [hPower, abs_mul, hOne, one_mul, abs_of_pos (f.unit_pos _)]
    refine f.round_of_place hPower ?_
    rw [lastPlace, hAbs, Int.log_zpow f.one_lt]
    have hPos := f.pos
    omega

theorem lastPlace_mono {x y : ℚ} (hPos : 0 < x) (h : x ≤ y) : f.lastPlace x ≤ f.lastPlace y := by
  have hLog : Int.log f.base |x| ≤ Int.log f.base |y| := by
    rw [abs_of_pos hPos, abs_of_pos (hPos.trans_le h)]
    exact Int.log_mono_right hPos h
  unfold lastPlace
  omega

/-- The number that is scaled to its last place has no more than the digits. -/
theorem scaled_le (x : ℚ) : |halfEven (x / f.base ^ f.lastPlace x)| ≤ f.base ^ f.digits := by
  have hLog : Int.log f.base |x| + 1 ≤ f.digits + f.lastPlace x := by
    unfold lastPlace
    omega
  have hLt : |x| ≤ f.base ^ (f.digits : ℤ) * (f.base : ℚ) ^ f.lastPlace x := by
    rw [← f.unit_add]
    exact (Int.lt_zpow_succ_log_self f.one_lt |x|).le.trans
      (zpow_le_zpow_right₀ f.one_lt_cast.le hLog)
  obtain ⟨hLow, hHigh⟩ := abs_le.mp hLt
  rw [abs_le]
  constructor
  · apply le_halfEven
    rw [le_div_iff₀ (f.unit_pos _)]
    push_cast
    rw [zpow_natCast] at hLow
    linarith
  · apply halfEven_le_of_le
    rw [div_le_iff₀ (f.unit_pos _)]
    push_cast
    rw [zpow_natCast] at hHigh
    exact hHigh

/-- What is rounded stays as it is. -/
@[simp] theorem round_round (x : ℚ) : f.round (f.round x) = f.round x :=
  f.round_scaled (f.scaled_le x) (le_max_right _ _)

theorem round_mono {x y : ℚ} (hNonneg : 0 ≤ x) (h : x ≤ y) : f.round x ≤ f.round y := by
  rcases hNonneg.eq_or_lt with rfl | hPos
  · rw [round_zero]
    exact f.round_nonneg h
  · rcases (f.lastPlace_mono hPos h).eq_or_lt with hEq | hLt
    · -- With one last place, by the rounding to integers.
      rw [round, round, ← hEq]
      refine mul_le_mul_of_nonneg_right ?_ (f.unit_pos _).le
      exact_mod_cast halfEven_mono (div_le_div_of_nonneg_right h (f.unit_pos _).le)
    · -- With a later one, by a power of the base between the two.
      have hLog : f.lastPlace y = Int.log f.base y - (f.digits - 1) := by
        have hBound : f.bottom ≤ f.lastPlace x := le_max_right _ _
        have hPlace : f.lastPlace y = max (Int.log f.base y - (f.digits - 1)) f.bottom := by
          rw [lastPlace, abs_of_pos (hPos.trans_le h)]
        omega
      have hBelow : f.round x ≤ f.base ^ Int.log f.base y := by
        have hScaled := (le_abs_self _).trans (f.scaled_le x)
        have hPower : (f.base : ℚ) ^ (f.digits : ℤ) * f.base ^ f.lastPlace x ≤
            f.base ^ Int.log f.base y := by
          rw [← f.unit_add]
          refine zpow_le_zpow_right₀ f.one_lt_cast.le ?_
          omega
        refine le_trans ?_ hPower
        refine mul_le_mul_of_nonneg_right ?_ (f.unit_pos _).le
        rw [zpow_natCast]
        exact_mod_cast hScaled
      refine hBelow.trans ?_
      have hSplit : (f.base : ℚ) ^ Int.log f.base y =
          f.base ^ ((f.digits : ℤ) - 1) * f.base ^ f.lastPlace y := by
        rw [← f.unit_add, hLog]
        congr 1
        omega
      obtain ⟨d, hd⟩ := Int.eq_ofNat_of_zero_le (a := (f.digits : ℤ) - 1) (by have := f.pos; omega)
      rw [hSplit]
      refine mul_le_mul_of_nonneg_right ?_ (f.unit_pos _).le
      have hScaled : ((f.base ^ d : ℕ) : ℤ) ≤ halfEven (y / f.base ^ f.lastPlace y) := by
        apply le_halfEven
        rw [le_div_iff₀ (f.unit_pos _)]
        push_cast
        rw [← zpow_natCast, ← hd, ← hSplit]
        exact Int.zpow_log_le_self f.one_lt (hPos.trans_le h)
      rw [hd, zpow_natCast]
      exact_mod_cast hScaled

theorem round_monotone : Monotone f.round := by
  intro x y h
  rcases le_total 0 x with hx | hx
  · exact f.round_mono hx h
  · rcases le_total 0 y with hy | hy
    · have hLow := f.round_nonneg (neg_nonneg.mpr hx)
      rw [round_neg] at hLow
      linarith [f.round_nonneg hy]
    · have hMono := f.round_mono (neg_nonneg.mpr hy) (neg_le_neg h)
      rw [round_neg, round_neg] at hMono
      linarith

/-- The powers of the base are numbers of the format. -/
theorem round_power {e : ℤ} (hPlace : f.bottom ≤ e) : f.round (f.base ^ e) = f.base ^ e := by
  have hOne : |(1 : ℤ)| ≤ (f.base : ℤ) ^ f.digits := by
    rw [abs_one]
    exact_mod_cast Nat.one_le_pow _ _ (zero_lt_one.trans f.one_lt)
  have hScaled := f.round_scaled (e := e) hOne hPlace
  rwa [Int.cast_one, one_mul] at hScaled

/-- A number is rounded to a power of the base just if it is at least halfway to it. -/
theorem abs_round_lt_iff (hBase : Even f.base) {top : ℤ} (hTop : f.bottom + f.digits ≤ top)
    (x : ℚ) : |f.round x| < f.base ^ top ↔
      |x| < (f.base ^ f.digits - 1 / 2) * f.base ^ (top - f.digits) := by
  have hPos := f.pos
  have hOdd : ¬Even ((f.base : ℤ) ^ f.digits - 1) := by
    rw [Int.even_sub_one, not_not]
    exact ((Int.even_coe_nat _).mpr hBase).pow_of_ne_zero hPos.ne'
  have hUnit := f.unit_pos (top - f.digits)
  have hSplit : (f.base : ℚ) ^ top = f.base ^ f.digits * f.base ^ (top - f.digits) := by
    rw [← zpow_natCast, ← f.unit_add, add_sub_cancel]
  rw [abs_round]
  generalize hy : |x| = y
  have hNonneg : 0 ≤ y := hy ▸ abs_nonneg x
  rcases lt_or_ge y (f.base ^ top) with hBelow | hAbove
  · rcases lt_or_ge y (f.base ^ (top - 1)) with hSmall | hLarge
    · have hLess : (f.base : ℚ) ^ (top - 1) < f.base ^ top :=
        zpow_lt_zpow_right₀ f.one_lt_cast (sub_one_lt top)
      have hRound := f.round_monotone hSmall.le
      rw [f.round_power (e := top - 1) (by omega)] at hRound
      refine iff_of_true (hRound.trans_lt hLess) (hSmall.trans_le ?_)
      have hHalf : (f.base : ℚ) ^ (top - 1) * 2 ≤ f.base ^ top := by
        have hTwo : (2 : ℚ) ≤ f.base := by exact_mod_cast f.one_lt
        have hStep : (f.base : ℚ) ^ top = f.base ^ (top - 1) * f.base := by
          rw [← zpow_add_one₀ (zero_lt_one.trans f.one_lt_cast).ne', sub_add_cancel]
        rw [hStep]
        exact mul_le_mul_of_nonneg_left hTwo (f.unit_pos _).le
      have hDigits : (1 : ℚ) ≤ f.base ^ f.digits := one_le_pow₀ f.one_lt_cast.le
      rw [sub_mul, ← hSplit]
      have hPart : (1 : ℚ) / 2 * f.base ^ (top - f.digits) ≤ 1 / 2 * f.base ^ top := by
        rw [hSplit]
        nlinarith
      linarith
    · have hLog : Int.log f.base y = top - 1 := by
        have hy0 : 0 < y := (f.unit_pos _).trans_le hLarge
        have hLow := (Int.zpow_le_iff_le_log f.one_lt hy0).mp hLarge
        have hHigh := (Int.lt_zpow_iff_log_lt f.one_lt hy0).mp hBelow
        omega
      have hPlace : f.lastPlace y = top - f.digits := by
        rw [lastPlace, abs_of_nonneg hNonneg, hLog]
        omega
      rw [round, hPlace, hSplit, mul_lt_mul_iff_left₀ hUnit]
      have hRounds := lt_halfEven_iff_of_odd hOdd (y / f.base ^ (top - f.digits))
      have hLast : ((f.base : ℤ) ^ f.digits - 1 < halfEven (y / f.base ^ (top - f.digits))) ↔
          ¬((halfEven (y / f.base ^ (top - f.digits)) : ℚ) < f.base ^ f.digits) := by
        rw [Int.sub_one_lt_iff, not_lt]
        exact_mod_cast Iff.rfl
      have hHalf : (f.base : ℚ) ^ f.digits - 1 + 1 / 2 = f.base ^ f.digits - 1 / 2 := by ring
      rw [← not_iff_not, ← hLast, hRounds, not_lt, le_div_iff₀ hUnit]
      push_cast
      rw [hHalf]
  · have hRound := f.round_monotone hAbove
    rw [f.round_power (by omega)] at hRound
    refine iff_of_false (not_lt.mpr hRound) (not_lt.mpr (le_trans ?_ hAbove))
    rw [hSplit]
    exact mul_le_mul_of_nonneg_right (sub_le_self _ one_half_pos.le) hUnit.le

end Format

/-! ## Doubles -/

/-- The exponent of the last place of the doubles near a number. -/
def lastPlace (x : ℚ) : ℤ := max (Int.log 2 |x| - 52) (-1074)

/-- The double that is nearest to a number. -/
def double (x : ℚ) : ℚ := halfEven (x / 2 ^ lastPlace x) * 2 ^ lastPlace x

def binary64 : Format where
  base := 2
  digits := 53
  bottom := -1074
  one_lt := one_lt_two
  pos := Nat.succ_pos 52

theorem unit_pos (e : ℤ) : (0 : ℚ) < 2 ^ e := zpow_pos two_pos e

@[simp] theorem double_zero : double 0 = 0 := binary64.round_zero

/-- A significand of 53 bits. -/
theorem double_scaled {n : ℕ} {e : ℤ} (h : n < 2 ^ 53) (hPlace : -1074 ≤ e) :
    double (n * 2 ^ e) = n * 2 ^ e := by
  have hDigits : |(n : ℤ)| ≤ (binary64.base : ℤ) ^ binary64.digits := by
    rw [Nat.abs_cast]
    exact_mod_cast h.le
  exact binary64.round_scaled hDigits hPlace

/-- The integers below `2 ^ 53` are doubles. -/
theorem double_natCast {n : ℕ} (h : n < 2 ^ 53) : double n = n := by
  have hScaled := double_scaled (e := 0) h (by norm_num)
  rwa [zpow_zero, mul_one] at hScaled

/-- Below `2 ^ 34` a double is not farther than `2 ^ (-20)`. -/
theorem abs_double_sub_le {x : ℚ} (h : |x| < 2 ^ 34) : |double x - x| ≤ 2 ^ (-20 : ℤ) := by
  have hBound : |x| < (binary64.base : ℚ) ^ ((binary64.digits : ℤ) + (-19)) := by
    exact_mod_cast h
  refine (binary64.abs_round_sub_le hBound (by decide)).trans_eq ?_
  norm_num [binary64]

theorem double_nonneg {x : ℚ} (h : 0 ≤ x) : 0 ≤ double x := binary64.round_nonneg h

theorem double_mono {x y : ℚ} (hNonneg : 0 ≤ x) (h : x ≤ y) : double x ≤ double y :=
  binary64.round_mono hNonneg h

theorem double_monotone : Monotone double := binary64.round_monotone

/-- The integers below `2 ^ 53` in absolute value are doubles. -/
theorem double_intCast {n : ℤ} (h : |n| < 2 ^ 53) : double n = n := by
  have hScaled := binary64.round_scaled (n := n) (e := 0) h.le (by decide)
  rwa [zpow_zero, mul_one] at hScaled

/-! ## Decimals -/

/-- Decimals of 28 digits. The smallest exponent of the first digit is `-999999`. -/
def decimal28 : Format where
  base := 10
  digits := 28
  bottom := -1000026
  one_lt := Nat.one_lt_succ_succ 8
  pos := Nat.succ_pos 27

end Rounding
