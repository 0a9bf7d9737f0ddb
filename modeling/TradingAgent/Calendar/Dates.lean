import Mathlib.Data.Int.Order.Basic
import Mathlib.Data.Nat.Find
import Mathlib.Order.Monotone.Basic
import Mathlib.Tactic.NormNum

/-!
# Dates of the Gregorian calendar

The wall clock shows a year, a month, a day and a time of the day, and `moment` is the number of
microseconds from the beginning of 1970 to what it shows. Of a moment, `wallOf` finds what the wall
clock shows: the year and the month are the last ones that begin before the day (`wallOf_moment`).
-/

namespace Calendar

/-! ## Years and months -/

def leap (year : ℕ) : Bool := year % 4 = 0 ∧ (year % 100 ≠ 0 ∨ year % 400 = 0)

def daysInMonth (year : ℕ) : ℕ → ℕ
  | 1 | 3 | 5 | 7 | 8 | 10 | 12 => 31
  | 4 | 6 | 9 | 11 => 30
  | 2 => if leap year then 29 else 28
  | _ => 0

def daysBeforeMonth (year : ℕ) : ℕ → ℕ
  | 0 => 0
  | month + 1 => daysBeforeMonth year month + daysInMonth year month

def daysBeforeYear (year : ℕ) : ℕ :=
  (year - 1) * 365 + (year - 1) / 4 - (year - 1) / 100 + (year - 1) / 400

theorem leap_eq (year : ℕ) : leap year = decide (4 ∣ year ∧ (¬100 ∣ year ∨ 400 ∣ year)) := by
  unfold leap
  simp only [Nat.dvd_iff_mod_eq_zero, ne_eq]

theorem daysBeforeYear_succ {year : ℕ} (h : 1 ≤ year) :
    daysBeforeYear (year + 1) = daysBeforeYear year + if leap year then 366 else 365 := by
  obtain ⟨k, rfl⟩ := Nat.exists_eq_add_of_le' h
  have hFewer : k / 100 ≤ k / 4 := Nat.div_le_div_left (by norm_num) (by norm_num)
  rw [leap_eq]
  unfold daysBeforeYear
  rw [Nat.add_sub_cancel, Nat.add_sub_cancel, Nat.succ_div, Nat.succ_div, Nat.succ_div]
  by_cases h400 : 400 ∣ k + 1
  · have h100 : 100 ∣ k + 1 := Dvd.dvd.trans (by norm_num) h400
    have h4 : 4 ∣ k + 1 := Dvd.dvd.trans (by norm_num) h100
    simp only [h400, h100, h4, if_true, not_true, or_true, and_self, decide_true]
    omega
  · by_cases h100 : 100 ∣ k + 1
    · have h4 : 4 ∣ k + 1 := Dvd.dvd.trans (by norm_num) h100
      simp only [h400, h100, h4, if_true, if_false, not_true, or_self, and_false, decide_false,
        Bool.false_eq_true]
      omega
    · by_cases h4 : 4 ∣ k + 1
      · simp only [h400, h100, h4, if_true, if_false, not_false_eq_true, or_false, and_self,
          decide_true]
        omega
      · simp only [h400, h100, h4, if_false, false_and, decide_false, Bool.false_eq_true]
        omega

theorem le_daysBeforeYear (year : ℕ) : (year - 1) * 365 ≤ daysBeforeYear year := by
  have hFewer : (year - 1) / 100 ≤ (year - 1) / 4 := Nat.div_le_div_left (by norm_num) (by norm_num)
  unfold daysBeforeYear
  omega

theorem daysBeforeMonth_end (year : ℕ) :
    daysBeforeMonth year 13 = if leap year then 366 else 365 := by
  unfold daysBeforeMonth
  simp only [daysBeforeMonth, daysInMonth]
  split_ifs <;> rfl

theorem daysBeforeYear_le {year year' : ℕ} (h : 1 ≤ year) (hLe : year ≤ year') :
    daysBeforeYear year ≤ daysBeforeYear year' := by
  induction hLe with
  | refl => exact le_rfl
  | step hLe ih =>
    rw [daysBeforeYear_succ (h.trans hLe)]
    omega

theorem daysBeforeMonth_mono (year : ℕ) : Monotone (daysBeforeMonth year) :=
  monotone_nat_of_le_succ fun _ => Nat.le_add_right _ _

/-! ## Days -/

/-- What the wall clock shows. -/
structure Wall where
  year : ℕ
  month : ℕ
  day : ℕ
  hour : ℕ := 0
  minute : ℕ := 0
  second : ℕ := 0
  microsecond : ℕ := 0
  deriving DecidableEq, Repr

namespace Wall

/-- The wall clock shows a time. -/
structure Valid (w : Wall) : Prop where
  year : 1 ≤ w.year ∧ w.year ≤ 9999
  month : 1 ≤ w.month ∧ w.month ≤ 12
  day : 1 ≤ w.day ∧ w.day ≤ daysInMonth w.year w.month
  hour : w.hour < 24
  minute : w.minute < 60
  second : w.second < 60
  microsecond : w.microsecond < 1000000

theorem valid_iff {w : Wall} : (1 ≤ w.year ∧ w.year ≤ 9999) ∧ (1 ≤ w.month ∧ w.month ≤ 12) ∧
    (1 ≤ w.day ∧ w.day ≤ daysInMonth w.year w.month) ∧ w.hour < 24 ∧ w.minute < 60 ∧
      w.second < 60 ∧ w.microsecond < 1000000 ↔ w.Valid := by
  constructor
  · rintro ⟨hYear, hMonth, hDay, hHour, hMinute, hSecond, hMicrosecond⟩
    exact ⟨hYear, hMonth, hDay, hHour, hMinute, hSecond, hMicrosecond⟩
  · rintro ⟨hYear, hMonth, hDay, hHour, hMinute, hSecond, hMicrosecond⟩
    exact ⟨hYear, hMonth, hDay, hHour, hMinute, hSecond, hMicrosecond⟩

instance (w : Wall) : Decidable w.Valid := decidable_of_iff _ valid_iff

/-- The number of the day, from the first day of the year 1 on. -/
def ordinal (w : Wall) : ℕ := daysBeforeYear w.year + daysBeforeMonth w.year w.month + w.day

/-- The microseconds of the day. -/
def ofDay (w : Wall) : ℕ :=
  ((w.hour * 60 + w.minute) * 60 + w.second) * 1000000 + w.microsecond

/-- The microseconds from the beginning of 1970 on. -/
def moment (w : Wall) : ℤ := ((w.ordinal : ℤ) - 719163) * 86400000000 + w.ofDay

end Wall

/-- The last year that begins before a day. -/
def yearOf (n : ℕ) : ℕ := Nat.findGreatest (fun year => daysBeforeYear year < n) (n / 365 + 1)

/-- The last month that begins before a day of a year. -/
def monthOf (year n : ℕ) : ℕ := Nat.findGreatest (fun month => daysBeforeMonth year month < n) 12

/-- What the wall clock shows at a moment. -/
def wallOf (moment : ℤ) : Wall :=
  let n := (moment / 86400000000 + 719163).toNat
  let time := (moment % 86400000000).toNat
  let year := yearOf n
  let month := monthOf year (n - daysBeforeYear year)
  { year := year
    month := month
    day := n - daysBeforeYear year - daysBeforeMonth year month
    hour := time / 3600000000
    minute := time / 60000000 % 60
    second := time / 1000000 % 60
    microsecond := time % 1000000 }

namespace Wall

variable {w : Wall}

/-- A day of a year lies before the next year. -/
theorem Valid.dayOfYear_le (h : w.Valid) :
    daysBeforeMonth w.year w.month + w.day ≤ if leap w.year then 366 else 365 := by
  rw [← daysBeforeMonth_end]
  have hNext : daysBeforeMonth w.year (w.month + 1) ≤ daysBeforeMonth w.year 13 :=
    daysBeforeMonth_mono w.year (Nat.succ_le_succ h.month.2)
  have hDay := h.day.2
  rw [daysBeforeMonth] at hNext
  omega

theorem Valid.yearOf_ordinal (h : w.Valid) : yearOf w.ordinal = w.year := by
  obtain ⟨hYear, -⟩ := h.year
  have hDay := h.day.1
  rw [yearOf, Nat.findGreatest_eq_iff]
  refine ⟨?_, fun _ => ?_, fun {year} hLater _ hBegins => ?_⟩
  · have hLe := le_daysBeforeYear w.year
    unfold ordinal
    omega
  · unfold ordinal
    omega
  · have hNext : daysBeforeYear (w.year + 1) ≤ daysBeforeYear year :=
      daysBeforeYear_le (Nat.le_add_left 1 _) hLater
    have hInside := h.dayOfYear_le
    rw [daysBeforeYear_succ hYear] at hNext
    unfold ordinal at hBegins
    omega

theorem Valid.monthOf_eq (h : w.Valid) :
    monthOf w.year (daysBeforeMonth w.year w.month + w.day) = w.month := by
  obtain ⟨hDay, hInside⟩ := h.day
  rw [monthOf, Nat.findGreatest_eq_iff]
  refine ⟨h.month.2, fun _ => by omega, fun {month} hLater _ hBegins => ?_⟩
  have hNext : daysBeforeMonth w.year (w.month + 1) ≤ daysBeforeMonth w.year month :=
    daysBeforeMonth_mono w.year hLater
  rw [daysBeforeMonth] at hNext
  omega

theorem Valid.ofDay_lt (h : w.Valid) : w.ofDay < 86400000000 := by
  have hHour := h.hour
  have hMinute := h.minute
  have hSecond := h.second
  have hMicrosecond := h.microsecond
  unfold ofDay
  omega

/-- **The wall clock of a moment.** -/
theorem Valid.wallOf_moment (h : w.Valid) : wallOf w.moment = w := by
  have hTime := h.ofDay_lt
  have hDays : (w.moment / 86400000000 + 719163).toNat = w.ordinal := by
    unfold moment
    omega
  have hRest : (w.moment % 86400000000).toNat = w.ofDay := by
    unfold moment
    omega
  have hYear : w.ordinal - daysBeforeYear w.year = daysBeforeMonth w.year w.month + w.day := by
    unfold ordinal
    omega
  have hHour := h.hour
  have hMinute := h.minute
  have hSecond := h.second
  have hMicrosecond := h.microsecond
  unfold wallOf
  simp only [hDays, hRest, h.yearOf_ordinal, hYear, h.monthOf_eq]
  obtain ⟨year, month, day, hour, minute, second, microsecond⟩ := w
  simp only [ofDay, Wall.mk.injEq, true_and]
  dsimp only at hHour hMinute hSecond hMicrosecond
  refine ⟨?_, ?_, ?_, ?_, ?_⟩ <;> omega

end Wall

end Calendar
