import Mathlib.Algebra.Order.Field.Basic
import Mathlib.Data.List.Induction
import Mathlib.Order.Bounds.Defs
import Mathlib.Tactic.Linarith

/-!
# Drawdowns

The drawdown of an equity curve is the greatest fall, in percent, from a positive mark to a
mark that is not before it. `Watermark` computes it in one pass: it keeps the highest mark so
far and the greatest fall from a highest mark. `watched_isGreatest` says that the pass is
right on marks that are not negative. Everything is stated over an arbitrary linearly ordered
field.
-/

namespace Accounting

section Fall

variable {K : Type*} [Field K]

/-- The fall from `high` to `low` in percent. -/
def fall (high low : K) : K := (high - low) / high * 100

/-- The part of a high that a drawdown leaves. -/
def kept (drawdown : K) : K := 1 - drawdown / 100

theorem fall_self (high : K) : fall high high = 0 := by
  rw [fall, sub_self, zero_div, zero_mul]

theorem fall_eq {high : K} (hHigh : high ≠ 0) (low : K) :
    fall high low = (1 - low / high) * 100 := by
  rw [fall, sub_div, div_self hHigh]

end Fall

variable {K : Type*} [Field K] [LinearOrder K]

/-- The falls from a positive mark to a mark not before it. -/
def falls (marks : List K) : Set K :=
  {d | ∃ (i j : ℕ) (high low : K), i ≤ j ∧ marks[i]? = some high ∧ marks[j]? = some low ∧
    0 < high ∧ d = fall high low}

/-- The highest mark so far, and the greatest fall from a highest mark. -/
structure Watermark (K : Type*) where
  peak : K
  drawdown : K
  deriving DecidableEq, Repr

/-- One more mark. -/
def Watermark.watch (w : Watermark K) (mark : K) : Watermark K :=
  let peak := max w.peak mark
  { peak := peak
    drawdown := if 0 < peak then max w.drawdown (fall peak mark) else w.drawdown }

/-- The watermark of the marks after the first. -/
def watched (first : K) (marks : List K) : Watermark K :=
  marks.foldl Watermark.watch { peak := first, drawdown := 0 }

theorem watched_concat (first : K) (marks : List K) (mark : K) :
    watched first (marks ++ [mark]) = (watched first marks).watch mark := by
  simp [watched]

/-! ## Falls -/

theorem zero_mem_falls {first : K} (hFirst : 0 < first) (marks : List K) :
    0 ∈ falls (first :: marks) :=
  ⟨0, 0, first, first, le_rfl, rfl, rfl, hFirst, (fall_self first).symm⟩

/-- More marks make more falls. -/
theorem falls_subset_append (marks more : List K) : falls marks ⊆ falls (marks ++ more) := by
  rintro d ⟨i, j, high, low, hLe, hHigh, hLow, hPos, rfl⟩
  obtain ⟨hi, -⟩ := List.getElem?_eq_some_iff.mp hHigh
  obtain ⟨hj, -⟩ := List.getElem?_eq_some_iff.mp hLow
  refine ⟨i, j, high, low, hLe, ?_, ?_, hPos, rfl⟩
  · rw [List.getElem?_append_left hi, hHigh]
  · rw [List.getElem?_append_left hj, hLow]

/-- A greatest fall does not decrease when marks are appended. -/
theorem greatest_fall_le {marks more : List K} {worst worst' : K}
    (h : IsGreatest (falls marks) worst) (h' : IsGreatest (falls (marks ++ more)) worst') :
    worst ≤ worst' :=
  h'.2 (falls_subset_append marks more h.1)

/-- The falls that one more mark adds end in it. -/
theorem mem_falls_concat {marks : List K} {mark d : K} (h : d ∈ falls (marks ++ [mark])) :
    d ∈ falls marks ∨ ∃ high ∈ marks ++ [mark], 0 < high ∧ d = fall high mark := by
  obtain ⟨i, j, high, low, hLe, hHigh, hLow, hPos, rfl⟩ := h
  obtain ⟨hj, -⟩ := List.getElem?_eq_some_iff.mp hLow
  rw [List.length_append, List.length_singleton] at hj
  by_cases hLast : j = marks.length
  · subst hLast
    rw [List.getElem?_concat_length] at hLow
    obtain rfl := Option.some.inj hLow
    exact .inr ⟨high, List.mem_of_getElem? hHigh, hPos, rfl⟩
  · have hBefore : j < marks.length := by omega
    rw [List.getElem?_append_left (by omega)] at hHigh
    rw [List.getElem?_append_left hBefore] at hLow
    exact .inl ⟨i, j, high, low, hLe, hHigh, hLow, hPos, rfl⟩

theorem fall_last_mem {marks : List K} {high mark : K} (hMem : high ∈ marks ++ [mark])
    (hPos : 0 < high) : fall high mark ∈ falls (marks ++ [mark]) := by
  obtain ⟨i, hi⟩ := List.getElem?_of_mem hMem
  obtain ⟨hLt, -⟩ := List.getElem?_eq_some_iff.mp hi
  rw [List.length_append, List.length_singleton] at hLt
  exact ⟨i, marks.length, high, mark, by omega, hi, List.getElem?_concat_length, hPos, rfl⟩

/-! ## The pass -/

/-- The peak is the highest of the marks. -/
theorem peak_isGreatest (first : K) (marks : List K) :
    IsGreatest {m | m ∈ first :: marks} (watched first marks).peak := by
  induction marks using List.reverseRecOn with
  | nil => exact ⟨List.mem_cons_self, fun m hm => (List.mem_singleton.mp hm).le⟩
  | append_singleton marks mark ih =>
    obtain ⟨hMem, hUpper⟩ := ih
    rw [watched_concat, ← List.cons_append]
    refine ⟨?_, fun m hm => ?_⟩
    · show max (watched first marks).peak mark ∈ (first :: marks) ++ [mark]
      rcases max_choice (watched first marks).peak mark with hMax | hMax
      · rw [hMax]
        exact List.mem_append_left _ hMem
      · rw [hMax]
        exact List.mem_append_right _ (List.mem_singleton_self _)
    · show m ≤ max (watched first marks).peak mark
      rcases List.mem_append.mp hm with hm | hm
      · exact (hUpper hm).trans (le_max_left _ _)
      · rw [List.mem_singleton.mp hm]
        exact le_max_right _ _

variable [IsStrictOrderedRing K]

/-- From a higher mark the fall to the same mark is greater. -/
theorem fall_le_fall {high high' low : K} (hHigh : 0 < high) (hLe : high ≤ high')
    (hLow : 0 ≤ low) : fall high low ≤ fall high' low := by
  have hHigh' : 0 < high' := hHigh.trans_le hLe
  have hShare : low / high' ≤ low / high := div_le_div_of_nonneg_left hLow hHigh hLe
  rw [fall_eq hHigh.ne', fall_eq hHigh'.ne']
  exact mul_le_mul_of_nonneg_right (sub_le_sub_left hShare 1) (by norm_num)

theorem fall_le_hundred {high low : K} (hHigh : 0 < high) (hLow : 0 ≤ low) :
    fall high low ≤ 100 := by
  have hShare : 0 ≤ low / high := div_nonneg hLow hHigh.le
  rw [fall_eq hHigh.ne']
  linarith

/-- **One pass.** On marks that are not negative, after a positive one, the running drawdown
is the greatest fall. -/
theorem watched_isGreatest {first : K} {marks : List K} (hFirst : 0 < first)
    (hMarks : ∀ m ∈ marks, 0 ≤ m) :
    IsGreatest (falls (first :: marks)) (watched first marks).drawdown := by
  induction marks using List.reverseRecOn with
  | nil =>
    refine ⟨zero_mem_falls hFirst [], fun d hd => ?_⟩
    obtain ⟨i, j, high, low, hLe, hHigh, hLow, -, rfl⟩ := hd
    have hHigh' := List.mem_singleton.mp (List.mem_of_getElem? hHigh)
    have hLow' := List.mem_singleton.mp (List.mem_of_getElem? hLow)
    rw [hHigh', hLow', fall_self]
    exact le_rfl
  | append_singleton marks mark ih =>
    have hMark : 0 ≤ mark := hMarks mark (List.mem_append_right _ (List.mem_singleton_self _))
    obtain ⟨hMem, hUpper⟩ := ih fun m hm => hMarks m (List.mem_append_left _ hm)
    obtain ⟨hPeakMem, hPeakUpper⟩ := peak_isGreatest first (marks ++ [mark])
    have hPeak : 0 < (watched first (marks ++ [mark])).peak :=
      hFirst.trans_le (hPeakUpper List.mem_cons_self)
    have hDrawdown : (watched first (marks ++ [mark])).drawdown =
        max (watched first marks).drawdown
          (fall (watched first (marks ++ [mark])).peak mark) := by
      rw [watched_concat] at hPeak ⊢
      exact if_pos hPeak
    rw [← List.cons_append] at hPeakMem hPeakUpper ⊢
    rw [hDrawdown]
    refine ⟨?_, fun d hd => ?_⟩
    · rcases max_choice (watched first marks).drawdown
        (fall (watched first (marks ++ [mark])).peak mark) with hMax | hMax
      · rw [hMax]
        exact falls_subset_append _ _ hMem
      · rw [hMax]
        exact fall_last_mem hPeakMem hPeak
    · rcases mem_falls_concat hd with hd | ⟨high, hHigh, hPos, rfl⟩
      · exact (hUpper hd).trans (le_max_left _ _)
      · exact (fall_le_fall hPos (hPeakUpper hHigh) hMark).trans (le_max_right _ _)

/-- A greatest fall lies between nothing and everything. -/
theorem greatest_fall_mem_range {first : K} {marks : List K} {worst : K} (hFirst : 0 < first)
    (hMarks : ∀ m ∈ marks, 0 ≤ m) (h : IsGreatest (falls (first :: marks)) worst) :
    0 ≤ worst ∧ worst ≤ 100 := by
  refine ⟨h.2 (zero_mem_falls hFirst marks), ?_⟩
  obtain ⟨i, j, high, low, -, -, hLow, hPos, rfl⟩ := h.1
  apply fall_le_hundred hPos
  rcases List.mem_cons.mp (List.mem_of_getElem? hLow) with rfl | hLow
  · exact hFirst.le
  · exact hMarks low hLow

end Accounting
