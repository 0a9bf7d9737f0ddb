import TradingAgent.Account.Drawdown
import Mathlib.Tactic.Ring

/-!
# Drawdowns of related curves

A curve falls behind another when each of its marks is a factor of the other's mark and the
factors do not grow: its drawdown is then not less (`Behind.watch`). A curve continues another
when its marks, by a fixed factor, come after those of the other: the drawdown of the two in a
row is that of neither exceeded, and what it keeps of a high is at least what the two keep one
after the other (`Continues.watch`). Both are invariants of the one-pass watermark.
-/

namespace Accounting

variable {K : Type*} [Field K] [LinearOrder K]

/-- The second watermark is of a curve that falls behind that of the first, and is `k` times
as high. -/
structure Watermark.Behind (k : K) (w w' : Watermark K) : Prop where
  positive : 0 < w.peak
  positive' : 0 < w'.peak
  peak : k * w.peak ≤ w'.peak
  drawdown : w.drawdown ≤ w'.drawdown

/-- The third watermark is of a curve that starts as the first, and goes on as `k` times the
second, which starts at `start`. -/
structure Watermark.Continues (k start : K) (first w w' : Watermark K) : Prop where
  start_le : start ≤ w.peak
  peak : w'.peak = max first.peak (k * w.peak)
  floor : kept first.drawdown * kept w.drawdown ≤ kept w'.drawdown

variable [IsStrictOrderedRing K]

theorem kept_fall {high : K} (hHigh : high ≠ 0) (low : K) : kept (fall high low) = low / high := by
  rw [kept, fall_eq hHigh, mul_div_assoc, div_self (by norm_num), mul_one, sub_sub_cancel]

theorem kept_le_kept {d d' : K} (h : d ≤ d') : kept d' ≤ kept d :=
  sub_le_sub_left (div_le_div_of_nonneg_right h (by norm_num)) 1

theorem kept_max (d d' : K) : kept (max d d') = min (kept d) (kept d') := by
  rcases le_total d d' with h | h
  · rw [max_eq_right h, min_eq_right (kept_le_kept h)]
  · rw [max_eq_left h, min_eq_left (kept_le_kept h)]

theorem kept_mem_range {d : K} (hLow : 0 ≤ d) (hHigh : d ≤ 100) :
    0 ≤ kept d ∧ kept d ≤ 1 := by
  have hShare : d / 100 ≤ 1 := (div_le_one (by norm_num)).mpr hHigh
  have hNonneg : 0 ≤ d / 100 := div_nonneg hLow (by norm_num)
  unfold kept
  constructor <;> linarith

omit [IsStrictOrderedRing K] in
theorem Watermark.watch_drawdown {w : Watermark K} (h : 0 < w.peak) (mark : K) :
    (w.watch mark).drawdown = max w.drawdown (fall (max w.peak mark) mark) :=
  if_pos (h.trans_le (le_max_left _ _))

/-- What a drawdown keeps of the peak is not more than the last mark. -/
theorem Watermark.kept_watch_mul_le {w : Watermark K} (h : 0 < w.peak) (mark : K) :
    kept (w.watch mark).drawdown * (w.watch mark).peak ≤ mark := by
  have hPeak : 0 < max w.peak mark := h.trans_le (le_max_left _ _)
  have hKept : kept (w.watch mark).drawdown ≤ mark / max w.peak mark := by
    rw [Watermark.watch_drawdown h, kept_max, ← kept_fall hPeak.ne']
    exact min_le_right _ _
  exact (le_div_iff₀ hPeak).mp hKept

/-- From a high that has not fallen behind as far as the mark, the fall is not less. -/
theorem fall_le_fall_of_behind {high high' low k : K} (hHigh : 0 < high) (hHigh' : 0 < high')
    (hBehind : k * high ≤ high') (hLow : 0 ≤ low) : fall high low ≤ fall high' (k * low) := by
  have hShare : k * low / high' ≤ low / high := by
    rw [div_le_div_iff₀ hHigh' hHigh]
    calc k * low * high = low * (k * high) := by ring
      _ ≤ low * high' := mul_le_mul_of_nonneg_left hBehind hLow
  rw [fall_eq hHigh.ne', fall_eq hHigh'.ne']
  exact mul_le_mul_of_nonneg_right (sub_le_sub_left hShare 1) (by norm_num)

/-- **A curve that falls behind** has no less a drawdown. -/
theorem Watermark.Behind.watch {k k' mark : K} {w w' : Watermark K} (h : Behind k w w')
    (hMark : 0 ≤ mark) (hFactor : 0 ≤ k') (hLe : k' ≤ k) :
    Behind k' (w.watch mark) (w'.watch (k' * mark)) := by
  have hPeak : 0 < max w.peak mark := h.positive.trans_le (le_max_left _ _)
  have hPeak' : 0 < max w'.peak (k' * mark) := h.positive'.trans_le (le_max_left _ _)
  have hBehind : k' * max w.peak mark ≤ max w'.peak (k' * mark) := by
    rw [mul_max_of_nonneg _ _ hFactor]
    exact max_le_max ((mul_le_mul_of_nonneg_right hLe h.positive.le).trans h.peak) le_rfl
  refine ⟨hPeak, hPeak', hBehind, ?_⟩
  rw [Watermark.watch_drawdown h.positive, Watermark.watch_drawdown h.positive']
  exact max_le_max h.drawdown (fall_le_fall_of_behind hPeak hPeak' hBehind hMark)

/-- **Curves in a row.** What the drawdown of the two keeps is at least what they keep one
after the other, if the second starts where the first keeps its own. -/
theorem Watermark.Continues.watch {k start mark : K} {first w w' : Watermark K}
    (h : Continues k start first w w') (hFirst : 0 < first.peak)
    (hKept : 0 ≤ kept first.drawdown ∧ kept first.drawdown ≤ 1) (hFactor : 0 < k)
    (hStart : 0 < start) (hBase : kept first.drawdown * first.peak ≤ k * start)
    (hMark : 0 ≤ mark) : Continues k start first (w.watch mark) (w'.watch (k * mark)) := by
  have hPositive : 0 < w.peak := hStart.trans_le h.start_le
  have hPositive' : 0 < w'.peak := by
    rw [h.peak]
    exact hFirst.trans_le (le_max_left _ _)
  have hHigh : 0 < max w.peak mark := hPositive.trans_le (le_max_left _ _)
  have hPeak : max w'.peak (k * mark) = max first.peak (k * max w.peak mark) := by
    rw [h.peak, max_assoc, mul_max_of_nonneg _ _ hFactor.le]
  have hHigh' : 0 < max w'.peak (k * mark) := hPositive'.trans_le (le_max_left _ _)
  have hStartLe : start ≤ max w.peak mark := h.start_le.trans (le_max_left _ _)
  refine ⟨hStartLe, hPeak, ?_⟩
  -- The last high is kept at least as well as the two highs one after the other.
  have hLast : kept first.drawdown * (mark / max w.peak mark) ≤
      k * mark / max w'.peak (k * mark) := by
    have hKeptHigh : kept first.drawdown * max w'.peak (k * mark) ≤ k * max w.peak mark := by
      rw [hPeak, mul_max_of_nonneg _ _ hKept.1]
      refine max_le (hBase.trans (mul_le_mul_of_nonneg_left hStartLe hFactor.le)) ?_
      exact mul_le_of_le_one_left (mul_pos hFactor hHigh).le hKept.2
    rw [← mul_div_assoc, div_le_div_iff₀ hHigh hHigh']
    calc kept first.drawdown * mark * max w'.peak (k * mark)
        = mark * (kept first.drawdown * max w'.peak (k * mark)) := by ring
      _ ≤ mark * (k * max w.peak mark) := mul_le_mul_of_nonneg_left hKeptHigh hMark
      _ = k * mark * max w.peak mark := by ring
  rw [Watermark.watch_drawdown hPositive, Watermark.watch_drawdown hPositive', kept_max, kept_max,
    kept_fall hHigh.ne', kept_fall hHigh'.ne', mul_min_of_nonneg _ _ hKept.1]
  exact min_le_min h.floor hLast

end Accounting
