import Mathlib.Order.Monotone.Basic
import Mathlib.Order.Lattice.Nat
import Mathlib.Data.Nat.Find

/-!
# Closed windows in a row

Windows whose starts and whose ends ascend. A point between the first start and the last end
lies in exactly one window exactly when, at every inner boundary, it is not after the end of
one window just when it is before the start of the next (`unique_window_iff`).
-/

namespace Windows

variable {A : Type*} [LinearOrder A]

/-- The point lies in exactly one of the first `n` windows. -/
def InOne (starts ends : ℕ → A) (n : ℕ) (x : A) : Prop :=
  ∃ k < n, (starts k ≤ x ∧ x ≤ ends k) ∧
    ∀ j < n, starts j ≤ x ∧ x ≤ ends j → j = k

variable {starts ends : ℕ → A} {n : ℕ} {x : A}

/-- The last window that starts at or before a point. -/
theorem exists_last_start (hCount : 0 < n) (hFirst : starts 0 ≤ x) :
    ∃ k < n, starts k ≤ x ∧ ∀ j < n, starts j ≤ x → j ≤ k := by
  classical
  refine ⟨Nat.findGreatest (fun k => starts k ≤ x) (n - 1), ?_, ?_, fun j hj hStart => ?_⟩
  · have hLe := Nat.findGreatest_le (P := fun k => starts k ≤ x) (n - 1)
    omega
  · exact Nat.findGreatest_spec (P := fun k => starts k ≤ x) (Nat.zero_le (n - 1)) hFirst
  · exact Nat.le_findGreatest (by omega) hStart

theorem unique_window_iff (hStarts : Monotone starts) (hEnds : Monotone ends) (hCount : 0 < n)
    (hFirst : starts 0 ≤ x) (hLast : x ≤ ends (n - 1)) :
    InOne starts ends n x ↔ ∀ k, k + 1 < n → (x ≤ ends k ↔ x < starts (k + 1)) := by
  constructor
  · rintro ⟨k, hk, ⟨hStart, hEnd⟩, hOnly⟩ j hj
    constructor
    · -- A point in two neighbours is in two windows.
      intro hBefore
      by_contra hNot
      have hNext : starts (j + 1) ≤ x := not_lt.mp hNot
      have hThis := hOnly j (by omega) ⟨(hStarts (Nat.le_succ j)).trans hNext, hBefore⟩
      have hThat := hOnly (j + 1) hj ⟨hNext, hBefore.trans (hEnds (Nat.le_succ j))⟩
      omega
    · -- A point between two neighbours is in no window.
      intro hBefore
      rcases Nat.lt_or_ge j k with hLt | hGe
      · exact absurd ((hStarts hLt).trans hStart) (not_le.mpr hBefore)
      · exact hEnd.trans (hEnds hGe)
  · intro hInner
    obtain ⟨k, hk, hStart, hGreatest⟩ := exists_last_start hCount hFirst
    have hEnd : x ≤ ends k := by
      by_cases hMore : k + 1 < n
      · refine (hInner k hMore).mpr (lt_of_not_ge fun hNext => ?_)
        have hLe := hGreatest (k + 1) hMore hNext
        omega
      · have hK : k = n - 1 := by omega
        rwa [hK]
    refine ⟨k, hk, ⟨hStart, hEnd⟩, fun j hj hIn => ?_⟩
    by_contra hNe
    have hLt : j < k := lt_of_le_of_ne (hGreatest j hj hIn.1) hNe
    have hBefore := (hInner j (by omega)).mp hIn.2
    exact absurd ((hStarts hLt).trans hStart) (not_le.mpr hBefore)

end Windows
