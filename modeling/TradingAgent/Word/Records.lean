import Mathlib.Order.Bounds.Basic
import Mathlib.Order.Interval.Set.Basic

/-!
# Records of a sequence

An entry of a sequence improves if it exceeds all entries before it; the first one does. A reader
that keeps the best entry so far and the number of entries since the last improvement (`Tracked`)
compares each entry with the best only. The width of a plateau is reached exactly when that number
reaches it (`plateau_iff`).
-/

namespace Records

variable {M : Type*} [LinearOrder M] (m : ℕ → M)

/-- The entry exceeds the entries before it, of which the first is `m 1`. -/
def Improves (i : ℕ) : Prop := ∀ j, 1 ≤ j → j < i → m j < m i

/-- None of the last `width` entries up to `n` improves. -/
def Plateau (width : ℤ) (n : ℕ) : Prop := ∀ i : ℕ, (n : ℤ) - width < i → i ≤ n → ¬Improves m i

/-- `best` is the greatest of the first `n` entries, and the last `stale` of them have not
improved. -/
structure Tracked (n : ℕ) (best : M) (stale : ℕ) : Prop where
  greatest : IsGreatest (m '' Set.Icc 1 n) best
  behind : stale < n
  last : Improves m (n - stale)
  since : ∀ i, n - stale < i → i ≤ n → ¬Improves m i

variable {m} {n stale : ℕ} {best : M}

theorem improves_iff (h : IsGreatest (m '' Set.Icc 1 n) best) :
    Improves m (n + 1) ↔ best < m (n + 1) := by
  constructor
  · intro hImproves
    obtain ⟨j, ⟨hFrom, hTo⟩, rfl⟩ := h.1
    exact hImproves j hFrom (by omega)
  · intro hLt j hFrom hTo
    exact (h.2 (Set.mem_image_of_mem m ⟨hFrom, by omega⟩)).trans_lt hLt

/-- The search for the least index goes on to the next one. -/
theorem isLeast_from_succ {P : ℕ → Prop} {k : ℕ} (h : ¬P n) :
    IsLeast {k | n ≤ k ∧ P k} k ↔ IsLeast {k | n + 1 ≤ k ∧ P k} k := by
  have hSame : {k | n ≤ k ∧ P k} = {k | n + 1 ≤ k ∧ P k} := by
    ext i
    refine ⟨fun ⟨hLe, hHolds⟩ => ⟨?_, hHolds⟩, fun ⟨hLe, hHolds⟩ => ⟨by omega, hHolds⟩⟩
    exact lt_of_le_of_ne hLe fun hEq => h (hEq ▸ hHolds)
  rw [hSame]

/-- Sets have the same least element if the smaller one has an element below each of the larger. -/
theorem isLeast_iff_of_subset {S T : Set ℕ} (hSubset : S ⊆ T) (hBelow : ∀ t ∈ T, ∃ s ∈ S, s ≤ t)
    {k : ℕ} : IsLeast S k ↔ IsLeast T k := by
  constructor
  · rintro ⟨hMem, hLower⟩
    refine ⟨hSubset hMem, fun t ht => ?_⟩
    obtain ⟨s, hs, hLe⟩ := hBelow t ht
    exact (hLower hs).trans hLe
  · rintro ⟨hMem, hLower⟩
    obtain ⟨s, hs, hLe⟩ := hBelow k hMem
    obtain rfl : s = k := le_antisymm hLe (hLower (hSubset hs))
    exact ⟨hs, fun t ht => hLower (hSubset ht)⟩

namespace Tracked

theorem first : Tracked m 1 (m 1) 0 where
  greatest := by
    rw [Set.Icc_self, Set.image_singleton]
    exact isGreatest_singleton
  behind := Nat.zero_lt_one
  last j hFrom hTo := by omega
  since i hFrom hTo := by omega

/-- An entry above the best becomes the best. -/
theorem improved (h : Tracked m n best stale) (hLt : best < m (n + 1)) :
    Tracked m (n + 1) (m (n + 1)) 0 where
  greatest := by
    refine ⟨Set.mem_image_of_mem m ⟨by omega, le_rfl⟩, ?_⟩
    rintro _ ⟨j, ⟨hFrom, hTo⟩, rfl⟩
    rcases Nat.lt_or_ge n j with hLater | hEarlier
    · obtain rfl : j = n + 1 := by omega
      exact le_rfl
    · exact (h.greatest.2 (Set.mem_image_of_mem m ⟨hFrom, hEarlier⟩)).trans hLt.le
  behind := Nat.succ_pos n
  last := (improves_iff h.greatest).mpr hLt
  since i hFrom hTo := by omega

/-- Any other entry is stale. -/
theorem kept (h : Tracked m n best stale) (hLe : m (n + 1) ≤ best) :
    Tracked m (n + 1) best (stale + 1) where
  greatest := by
    obtain ⟨j, ⟨hFrom, hTo⟩, hBest⟩ := h.greatest.1
    refine ⟨⟨j, ⟨hFrom, by omega⟩, hBest⟩, ?_⟩
    rintro _ ⟨j, ⟨hFrom, hTo⟩, rfl⟩
    rcases Nat.lt_or_ge n j with hLater | hEarlier
    · obtain rfl : j = n + 1 := by omega
      exact hLe
    · exact h.greatest.2 (Set.mem_image_of_mem m ⟨hFrom, hEarlier⟩)
  behind := Nat.succ_lt_succ h.behind
  last := by
    rw [Nat.add_sub_add_right]
    exact h.last
  since i hFrom hTo := by
    rw [Nat.add_sub_add_right] at hFrom
    rcases Nat.lt_or_ge n i with hLater | hEarlier
    · obtain rfl : i = n + 1 := by omega
      exact fun hImproves => ((improves_iff h.greatest).mp hImproves).not_ge hLe
    · exact h.since i hFrom hEarlier

theorem plateau_iff (h : Tracked m n best stale) {width : ℤ} :
    Plateau m width n ↔ width ≤ stale := by
  have hBehind := h.behind
  constructor
  · intro hPlateau
    by_contra hWider
    exact hPlateau (n - stale) (by omega) (Nat.sub_le n stale) h.last
  · intro hReached i hFrom hTo
    exact h.since i (by omega) hTo

end Tracked

end Records
