import Mathlib.Algebra.Order.Field.Basic
import Mathlib.Tactic.Linarith
import Mathlib.Tactic.Positivity
import Mathlib.Tactic.Ring

/-!
# Exponentially weighted averages

`smoothed w` is the series of the exponentially weighted averages of a series: the first
average is the first entry, and each later entry moves the average towards itself by the
weight `w`. Averages keep a lower bound of the entries (`le_smoothed`). An average of entries
that are not negative is positive as soon as one entry was (`smoothed_pos_iff`), except at
the weight one, which forgets everything before the last entry (`smoothed_one`).
-/

namespace Averages

section Ring

variable {K : Type*} [Ring K]

/-- The average after one more entry. -/
def move (w average x : K) : K := (1 - w) * average + w * x

def smoothed (w : K) : List K → List K
  | [] => []
  | x :: xs => xs.scanl (move w) x

@[simp] theorem length_smoothed (w : K) (xs : List K) : (smoothed w xs).length = xs.length := by
  cases xs with
  | nil => rfl
  | cons x xs => simp [smoothed]

theorem smoothed_zero (w : K) (xs : List K) : (smoothed w xs)[0]? = xs[0]? := by
  cases xs with
  | nil => rfl
  | cons x xs => simp [smoothed]

/-- The recursion of the averages. -/
theorem smoothed_succ {w : K} {xs : List K} {n : ℕ} {average : K} :
    (smoothed w xs)[n + 1]? = some average ↔
      ∃ before x, (smoothed w xs)[n]? = some before ∧ xs[n + 1]? = some x ∧
        move w before x = average := by
  cases xs with
  | nil => simp [smoothed]
  | cons x xs =>
    rw [smoothed, List.getElem?_succ_scanl, List.getElem?_cons_succ]
    simp only [Option.bind_eq_some_iff, Option.map_eq_some_iff]
    constructor
    · rintro ⟨before, hBefore, y, hEntry, hMove⟩
      exact ⟨before, y, hBefore, hEntry, hMove⟩
    · rintro ⟨before, y, hBefore, hEntry, hMove⟩
      exact ⟨before, hBefore, y, hEntry, hMove⟩

/-- At the weight one an average is its entry. -/
theorem smoothed_one (xs : List K) : smoothed 1 xs = xs := by
  apply List.ext_getElem?
  intro n
  cases n with
  | zero => exact smoothed_zero 1 xs
  | succ n =>
    apply Option.ext
    intro average
    rw [smoothed_succ]
    constructor
    · rintro ⟨before, x, -, hEntry, rfl⟩
      rw [hEntry, move, sub_self, zero_mul, zero_add, one_mul]
    · intro hEntry
      obtain ⟨hn, -⟩ := List.getElem?_eq_some_iff.mp hEntry
      have hBefore : n < (smoothed 1 xs).length := by rw [length_smoothed]; omega
      refine ⟨_, average, List.getElem?_eq_getElem hBefore, hEntry, ?_⟩
      rw [move, sub_self, zero_mul, zero_add, one_mul]

end Ring

/-- Averages of multiples. -/
theorem smoothed_map_mul {K : Type*} [CommRing K] (c w : K) (xs : List K) :
    smoothed w (xs.map (c * ·)) = (smoothed w xs).map (c * ·) := by
  cases xs with
  | nil => rfl
  | cons x xs =>
    rw [List.map_cons, smoothed, smoothed]
    induction xs generalizing x with
    | nil => rfl
    | cons y xs ih =>
      have hMove : move w (c * x) (c * y) = c * move w x y := by
        unfold move
        ring
      rw [List.map_cons, List.scanl_cons, List.scanl_cons, List.map_cons, hMove, ih]

variable {K : Type*} [Field K] [LinearOrder K] [IsStrictOrderedRing K]

/-! ## One entry -/

theorem le_move {w b before x : K} (hw : 0 ≤ w) (hw1 : w ≤ 1) (hBefore : b ≤ before)
    (hx : b ≤ x) : b ≤ move w before x := by
  have hRest : 0 ≤ 1 - w := sub_nonneg.mpr hw1
  calc b = (1 - w) * b + w * b := by ring
    _ ≤ (1 - w) * before + w * x :=
      add_le_add (mul_le_mul_of_nonneg_left hBefore hRest) (mul_le_mul_of_nonneg_left hx hw)

theorem move_pos_iff {w before x : K} (hw : 0 < w) (hw1 : w < 1) (hBefore : 0 ≤ before)
    (hx : 0 ≤ x) : 0 < move w before x ↔ 0 < before ∨ 0 < x := by
  have hRest : 0 < 1 - w := sub_pos.mpr hw1
  unfold move
  constructor
  · intro hPos
    by_contra! hNone
    rw [le_antisymm hNone.1 hBefore, le_antisymm hNone.2 hx, mul_zero, mul_zero, add_zero] at hPos
    exact lt_irrefl 0 hPos
  · rintro (hPos | hPos) <;> positivity

/-! ## A series -/

theorem le_smoothed {w b : K} (hw : 0 ≤ w) (hw1 : w ≤ 1) {xs : List K}
    (hEntries : ∀ x ∈ xs, b ≤ x) {n : ℕ} {average : K}
    (h : (smoothed w xs)[n]? = some average) : b ≤ average := by
  induction n generalizing average with
  | zero =>
    rw [smoothed_zero] at h
    exact hEntries average (List.mem_of_getElem? h)
  | succ n ih =>
    obtain ⟨before, x, hBefore, hEntry, rfl⟩ := smoothed_succ.mp h
    exact le_move hw hw1 (ih hBefore) (hEntries x (List.mem_of_getElem? hEntry))

theorem smoothed_le {w b : K} (hw : 0 ≤ w) (hw1 : w ≤ 1) {xs : List K}
    (hEntries : ∀ x ∈ xs, x ≤ b) {n : ℕ} {average : K}
    (h : (smoothed w xs)[n]? = some average) : average ≤ b := by
  have hNegated : (smoothed w (xs.map (-1 * ·)))[n]? = some (-1 * average) := by
    rw [smoothed_map_mul, List.getElem?_map, h]
    rfl
  have hBound := le_smoothed (b := -1 * b) hw hw1 (fun x hx => ?_) hNegated
  · linarith
  · obtain ⟨y, hy, rfl⟩ := List.mem_map.mp hx
    have hEntry := hEntries y hy
    linarith

theorem smoothed_nonneg {w : K} (hw : 0 ≤ w) (hw1 : w ≤ 1) {xs : List K}
    (hEntries : ∀ x ∈ xs, 0 ≤ x) : ∀ average ∈ smoothed w xs, 0 ≤ average := by
  intro average hAverage
  obtain ⟨n, hAt⟩ := List.mem_iff_getElem?.mp hAverage
  exact le_smoothed hw hw1 hEntries hAt

/-- With a weight below one a positive entry is never forgotten. -/
theorem smoothed_pos_iff {w : K} (hw : 0 < w) (hw1 : w < 1) {xs : List K}
    (hEntries : ∀ x ∈ xs, 0 ≤ x) {n : ℕ} {average : K}
    (h : (smoothed w xs)[n]? = some average) :
    0 < average ↔ ∃ m ≤ n, ∃ x ∈ xs[m]?, 0 < x := by
  induction n generalizing average with
  | zero =>
    rw [smoothed_zero] at h
    constructor
    · intro hPos
      exact ⟨0, le_rfl, average, h, hPos⟩
    · rintro ⟨m, hm, x, hEntry, hPos⟩
      obtain rfl : m = 0 := Nat.le_zero.mp hm
      rw [h] at hEntry
      rwa [Option.mem_some_iff.mp hEntry]
  | succ n ih =>
    obtain ⟨before, x, hBefore, hEntry, rfl⟩ := smoothed_succ.mp h
    have hOld : 0 ≤ before := le_smoothed hw.le hw1.le hEntries hBefore
    have hNew : 0 ≤ x := hEntries x (List.mem_of_getElem? hEntry)
    rw [move_pos_iff hw hw1 hOld hNew, ih hBefore]
    constructor
    · rintro (⟨m, hm, y, hAt, hPos⟩ | hPos)
      · exact ⟨m, hm.trans n.le_succ, y, hAt, hPos⟩
      · exact ⟨n + 1, le_rfl, x, hEntry, hPos⟩
    · rintro ⟨m, hm, y, hAt, hPos⟩
      rcases hm.lt_or_eq with hLt | rfl
      · exact Or.inl ⟨m, Nat.lt_succ_iff.mp hLt, y, hAt, hPos⟩
      · rw [hEntry] at hAt
        rw [← Option.mem_some_iff.mp hAt] at hPos
        exact Or.inr hPos

end Averages
