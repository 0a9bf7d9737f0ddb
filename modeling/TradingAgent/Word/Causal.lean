import Mathlib.Data.List.Basic

/-!
# Causal functions of a series

A function from series to series is causal if no entry that comes out depends on an entry
after it: what comes out of a prefix is a prefix of what comes out. Functions that are applied
entry by entry are causal, recursions over the entries before (`causal_scanl`), functions of a
trailing window (`causal_trailing`), and what is composed of causal functions.
-/

namespace Causality

variable {A B C D : Type*}

def Causal (f : List A → List B) : Prop := ∀ xs k, f (xs.take k) = (f xs).take k

theorem causal_id : Causal fun xs : List A => xs := fun _ _ => rfl

theorem Causal.comp {g : List B → List C} {f : List A → List B} (hg : Causal g)
    (hf : Causal f) : Causal fun xs => g (f xs) := by
  intro xs k
  dsimp only
  rw [hf xs k, hg (f xs) k]

theorem Causal.map {f : List A → List B} (hf : Causal f) (g : B → C) :
    Causal fun xs => (f xs).map g := by
  intro xs k
  dsimp only
  rw [hf xs k, List.map_take]

theorem Causal.zipWith {f : List A → List B} {g : List A → List C} (hf : Causal f)
    (hg : Causal g) (h : B → C → D) : Causal fun xs => List.zipWith h (f xs) (g xs) := by
  intro xs k
  dsimp only
  rw [hf xs k, hg xs k, List.take_zipWith]

/-- The entries move on by one place, behind a first entry of their own. -/
theorem Causal.delay {f : List A → List B} (b : B)
    (hf : ∀ xs k, f (xs.take (k + 1)) = (f xs).take k) :
    Causal fun xs => if xs = [] then [] else b :: f xs := by
  intro xs k
  cases k with
  | zero => simp
  | succ k =>
    by_cases hEmpty : xs = []
    · simp [hEmpty]
    · simp [hEmpty, hf xs k]

/-- A recursion that starts with the first entry. -/
theorem causal_scanl (step : A → A → A) :
    Causal fun xs : List A => match xs with
      | [] => []
      | x :: xs => xs.scanl step x := by
  intro xs k
  cases xs with
  | nil => simp
  | cons x xs =>
    cases k with
    | zero => rfl
    | succ k =>
      rw [List.take_succ_cons]
      exact (List.take_scanl x xs k).symm

/-! ## Functions of the entries so far -/

/-- The prefixes that end with the entries. -/
def prefixes (xs : List A) : List (List A) := (List.range xs.length).map fun i => xs.take (i + 1)

@[simp] theorem length_prefixes (xs : List A) : (prefixes xs).length = xs.length := by
  simp [prefixes]

theorem causal_prefixes : Causal (prefixes (A := A)) := by
  intro xs k
  rw [prefixes, prefixes, ← List.map_take, List.take_range, List.length_take]
  refine List.map_congr_left fun i hi => ?_
  have hBelow : i < min k xs.length := List.mem_range.mp hi
  rw [List.take_take, Nat.min_eq_left (by omega)]

/-- The last `window` entries so far under `f`, and the gap where there are fewer. -/
def trailing (window : ℕ) (f : List A → B) (gap : B) (xs : List A) : List B :=
  (prefixes xs).map fun p => if p.length < window then gap else f (p.drop (p.length - window))

@[simp] theorem length_trailing (window : ℕ) (f : List A → B) (gap : B) (xs : List A) :
    (trailing window f gap xs).length = xs.length := by
  simp [trailing]

/-- The window of changed entries. -/
theorem trailing_map (window : ℕ) (f : List B → C) (gap : C) (g : A → B) (xs : List A) :
    trailing window f gap (xs.map g) = trailing window (fun part => f (part.map g)) gap xs := by
  simp only [trailing, prefixes, List.map_map, List.length_map]
  refine List.map_congr_left fun i _ => ?_
  simp only [Function.comp_apply, List.map_drop, List.map_take, List.length_take, List.length_map]

theorem map_trailing (window : ℕ) (f : List A → B) (gap : B) (g : B → C) (xs : List A) :
    (trailing window f gap xs).map g = trailing window (fun part => g (f part)) (g gap) xs := by
  rw [trailing, trailing, List.map_map]
  exact List.map_congr_left fun part _ => apply_ite g _ _ _

/-- What comes out at an index is made of the last entries up to it. -/
theorem trailing_getElem? (window : ℕ) (f : List A → B) (gap : B) {xs : List A} {i : ℕ}
    (h : i < xs.length) : (trailing window f gap xs)[i]? =
      some (if i + 1 < window then gap else f ((xs.take (i + 1)).drop (i + 1 - window))) := by
  have hPrefix : (xs.take (i + 1)).length = i + 1 := by
    rw [List.length_take]
    omega
  rw [trailing, prefixes, List.map_map, List.getElem?_map, List.getElem?_range h, Option.map_some,
    Function.comp_apply, hPrefix]

theorem causal_trailing (window : ℕ) (f : List A → B) (gap : B) : Causal (trailing window f gap) :=
  causal_prefixes.map _

end Causality
