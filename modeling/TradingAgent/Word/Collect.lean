import Mathlib.Data.List.Forall2

/-!
# Collecting what is mapped

A mapping that may raise is applied to the entries of a list, one after another, and what it makes
of an entry may be nothing. What is collected are the values of the entries that are kept
(`mapM_collect`), one for each of them and in their order (`mapM_eq_ok_iff`).
-/

namespace Collecting

variable {A B C E : Type} {f : A → Except E B} {xs : List A} {ys : List B}

theorem mapM_cons_ok {a : A} {b : B} (ha : f a = .ok b) (h : xs.mapM f = .ok ys) :
    (a :: xs).mapM f = .ok (b :: ys) := by
  rw [List.mapM_cons, ha, h]
  rfl

/-- A mapping that does not raise goes entry by entry. -/
theorem mapM_eq_ok_iff :
    xs.mapM f = .ok ys ↔ List.Forall₂ (fun x y => f x = .ok y) xs ys := by
  constructor
  · intro h
    induction xs generalizing ys with
    | nil =>
      cases h
      exact .nil
    | cons a xs ih =>
      rw [List.mapM_cons] at h
      cases hFirst : f a with
      | error e =>
        rw [hFirst] at h
        cases h
      | ok b =>
        cases hRest : xs.mapM f with
        | error e =>
          rw [hFirst, hRest] at h
          cases h
        | ok rest =>
          rw [hFirst, hRest] at h
          cases h
          exact .cons hFirst (ih hRest)
  · intro h
    induction h with
    | nil => rfl
    | cons hFirst _ ih => exact mapM_cons_ok hFirst ih

theorem length_mapM (h : xs.mapM f = .ok ys) : ys.length = xs.length :=
  (mapM_eq_ok_iff.mp h).length_eq.symm

theorem mapM_ok_of_forall (h : ∀ x ∈ xs, ∃ y, f x = .ok y) : ∃ ys, xs.mapM f = .ok ys := by
  induction xs with
  | nil => exact ⟨[], rfl⟩
  | cons a xs ih =>
    obtain ⟨b, hFirst⟩ := h a List.mem_cons_self
    obtain ⟨rest, hRest⟩ := ih fun x hx => h x (List.mem_cons_of_mem a hx)
    exact ⟨b :: rest, mapM_cons_ok hFirst hRest⟩

/-- A mapping that raises does so at the first entry for which it does. -/
theorem mapM_eq_error_iff {e : E} : xs.mapM f = .error e ↔ ∃ before x after,
    xs = before ++ x :: after ∧ (∀ y ∈ before, ∃ b, f y = .ok b) ∧ f x = .error e := by
  induction xs with
  | nil =>
    refine iff_of_false (fun h => by cases h) ?_
    rintro ⟨before, x, after, hNil, -⟩
    exact absurd hNil.symm (List.append_ne_nil_of_right_ne_nil _ (List.cons_ne_nil _ _))
  | cons a xs ih =>
    rw [List.mapM_cons]
    cases hFirst : f a with
    | error e' =>
      constructor
      · rintro ⟨⟩
        exact ⟨[], a, xs, rfl, fun y hy => absurd hy List.not_mem_nil, hFirst⟩
      · rintro ⟨before, x, after, hSplit, hOk, hError⟩
        rcases List.cons_eq_append_iff.mp hSplit with ⟨rfl, hCons⟩ | ⟨rest, rfl, -⟩
        · obtain ⟨rfl, -⟩ := List.cons.inj hCons
          cases hFirst.symm.trans hError
          rfl
        · obtain ⟨b, hb⟩ := hOk a List.mem_cons_self
          rw [hFirst] at hb
          cases hb
    | ok b =>
      have hRest : (do let ys ← xs.mapM f; pure (b :: ys)) = Except.error e ↔
          xs.mapM f = .error e := by
        cases xs.mapM f with
        | error e' => exact Iff.rfl
        | ok ys => exact iff_of_false (fun h => by cases h) fun h => by cases h
      refine hRest.trans (ih.trans ⟨?_, ?_⟩)
      · rintro ⟨before, x, after, rfl, hOk, hError⟩
        exact ⟨a :: before, x, after, rfl, List.forall_mem_cons.mpr ⟨⟨b, hFirst⟩, hOk⟩, hError⟩
      · rintro ⟨before, x, after, hSplit, hOk, hError⟩
        rcases List.cons_eq_append_iff.mp hSplit with ⟨rfl, hCons⟩ | ⟨rest, rfl, hTail⟩
        · obtain ⟨rfl, -⟩ := List.cons.inj hCons
          rw [hFirst] at hError
          cases hError
        · exact ⟨rest, x, after, hTail, fun y hy => hOk y (List.mem_cons_of_mem _ hy), hError⟩

theorem exists_mem_of_forall₂ {R : A → B → Prop} (h : List.Forall₂ R xs ys) {a : A}
    (ha : a ∈ xs) : ∃ b ∈ ys, R a b := by
  induction h with
  | nil => cases ha
  | cons hFirst _ ih =>
    rcases List.mem_cons.mp ha with rfl | hRest
    · exact ⟨_, List.mem_cons_self, hFirst⟩
    · obtain ⟨b, hb, hR⟩ := ih hRest
      exact ⟨b, List.mem_cons_of_mem _ hb, hR⟩

/-- **Collecting.** The entries that are not kept make no difference. -/
theorem mapM_collect {keep : A → Option C} {g : C → Except E B} {f : A → Except E (Option B)}
    (hSkip : ∀ a, keep a = none → f a = .ok none)
    (hKeep : ∀ a c, keep a = some c → f a = some <$> g c) (xs : List A) :
    List.filterMap id <$> xs.mapM f = (xs.filterMap keep).mapM g := by
  induction xs with
  | nil => rfl
  | cons a xs ih =>
    rw [List.mapM_cons]
    cases hKept : keep a with
    | none =>
      rw [List.filterMap_cons_none hKept, ← ih, hSkip a hKept]
      cases xs.mapM f <;> rfl
    | some c =>
      rw [List.filterMap_cons_some hKept, List.mapM_cons, ← ih, hKeep a c hKept]
      cases g c with
      | error e => rfl
      | ok b => cases xs.mapM f <;> rfl

/-- As many values as entries that are kept. -/
theorem length_collect {f : A → Except E (Option B)} {p : A → Bool} {ys : List (Option B)}
    (hKept : ∀ a b, f a = .ok b → b.isSome = p a) (h : xs.mapM f = .ok ys) :
    (ys.filterMap id).length = xs.countP p := by
  have hAll := mapM_eq_ok_iff.mp h
  clear h
  induction hAll with
  | nil => rfl
  | @cons a b xs ys hFirst _ ih =>
    have hp := hKept a b hFirst
    cases b with
    | none => rw [List.filterMap_cons_none rfl, List.countP_cons_of_neg (by simp [← hp]), ih]
    | some b =>
      rw [List.countP_cons_of_pos hp.symm, ← ih]
      rfl

/-! ## Entries that are read at their places -/

theorem filterMap_range {n : ℕ} (h : xs.length ≤ n) :
    (List.range n).filterMap (xs[·]?) = xs := by
  induction xs generalizing n with
  | nil => exact List.filterMap_eq_nil_iff.mpr fun _ _ => rfl
  | cons a xs ih =>
    cases n with
    | zero => cases h
    | succ n =>
      have hRest : (List.range n).filterMap ((fun i => (a :: xs)[i]?) ∘ Nat.succ) = xs :=
        ih (Nat.le_of_succ_le_succ h)
      rw [List.range_succ_eq_map, List.filterMap_cons, List.filterMap_map, hRest]
      rfl

/-- Filtering the places takes no value away. -/
theorem length_filterMap_filter_iff {p : A → Bool} {f : A → Option B} :
    ((xs.filter p).filterMap f).length = (xs.filterMap f).length ↔
      ∀ a ∈ xs, ∀ b, f a = some b → p a = true := by
  induction xs with
  | nil => exact iff_of_true rfl fun _ hNot => absurd hNot List.not_mem_nil
  | cons a xs ih =>
    rw [List.forall_mem_cons, ← ih]
    by_cases hp : p a = true
    · rw [List.filter_cons_of_pos hp]
      cases hf : f a with
      | none => simp [List.filterMap_cons_none hf, hp]
      | some b => simp [List.filterMap_cons_some hf, hp]
    · rw [List.filter_cons_of_neg hp]
      cases hf : f a with
      | none => simp [List.filterMap_cons_none hf]
      | some b =>
        have hLe : ((xs.filter p).filterMap f).length ≤ (xs.filterMap f).length :=
          (List.filter_sublist.filterMap f).length_le
        rw [List.filterMap_cons_some hf, List.length_cons]
        refine iff_of_false (by omega) ?_
        rintro ⟨hHead, -⟩
        exact hp (hHead b rfl)

theorem filterMap_filter_eq {p : A → Bool} {f : A → Option B}
    (h : ∀ a ∈ xs, ∀ b, f a = some b → p a = true) :
    (xs.filter p).filterMap f = xs.filterMap f :=
  (List.filter_sublist.filterMap f).eq_of_length (length_filterMap_filter_iff.mpr h)

/-! ## What is collected of a prefix -/

section

variable {g : A → List B} {n : ℕ}

theorem length_flatMap (hOne : ∀ a, (g a).length ≤ 1) (xs : List A) :
    (xs.flatMap g).length = xs.countP fun a => !(g a).isEmpty := by
  induction xs with
  | nil => rfl
  | cons a xs ih =>
    rw [List.flatMap_cons, List.length_append, ih]
    have hLength := hOne a
    cases hValue : g a with
    | nil =>
      rw [List.countP_cons_of_neg (by simp [hValue])]
      exact Nat.zero_add _
    | cons b rest =>
      have hRest : rest = [] := by
        rw [hValue, List.length_cons] at hLength
        exact List.length_eq_zero_iff.mp (by omega)
      rw [List.countP_cons_of_pos (by simp [hValue]), hRest, Nat.add_comm]
      rfl

/-- The first entries give the first values if each of them has a value, or if no later entry has
one. -/
theorem flatMap_take_eq_iff (hOne : ∀ a, (g a).length ≤ 1) :
    (xs.take n).flatMap g = (xs.flatMap g).take n ↔
      (∀ a ∈ xs.take n, g a ≠ []) ∨ ∀ a ∈ xs.drop n, g a = [] := by
  have hSplit : xs.flatMap g = (xs.take n).flatMap g ++ (xs.drop n).flatMap g := by
    rw [← List.flatMap_append, List.take_append_drop]
  have hLength := length_flatMap hOne (xs.take n)
  have hFew : (xs.take n).length = min n xs.length := List.length_take
  have hMost : ((xs.take n).countP fun a => !(g a).isEmpty) ≤ (xs.take n).length :=
    List.countP_le_length
  have hTake : (xs.flatMap g).take n =
      (xs.take n).flatMap g ++
        ((xs.drop n).flatMap g).take (n - ((xs.take n).flatMap g).length) := by
    rw [hSplit, List.take_append, List.take_of_length_le (by omega)]
  rw [hTake, List.self_eq_append_right, List.take_eq_nil_iff, List.flatMap_eq_nil_iff]
  refine or_congr_left' fun hLater => ?_
  have hMore : n < xs.length := by
    by_contra hAll
    rw [List.drop_eq_nil_of_le (Nat.le_of_not_lt hAll)] at hLater
    exact hLater fun _ hMem => absurd hMem List.not_mem_nil
  have hValues : ((xs.take n).countP fun a => !(g a).isEmpty) = (xs.take n).length ↔
      ∀ a ∈ xs.take n, g a ≠ [] := by
    rw [List.countP_eq_length]
    simp
  rw [← hValues]
  omega

end

end Collecting
