import Mathlib.Data.Finset.Card
import Mathlib.Data.List.Nodup

/-!
# The first entry of each key

`firsts` reads a list with the set of the keys it has seen, and keeps an entry exactly if its key
is new. What it keeps is a subsequence without repeated keys (`firsts_sublist`, `nodup_firsts`), in
which every key is found at the entry that the list itself has first (`find_firsts`). In a list
that is sorted by an order along which the key grows, the kept keys ascend (`ascending_firsts`) and
each kept entry is a least one of its key (`least_firsts`).
-/

namespace Firsts

variable {A K : Type} [DecidableEq K] {key : A → K} {seen : List K} {xs : List A}

/-- The entries whose key has not been seen. -/
def firsts (key : A → K) : List K → List A → List A
  | _, [] => []
  | seen, a :: xs =>
    if key a ∈ seen then firsts key seen xs else a :: firsts key (key a :: seen) xs

theorem firsts_sublist : (firsts key seen xs).Sublist xs := by
  fun_induction firsts key seen xs with
  | case1 => exact .slnil
  | case2 _ a _ _ ih => exact ih.cons a
  | case3 _ a _ _ ih => exact ih.cons_cons a

theorem mem_of_mem_firsts {a : A} (h : a ∈ firsts key seen xs) : a ∈ xs :=
  firsts_sublist.subset h

/-- A seen key is not kept again. -/
theorem new_of_mem_firsts {a : A} (h : a ∈ firsts key seen xs) : key a ∉ seen := by
  fun_induction firsts key seen xs with
  | case1 => cases h
  | case2 _ _ _ _ ih => exact ih h
  | case3 seen b _ hNew ih =>
    rcases List.mem_cons.mp h with rfl | hRest
    · exact hNew
    · exact fun hSeen => ih hRest (List.mem_cons_of_mem _ hSeen)

theorem nodup_firsts : ((firsts key seen xs).map key).Nodup := by
  fun_induction firsts key seen xs with
  | case1 => exact List.nodup_nil
  | case2 _ _ _ _ ih => exact ih
  | case3 seen a _ _ ih =>
    rw [List.map_cons, List.nodup_cons]
    refine ⟨fun hAgain => ?_, ih⟩
    obtain ⟨b, hb, hKey⟩ := List.mem_map.mp hAgain
    exact new_of_mem_firsts hb (List.mem_cons.mpr (.inl hKey))

/-- An unseen key is found where the list has it first. -/
theorem find_firsts {k : K} (h : k ∉ seen) :
    (firsts key seen xs).find? (fun a => key a = k) = xs.find? fun a => key a = k := by
  fun_induction firsts key seen xs with
  | case1 => rfl
  | case2 seen a xs hSeen ih =>
    have hOther : key a ≠ k := fun hKey => h (hKey ▸ hSeen)
    rw [ih h, List.find?_cons_of_neg (by simpa using hOther)]
  | case3 seen a xs _ ih =>
    by_cases hKey : key a = k
    · rw [List.find?_cons_of_pos (by simpa using hKey),
        List.find?_cons_of_pos (by simpa using hKey)]
    · rw [List.find?_cons_of_neg (by simpa using hKey),
        List.find?_cons_of_neg (by simpa using hKey)]
      exact ih fun hMem => (List.mem_cons.mp hMem).elim (fun hSame => hKey hSame.symm) h

/-- Every key of the list is kept. -/
theorem exists_mem_firsts {a : A} (h : a ∈ xs) : ∃ b ∈ firsts key [] xs, key b = key a := by
  have hFound : (xs.find? fun b => key b = key a).isSome := by
    rw [List.find?_isSome]
    exact ⟨a, h, decide_eq_true rfl⟩
  rw [← find_firsts List.not_mem_nil, List.find?_isSome] at hFound
  obtain ⟨b, hb, hKey⟩ := hFound
  exact ⟨b, hb, of_decide_eq_true hKey⟩

/-- Of a key is kept no other entry. -/
theorem eq_of_mem_firsts {a b : A} (ha : a ∈ firsts key seen xs) (hb : b ∈ firsts key seen xs)
    (h : key a = key b) : a = b :=
  List.inj_on_of_nodup_map nodup_firsts ha hb h

theorem firsts_eq_self (hNew : ∀ a ∈ xs, key a ∉ seen) (h : (xs.map key).Nodup) :
    firsts key seen xs = xs := by
  induction xs generalizing seen with
  | nil => rfl
  | cons a xs ih =>
    obtain ⟨hHead, hRest⟩ := List.nodup_cons.mp h
    rw [firsts, if_neg (hNew a List.mem_cons_self), ih (fun b hb hMem => ?_) hRest]
    rcases List.mem_cons.mp hMem with hSame | hSeen
    · exact hHead (hSame ▸ List.mem_map_of_mem hb)
    · exact hNew b (List.mem_cons_of_mem a hb) hSeen

/-- A list is kept as it is exactly if no key of it repeats. -/
theorem firsts_eq_self_iff : firsts key [] xs = xs ↔ (xs.map key).Nodup :=
  ⟨fun h => h ▸ nodup_firsts, firsts_eq_self fun _ _ => List.not_mem_nil⟩

theorem firsts_idempotent : firsts key [] (firsts key [] xs) = firsts key [] xs :=
  firsts_eq_self_iff.mpr nodup_firsts

/-- As many entries are kept as there are keys. -/
theorem length_firsts : (firsts key [] xs).length = (xs.map key).toFinset.card := by
  have hKeys : ((firsts key [] xs).map key).toFinset = (xs.map key).toFinset := by
    ext k
    simp only [List.mem_toFinset, List.mem_map]
    constructor
    · rintro ⟨a, ha, rfl⟩
      exact ⟨a, mem_of_mem_firsts ha, rfl⟩
    · rintro ⟨a, ha, rfl⟩
      exact exists_mem_firsts ha
  rw [← hKeys, List.toFinset_card_of_nodup nodup_firsts, List.length_map]

theorem length_firsts_eq_iff : (firsts key [] xs).length = xs.length ↔ (xs.map key).Nodup := by
  rw [← firsts_eq_self_iff]
  exact ⟨firsts_sublist.eq_of_length, fun h => by rw [h]⟩

/-! ## In a sorted list -/

section

variable [LinearOrder K] {le : A → A → Prop}

theorem ascending_firsts (hSorted : xs.Pairwise le) (hGrows : ∀ a b, le a b → key a ≤ key b) :
    ((firsts key seen xs).map key).Pairwise (· < ·) := by
  have hBelow : ((firsts key seen xs).map key).Pairwise (· ≤ ·) :=
    List.pairwise_map.mpr ((hSorted.sublist firsts_sublist).imp fun h => hGrows _ _ h)
  exact (hBelow.and nodup_firsts).imp fun ⟨hLe, hNe⟩ => lt_of_le_of_ne hLe hNe

end

/-- In a sorted list a kept entry is before the others of its key. -/
theorem least_firsts {le : A → A → Prop} (hSorted : xs.Pairwise le) (hRefl : ∀ a, le a a) {a b : A}
    (ha : a ∈ firsts key seen xs) (hb : b ∈ xs) (h : key b = key a) : le a b := by
  fun_induction firsts key seen xs with
  | case1 => cases ha
  | case2 seen c xs hSeen ih =>
    rcases List.mem_cons.mp hb with rfl | hb
    · exact absurd (h ▸ hSeen) (new_of_mem_firsts ha)
    · exact ih (List.pairwise_cons.mp hSorted).2 ha hb
  | case3 seen c xs _ ih =>
    obtain ⟨hHead, hRest⟩ := List.pairwise_cons.mp hSorted
    rcases List.mem_cons.mp ha with rfl | ha
    · rcases List.mem_cons.mp hb with rfl | hb
      · exact hRefl b
      · exact hHead b hb
    · rcases List.mem_cons.mp hb with rfl | hb
      · exact absurd (List.mem_cons.mpr (.inl h.symm)) (new_of_mem_firsts ha)
      · exact ih hRest ha hb

end Firsts
