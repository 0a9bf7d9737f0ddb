import Mathlib.Data.List.Induction

/-!
# Streaks

A streak of a word is a run of neighbours that all have a property. `Recent n` bounds the
streaks at the end of a word and `Bounded n` all of them: a letter with the property makes
the recent streak one longer, any other letter ends it.
-/

namespace Streaks

variable {A : Type*} (P : A → Prop)

/-- No streak at the end of the word is longer than `n`. -/
def Recent (n : ℕ) (word : List A) : Prop :=
  ∀ before streak, word = before ++ streak → (∀ a ∈ streak, P a) → streak.length ≤ n

/-- No streak of the word is longer than `n`. -/
def Bounded (n : ℕ) (word : List A) : Prop :=
  ∀ before streak after, word = before ++ streak ++ after → (∀ a ∈ streak, P a) →
    streak.length ≤ n

variable {P} {n m : ℕ} {word : List A} {a : A}

/-- A word that is extended at the end, and cut in two. -/
theorem append_singleton_cut {before streak : List A} (h : word ++ [a] = before ++ streak) :
    streak = [] ∨ ∃ init, streak = init ++ [a] ∧ word = before ++ init := by
  rcases List.eq_nil_or_concat streak with hNil | ⟨init, b, hLast⟩
  · exact .inl hNil
  · rw [hLast, List.concat_eq_append, ← List.append_assoc] at h
    obtain ⟨hWord, hLetter⟩ := List.append_inj' h rfl
    refine .inr ⟨init, ?_, hWord⟩
    rw [hLast, List.concat_eq_append, List.singleton_inj.mp hLetter]

namespace Recent

theorem nil : Recent P n [] := by
  intro before streak hWord _
  rw [(List.append_eq_nil_iff.mp hWord.symm).2]
  exact Nat.zero_le n

theorem mono (h : Recent P n word) (hLe : n ≤ m) : Recent P m word := by
  intro before streak hWord hAll
  exact Nat.le_trans (h before streak hWord hAll) hLe

theorem push (h : Recent P n word) : Recent P (n + 1) (word ++ [a]) := by
  intro before streak hWord hAll
  rcases append_singleton_cut hWord with rfl | ⟨init, rfl, hInit⟩
  · exact Nat.zero_le _
  · have hShort := h before init hInit fun b hb => hAll b (List.mem_append_left _ hb)
    rw [List.length_append, List.length_singleton]
    omega

theorem other (hOther : ¬P a) : Recent P n (word ++ [a]) := by
  intro before streak hWord hAll
  rcases append_singleton_cut hWord with rfl | ⟨init, rfl, -⟩
  · exact Nat.zero_le n
  · exact absurd (hAll a (List.mem_append_right _ (List.mem_singleton_self a))) hOther

end Recent

namespace Bounded

theorem nil : Bounded P n [] := by
  intro before streak after hWord hAll
  exact Recent.nil before streak (List.append_eq_nil_iff.mp hWord.symm).1.symm hAll

/-- A streak of an extended word is at its end, or in the word. -/
theorem push (h : Bounded P n word) (hRecent : Recent P n (word ++ [a])) :
    Bounded P n (word ++ [a]) := by
  intro before streak after hWord hAll
  rcases append_singleton_cut hWord with rfl | ⟨init, rfl, hInit⟩
  · rw [List.append_nil] at hWord
    exact hRecent before streak hWord hAll
  · exact h before streak init hInit hAll

end Bounded

/-! ## Conditions on the letters -/

/-- Every letter meets the condition, given the letters before it. -/
def Throughout (G : List A → A → Prop) (word : List A) : Prop :=
  ∀ before a after, word = before ++ a :: after → G before a

variable {G : List A → A → Prop}

theorem throughout_nil : Throughout G [] := by
  intro before a after hWord
  cases (List.append_eq_nil_iff.mp hWord.symm).2

theorem throughout_append_singleton :
    Throughout G (word ++ [a]) ↔ Throughout G word ∧ G word a := by
  constructor
  · intro h
    refine ⟨fun before b after hWord => ?_, h word a [] rfl⟩
    exact h before b (after ++ [a]) (by rw [hWord, List.append_assoc]; rfl)
  · rintro ⟨hWord, hLast⟩ before b after hAll
    rcases append_singleton_cut hAll with hNil | ⟨init, hInit, hBefore⟩
    · cases hNil
    · cases init with
      | nil =>
        injection hInit with hLetter hAfter
        rw [hLetter, ← (hBefore.trans (List.append_nil before))]
        exact hLast
      | cons c init =>
        injection hInit with hLetter hAfter
        rw [hLetter]
        exact hWord before c init hBefore

end Streaks
