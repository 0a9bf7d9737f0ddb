import Mathlib.Data.List.Induction

/-!
# Inputs taken one after another

A transition function answers an input and moves to the next state. `final` is the state
after a list of inputs and `outputs` are its answers. `final_induction` is the invariant
rule of such runs, and `final_erase` and `outputs_erase` say that inputs which leave the
state as it is, wherever they stand, may be left out.
-/

namespace Sequence

variable {σ A B : Type*} (step : σ → A → B × σ)

def final (s : σ) (inputs : List A) : σ := inputs.foldl (fun s a => (step s a).2) s

def outputs : σ → List A → List B
  | _, [] => []
  | s, a :: rest => (step s a).1 :: outputs (step s a).2 rest

@[simp] theorem final_nil (s : σ) : final step s [] = s := rfl

theorem final_cons (s : σ) (a : A) (rest : List A) :
    final step s (a :: rest) = final step (step s a).2 rest := rfl

theorem final_append (s : σ) (before after : List A) :
    final step s (before ++ after) = final step (final step s before) after :=
  List.foldl_append

@[simp] theorem final_concat (s : σ) (before : List A) (a : A) :
    final step s (before ++ [a]) = (step (final step s before) a).2 :=
  final_append step s before [a]

@[simp] theorem outputs_nil (s : σ) : outputs step s [] = [] := rfl

theorem outputs_cons (s : σ) (a : A) (rest : List A) :
    outputs step s (a :: rest) = (step s a).1 :: outputs step (step s a).2 rest := rfl

variable {step} {s : σ} {inputs : List A}

/-- What holds at the start and is kept by every step of the run holds at its end. -/
theorem final_induction {I : List A → σ → Prop} (h₀ : I [] s)
    (hStep : ∀ before a after, inputs = before ++ a :: after →
      I before (final step s before) → I (before ++ [a]) (step (final step s before) a).2) :
    I inputs (final step s inputs) := by
  induction inputs using List.reverseRecOn with
  | nil => exact h₀
  | append_singleton before a ih =>
    rw [final_concat]
    apply hStep before a [] rfl
    apply ih
    intro earlier b after hSplit
    exact hStep earlier b (after ++ [a]) (by simp [hSplit])

section Erase

variable {marked : A → Bool}

theorem silent_tail {a : A} {rest : List A}
    (hSilent : ∀ before b after, a :: rest = before ++ b :: after → marked b = true →
      (step (final step s before) b).2 = final step s before) :
    ∀ before b after, rest = before ++ b :: after → marked b = true →
      (step (final step (step s a).2 before) b).2 = final step (step s a).2 before := by
  intro before b after hSplit hMarked
  exact hSilent (a :: before) b after (by simp [hSplit]) hMarked

theorem final_erase
    (hSilent : ∀ before a after, inputs = before ++ a :: after → marked a = true →
      (step (final step s before) a).2 = final step s before) :
    final step s (inputs.filter fun a => !marked a) = final step s inputs := by
  induction inputs generalizing s with
  | nil => rfl
  | cons a rest ih =>
    have hRest := ih (silent_tail hSilent)
    rw [final_cons]
    by_cases hMarked : marked a = true
    · rw [List.filter_cons_of_neg (by simp [hMarked])]
      have hSame : (step s a).2 = s := hSilent [] a rest rfl hMarked
      rw [hSame] at hRest ⊢
      exact hRest
    · rw [List.filter_cons_of_pos (by simp [hMarked]), final_cons]
      exact hRest

theorem outputs_erase
    (hSilent : ∀ before a after, inputs = before ++ a :: after → marked a = true →
      (step (final step s before) a).2 = final step s before) :
    outputs step s (inputs.filter fun a => !marked a) =
      ((inputs.zip (outputs step s inputs)).filter fun x => !marked x.1).map Prod.snd := by
  induction inputs generalizing s with
  | nil => rfl
  | cons a rest ih =>
    have hRest := ih (silent_tail hSilent)
    rw [outputs_cons, List.zip_cons_cons]
    by_cases hMarked : marked a = true
    · rw [List.filter_cons_of_neg (by simp [hMarked]), List.filter_cons_of_neg (by simp [hMarked])]
      have hSame : (step s a).2 = s := hSilent [] a rest rfl hMarked
      rw [hSame] at hRest ⊢
      exact hRest
    · rw [List.filter_cons_of_pos (by simp [hMarked]), List.filter_cons_of_pos (by simp [hMarked]),
        outputs_cons, List.map_cons, hRest]

end Erase

end Sequence
