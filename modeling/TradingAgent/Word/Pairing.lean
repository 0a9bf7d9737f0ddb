import Mathlib.Data.List.Basic
import Mathlib.Data.Nat.Find

/-!
# The greedy pairing of the letters of a word

Some letters of a word open and some close. The greedy pairing takes the first letter that
opens, the next one that closes, and goes on after it; what is open at the end is closed at
the last letter. `Pairing` says so in terms of positions, `exists_pairing` and
`Pairing.unique` that a word has exactly one pairing, and `Pairing.ordered` that its spans
follow one another.
-/

namespace Word

/-- The positions from `opened` to `closed`. -/
structure Span where
  opened : ℕ
  closed : ℕ
  deriving DecidableEq, Repr

variable {A B : Type*}

/-- `j` is the first position from `i` on at which the word has a letter in `p`. -/
structure First (p : A → Prop) (word : List A) (i j : ℕ) : Prop where
  le : i ≤ j
  found : ∃ a, word[j]? = some a ∧ p a
  before : ∀ n a, i ≤ n → n < j → word[n]? = some a → ¬p a

/-- From `i` on the word has no letter in `p`. -/
def Nowhere (p : A → Prop) (word : List A) (i : ℕ) : Prop :=
  ∀ n a, i ≤ n → word[n]? = some a → ¬p a

/-- The greedy pairing of the word from a position on. -/
inductive Pairing (opens closes : A → Prop) (word : List A) : ℕ → List Span → Prop
  | flat {i : ℕ} : Nowhere opens word i → Pairing opens closes word i []
  | closed {i j k : ℕ} {rest : List Span} : First opens word i j →
      First closes word (j + 1) k → Pairing opens closes word (k + 1) rest →
      Pairing opens closes word i ({ opened := j, closed := k } :: rest)
  | opened {i j : ℕ} : First opens word i j → Nowhere closes word (j + 1) →
      Pairing opens closes word i [{ opened := j, closed := word.length - 1 }]

section First

variable {p : A → Prop} {word : List A} {i j k : ℕ}

theorem First.lt_length (h : First p word i j) : j < word.length := by
  obtain ⟨a, hLetter, -⟩ := h.found
  exact (List.getElem?_eq_some_iff.mp hLetter).1

theorem First.unique (h : First p word i j) (h' : First p word i k) : j = k := by
  obtain ⟨a, hLetter, hIn⟩ := h.found
  obtain ⟨b, hLetter', hIn'⟩ := h'.found
  rcases Nat.lt_trichotomy j k with hLt | hEq | hLt
  · exact absurd hIn (h'.before j a h.le hLt hLetter)
  · exact hEq
  · exact absurd hIn' (h.before k b h'.le hLt hLetter')

theorem First.not_nowhere (h : First p word i j) : ¬Nowhere p word i := by
  obtain ⟨a, hLetter, hIn⟩ := h.found
  exact fun hNowhere => hNowhere j a h.le hLetter hIn

theorem first_or_nowhere (p : A → Prop) [DecidablePred p] (word : List A) (i : ℕ) :
    (∃ j, First p word i j) ∨ Nowhere p word i := by
  by_cases hSome : ∃ j, i ≤ j ∧ ∃ a, word[j]? = some a ∧ p a
  · classical
    obtain ⟨hLe, hFound⟩ := Nat.find_spec hSome
    refine .inl ⟨Nat.find hSome, hLe, hFound, fun n a hn hLt hLetter hIn => ?_⟩
    exact Nat.find_min hSome hLt ⟨hn, a, hLetter, hIn⟩
  · exact .inr fun n a hn hLetter hIn => hSome ⟨n, hn, a, hLetter, hIn⟩

/-- The word from `i` on: letters that are not in `p`, then the first that is. -/
theorem First.split (h : First p word i j) :
    ∃ before a, word.drop i = before ++ a :: word.drop (j + 1) ∧ word[j]? = some a ∧ p a ∧
      ∀ b ∈ before, ¬p b := by
  obtain ⟨a, hLetter, hIn⟩ := h.found
  obtain ⟨hLt, hGet⟩ := List.getElem?_eq_some_iff.mp hLetter
  refine ⟨(word.drop i).take (j - i), a, ?_, hLetter, hIn, fun b hb => ?_⟩
  · have hDrop : word.drop j = a :: word.drop (j + 1) := by
      rw [List.drop_eq_getElem_cons hLt, hGet]
    have hRest : (word.drop i).drop (j - i) = word.drop j := by
      rw [List.drop_drop, Nat.add_sub_cancel' h.le]
    rw [← hDrop, ← hRest, List.take_append_drop]
  · obtain ⟨n, hn, rfl⟩ := List.mem_take_iff_getElem.mp hb
    rw [List.length_drop] at hn
    refine h.before (i + n) _ (Nat.le_add_right i n) (by omega) ?_
    rw [List.getElem_drop, List.getElem?_eq_getElem]

theorem Nowhere.drop (h : Nowhere p word i) : ∀ b ∈ word.drop i, ¬p b := by
  intro b hb
  obtain ⟨n, hn, rfl⟩ := List.mem_iff_getElem.mp hb
  rw [List.length_drop] at hn
  refine h (i + n) _ (Nat.le_add_right i n) ?_
  rw [List.getElem_drop, List.getElem?_eq_getElem]

variable {f : B → A} {letters : List B}

theorem First.of_map (h : First p (letters.map f) i j) :
    First (fun b => p (f b)) letters i j := by
  obtain ⟨a, hLetter, hIn⟩ := h.found
  rw [List.getElem?_map, Option.map_eq_some_iff] at hLetter
  obtain ⟨b, hGet, rfl⟩ := hLetter
  refine ⟨h.le, ⟨b, hGet, hIn⟩, fun n c hn hLt hc => h.before n (f c) hn hLt ?_⟩
  rw [List.getElem?_map, hc, Option.map_some]

theorem Nowhere.of_map (h : Nowhere p (letters.map f) i) :
    Nowhere (fun b => p (f b)) letters i := by
  intro n c hn hc
  refine h n (f c) hn ?_
  rw [List.getElem?_map, hc, Option.map_some]

end First

variable {opens closes : A → Prop} {word : List A}

theorem exists_pairing [DecidablePred opens] [DecidablePred closes] (word : List A) (i : ℕ) :
    ∃ spans, Pairing opens closes word i spans := by
  induction hLeft : word.length - i using Nat.strong_induction_on generalizing i with
  | _ left ih =>
    rcases first_or_nowhere opens word i with ⟨j, hOpens⟩ | hFlat
    · rcases first_or_nowhere closes word (j + 1) with ⟨k, hCloses⟩ | hOpen
      · have hLe := hOpens.le
        have hLe' := hCloses.le
        have hLt := hCloses.lt_length
        obtain ⟨rest, hRest⟩ := ih (word.length - (k + 1)) (by omega) (k + 1) rfl
        exact ⟨_, .closed hOpens hCloses hRest⟩
      · exact ⟨_, .opened hOpens hOpen⟩
    · exact ⟨[], .flat hFlat⟩

namespace Pairing

theorem unique {i : ℕ} {spans spans' : List Span} (h : Pairing opens closes word i spans)
    (h' : Pairing opens closes word i spans') : spans = spans' := by
  induction h generalizing spans' with
  | flat hFlat =>
    cases h' with
    | flat => rfl
    | closed hOpens => exact absurd hFlat hOpens.not_nowhere
    | opened hOpens => exact absurd hFlat hOpens.not_nowhere
  | closed hOpens hCloses _ ih =>
    cases h' with
    | flat hFlat => exact absurd hFlat hOpens.not_nowhere
    | closed hOpens' hCloses' hRest =>
      obtain rfl := hOpens.unique hOpens'
      obtain rfl := hCloses.unique hCloses'
      rw [ih hRest]
    | opened hOpens' hOpen =>
      obtain rfl := hOpens.unique hOpens'
      exact absurd hOpen hCloses.not_nowhere
  | opened hOpens hOpen =>
    cases h' with
    | flat hFlat => exact absurd hFlat hOpens.not_nowhere
    | closed hOpens' hCloses' =>
      obtain rfl := hOpens.unique hOpens'
      exact absurd hOpen hCloses'.not_nowhere
    | opened hOpens' => rw [hOpens.unique hOpens']

/-- The spans lie in the word from `i` on, and each ends before the next begins. -/
theorem ordered {i : ℕ} {spans : List Span} (h : Pairing opens closes word i spans) :
    (∀ span ∈ spans, i ≤ span.opened ∧ span.opened ≤ span.closed ∧
        span.closed < word.length) ∧
      spans.Pairwise fun earlier later => earlier.closed < later.opened := by
  induction h with
  | flat => exact ⟨nofun, .nil⟩
  | @closed i j k rest hOpens hCloses _ ih =>
    have hLe := hOpens.le
    have hInner : j ≤ k := Nat.le_of_succ_le hCloses.le
    refine ⟨List.forall_mem_cons.mpr ⟨⟨hLe, hInner, hCloses.lt_length⟩, fun span hSpan => ?_⟩,
      List.pairwise_cons.mpr ⟨fun span hSpan => ?_, ih.2⟩⟩
    · obtain ⟨hFrom, hInside⟩ := ih.1 span hSpan
      exact ⟨by omega, hInside⟩
    · obtain ⟨hFrom, -⟩ := ih.1 span hSpan
      show k < span.opened
      omega
  | @opened i j hOpens hOpen =>
    have hLt := hOpens.lt_length
    refine ⟨fun span hSpan => ?_, List.pairwise_singleton _ _⟩
    obtain rfl := List.mem_singleton.mp hSpan
    refine ⟨hOpens.le, ?_, ?_⟩
    · show j ≤ word.length - 1
      omega
    · show word.length - 1 < word.length
      omega

end Pairing

end Word
