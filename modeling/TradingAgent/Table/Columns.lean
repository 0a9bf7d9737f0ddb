import Mathlib.Algebra.Order.Floor.Ring
import Mathlib.Data.Rat.Floor
import Mathlib.Tactic.Linarith
import Mathlib.Tactic.FieldSimp

/-!
# Columns of bounded values

What a column keeps of a value, and `none` where it refuses it. A column of decimals rounds
to its scale and has a bound; a column of texts has a length and no NUL, and cuts off spaces
at the end. `numeric_eq_self` and `varchar_eq_self` say which values a column keeps as they are.
-/

namespace Table

/-- Round half away from zero. -/
def halfAway (x : ℚ) : ℤ := if 0 ≤ x then ⌊x + 1 / 2⌋ else -⌊-x + 1 / 2⌋

theorem halfAway_intCast (n : ℤ) : halfAway n = n := by
  have hFloor (m : ℤ) : ⌊(m : ℚ) + 1 / 2⌋ = m := by
    rw [Int.floor_eq_iff]
    constructor <;> linarith
  unfold halfAway
  split
  · exact hFloor n
  · rw [← Int.cast_neg, hFloor (-n), neg_neg]

/-- A column of decimals, by the digits of its values and those after the point. -/
def numeric (precision scale : ℕ) (q : ℚ) : Option ℚ :=
  let coefficient := halfAway (q * 10 ^ scale)
  if 10 ^ precision ≤ |coefficient| then none else some (coefficient / 10 ^ scale)

/-- The values of such a column. -/
def Fits (precision scale : ℕ) (q : ℚ) : Prop :=
  ∃ n : ℤ, q = n / 10 ^ scale ∧ |n| < 10 ^ precision

theorem numeric_eq_self {precision scale : ℕ} {q : ℚ} :
    numeric precision scale q = some q ↔ Fits precision scale q := by
  have hPow : (10 : ℚ) ^ scale ≠ 0 := by positivity
  unfold numeric
  constructor
  · intro h
    dsimp only at h
    split at h
    · cases h
    · next hBelow => exact ⟨_, (Option.some.inj h).symm, not_le.mp hBelow⟩
  · rintro ⟨n, rfl, hBelow⟩
    have hCoefficient : halfAway ((n : ℚ) / 10 ^ scale * 10 ^ scale) = n := by
      rw [div_mul_cancel₀ _ hPow, halfAway_intCast]
    dsimp only
    rw [hCoefficient, if_neg (not_le.mpr hBelow)]

def nul : Char := Char.ofNat 0

/-- A column of texts of a length. -/
def varchar (length : ℕ) (s : String) : Option String :=
  if nul ∈ s.toList then none
  else if s.toList.length ≤ length then some s
  else if (s.toList.drop length).all (· = ' ') then some (String.ofList (s.toList.take length))
  else none

/-- The values of such a column. -/
def Text (length : ℕ) (s : String) : Prop := nul ∉ s.toList ∧ s.toList.length ≤ length

instance (length : ℕ) (s : String) : Decidable (Text length s) :=
  inferInstanceAs (Decidable (_ ∧ _))

theorem text_of_varchar {length : ℕ} {s kept : String} (h : varchar length s = some kept) :
    Text length kept := by
  unfold varchar at h
  split at h
  · cases h
  · next hNul =>
    split at h
    · next hShort =>
      obtain rfl := Option.some.inj h
      exact ⟨hNul, hShort⟩
    · split at h
      · obtain rfl := Option.some.inj h
        refine ⟨fun hMem => hNul ?_, ?_⟩
        · exact List.mem_of_mem_take (by simpa using hMem)
        · simp
      · cases h

theorem varchar_eq_self {length : ℕ} {s : String} :
    varchar length s = some s ↔ Text length s := by
  constructor
  · exact text_of_varchar
  · rintro ⟨hNul, hShort⟩
    rw [varchar, if_neg hNul, if_pos hShort]

end Table
