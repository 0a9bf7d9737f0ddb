import Mathlib.Algebra.Order.Ring.Rat
import Mathlib.Data.List.DropRight
import Mathlib.Tactic.IntervalCases

/-!
# The Python notions that the services share

Exceptions, `Result`, and the text functions of the standard library. Numbers that the
program holds in `Decimal` are rationals, and arithmetic is exact where no context rounds it.
-/

namespace TradingAgent

/-- A raised exception. `except (ValueError, RuntimeError)` catches the first two kinds;
`other` is an exception of any class that these two do not cover. -/
inductive Exn
  | valueError (message : String)
  | runtimeError (message : String)
  | other (name : String)
  deriving DecidableEq, Repr

/-- `Result[T, E]`: the value of `Ok(value)` or the error of `Err(error)`. -/
inductive Result (α ε : Type)
  | ok (value : α)
  | err (error : ε)
  deriving DecidableEq, Repr

theorem bind_eq_ok {A B E : Type} {x : Except E A} {f : A → Except E B} {b : B} :
    x >>= f = .ok b ↔ ∃ a, x = .ok a ∧ f a = .ok b := by
  constructor
  · intro h
    cases hValue : x with
    | error e => simp [hValue, bind, Except.bind] at h
    | ok a => exact ⟨a, rfl, by simpa [hValue, bind, Except.bind] using h⟩
  · rintro ⟨a, rfl, hRest⟩
    exact hRest

theorem map_eq_ok {A B E : Type} {x : Except E A} {f : A → B} {b : B} :
    f <$> x = .ok b ↔ ∃ a, x = .ok a ∧ f a = b := by
  cases x with
  | error e => exact iff_of_false (fun h => by cases h) (by simp)
  | ok a =>
    constructor
    · rintro ⟨⟩
      exact ⟨a, rfl, rfl⟩
    · rintro ⟨_, ⟨⟩, rfl⟩
      rfl

/-- `Enumeration(text)`: the member with this value. -/
def memberOf {A : Type} (enumeration : String) (value : A → String) (members : List A)
    (text : String) : Except Exn A :=
  match members.find? fun member => value member = text with
  | some member => .ok member
  | none => .error (.valueError enumeration)

theorem memberOf_eq_ok {A : Type} {enumeration : String} {value : A → String} {members : List A}
    (hAll : ∀ a, a ∈ members) (hValue : ∀ a b, value a = value b → a = b) {text : String} {a : A} :
    memberOf enumeration value members text = .ok a ↔ text = value a := by
  unfold memberOf
  cases hFound : members.find? fun member => value member = text with
  | none =>
    have hNever := List.find?_eq_none.mp hFound a (hAll a)
    simp only [decide_eq_true_eq] at hNever
    exact iff_of_false (by simp) fun hText => hNever hText.symm
  | some member =>
    have hMember : value member = text := by simpa using List.find?_some hFound
    rw [Except.ok.injEq, ← hMember]
    exact ⟨fun hSame => by rw [hSame], hValue member a⟩

/-- Microseconds since the epoch. -/
abbrev Datetime := Int

/-- `a / b` for decimals, before it is rounded. -/
def divide (a b : ℚ) : Except Exn ℚ :=
  if b ≠ 0 then .ok (a / b)
  else if a = 0 then .error (.other "InvalidOperation")
  else .error (.other "DivisionByZero")

/-- The whitespace that `str.strip` removes. -/
def isspace (c : Char) : Bool :=
  let n := c.toNat
  (9 ≤ n && n ≤ 13) || (28 ≤ n && n ≤ 32) || n = 0x85 || n = 0xA0 || n = 0x1680 ||
    (0x2000 ≤ n && n ≤ 0x200A) || n = 0x2028 || n = 0x2029 || n = 0x202F || n = 0x205F ||
    n = 0x3000

def strip (s : String) : String :=
  String.ofList ((s.toList.dropWhile isspace).rdropWhile isspace)

/-- A value that the constructor `Decimal` can make from a text. -/
inductive Decimal
  | finite (q : ℚ)
  | infinity (negative : Bool)
  | nan
  deriving DecidableEq, Repr

/-- The parts of the standard library that rest on the Unicode tables. `upper` is
`str.upper`; `decimal s` is `Decimal(s)`, and `none` where that raises
`InvalidOperation`. -/
class PyText where
  upper : String → String
  upper_upper : ∀ s, upper (upper s) = upper s
  decimal : String → Option Decimal

/-! ## ASCII texts -/

def upperAscii (c : Char) : Char :=
  if 97 ≤ c.toNat ∧ c.toNat ≤ 122 then Char.ofNat (c.toNat - 32) else c

theorem upperAscii_upperAscii (c : Char) : upperAscii (upperAscii c) = upperAscii c := by
  by_cases h : 97 ≤ c.toNat ∧ c.toNat ≤ 122
  · rw [upperAscii, upperAscii, if_pos h]
    generalize c.toNat = n at h
    obtain ⟨hLow, hHigh⟩ := h
    interval_cases n <;> rfl
  · rw [upperAscii, upperAscii, if_neg h, if_neg h]

def digitsAscii (cs : List Char) : Option ℕ :=
  if cs ≠ [] ∧ cs.all Char.isDigit then
    some (cs.foldl (fun n c => 10 * n + (c.toNat - 48)) 0)
  else none

/-- The decimals written with a sign, digits and a point. -/
def decimalAscii (s : String) : Option Decimal :=
  let sign : ℚ := if s.toList.head? = some '-' then -1 else 1
  let body := if s.toList.head? = some '-' then s.toList.tail else s.toList
  let whole := body.takeWhile (· ≠ '.')
  let places := (body.dropWhile (· ≠ '.')).tail
  (digitsAscii (whole ++ places)).map fun n => .finite (sign * n / 10 ^ places.length)

/-- The text functions on ASCII texts and plain decimals. -/
@[reducible] def asciiText : PyText where
  upper s := String.ofList (s.toList.map upperAscii)
  upper_upper s := by simp [upperAscii_upperAscii, Function.comp_def]
  decimal := decimalAscii

end TradingAgent
