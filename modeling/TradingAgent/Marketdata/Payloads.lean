import TradingAgent.Marketdata.Yahoo
import TradingAgent.Number.Rounding

/-!
# Values of a payload

What the mappings of the exchanges do with the values of a payload: iteration, subscripts,
conversions and times, with the exceptions that these raise. An `except` clause makes a domain
error of the exceptions of its classes, and lets the others pass (`handle`).
-/

namespace TradingAgent.Marketdata

open Rounding Tooling

/-! ## Exceptions -/

/-- An exception that a conversion raises. -/
inductive Fault
  | validationError
  | valueError
  | overflowError
  | invalidOperation
  | typeError
  | keyError
  | indexError
  | osError
  deriving DecidableEq, Repr

/-- A class that an `except` clause names. -/
inductive ExceptClass
  | validationError
  | valueError
  | arithmeticError
  | typeError
  | keyError
  | indexError
  deriving DecidableEq, Repr

namespace Fault

def name : Fault → String
  | validationError => "ValidationError"
  | valueError => "ValueError"
  | overflowError => "OverflowError"
  | invalidOperation => "InvalidOperation"
  | typeError => "TypeError"
  | keyError => "KeyError"
  | indexError => "IndexError"
  | osError => "OSError"

/-- `isinstance(exc, cls)`: a `ValidationError` is a `ValueError`. -/
def isA : Fault → ExceptClass → Bool
  | validationError, .validationError | validationError, .valueError
  | valueError, .valueError
  | overflowError, .arithmeticError | invalidOperation, .arithmeticError
  | typeError, .typeError
  | keyError, .keyError
  | indexError, .indexError => true
  | _, _ => false

/-- What `fromtimestamp` raises. -/
def of : Exn → Fault
  | .valueError _ => valueError
  | .other "OverflowError" => overflowError
  | _ => osError

end Fault

/-- An exception that no handler catches. -/
def stray (fault : Fault) : Raised := .exception fault.name

/-- `except classes`, which raises the domain error in the place of what it catches. -/
def handle (classes : List ExceptClass) (exc : DomainError) (fault : Fault) : Raised :=
  if classes.any fault.isA then .domain exc else stray fault

/-! ## Times -/

/-- `datetime.fromtimestamp(timestamp, UTC)` of an integer. -/
def instant (timestamp : ℤ) : Except Fault Datetime :=
  (Yahoo.fromtimestamp timestamp).mapError Fault.of

/-- In the years 1 to 9999. -/
def Dated (timestamp : ℤ) : Prop := -62135596800 ≤ timestamp ∧ timestamp ≤ 253402300799

/-- Of 64 bits. -/
def Wide (timestamp : ℤ) : Prop := -2 ^ 63 ≤ timestamp ∧ timestamp < 2 ^ 63

/-- The times that `fromtimestamp` knows, and what it raises for the others. -/
theorem instant_cases (timestamp : ℤ) :
    Dated timestamp ∧ instant timestamp = .ok (timestamp * 1000000) ∨
      ¬Dated timestamp ∧ Wide timestamp ∧
        (instant timestamp = .error .valueError ∨ instant timestamp = .error .osError) ∨
      ¬Dated timestamp ∧ ¬Wide timestamp ∧ instant timestamp = .error .overflowError := by
  unfold instant Yahoo.fromtimestamp Dated Wide
  by_cases hDated : -62135596800 ≤ timestamp ∧ timestamp ≤ 253402300799
  · rw [if_pos hDated]
    exact .inl ⟨hDated, rfl⟩
  · rw [if_neg hDated]
    by_cases hKnown : -67768040609740800 ≤ timestamp ∧ timestamp ≤ 67768036191676799
    · rw [if_pos hKnown]
      exact .inr (.inl ⟨hDated, by omega, .inl rfl⟩)
    · rw [if_neg hKnown]
      by_cases hWide : -2 ^ 63 ≤ timestamp ∧ timestamp < 2 ^ 63
      · rw [if_pos hWide]
        exact .inr (.inl ⟨hDated, hWide, .inr rfl⟩)
      · rw [if_neg hWide]
        exact .inr (.inr ⟨hDated, hWide, rfl⟩)

theorem mapError_eq_ok_iff {A E E' : Type} {x : Except E A} {f : E → E'} {a : A} :
    x.mapError f = .ok a ↔ x = .ok a := by
  cases x with
  | ok b =>
    constructor
    · rintro ⟨⟩
      rfl
    · rintro ⟨⟩
      rfl
  | error e => exact iff_of_false (fun h => by cases h) fun h => by cases h

theorem instant_ok_iff {timestamp : ℤ} :
    (∃ moment, instant timestamp = .ok moment) ↔ Dated timestamp := by
  rcases instant_cases timestamp with ⟨hDated, hOk⟩ | ⟨hNot, -, hError | hError⟩ | ⟨hNot, -, hError⟩
  · exact iff_of_true ⟨_, hOk⟩ hDated
  · exact iff_of_false (by simp [hError]) hNot
  · exact iff_of_false (by simp [hError]) hNot
  · exact iff_of_false (by simp [hError]) hNot

/-- `int(x)` of a float: towards zero. -/
def truncate (x : ℚ) : ℤ := if 0 ≤ x then ⌊x⌋ else ⌈x⌉

/-- The microseconds that `fromtimestamp` makes of a float. The part of a second is rounded to
them, ties to even. -/
def microseconds (seconds : ℚ) : ℤ :=
  truncate seconds * 10 ^ 6 + halfEven (double (10 ^ 6 * (seconds - truncate seconds)))

/-- `datetime.fromtimestamp(seconds, UTC)` of a float. -/
def instantOf (seconds : ℚ) : Except Fault Datetime :=
  (instant (microseconds seconds / 10 ^ 6)).map (· + microseconds seconds % 10 ^ 6)

/-- `int(moment.timestamp() * 1000)`. -/
def milliseconds (moment : Datetime) : ℤ :=
  truncate (double (double (moment / 10 ^ 6) * 1000))

/-- `int(moment.timestamp())`. -/
def seconds (moment : Datetime) : ℤ := truncate (double (moment / 10 ^ 6))

/-- `timestamp` is what the arithmetic of floats makes of it. -/
class ExactMoments [Moments] : Prop where
  timestamp_eq : ∀ moment, Moments.timestamp moment = seconds moment

theorem truncate_intCast (n : ℤ) : truncate n = n := by
  unfold truncate
  rw [Int.floor_intCast, Int.ceil_intCast, ite_self]

theorem truncate_mono {x y : ℚ} (h : x ≤ y) : truncate x ≤ truncate y := by
  unfold truncate
  split_ifs with hx hy hy
  · exact Int.floor_le_floor h
  · exact absurd (hx.trans h) hy
  · have hCeil : ⌈x⌉ ≤ 0 := Int.ceil_le.mpr (by exact_mod_cast (not_le.mp hx).le)
    exact hCeil.trans (Int.floor_nonneg.mpr hy)
  · exact Int.ceil_le_ceil h

theorem seconds_mono {a b : Datetime} (h : a ≤ b) : seconds a ≤ seconds b := by
  apply truncate_mono
  apply double_monotone
  have hCast : (a : ℚ) ≤ b := Int.cast_le.mpr h
  exact div_le_div_of_nonneg_right hCast (by positivity)

/-- Below `2 ^ 34` seconds no moment is rounded up to the next second. -/
theorem seconds_eq {moment : ℤ} (hEpoch : 0 ≤ moment) (hEnd : moment < 2 ^ 34 * 10 ^ 6) :
    seconds moment = moment / 10 ^ 6 := by
  have hSecond : (0 : ℤ) ≤ 10 ^ 6 := by norm_num
  obtain ⟨n, hn⟩ := Int.eq_ofNat_of_zero_le (Int.ediv_nonneg hEpoch hSecond)
  have hLow : (n : ℤ) * 10 ^ 6 ≤ moment := by omega
  have hHigh : moment ≤ ((n : ℤ) + 1) * 10 ^ 6 - 1 := by omega
  have hExact : double n = n := double_natCast (by omega)
  have hFrom : (n : ℚ) ≤ moment / 10 ^ 6 := by
    rw [le_div_iff₀ (by norm_num)]
    exact_mod_cast hLow
  have hTo : (moment : ℚ) / 10 ^ 6 ≤ n + 1 - 1 / 10 ^ 6 := by
    have hCast : (moment : ℚ) ≤ (((n : ℤ) + 1) * 10 ^ 6 - 1 : ℤ) := Int.cast_le.mpr hHigh
    push_cast at hCast
    rw [div_le_iff₀ (by norm_num), sub_mul]
    linarith
  have hNonneg : (0 : ℚ) ≤ moment / 10 ^ 6 := (Nat.cast_nonneg n).trans hFrom
  have hRange : |(moment : ℚ) / 10 ^ 6| < 2 ^ 34 := by
    rw [abs_of_nonneg hNonneg, div_lt_iff₀ (by norm_num)]
    exact_mod_cast hEnd
  have hAbove := double_monotone hFrom
  rw [hExact] at hAbove
  -- A microsecond is more than the double is away.
  have hNear := (abs_le.mp (abs_double_sub_le hRange)).2
  have hUnit : (2 : ℚ) ^ (-20 : ℤ) < 1 / 10 ^ 6 := by norm_num
  rw [hn, seconds, truncate, if_pos ((Nat.cast_nonneg n).trans hAbove), Int.floor_eq_iff]
  refine ⟨by exact_mod_cast hAbove, ?_⟩
  push_cast
  linarith

theorem milliseconds_mono {a b : Datetime} (h : a ≤ b) : milliseconds a ≤ milliseconds b := by
  apply truncate_mono
  apply double_monotone
  have hCast : (a : ℚ) ≤ b := Int.cast_le.mpr h
  refine mul_le_mul_of_nonneg_right (double_monotone ?_) (by norm_num)
  exact div_le_div_of_nonneg_right hCast (by positivity)

/-- The seconds of the years 1 to 9999 are doubles, and so are their milliseconds. -/
theorem Dated.double_eq {time : ℤ} (h : Dated time) : double time = time := by
  apply double_intCast
  rw [abs_lt]
  unfold Dated at h
  constructor <;> omega

theorem Dated.double_mul_eq {time : ℤ} (h : Dated time) :
    double (time * 1000) = time * 1000 := by
  have hExact : double ((time * 1000 : ℤ) : ℚ) = (time * 1000 : ℤ) := by
    apply double_intCast
    rw [abs_lt]
    unfold Dated at h
    constructor <;> omega
  exact_mod_cast hExact

theorem Dated.div_eq (time : ℤ) : ((time * 10 ^ 6 : ℤ) : ℚ) / 10 ^ 6 = time := by
  push_cast
  exact mul_div_cancel_right₀ _ (by positivity)

theorem Dated.seconds_eq {time : ℤ} (h : Dated time) : seconds (time * 10 ^ 6) = time := by
  rw [seconds, Dated.div_eq, h.double_eq, truncate_intCast]

theorem Dated.milliseconds_eq {time : ℤ} (h : Dated time) :
    milliseconds (time * 10 ^ 6) = time * 1000 := by
  rw [milliseconds, Dated.div_eq, h.double_eq, h.double_mul_eq]
  exact_mod_cast truncate_intCast (time * 1000)

theorem microseconds_intCast (time : ℤ) : microseconds time = time * 10 ^ 6 := by
  have hZero : halfEven 0 = 0 := by exact_mod_cast halfEven_intCast 0
  rw [microseconds, truncate_intCast, sub_self, mul_zero, double_zero, hZero, add_zero]

theorem Dated.instant_eq {time : ℤ} (h : Dated time) : instant time = .ok (time * 10 ^ 6) := by
  rcases instant_cases time with ⟨-, hOk⟩ | ⟨hNot, -⟩ | ⟨hNot, -⟩
  · exact hOk
  · exact absurd h hNot
  · exact absurd h hNot

/-- A second that is written in milliseconds is read again. -/
theorem Dated.instantOf_eq {time : ℤ} (h : Dated time) :
    instantOf (double (double ((time * 1000 : ℤ) : ℚ) / 1000)) = .ok (time * 10 ^ 6) := by
  have hSeconds : double (double ((time * 1000 : ℤ) : ℚ) / 1000) = time := by
    push_cast
    rw [h.double_mul_eq, mul_div_cancel_right₀ _ (by norm_num), h.double_eq]
  rw [hSeconds, instantOf, microseconds_intCast, Int.mul_ediv_cancel _ (by norm_num),
    Int.mul_emod_left, h.instant_eq]
  exact congrArg Except.ok (add_zero _)

/-! ## Values -/

/-- `int(text)`, and `none` where that raises `ValueError`. -/
class IntText where
  int : String → Option ℤ

/-- `iter(value)`: a mapping has its keys, and a text its characters. -/
def items : Json → Except Fault (List Json)
  | .arr items => .ok items
  | .obj fields => .ok (fields.map fun field => .str field.1)
  | .str s => .ok (s.toList.map fun c => .str (String.ofList [c]))
  | _ => .error .typeError

/-- `len(value)`. -/
def len (value : Json) : Except Fault ℕ := List.length <$> items value

/-- `value[index]`. The keys of a mapping are texts. -/
def item (value : Json) (index : ℕ) : Except Fault Json :=
  match value with
  | .obj _ => .error .keyError
  | value => do
    match (← items value)[index]? with
    | some value => .ok value
    | none => .error .indexError

/-- `int(value)`. -/
def toInt [IntText] : Json → Except Fault ℤ
  | .int n => .ok n
  | .bool b => .ok (if b then 1 else 0)
  | .float (.finite q) => .ok (truncate (double q))
  | .float (.infinity _) => .error .overflowError
  | .float .nan => .error .valueError
  | .str s =>
    match IntText.int s with
    | some n => .ok n
    | none => .error .valueError
  | _ => .error .typeError

/-- `fields[key]`. -/
def valueAt (fields : List (String × Json)) (key : String) : Except Fault Json :=
  match fields.lookup key with
  | some value => .ok value
  | none => .error .keyError

/-- `Decimal(text)`. -/
def decimalOf [PyText] (text : String) : Except Fault Decimal :=
  match PyText.decimal text with
  | some number => .ok number
  | none => .error .invalidOperation

/-- `Decimal(str(value))`. -/
def toDecimal [JsonLibrary] [PyText] (value : Json) : Except Fault Decimal := decimalOf value.text

/-- `Candle(...)`, which refuses the numbers that are not finite. -/
def candleOf (symbol : Symbol) (timeframe : Timeframe) (openedAt : Datetime)
    (opening high low close volume : Decimal) (exchange : String) : Except Fault Candle :=
  match finite? opening, finite? high, finite? low, finite? close, finite? volume with
  | some opening, some high, some low, some close, some volume =>
    .ok
      { symbol := symbol, timeframe := timeframe, openedAt := openedAt, «open» := opening,
        high := high, low := low, close := close, volume := volume, exchange := exchange }
  | _, _, _, _, _ => .error .validationError

@[simp] theorem finite?_eq_some_iff {x : Decimal} {q : ℚ} : finite? x = some q ↔ x = .finite q := by
  cases x <;> simp [finite?]

theorem candleOf_eq_ok_iff {symbol : Symbol} {timeframe : Timeframe} {openedAt : Datetime}
    {opening high low close volume : Decimal} {exchange : String} {candle : Candle} :
    candleOf symbol timeframe openedAt opening high low close volume exchange = .ok candle ↔
      candle.symbol = symbol ∧ candle.timeframe = timeframe ∧ candle.openedAt = openedAt ∧
        opening = .finite candle.open ∧ high = .finite candle.high ∧ low = .finite candle.low ∧
          close = .finite candle.close ∧ volume = .finite candle.volume ∧
            candle.exchange = exchange := by
  unfold candleOf
  constructor
  · intro h
    split at h
    · next hOpen hHigh hLow hClose hVolume =>
      rw [finite?_eq_some_iff] at hOpen hHigh hLow hClose hVolume
      cases h
      exact ⟨rfl, rfl, rfl, hOpen, hHigh, hLow, hClose, hVolume, rfl⟩
    · cases h
  · rintro ⟨rfl, rfl, rfl, rfl, rfl, rfl, rfl, rfl, rfl⟩
    rfl

theorem btcUsd_formed : codePattern "BTC/USD" = true := by decide

/-- A symbol of the examples. -/
def btcUsd : Symbol where
  code := "BTC/USD"
  formed := btcUsd_formed

end TradingAgent.Marketdata
