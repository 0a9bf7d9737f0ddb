import Mathlib.Data.List.Basic
import Mathlib.Tactic.IntervalCases

/-!
# Bytes in hexadecimal

`bytes.hex()` writes two digits for each byte. `bytes.fromhex` reads pairs of digits, of either
case, and skips whitespace before a pair and at the end.
-/

namespace TradingAgent

abbrev Bytes := List UInt8

/-- A digit of `bytes.hex()`. -/
def hexDigit (n : ℕ) : Char := if n < 10 then Char.ofNat (48 + n) else Char.ofNat (87 + n)

/-- The value of a hexadecimal digit. -/
def hexValue (c : Char) : Option ℕ :=
  if '0' ≤ c ∧ c ≤ '9' then some (c.toNat - 48)
  else if 'a' ≤ c ∧ c ≤ 'f' then some (c.toNat - 87)
  else if 'A' ≤ c ∧ c ≤ 'F' then some (c.toNat - 55)
  else none

/-- The whitespace of ASCII. -/
def asciiSpace (c : Char) : Bool := c = ' ' ∨ '\t' ≤ c ∧ c ≤ '\r'

/-- `data.hex()`. -/
def Bytes.hex (data : Bytes) : List Char :=
  data.flatMap fun byte => [hexDigit (byte.toNat / 16), hexDigit (byte.toNat % 16)]

/-- `bytes.fromhex(text)`, and `none` where it raises `ValueError`. -/
def fromhex : List Char → Option Bytes
  | [] => some []
  | c :: text =>
    if asciiSpace c then fromhex text
    else
      match text with
      | [] => none
      | d :: rest =>
        match hexValue c, hexValue d with
        | some high, some low => (fromhex rest).map (UInt8.ofNat (16 * high + low) :: ·)
        | _, _ => none

theorem hexValue_hexDigit {n : ℕ} (h : n < 16) : hexValue (hexDigit n) = some n := by
  interval_cases n <;> rfl

theorem asciiSpace_hexDigit {n : ℕ} (h : n < 16) : asciiSpace (hexDigit n) = false := by
  interval_cases n <;> rfl

theorem hexDigit_ne_dollar {n : ℕ} (h : n < 16) : hexDigit n ≠ '$' := by
  interval_cases n <;> decide

/-- The written bytes are read again. -/
theorem fromhex_hex (data : Bytes) : fromhex data.hex = some data := by
  induction data with
  | nil => rfl
  | cons byte data ih =>
    have hByte : byte.toNat < 256 := byte.toNat_lt
    have hHigh : byte.toNat / 16 < 16 := by omega
    have hLow : byte.toNat % 16 < 16 := by omega
    have hValue : UInt8.ofNat (16 * (byte.toNat / 16) + byte.toNat % 16) = byte := by
      rw [Nat.div_add_mod, UInt8.ofNat_toNat]
    show fromhex (hexDigit (byte.toNat / 16) :: hexDigit (byte.toNat % 16) :: Bytes.hex data) = _
    rw [fromhex, asciiSpace_hexDigit hHigh, if_neg Bool.false_ne_true]
    simp only [hexValue_hexDigit hHigh, hexValue_hexDigit hLow, ih, hValue, Option.map_some]

theorem dollar_notMem_hex (data : Bytes) : '$' ∉ data.hex := by
  intro hMem
  obtain ⟨byte, -, hDigit⟩ := List.mem_flatMap.mp hMem
  have hByte : byte.toNat < 256 := byte.toNat_lt
  rcases List.mem_pair.mp hDigit with hHigh | hLow
  · exact hexDigit_ne_dollar (by omega) hHigh.symm
  · exact hexDigit_ne_dollar (by omega) hLow.symm

end TradingAgent
