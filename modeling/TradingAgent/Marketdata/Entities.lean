import TradingAgent.Core.Python

/-!
# Symbols, timeframes and candles
-/

namespace TradingAgent.Marketdata

inductive Timeframe
  | m1
  | m5
  | h1
  | h4
  | d1
  deriving DecidableEq, Repr

namespace Timeframe

def value : Timeframe → String
  | m1 => "1m"
  | m5 => "5m"
  | h1 => "1h"
  | h4 => "4h"
  | d1 => "1d"

theorem value_injective {a b : Timeframe} (h : a.value = b.value) : a = b := by
  cases a <;> cases b <;> first | rfl | exact absurd h (by decide)

/-- `Timeframe(value)`. -/
def ofValue : String → Except Exn Timeframe :=
  memberOf "Timeframe" value [m1, m5, h1, h4, d1]

theorem ofValue_value (timeframe : Timeframe) : ofValue timeframe.value = .ok timeframe :=
  (memberOf_eq_ok (fun a => by cases a <;> simp) fun _ _ => value_injective).mpr rfl

end Timeframe

/-- `[A-Z0-9]`. -/
def codeChar (c : Char) : Bool := c.isUpper || c.isDigit

/-- `^[A-Z0-9]+/[A-Z0-9]+$`. -/
def codePattern (code : String) : Bool :=
  match code.toList.dropWhile codeChar with
  | '/' :: quote =>
    !(code.toList.takeWhile codeChar).isEmpty && !quote.isEmpty && quote.all codeChar
  | _ => false

/-- A symbol, whose code has the pattern. -/
structure Symbol where
  code : String
  exchange : String := ""
  formed : codePattern code = true
  deriving DecidableEq, Repr

/-- `Symbol.of(code)`, which names no exchange. -/
def Symbol.of [PyText] (code : String) : Except Exn Symbol :=
  if h : codePattern (PyText.upper code) = true then
    .ok { code := PyText.upper code, formed := h }
  else .error (.valueError "Symbol")

structure Candle where
  symbol : Symbol
  timeframe : Timeframe
  openedAt : Datetime
  «open» : ℚ
  high : ℚ
  low : ℚ
  close : ℚ
  volume : ℚ
  exchange : String := ""
  deriving DecidableEq, Repr

end TradingAgent.Marketdata
