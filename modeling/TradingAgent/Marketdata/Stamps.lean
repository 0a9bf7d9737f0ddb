import Mathlib.Data.List.DropRight
import Mathlib.Tactic.IntervalCases
import TradingAgent.Calendar.Formats
import TradingAgent.Marketdata.TwelveData

/-!
# Time stamps of Twelve Data

The adapter writes a moment as its wall clock shows it, and the mapping reads a time as the wall
clock of UTC. A moment comes back just if its wall clock and that of UTC show the same second, or
for daily candles the same day (`stamps_iff`).
-/

namespace TradingAgent.Marketdata.TwelveData

open Calendar Tooling

/-- A datetime with a zone: what its wall clock shows, and by how many microseconds its zone is
ahead of UTC. -/
structure Aware where
  wall : Wall
  offset : ℤ
  valid : wall.Valid
  bounded : -86400000000 < offset ∧ offset < 86400000000

def Aware.instant (m : Aware) : Datetime := m.wall.moment - m.offset

def Ascii (text : String) : Prop := ∀ c ∈ text.toList, c.toNat < 128

/-- `strftime` writes the fields of a datetime, whatever its zone, and `strptime` reads them; beyond
ASCII it also knows other digits. -/
class ExactFormats [Moments] : Prop where
  strftime_daily : ∀ w : Wall, w.Valid → 1000 ≤ w.year →
    Moments.strftime w.moment "%Y-%m-%d" = strftime daily w
  strftime_intraday : ∀ w : Wall, w.Valid → 1000 ≤ w.year →
    Moments.strftime w.moment "%Y-%m-%d %H:%M:%S" = strftime intraday w
  strptime_daily : ∀ text, Ascii text →
    Moments.strptime text "%Y-%m-%d" = strptime isspace daily text
  strptime_intraday : ∀ text, Ascii text →
    Moments.strptime text "%Y-%m-%d %H:%M:%S" = strptime isspace intraday text

/-- The microseconds to which a stamp is exact. -/
def unit (timeframe : Timeframe) : ℤ := if timeframe = .d1 then 86400000000 else 1000000

namespace Aware

/-- The moment at the beginning of its second, or for daily candles of its day, in UTC. -/
def truncated (m : Aware) (timeframe : Timeframe) : Datetime :=
  m.instant / unit timeframe * unit timeframe

section

variable [JsonLibrary] [Moments]

/-- `_stamp` writes what the wall clock of the moment shows. -/
def stamp (m : Aware) (timeframe : Timeframe) : String :=
  TwelveData.stamp m.wall.moment timeframe

/-- The stamp is read as the moment, and so is the date that a call from the moment on sends. -/
def RoundTrips (m : Aware) (timeframe : Timeframe) : Prop :=
  parseDatetime (m.stamp timeframe) = .ok (m.truncated timeframe) ∧
    ∀ (config : TwelveDataConfig) (c : FetchCandles), c.timeframe = timeframe →
      c.since = some m.wall.moment → ∃ date,
        (requestOf config c).params.lookup "start_date" = some (.str date) ∧
          parseDatetime date = .ok (m.truncated timeframe)

end

end Aware

theorem ascii_daily (w : Wall) : Ascii (strftime daily w) :=
  strftime_ascii fun c hc => by
    obtain rfl : c = '-' := by simpa [daily] using hc
    decide

theorem ascii_intraday (w : Wall) : Ascii (strftime intraday w) :=
  strftime_ascii fun c hc => by
    obtain rfl | rfl : c = '-' ∨ c = ':' := by simpa [intraday, daily] using hc
    · decide
    · decide

theorem whitespace_isspace : Whitespace isspace where
  blank := by decide
  digit n hDigit := by interval_cases n <;> decide
  dash := by decide

/-- A text that begins and ends with a digit has nothing to strip. -/
theorem strip_digits {cs : List Char} {first last : ℕ} (hFirst : first < 10) (hLast : last < 10)
    (hHead : cs.head? = some (Nat.digitChar first))
    (hEnd : cs.getLast? = some (Nat.digitChar last)) : strip (String.ofList cs) = .ofList cs := by
  have hLeft : cs.dropWhile isspace = cs := by
    cases cs with
    | nil => rfl
    | cons c cs =>
      obtain rfl : c = Nat.digitChar first := Option.some.inj hHead
      exact List.dropWhile_cons_of_neg (by simp [whitespace_isspace.digit first hFirst])
  have hRight : cs.rdropWhile isspace = cs := by
    rw [List.rdropWhile_eq_self_iff]
    intro hSome
    rw [List.getLast?_eq_some_getLast hSome] at hEnd
    rw [Option.some.inj hEnd, whitespace_isspace.digit last hLast]
    exact Bool.false_ne_true
  rw [strip, String.toList_ofList, hLeft, hRight]

section

variable [Moments] [ExactFormats]

theorem stamp_ne_empty (m : Aware) (hYear : 1000 ≤ m.wall.year) (timeframe : Timeframe) :
    m.stamp timeframe ≠ "" := by
  intro hEmpty
  have hText := congrArg String.toList hEmpty
  unfold Aware.stamp stamp at hText
  by_cases hDaily : timeframe = .d1
  · rw [if_pos hDaily, ExactFormats.strftime_daily _ m.valid hYear, strftime,
      String.toList_ofList] at hText
    cases hText
  · rw [if_neg hDaily, ExactFormats.strftime_intraday _ m.valid hYear, strftime,
      String.toList_ofList] at hText
    cases hText

/-- A call from the moment on sends its stamp. -/
theorem requestOf_start_date (m : Aware) (hYear : 1000 ≤ m.wall.year) (config : TwelveDataConfig)
    {c : FetchCandles} (hSince : c.since = some m.wall.moment) :
    (requestOf config c).params.lookup "start_date" = some (.str (m.stamp c.timeframe)) := by
  have hStamp : stamp m.wall.moment c.timeframe ≠ "" := stamp_ne_empty m hYear c.timeframe
  unfold requestOf seriesRequest
  rw [hSince, Option.map_some]
  dsimp only
  rw [if_pos hStamp]
  rfl

variable [JsonLibrary]

/-- What the mapping makes of a stamp. -/
theorem parseDatetime_stamp (m : Aware) (hYear : 1000 ≤ m.wall.year) (timeframe : Timeframe) :
    parseDatetime (m.stamp timeframe) = .ok (m.wall.moment / unit timeframe * unit timeframe) := by
  have hDigit (n : ℕ) : n % 10 < 10 := Nat.mod_lt n (by decide)
  unfold Aware.stamp stamp unit parseDatetime
  by_cases hDaily : timeframe = .d1
  · have hStrip : strip (strftime daily m.wall) = strftime daily m.wall :=
      strip_digits (hDigit (m.wall.year / 10 / 10 / 10)) (hDigit m.wall.day) rfl rfl
    rw [if_pos hDaily, if_pos hDaily, ExactFormats.strftime_daily _ m.valid hYear, hStrip,
      ExactFormats.strptime_intraday _ (ascii_daily _), strptime_intraday_daily whitespace_isspace]
    dsimp only
    rw [ExactFormats.strptime_daily _ (ascii_daily _), strptime_daily m.valid, m.valid.toDay_moment]
  · have hStrip : strip (strftime intraday m.wall) = strftime intraday m.wall :=
      strip_digits (hDigit (m.wall.year / 10 / 10 / 10)) (hDigit m.wall.second) rfl rfl
    rw [if_neg hDaily, if_neg hDaily, ExactFormats.strftime_intraday _ m.valid hYear, hStrip,
      ExactFormats.strptime_intraday _ (ascii_intraday _),
      strptime_intraday whitespace_isspace m.valid, m.valid.toSecond_moment]

/-- When a stamp means its moment. -/
theorem parseDatetime_stamp_iff (m : Aware) (hYear : 1000 ≤ m.wall.year) (timeframe : Timeframe) :
    parseDatetime (m.stamp timeframe) = .ok (m.truncated timeframe) ↔
      m.wall.moment / unit timeframe = m.instant / unit timeframe := by
  have hUnit : unit timeframe ≠ 0 := by
    unfold unit
    split <;> decide
  rw [parseDatetime_stamp m hYear, Except.ok.injEq, Aware.truncated]
  exact Int.mul_eq_mul_right_iff hUnit

/-- **Time stamps.** -/
theorem stamps_iff (m : Aware) (hYear : 1000 ≤ m.wall.year) (timeframe : Timeframe) :
    m.RoundTrips timeframe ↔
      m.wall.moment / unit timeframe = m.instant / unit timeframe := by
  have hStamp := parseDatetime_stamp_iff m hYear timeframe
  constructor
  · rintro ⟨hMeans, -⟩
    exact hStamp.mp hMeans
  · intro hSame
    refine ⟨hStamp.mpr hSame, ?_⟩
    rintro config c rfl hSince
    exact ⟨_, requestOf_start_date m hYear config hSince, hStamp.mpr hSame⟩

end

namespace Eastern

/-! Two moments of one day, five hours ahead of UTC. -/

local instance : JsonLibrary where
  loads _ := none
  repr _ := "None"

local instance : Moments where
  timestamp moment := moment / 1000000
  strftime moment format :=
    strftime (if format = "%Y-%m-%d" then daily else intraday) (wallOf moment)
  strptime text format :=
    strptime isspace (if format = "%Y-%m-%d" then daily else intraday) text

local instance : ExactFormats where
  strftime_daily w hValid _ := by
    show strftime (if "%Y-%m-%d" = "%Y-%m-%d" then daily else intraday) (wallOf w.moment) = _
    rw [if_pos rfl, hValid.wallOf_moment]
  strftime_intraday w hValid _ := by
    show strftime (if "%Y-%m-%d %H:%M:%S" = "%Y-%m-%d" then daily else intraday)
      (wallOf w.moment) = _
    rw [if_neg (by decide), hValid.wallOf_moment]
  strptime_daily _ _ := rfl
  strptime_intraday _ _ := rfl

def night : Aware where
  wall := { year := 2024, month := 3, day := 10, hour := 2 }
  offset := 18000000000
  valid := by decide
  bounded := by decide

def noon : Aware where
  wall := { year := 2024, month := 3, day := 10, hour := 12 }
  offset := 18000000000
  valid := by decide
  bounded := by decide

theorem noon_round_trips : noon.RoundTrips .d1 :=
  (stamps_iff noon (by decide) .d1).mpr (by decide)

/-- Of the night, neither the second nor the day is that of UTC. -/
theorem night_does_not_round_trip : ¬night.RoundTrips .h1 ∧ ¬night.RoundTrips .d1 := by
  constructor
  · rintro ⟨hMeans, -⟩
    exact absurd ((parseDatetime_stamp_iff night (by decide) .h1).mp hMeans) (by decide)
  · rintro ⟨hMeans, -⟩
    exact absurd ((parseDatetime_stamp_iff night (by decide) .d1).mp hMeans) (by decide)

end Eastern

end TradingAgent.Marketdata.TwelveData
