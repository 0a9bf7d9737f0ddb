import Mathlib.Data.List.Basic
import Mathlib.Tactic.IntervalCases
import TradingAgent.Calendar.Dates

/-!
# Texts of the wall clock

A format is a list of directives, blanks and other characters. `strftime` writes what the wall clock
shows, and `strptime` reads it: each directive is a choice of patterns, a blank is any run of
whitespace, and what is read is the first of all choices that matches, which has to reach the end of
the text. A time is read again as it was written (`strptime_intraday`, `strptime_daily`).
-/

namespace Calendar

inductive Directive
  | year
  | month
  | day
  | hour
  | minute
  | second
  deriving DecidableEq, Repr

inductive Item
  | directive (d : Directive)
  | blank
  | literal (c : Char)
  deriving DecidableEq, Repr

/-- `%Y-%m-%d`. -/
def daily : List Item :=
  [.directive .year, .literal '-', .directive .month, .literal '-', .directive .day]

/-- `%Y-%m-%d %H:%M:%S`. -/
def intraday : List Item :=
  daily ++ [.blank, .directive .hour, .literal ':', .directive .minute, .literal ':',
    .directive .second]

/-! ## Writing -/

/-- The last digits of a number. -/
def pad : ℕ → ℕ → List Char
  | 0, _ => []
  | width + 1, n => pad width (n / 10) ++ [Nat.digitChar (n % 10)]

namespace Directive

def get (w : Wall) : Directive → ℕ
  | year => w.year
  | month => w.month
  | day => w.day
  | hour => w.hour
  | minute => w.minute
  | second => w.second

def set (w : Wall) (n : ℕ) : Directive → Wall
  | year => { w with year := n }
  | month => { w with month := n }
  | day => { w with day := n }
  | hour => { w with hour := n }
  | minute => { w with minute := n }
  | second => { w with second := n }

def width : Directive → ℕ
  | year => 4
  | _ => 2

end Directive

def Item.write (w : Wall) : Item → List Char
  | directive d => pad d.width (d.get w)
  | blank => [' ']
  | literal c => [c]

def strftime (items : List Item) (w : Wall) : String := String.ofList (items.flatMap (·.write w))

/-! ## Reading -/

/-- Characters between two, for each place of a pattern. -/
abbrev Pattern := List (Char × Char)

namespace Directive

def digit : Char × Char := ('0', '9')

def exactly (c : Char) : Char × Char := (c, c)

/-- The patterns of a directive, in the order in which they are tried. -/
def patterns : Directive → List Pattern
  | year => [[digit, digit, digit, digit]]
  | month => [[exactly '1', ('0', '2')], [exactly '0', ('1', '9')], [('1', '9')]]
  | day => [[exactly '3', ('0', '1')], [('1', '2'), digit], [exactly '0', ('1', '9')], [('1', '9')],
      [exactly ' ', ('1', '9')]]
  | hour => [[exactly '2', ('0', '3')], [('0', '1'), digit], [digit]]
  | minute => [[('0', '5'), digit], [digit]]
  | second => [[exactly '6', ('0', '1')], [('0', '5'), digit], [digit]]

end Directive

/-- The number that a pattern reads on from `n`, and the rest of the text. A blank counts as
nothing. -/
def Pattern.read : Pattern → ℕ → List Char → Option (ℕ × List Char)
  | [], n, cs => some (n, cs)
  | _ :: _, _, [] => none
  | (low, high) :: pattern, n, c :: cs =>
    if low ≤ c ∧ c ≤ high then
      Pattern.read pattern (if c = ' ' then n else 10 * n + (c.toNat - 48)) cs
    else none

/-- The readings of a directive, in the order in which they are tried. -/
def Directive.readings (d : Directive) (cs : List Char) : List (ℕ × List Char) :=
  d.patterns.filterMap fun pattern => pattern.read 0 cs

section

variable (space : Char → Bool)

/-- What is left of a text after some whitespace, the longest run first. -/
def runs (cs : List Char) : List (List Char) :=
  (List.range (cs.takeWhile space).length).reverse.map fun i => cs.drop (i + 1)

/-- All readings of a text, in the order in which they are tried. -/
def scan : List Item → Wall → List Char → List (Wall × List Char)
  | [], w, cs => [(w, cs)]
  | .directive d :: items, w, cs =>
    (d.readings cs).flatMap fun reading => scan items (d.set w reading.1) reading.2
  | .blank :: items, w, cs => (runs space cs).flatMap fun rest => scan items w rest
  | .literal _ :: _, _, [] => []
  | .literal c :: items, w, c' :: cs => if c' = c then scan items w cs else []

/-- What the wall clock shows if a text says nothing. -/
def origin : Wall where
  year := 1900
  month := 1
  day := 1

/-- The moment of a text, and `none` where `strptime` raises `ValueError`. -/
def strptime (items : List Item) (text : String) : Option ℤ :=
  match (scan space items origin text.toList).head? with
  | some (w, []) => if w.Valid then some w.moment else none
  | _ => none

end

/-! ## Reading again -/

theorem digitChar_spec {n : ℕ} (h : n < 10) :
    ('0' ≤ Nat.digitChar n ∧ Nat.digitChar n ≤ '9') ∧ Nat.digitChar n ≠ ' ' ∧
      (Nat.digitChar n).toNat - 48 = n := by
  interval_cases n <;> decide

theorem read_digit {n : ℕ} (h : n < 10) (pattern : Pattern) (before : ℕ) (rest : List Char) :
    Pattern.read (Directive.digit :: pattern) before (Nat.digitChar n :: rest) =
      Pattern.read pattern (10 * before + n) rest := by
  obtain ⟨hDigit, hBlank, hValue⟩ := digitChar_spec h
  unfold Directive.digit
  rw [Pattern.read, if_pos hDigit, if_neg hBlank, hValue]

namespace Directive

/-- The numbers that a directive writes. -/
def Writes (n : ℕ) : Directive → Prop
  | year => n < 10000
  | month => 1 ≤ n ∧ n ≤ 12
  | day => 1 ≤ n ∧ n ≤ 31
  | hour => n < 24
  | minute | second => n < 60

/-- What a directive has written is what it reads first. -/
theorem readings_pad {d : Directive} {n : ℕ} (h : d.Writes n) (rest : List Char) :
    ∃ others, d.readings (pad d.width n ++ rest) = (n, rest) :: others := by
  cases d with
  | year =>
    have hDigits : pad 4 n ++ rest = Nat.digitChar (n / 10 / 10 / 10 % 10) ::
        Nat.digitChar (n / 10 / 10 % 10) :: Nat.digitChar (n / 10 % 10) ::
          Nat.digitChar (n % 10) :: rest := rfl
    have hBound : n < 10000 := h
    have hValue : 10 * (10 * (10 * (10 * 0 + n / 10 / 10 / 10 % 10) + n / 10 / 10 % 10) +
        n / 10 % 10) + n % 10 = n := by omega
    have hMod (m : ℕ) : m % 10 < 10 := Nat.mod_lt m (by decide)
    refine ⟨[], ?_⟩
    show List.filterMap _ [[digit, digit, digit, digit]] = _
    rw [show pad (width year) n = pad 4 n from rfl, hDigits, List.filterMap_cons,
      read_digit (hMod _), read_digit (hMod _), read_digit (hMod _), read_digit (hMod _), hValue]
    rfl
  | month =>
    obtain ⟨hLow, hHigh⟩ : 1 ≤ n ∧ n ≤ 12 := h
    interval_cases n <;> exact ⟨_, rfl⟩
  | day =>
    obtain ⟨hLow, hHigh⟩ : 1 ≤ n ∧ n ≤ 31 := h
    interval_cases n <;> exact ⟨_, rfl⟩
  | hour =>
    have hBound : n < 24 := h
    interval_cases n <;> exact ⟨_, rfl⟩
  | minute =>
    have hBound : n < 60 := h
    interval_cases n <;> exact ⟨_, rfl⟩
  | second =>
    have hBound : n < 60 := h
    interval_cases n <;> exact ⟨_, rfl⟩

end Directive

/-- What a pattern leaves is the end of the text. -/
theorem read_suffix {pattern : Pattern} {before n : ℕ} {cs rest : List Char}
    (h : pattern.read before cs = some (n, rest)) : rest <:+ cs := by
  induction pattern generalizing before cs with
  | nil =>
    cases h
    exact List.suffix_rfl
  | cons place pattern ih =>
    cases cs with
    | nil => cases h
    | cons c cs =>
      rw [Pattern.read] at h
      split at h
      · exact (ih h).trans (List.suffix_cons c cs)
      · cases h

section

variable {space : Char → Bool}

theorem scan_directive {d : Directive} {items : List Item} {w : Wall} {cs rest : List Char} {n : ℕ}
    {others : List (ℕ × List Char)} {result : Wall × List Char}
    (hRead : d.readings cs = (n, rest) :: others)
    (hRest : (scan space items (d.set w n) rest).head? = some result) :
    (scan space (.directive d :: items) w cs).head? = some result := by
  rw [scan, hRead, List.flatMap_cons, List.head?_append, hRest]
  rfl

theorem scan_literal {c : Char} {items : List Item} {w : Wall} {cs : List Char}
    {result : Wall × List Char} (hRest : (scan space items w cs).head? = some result) :
    (scan space (.literal c :: items) w (c :: cs)).head? = some result := by
  rw [scan, if_pos rfl, hRest]

/-- One blank is the only run before a character that is none. -/
theorem scan_blank (hBlank : space ' ' = true) {c : Char} (hChar : space c = false)
    {items : List Item} {w : Wall} {cs : List Char} {result : Wall × List Char}
    (hRest : (scan space items w (c :: cs)).head? = some result) :
    (scan space (.blank :: items) w (' ' :: c :: cs)).head? = some result := by
  have hRuns : runs space (' ' :: c :: cs) = [c :: cs] := by
    unfold runs
    rw [List.takeWhile_cons_of_pos hBlank, List.takeWhile_cons_of_neg (by simp [hChar])]
    rfl
  rw [scan, hRuns, List.flatMap_cons, List.flatMap_nil, List.append_nil, hRest]

/-- Without whitespace no blank is read. -/
theorem scan_eq_nil {items : List Item} {w : Wall} {cs : List Char} (hItem : Item.blank ∈ items)
    (hNone : ∀ c ∈ cs, space c = false) : scan space items w cs = [] := by
  induction items generalizing w cs with
  | nil => cases hItem
  | cons item items ih =>
    cases item with
    | blank =>
      have hRuns : runs space cs = [] := by
        cases cs with
        | nil => rfl
        | cons c cs =>
          unfold runs
          rw [List.takeWhile_cons_of_neg (by simp [hNone c List.mem_cons_self])]
          rfl
      rw [scan, hRuns, List.flatMap_nil]
    | directive d =>
      rw [scan, List.flatMap_eq_nil_iff]
      intro reading hReading
      obtain ⟨pattern, -, hRead⟩ := List.mem_filterMap.mp hReading
      have hSuffix := read_suffix hRead
      exact ih (by simpa using hItem) fun c hc => hNone c (hSuffix.subset hc)
    | literal c =>
      cases cs with
      | nil => rfl
      | cons c' cs =>
        rw [scan]
        split
        · exact ih (by simpa using hItem) fun c hc => hNone c (List.mem_cons_of_mem c' hc)
        · rfl

end

/-- A blank is whitespace, and neither a digit nor a dash is. -/
structure Whitespace (space : Char → Bool) : Prop where
  blank : space ' ' = true
  digit : ∀ n < 10, space (Nat.digitChar n) = false
  dash : space '-' = false

theorem daysInMonth_le (year month : ℕ) : daysInMonth year month ≤ 31 := by
  unfold daysInMonth
  split <;> first | omega | (split <;> omega)

theorem Wall.Valid.writes {w : Wall} (h : w.Valid) (d : Directive) : d.Writes (d.get w) := by
  cases d with
  | year => exact Nat.lt_succ_of_le h.year.2
  | month => exact h.month
  | day => exact ⟨h.day.1, h.day.2.trans (daysInMonth_le _ _)⟩
  | hour => exact h.hour
  | minute => exact h.minute
  | second => exact h.second

/-! ### Moments of the texts -/

/-- What the wall clock shows, at the beginning of the second. -/
def Wall.toSecond (w : Wall) : Wall := { w with microsecond := 0 }

/-- What the wall clock shows, at the beginning of the day. -/
def Wall.toDay (w : Wall) : Wall where
  year := w.year
  month := w.month
  day := w.day

theorem Wall.Valid.toSecond_moment {w : Wall} (h : w.Valid) :
    w.toSecond.moment = w.moment / 1000000 * 1000000 := by
  have hMicrosecond := h.microsecond
  unfold Wall.toSecond Wall.moment Wall.ordinal Wall.ofDay
  push_cast
  omega

theorem Wall.Valid.toDay_moment {w : Wall} (h : w.Valid) :
    w.toDay.moment = w.moment / 86400000000 * 86400000000 := by
  have hTime := h.ofDay_lt
  have hMidnight : w.toDay.ofDay = 0 := by
    simp only [Wall.toDay, Wall.ofDay, Nat.zero_mul, Nat.zero_add]
  have hOrdinal : w.toDay.ordinal = w.ordinal := rfl
  rw [Wall.moment, Wall.moment, hOrdinal, hMidnight]
  omega

section

variable {space : Char → Bool} {w : Wall}

/-- The date comes first, whatever follows. -/
theorem scan_daily (h : w.Valid) {items : List Item} {rest : List Char}
    {result : Wall × List Char} (hRest : (scan space items w.toDay rest).head? = some result) :
    (scan space (daily ++ items) origin (daily.flatMap (·.write w) ++ rest)).head? =
      some result := by
  have hText : daily.flatMap (·.write w) ++ rest = pad 4 w.year ++ ('-' :: (pad 2 w.month ++
      ('-' :: (pad 2 w.day ++ rest)))) := rfl
  obtain ⟨years, hYear⟩ := Directive.readings_pad (h.writes .year)
    ('-' :: (pad 2 w.month ++ ('-' :: (pad 2 w.day ++ rest))))
  obtain ⟨months, hMonth⟩ := Directive.readings_pad (h.writes .month)
    ('-' :: (pad 2 w.day ++ rest))
  obtain ⟨days, hDay⟩ := Directive.readings_pad (h.writes .day) rest
  rw [hText]
  refine scan_directive hYear (scan_literal ?_)
  refine scan_directive hMonth (scan_literal ?_)
  exact scan_directive hDay hRest

/-- The time of the day ends the text. -/
theorem scan_time (h : w.Valid) (w' : Wall) :
    (scan space [.directive .hour, .literal ':', .directive .minute, .literal ':',
      .directive .second] w' (pad 2 w.hour ++ (':' :: (pad 2 w.minute ++ (':' ::
        (pad 2 w.second ++ [])))))).head? =
      some ({ w' with hour := w.hour, minute := w.minute, second := w.second }, []) := by
  obtain ⟨hours, hHour⟩ := Directive.readings_pad (h.writes .hour)
    (':' :: (pad 2 w.minute ++ (':' :: (pad 2 w.second ++ []))))
  obtain ⟨minutes, hMinute⟩ := Directive.readings_pad (h.writes .minute)
    (':' :: (pad 2 w.second ++ []))
  obtain ⟨seconds, hSecond⟩ := Directive.readings_pad (h.writes .second) []
  refine scan_directive hHour (scan_literal ?_)
  refine scan_directive hMinute (scan_literal ?_)
  exact scan_directive hSecond rfl

/-- **A day is read again.** -/
theorem strptime_daily (h : w.Valid) :
    strptime space daily (strftime daily w) = some w.toDay.moment := by
  have hScan : (scan space (daily ++ []) origin (daily.flatMap (·.write w) ++ [])).head? =
      some (w.toDay, []) := scan_daily h rfl
  have hValid : w.toDay.Valid := ⟨h.year, h.month, h.day, Nat.zero_lt_succ _,
    Nat.zero_lt_succ _, Nat.zero_lt_succ _, Nat.zero_lt_succ _⟩
  rw [List.append_nil, List.append_nil] at hScan
  unfold strptime strftime
  rw [String.toList_ofList, hScan]
  exact if_pos hValid

/-- **A second is read again.** -/
theorem strptime_intraday (hSpace : Whitespace space) (h : w.Valid) :
    strptime space intraday (strftime intraday w) = some w.toSecond.moment := by
  have hText : intraday.flatMap (·.write w) = daily.flatMap (·.write w) ++ (' ' ::
      (pad 2 w.hour ++ (':' :: (pad 2 w.minute ++ (':' :: (pad 2 w.second ++ [])))))) := by
    rw [intraday, List.flatMap_append]
    rfl
  have hHour : space (Nat.digitChar (w.hour / 10 % 10)) = false :=
    hSpace.digit _ (Nat.mod_lt _ (by decide))
  have hScan : (scan space intraday origin (intraday.flatMap (·.write w))).head? =
      some (w.toSecond, []) := by
    rw [hText]
    exact scan_daily h (scan_blank hSpace.blank hHour (scan_time h w.toDay))
  have hValid : w.toSecond.Valid :=
    ⟨h.year, h.month, h.day, h.hour, h.minute, h.second, Nat.zero_lt_succ _⟩
  unfold strptime strftime
  rw [String.toList_ofList, hScan]
  exact if_pos hValid

theorem mem_pad {width n : ℕ} {c : Char} (hc : c ∈ pad width n) :
    ∃ digit < 10, c = Nat.digitChar digit := by
  induction width generalizing n with
  | zero => cases hc
  | succ width ih =>
    rcases List.mem_append.mp hc with hBefore | hLast
    · exact ih hBefore
    · exact ⟨n % 10, Nat.mod_lt n (by decide), List.mem_singleton.mp hLast⟩

/-- What digits and the other characters of a format share, a text of the format has throughout. -/
theorem forall_mem_write {items : List Item} {p : Char → Prop}
    (hDigit : ∀ n < 10, p (Nat.digitChar n)) (hBlank : .blank ∈ items → p ' ')
    (hLiteral : ∀ c, .literal c ∈ items → p c) : ∀ c ∈ items.flatMap (·.write w), p c := by
  intro c hc
  obtain ⟨item, hItem, hMem⟩ := List.mem_flatMap.mp hc
  cases item with
  | directive d =>
    obtain ⟨digit, hLt, rfl⟩ := mem_pad hMem
    exact hDigit digit hLt
  | blank =>
    obtain rfl := List.mem_singleton.mp hMem
    exact hBlank hItem
  | literal c' =>
    obtain rfl := List.mem_singleton.mp hMem
    exact hLiteral c hItem

theorem strftime_ascii {items : List Item} (hItems : ∀ c, .literal c ∈ items → c.toNat < 128) :
    ∀ c ∈ (strftime items w).toList, c.toNat < 128 := by
  rw [strftime, String.toList_ofList]
  refine forall_mem_write (fun n hDigit => ?_) (fun _ => by decide) hItems
  interval_cases n <;> decide

/-- A day is no second. -/
theorem strptime_intraday_daily (hSpace : Whitespace space) (w : Wall) :
    strptime space intraday (strftime daily w) = none := by
  have hNone : ∀ c ∈ daily.flatMap (·.write w), space c = false := by
    refine forall_mem_write hSpace.digit (fun hBlank => ?_) fun c hc => ?_
    · exact absurd hBlank (by decide)
    · obtain rfl : c = '-' := by simpa [daily] using hc
      exact hSpace.dash
  unfold strptime strftime
  rw [String.toList_ofList, scan_eq_nil (by decide) hNone]
  rfl

end

end Calendar
