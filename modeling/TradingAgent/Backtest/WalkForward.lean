import TradingAgent.Backtest.Engine
import TradingAgent.Core.Taxonomy
import TradingAgent.Marketdata.Entities
import TradingAgent.Number.Rounding
import TradingAgent.Word.Windows

/-!
# Walking forward

`walkForward` runs the backtest on the folds of its range. A fold starts after a multiple of
the step, rounded to microseconds, and ends one rounded step later; the candle store includes
both bounds. `partitions_iff` says when every candle of the range is then used by exactly one
fold.
-/

namespace TradingAgent.Backtest

open Marketdata Rounding

/-! ## Spans of time -/

/-- `timedelta(seconds=seconds)`, in microseconds. -/
def timedelta (seconds : ℚ) : ℤ :=
  let whole := seconds.num.tdiv seconds.den
  whole * 10 ^ 6 + halfEven (double (10 ^ 6 * (seconds - whole)))

/-- `(end - start).total_seconds()`. -/
def totalSeconds (config : BacktestConfig) : ℚ :=
  double ((config.end - config.start : ℤ) / 10 ^ 6)

theorem timedelta_eq {seconds : ℚ} (h : 0 ≤ seconds) :
    timedelta seconds =
      ⌊seconds⌋ * 10 ^ 6 + halfEven (double (10 ^ 6 * (seconds - ⌊seconds⌋))) := by
  have hWhole : seconds.num.tdiv seconds.den = ⌊seconds⌋ := by
    rw [Int.tdiv_eq_ediv_of_nonneg (Rat.num_nonneg.mpr h), Rat.floor_def']
  unfold timedelta
  rw [hWhole]

theorem timedelta_natCast (n : ℕ) : timedelta n = n * 10 ^ 6 := by
  rw [timedelta_eq (Nat.cast_nonneg n), Int.floor_natCast, Int.cast_natCast, sub_self, mul_zero,
    double_zero]
  exact add_eq_left.mpr (halfEven_intCast 0)

/-- The microseconds of a part of a second. -/
theorem micros_mem {part : ℚ} (hNonneg : 0 ≤ part) (hLt : part < 1) :
    0 ≤ halfEven (double (10 ^ 6 * part)) ∧ halfEven (double (10 ^ 6 * part)) ≤ 10 ^ 6 := by
  have hScaled : 0 ≤ 10 ^ 6 * part := mul_nonneg (by norm_num) hNonneg
  have hMillion : double ((10 ^ 6 : ℕ) : ℚ) = (10 ^ 6 : ℕ) := double_natCast (by norm_num)
  refine ⟨le_halfEven (by rw [Int.cast_zero]; exact double_nonneg hScaled), halfEven_le_of_le ?_⟩
  have hMono : double (10 ^ 6 * part) ≤ double ((10 ^ 6 : ℕ) : ℚ) := by
    apply double_mono hScaled
    push_cast
    linarith
  rw [hMillion] at hMono
  push_cast at hMono ⊢
  exact hMono

theorem timedelta_mono {x y : ℚ} (hNonneg : 0 ≤ x) (h : x ≤ y) :
    timedelta x ≤ timedelta y := by
  have hPart (z : ℚ) : 0 ≤ z - ⌊z⌋ ∧ z - ⌊z⌋ < 1 :=
    ⟨Int.fract_nonneg z, Int.fract_lt_one z⟩
  rw [timedelta_eq hNonneg, timedelta_eq (hNonneg.trans h)]
  rcases (Int.floor_le_floor h).eq_or_lt with hEq | hLt
  · rw [hEq]
    refine Int.add_le_add_left (halfEven_mono (double_mono ?_ ?_)) _
    · have hX := (hPart x).1
      rw [hEq] at hX
      exact mul_nonneg (by norm_num) hX
    · linarith
  · obtain ⟨-, hUpper⟩ := micros_mem (hPart x).1 (hPart x).2
    obtain ⟨hLower, -⟩ := micros_mem (hPart y).1 (hPart y).2
    omega

/-! ## The engine -/

structure BacktestCompleted where
  symbol : String
  strategyId : String
  tradeCount : ℕ
  totalReturnPct : ℚ
  deriving DecidableEq, Repr

/-- The ports of the engine: the strategies that are known, the candles that are stored, in
ascending order, the feature computer and the strategy gateway. -/
structure Services (F : Type) where
  strategies : List String
  stored : Symbol → Timeframe → List Candle
  compute : List Candle → List F
  evaluate : Evaluate F

section Engine

variable {F : Type} (services : Services F)

/-- `query_range`, which includes both bounds. -/
def Services.queryRange (symbol : Symbol) (timeframe : Timeframe) (start «end» : Datetime) :
    List Candle :=
  (services.stored symbol timeframe).filter fun candle =>
    start ≤ candle.openedAt ∧ candle.openedAt ≤ «end»

def requireStrategy (strategyId : String) : Except Exn Unit :=
  if strategyId ∈ services.strategies then .ok () else .error (.other "NotFoundError")

variable [PyText]

/-- `BacktestEngine.run` in exact arithmetic, with the events that it publishes. -/
def run (config : BacktestConfig) :
    Except Exn (Result BacktestResult DomainError × List BacktestCompleted) := do
  requireStrategy services config.strategyId
  let symbol ← Symbol.of config.symbol
  let timeframe ← Timeframe.ofValue config.timeframe
  let candles := services.queryRange symbol timeframe config.start config.end
  if candles.length < 30 then
    return (.err
      { cls := .insufficientDataError, message := "not enough candles for backtest" }, [])
  let result ← simulate services.evaluate config candles (services.compute candles)
  return (.ok result,
    [{ symbol := config.symbol
       strategyId := config.strategyId
       tradeCount := result.tradeCount
       totalReturnPct := result.totalReturnPct }])

end Engine

/-- What every step of a fold keeps, the fold keeps. -/
theorem foldlM_keeps {A B : Type} {P : B → Prop} {l : List A} {f : B → A → Except Exn B}
    (hStep : ∀ a ∈ l, ∀ b b', P b → f b a = .ok b' → P b') {b b' : B} (hFirst : P b)
    (h : l.foldlM f b = .ok b') : P b' := by
  induction l generalizing b with
  | nil =>
    cases h
    exact hFirst
  | cons a rest ih =>
    rw [List.foldlM_cons] at h
    obtain ⟨next, hNext, hRest⟩ := bind_eq_ok.mp h
    exact ih (fun c hc => hStep c (List.mem_cons_of_mem _ hc))
      (hStep a List.mem_cons_self b next hFirst hNext) hRest

section Folds

variable (config : BacktestConfig) (folds : ℕ)

/-- `total / folds`, in seconds. -/
def foldStep : ℚ := double (totalSeconds config / double folds)

def foldStart (fold : ℕ) : Datetime :=
  config.start + timedelta (double (foldStep config folds * double fold))

def foldEnd (fold : ℕ) : Datetime := foldStart config folds fold + timedelta (foldStep config folds)

def foldConfig (fold : ℕ) : BacktestConfig :=
  { config with
    start := foldStart config folds fold
    «end» := foldEnd config folds fold
    seed := some (config.seed.getD 0 + fold) }

end Folds

section Engine

variable {F : Type} (services : Services F) [PyText]

/-- One fold of the walk: a fold with an error is left out of the results. -/
def walkFold (config : BacktestConfig) (folds : ℕ)
    (walked : List BacktestResult × List BacktestCompleted) (fold : ℕ) :
    Except Exn (List BacktestResult × List BacktestCompleted) := do
  let (res, events) ← run services (foldConfig config folds fold)
  match res with
  | .ok result => return (walked.1 ++ [result], walked.2 ++ events)
  | .err _ => return (walked.1, walked.2 ++ events)

/-- `BacktestEngine.walk_forward`. -/
def walkForward (config : BacktestConfig) (folds : ℕ) :
    Except Exn (List BacktestResult × List BacktestCompleted) :=
  if folds = 0 then .error (.other "ZeroDivisionError")
  else (List.range folds).foldlM (walkFold services config folds) ([], [])

/-! ## The candles that a run uses -/

/-- The candles stored for the symbol and the timeframe of a configuration. -/
def series (config : BacktestConfig) : List Candle :=
  match Symbol.of config.symbol, Timeframe.ofValue config.timeframe with
  | .ok symbol, .ok timeframe => services.stored symbol timeframe
  | _, _ => []

/-- The candles that a run of the configuration is made on. -/
def used (config : BacktestConfig) : List Candle :=
  (series services config).filter fun candle =>
    config.start ≤ candle.openedAt ∧ candle.openedAt ≤ config.end

variable {services}

theorem mem_used {config : BacktestConfig} {candle : Candle} :
    candle ∈ used services config ↔ candle ∈ series services config ∧
      config.start ≤ candle.openedAt ∧ candle.openedAt ≤ config.end := by
  rw [used, List.mem_filter, decide_eq_true_eq]

/-- A run that succeeds simulates the candles that it uses, at least thirty of them. -/
theorem run_ok {config : BacktestConfig} {result : BacktestResult}
    {events : List BacktestCompleted} (h : run services config = .ok (.ok result, events)) :
    30 ≤ (used services config).length ∧
      simulate services.evaluate config (used services config)
        (services.compute (used services config)) = .ok result := by
  obtain ⟨known, -, h⟩ := bind_eq_ok.mp h
  obtain ⟨symbol, hSymbol, h⟩ := bind_eq_ok.mp h
  obtain ⟨timeframe, hTimeframe, h⟩ := bind_eq_ok.mp h
  have hUsed : used services config =
      services.queryRange symbol timeframe config.start config.end := by
    rw [used, series, hSymbol, hTimeframe]
    rfl
  rw [← hUsed] at h
  dsimp only at h
  by_cases hFew : (used services config).length < 30
  · rw [if_pos hFew] at h
    cases h
  · rw [if_neg hFew] at h
    obtain ⟨made, hMade, hResult⟩ := bind_eq_ok.mp h
    cases hResult
    exact ⟨not_lt.mp hFew, hMade⟩

/-- Every result of the walk is the simulation of the candles that one fold uses. -/
theorem walkForward_results {config : BacktestConfig} {folds : ℕ}
    {walked : List BacktestResult × List BacktestCompleted}
    (h : walkForward services config folds = .ok walked) :
    ∀ result ∈ walked.1, ∃ fold < folds,
      simulate services.evaluate (foldConfig config folds fold)
        (used services (foldConfig config folds fold))
        (services.compute (used services (foldConfig config folds fold))) = .ok result := by
  by_cases hNone : folds = 0
  · rw [walkForward, if_pos hNone] at h
    cases h
  rw [walkForward, if_neg hNone] at h
  refine foldlM_keeps (P := fun walked : List BacktestResult × List BacktestCompleted =>
      ∀ result ∈ walked.1, ∃ fold < folds,
        simulate services.evaluate (foldConfig config folds fold)
          (used services (foldConfig config folds fold))
          (services.compute (used services (foldConfig config folds fold))) = .ok result)
    (fun fold hFold walked next hWalked hNext => ?_)
    (fun result hResult => absurd hResult List.not_mem_nil) h
  obtain ⟨⟨res, events⟩, hRun, hNext⟩ := bind_eq_ok.mp hNext
  cases res with
  | err e =>
    cases hNext
    exact hWalked
  | ok made =>
    cases hNext
    intro result hResult
    rcases List.mem_append.mp hResult with hEarlier | hThis
    · exact hWalked result hEarlier
    · obtain rfl := List.mem_singleton.mp hThis
      exact ⟨fold, List.mem_range.mp hFold, (run_ok hRun).2⟩

end Engine

/-! ## The windows of the folds -/

section Windows

variable {config : BacktestConfig} {folds : ℕ}

theorem foldStep_nonneg (hOrder : config.start ≤ config.end) : 0 ≤ foldStep config folds := by
  have hTotal : (0 : ℚ) ≤ (config.end - config.start : ℤ) / 10 ^ 6 := by
    refine div_nonneg ?_ (by norm_num)
    exact_mod_cast Int.sub_nonneg.mpr hOrder
  exact double_nonneg (div_nonneg (double_nonneg hTotal) (double_nonneg (Nat.cast_nonneg folds)))

theorem foldStart_mono (hOrder : config.start ≤ config.end) {a b : ℕ} (hLe : a ≤ b) :
    foldStart config folds a ≤ foldStart config folds b := by
  have hStep : 0 ≤ foldStep config folds := foldStep_nonneg hOrder
  have hIndex : double a ≤ double b :=
    double_mono (Nat.cast_nonneg a) (Nat.cast_le.mpr hLe)
  have hFirst : 0 ≤ foldStep config folds * double a :=
    mul_nonneg hStep (double_nonneg (Nat.cast_nonneg a))
  exact Int.add_le_add_left (timedelta_mono (double_nonneg hFirst)
    (double_mono hFirst (mul_le_mul_of_nonneg_left hIndex hStep))) _

theorem foldEnd_mono (hOrder : config.start ≤ config.end) {a b : ℕ} (hLe : a ≤ b) :
    foldEnd config folds a ≤ foldEnd config folds b :=
  Int.add_le_add_right (foldStart_mono hOrder hLe) _

theorem foldStart_zero : foldStart config folds 0 = config.start := by
  have hZero := timedelta_natCast 0
  rw [Nat.cast_zero] at hZero
  rw [foldStart, Nat.cast_zero, double_zero, mul_zero, double_zero, hZero]
  exact Int.add_zero _

/-- Folds of whole seconds are exact. -/
theorem fold_whole {seconds : ℕ} (hOrder : config.start < config.end)
    (hWhole : config.end - config.start = (folds * seconds * 10 ^ 6 : ℕ))
    (hRange : folds * seconds < 2 ^ 53) {fold : ℕ} (hFold : fold ≤ folds) :
    foldStart config folds fold = config.start + (fold * seconds * 10 ^ 6 : ℕ) ∧
      foldEnd config folds fold = config.start + ((fold + 1) * seconds * 10 ^ 6 : ℕ) := by
  have hPos : 0 < folds * seconds := by
    rcases Nat.eq_zero_or_pos (folds * seconds) with hZero | hPos
    · rw [hZero, Nat.zero_mul, Nat.cast_zero] at hWhole
      exact absurd (Int.sub_eq_zero.mp hWhole) hOrder.ne'
    · exact hPos
  have hFolds : 0 < folds := Nat.pos_of_mul_pos_right hPos
  have hSeconds : 0 < seconds := Nat.pos_of_mul_pos_left hPos
  have hTotal : totalSeconds config = (folds * seconds : ℕ) := by
    have hExact : ((config.end - config.start : ℤ) : ℚ) / 10 ^ 6 = (folds * seconds : ℕ) := by
      rw [hWhole, Int.cast_natCast, Nat.cast_mul (folds * seconds), Nat.cast_pow, Nat.cast_ofNat,
        mul_div_cancel_right₀ _ (by norm_num)]
    rw [totalSeconds, hExact, double_natCast hRange]
  have hStep : foldStep config folds = seconds := by
    have hLarge : folds < 2 ^ 53 := (Nat.le_mul_of_pos_right folds hSeconds).trans_lt hRange
    have hSmall : seconds < 2 ^ 53 := (Nat.le_mul_of_pos_left seconds hFolds).trans_lt hRange
    have hNonzero : (folds : ℚ) ≠ 0 := Nat.cast_ne_zero.mpr hFolds.ne'
    rw [foldStep, hTotal, double_natCast hLarge, Nat.cast_mul, mul_div_cancel_left₀ _ hNonzero,
      double_natCast hSmall]
  have hStart : foldStart config folds fold = config.start + (fold * seconds * 10 ^ 6 : ℕ) := by
    have hProduct : fold * seconds < 2 ^ 53 := (Nat.mul_le_mul_right seconds hFold).trans_lt hRange
    have hIndex : fold < 2 ^ 53 :=
      (hFold.trans (Nat.le_mul_of_pos_right folds hSeconds)).trans_lt hRange
    rw [foldStart, hStep, double_natCast hIndex, mul_comm, ← Nat.cast_mul,
      double_natCast hProduct, timedelta_natCast]
    push_cast
    rfl
  refine ⟨hStart, ?_⟩
  rw [foldEnd, hStart, hStep, timedelta_natCast]
  push_cast
  ring

end Windows

/-! ## The partition -/

section Partition

variable {F : Type} [PyText] (services : Services F) (config : BacktestConfig) (folds : ℕ)

/-- Every candle of the range is used by exactly one fold, and the last fold reaches the end. -/
def Partitions : Prop :=
  (∀ candle ∈ series services config, config.start ≤ candle.openedAt →
    candle.openedAt ≤ config.end →
    ∃ fold < folds, candle ∈ used services (foldConfig config folds fold) ∧
      ∀ other < folds, candle ∈ used services (foldConfig config folds other) → other = fold) ∧
    config.end ≤ (foldConfig config folds (folds - 1)).end

/-- No candle of the range falls where a fold overlaps with the next, or between the two, and
no rounding leaves out the end of the range. -/
def Parted : Prop :=
  (∀ candle ∈ series services config, config.start ≤ candle.openedAt →
    candle.openedAt ≤ config.end → ∀ fold, fold + 1 < folds →
      (candle.openedAt ≤ foldEnd config folds fold ↔
        candle.openedAt < foldStart config folds (fold + 1))) ∧
    config.end ≤ foldEnd config folds (folds - 1)

variable {services config folds}

theorem mem_used_fold {candle : Candle} (hStored : candle ∈ series services config) (fold : ℕ) :
    candle ∈ used services (foldConfig config folds fold) ↔
      foldStart config folds fold ≤ candle.openedAt ∧
        candle.openedAt ≤ foldEnd config folds fold := by
  rw [mem_used]
  exact and_iff_right hStored

theorem parted_iff (hFolds : 0 < folds) (hOrder : config.start < config.end) :
    Partitions services config folds ↔ Parted services config folds := by
  refine and_congr_left fun hReaches => forall₂_congr fun candle hStored =>
    forall₂_congr fun hFrom hTo => ?_
  have hFirst : foldStart config folds 0 ≤ candle.openedAt := foldStart_zero.trans_le hFrom
  rw [← Windows.unique_window_iff (fun _ _ => foldStart_mono hOrder.le)
    (fun _ _ => foldEnd_mono hOrder.le) hFolds hFirst (hTo.trans hReaches)]
  simp only [mem_used_fold hStored, Windows.InOne]

/-- Folds of whole seconds share the candles at their inner boundaries, and only these. -/
theorem parted_whole_iff (hFolds : 0 < folds) (hOrder : config.start < config.end) {seconds : ℕ}
    (hWhole : config.end - config.start = (folds * seconds * 10 ^ 6 : ℕ))
    (hRange : folds * seconds < 2 ^ 53) :
    Parted services config folds ↔
      ∀ candle ∈ series services config, ∀ fold, 0 < fold → fold < folds →
        candle.openedAt ≠ config.start + (fold * seconds * 10 ^ 6 : ℕ) := by
  have hEnd : config.end = config.start + (folds * seconds * 10 ^ 6 : ℕ) := by
    rw [← hWhole]
    ring
  have hReaches : config.end ≤ foldEnd config folds (folds - 1) := by
    rw [(fold_whole hOrder hWhole hRange (Nat.sub_le folds 1)).2, Nat.sub_add_cancel hFolds, hEnd]
  rw [Parted, and_iff_left hReaches]
  refine forall₂_congr fun candle hStored => ?_
  constructor
  · intro hParted fold hPos hLt hAt
    have hBoundary : (fold - 1 + 1) * seconds * 10 ^ 6 = fold * seconds * 10 ^ 6 := by
      rw [Nat.sub_add_cancel hPos]
    have hInside : (fold * seconds * 10 ^ 6 : ℕ) ≤ folds * seconds * 10 ^ 6 :=
      Nat.mul_le_mul_right _ (Nat.mul_le_mul_right _ hLt.le)
    have hFrom : config.start ≤ candle.openedAt := by
      rw [hAt]
      exact Int.le_add_of_nonneg_right (Int.natCast_nonneg _)
    have hTo : candle.openedAt ≤ config.end := by
      rw [hAt, hEnd]
      exact Int.add_le_add_left (Int.ofNat_le.mpr hInside) _
    have hShared := hParted hFrom hTo (fold - 1) (by omega)
    rw [(fold_whole hOrder hWhole hRange (by omega : fold - 1 ≤ folds)).2, hBoundary,
      Nat.sub_add_cancel hPos, (fold_whole hOrder hWhole hRange hLt.le).1, ← hAt] at hShared
    exact absurd (hShared.mp le_rfl) (lt_irrefl _)
  · intro hApart _ _ fold hLt
    rw [(fold_whole hOrder hWhole hRange (by omega : fold ≤ folds)).2,
      (fold_whole hOrder hWhole hRange hLt.le).1]
    exact ⟨fun hLe => lt_of_le_of_ne hLe (hApart (fold + 1) fold.succ_pos hLt), le_of_lt⟩

/-- **The folds as a partition.** When the folds are whole seconds, they partition the candles of
the range exactly when no candle opens at an inner boundary. Folds of any length do so exactly when
no candle falls in an overlap or a gap of two neighbours and the last fold reaches the end. -/
theorem partitions_iff (hFolds : 0 < folds) (hOrder : config.start < config.end) :
    (Partitions services config folds ↔ Parted services config folds) ∧
      ∀ seconds : ℕ, config.end - config.start = (folds * seconds * 10 ^ 6 : ℕ) →
        folds * seconds < 2 ^ 53 →
        (Partitions services config folds ↔
          ∀ candle ∈ series services config, ∀ fold, 0 < fold → fold < folds →
            candle.openedAt ≠ config.start + (fold * seconds * 10 ^ 6 : ℕ)) :=
  ⟨parted_iff hFolds hOrder, fun _ hWhole hRange =>
    (parted_iff hFolds hOrder).trans (parted_whole_iff hFolds hOrder hWhole hRange)⟩

end Partition

namespace TwoFolds

local instance : PyText := asciiText

def day : ℤ := 86400 * 10 ^ 6

/-- Two folds over four days. -/
def config : BacktestConfig where
  strategyId := "demo"
  start := 0
  «end» := 4 * day

/-- A candle every hour. -/
def services : Services Unit where
  strategies := ["demo"]
  stored _ _ := (List.range 97).map fun hour : ℕ =>
    { openedAt := hour * (3600 * 10 ^ 6), close := 100 }
  compute := fun _ => []
  evaluate := scripted []

theorem boundary_shared : ¬Partitions services config 2 := by
  intro h
  have hWhole : config.end - config.start = (2 * (2 * 86400) * 10 ^ 6 : ℕ) := by decide
  have hParted := (parted_whole_iff (by decide) (by decide) hWhole (by decide)).mp
    ((parted_iff (by decide) (by decide)).mp h)
  exact hParted { openedAt := 2 * day, close := 100 } (by decide +kernel) 1 (by decide)
    (by decide) (by decide)

theorem two_folds_partition :
    (Partitions services config 2 ↔ Parted services config 2) ∧
      ∀ seconds : ℕ, config.end - config.start = (2 * seconds * 10 ^ 6 : ℕ) →
        2 * seconds < 2 ^ 53 →
        (Partitions services config 2 ↔
          ∀ candle ∈ series services config, ∀ fold, 0 < fold → fold < 2 →
            candle.openedAt ≠ config.start + (fold * seconds * 10 ^ 6 : ℕ)) :=
  partitions_iff (by decide) (by decide)

end TwoFolds

end TradingAgent.Backtest
