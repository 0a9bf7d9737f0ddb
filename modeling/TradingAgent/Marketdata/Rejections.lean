import TradingAgent.Marketdata.Binance

/-!
# Requests that the exchange rejects

In the hierarchy of the SDK a rejected request (`BadRequest`, `ArgumentsRequired`, `InvalidOrder`)
is an `ExchangeError`, and `handle_binance_error` asks for `ExchangeError` first. So the branch of
the rejected requests is not reached for them: they are mapped to `ProviderUnavailableError`, which
is retryable, and the policy repeats the request until the retries are used up or the breaker opens
(`fetch_rejected`).
-/

namespace TradingAgent.Marketdata.Binance

open Coroutine Tooling

/-- What the hierarchy of the SDK says of the classes of an exception. -/
structure Hierarchy (exc : SdkError) : Prop where
  exchangeError : exc.isAny [.badRequest, .argumentsRequired, .invalidOrder,
    .authenticationError] = true → .exchangeError ∈ exc.classes
  networkError : exc.isAny [.rateLimitExceeded, .requestTimeout, .ddosProtection,
    .exchangeNotAvailable] = true → .networkError ∈ exc.classes

/-- The exchange rejects the request. -/
def SdkError.rejects (exc : SdkError) : Bool :=
  exc.isAny [.badRequest, .argumentsRequired, .invalidOrder]

theorem SdkError.isAny_iff {exc : SdkError} {types : List SdkClass} :
    exc.isAny types = true ↔ ∃ cls ∈ types, cls ∈ exc.classes := by
  simp [isAny]

variable {exc : SdkError}

theorem Hierarchy.exchangeError_of_rejects (h : Hierarchy exc) (hRejects : exc.rejects = true) :
    .exchangeError ∈ exc.classes := by
  apply h.exchangeError
  obtain ⟨cls, hCls, hMem⟩ := SdkError.isAny_iff.mp hRejects
  refine SdkError.isAny_iff.mpr ⟨cls, ?_, hMem⟩
  exact List.mem_append_left [SdkClass.authenticationError] hCls

/-- The branch of `ExchangeError` comes before that of the rejected requests. -/
theorem Hierarchy.not_validation (h : Hierarchy exc) (hRejects : exc.rejects = true) :
    (handleBinanceError exc).cls ≠ .providerValidationError := by
  have hShadow : exc.isAny [.networkError, .exchangeNotAvailable, .onMaintenance, .ddosProtection,
      .exchangeError] = true :=
    SdkError.isAny_iff.mpr ⟨.exchangeError, by decide, h.exchangeError_of_rejects hRejects⟩
  unfold handleBinanceError
  rw [if_pos hShadow]
  split_ifs
  · exact fun hSame => by cases hSame
  · exact fun hSame => by cases hSame
  · exact fun hSame => by cases hSame
  · exact fun hSame => by cases hSame

/-- An exchange error that is neither a network error nor one of authentication. -/
theorem Hierarchy.handle_eq (h : Hierarchy exc) (hRejects : exc.rejects = true)
    (hNetwork : .networkError ∉ exc.classes)
    (hAuthentication : .authenticationError ∉ exc.classes) :
    handleBinanceError exc = domainError .providerUnavailableError "binance unavailable" := by
  have hNone (cls : SdkClass) (hCls : cls ∈ [SdkClass.rateLimitExceeded, .requestTimeout]) :
      ¬exc.isAny [cls] = true := by
    intro hAny
    obtain ⟨_, hOne, hMem⟩ := SdkError.isAny_iff.mp hAny
    rw [List.mem_singleton.mp hOne] at hMem
    refine hNetwork (h.networkError (SdkError.isAny_iff.mpr ⟨cls, ?_, hMem⟩))
    rcases List.mem_pair.mp hCls with rfl | rfl
    · decide
    · decide
  have hAllowed : ¬exc.isAny [.authenticationError] = true := fun hAny => by
    obtain ⟨_, hOne, hMem⟩ := SdkError.isAny_iff.mp hAny
    exact hAuthentication (List.mem_singleton.mp hOne ▸ hMem)
  have hShadow : exc.isAny [.networkError, .exchangeNotAvailable, .onMaintenance, .ddosProtection,
      .exchangeError] = true :=
    SdkError.isAny_iff.mpr ⟨.exchangeError, by decide, h.exchangeError_of_rejects hRejects⟩
  unfold handleBinanceError
  rw [if_neg (hNone _ (by decide)), if_neg hAllowed, if_neg (hNone _ (by decide)), if_pos hShadow]

section

variable [JsonLibrary] [IntText] [PyText] [BinanceModels] [Moments]

/-- Every call ends in `ProviderValidationError` after one request. -/
def Rejects (config : BinanceConfig) (sdk : Sdk) (f : Fields) (c : FetchCandles) : Prop :=
  ∀ out f' made,
    LoopRuns (steady ((source config sdk).fetch c)) (source config sdk).policy.run (f, [])
      (source config sdk).policy.run.first out (f', made) →
    (∃ exc, out = .error (.domain exc) ∧ exc.cls = .providerValidationError) ∧ made.length = 1

variable {config : BinanceConfig} {sdk : Sdk} {f f' : Fields} {c : FetchCandles}

theorem fetch_ends (config : BinanceConfig) (sdk : Sdk) (f : Fields) (c : FetchCandles) :
    ∃ out f' made,
      LoopRuns (steady ((source config sdk).fetch c)) (source config sdk).policy.run (f, [])
        (source config sdk).policy.run.first out (f', made) :=
  steady_ends rfl rfl ((source config sdk).fetch c) f

/-- A failing request is repeated as the class of its error says. -/
theorem fetch_failed (hSdk : sdk (requestOf c) = .error exc) {out : Except Raised (List Candle)}
    {made : List (Except Raised (List Candle))}
    (h : LoopRuns (steady ((source config sdk).fetch c)) (source config sdk).policy.run (f, [])
      (source config sdk).policy.run.first out (f', made)) :
    (made.length : ℤ) = min (RetryPolicy.tries ⟨config.retries⟩ (handleBinanceError exc) 0)
        (CircuitBreaker.room ⟨config.circuitOpenAfter⟩ f) ∧
      (out = .error (.domain (handleBinanceError exc)) ∨ out = .error (.domain circuitOpen)) := by
  have hFetch : (source config sdk).fetch c = .error (.domain (handleBinanceError exc)) := by
    show fetchAndMapOhlcv sdk c (requestOf c) = _
    rw [fetchAndMapOhlcv, hSdk]
    rfl
  rw [hFetch] at h
  exact failing_run rfl rfl h

/-- A rejected request is repeated until the retries are used up or the breaker opens. -/
theorem fetch_rejected (hHierarchy : Hierarchy exc) (hRejects : exc.rejects = true)
    (hNetwork : .networkError ∉ exc.classes) (hAuthentication : .authenticationError ∉ exc.classes)
    (hSdk : sdk (requestOf c) = .error exc) {out : Except Raised (List Candle)}
    {made : List (Except Raised (List Candle))}
    (h : LoopRuns (steady ((source config sdk).fetch c)) (source config sdk).policy.run (f, [])
      (source config sdk).policy.run.first out (f', made)) :
    (made.length : ℤ) = min (max 1 config.retries)
        (CircuitBreaker.room ⟨config.circuitOpenAfter⟩ f) ∧
      (out = .error (.domain (domainError .providerUnavailableError "binance unavailable")) ∨
        out = .error (.domain circuitOpen)) := by
  obtain ⟨hLength, hOut⟩ := fetch_failed hSdk h
  have hHandled := hHierarchy.handle_eq hRejects hNetwork hAuthentication
  rw [hHandled] at hLength hOut
  have hTries : RetryPolicy.tries ⟨config.retries⟩
      (domainError .providerUnavailableError "binance unavailable") 0 = max 1 config.retries := by
    show max (((0 : ℕ) : ℤ) + 1) config.retries - ((0 : ℕ) : ℤ) = _
    omega
  rw [hTries] at hLength
  exact ⟨hLength, hOut⟩

/-- **Rejected requests.** No configuration makes such a call end in a validation error. -/
theorem rejects_never (hHierarchy : Hierarchy exc) (hRejects : exc.rejects = true)
    (hSdk : sdk (requestOf c) = .error exc) : ¬Rejects config sdk f c := by
  intro hClaim
  obtain ⟨out, f', made, hRun⟩ := fetch_ends config sdk f c
  obtain ⟨⟨exc', hRaised, hClass⟩, -⟩ := hClaim out f' made hRun
  rcases (fetch_failed hSdk hRun).2 with hOut | hOut
  · rw [hOut] at hRaised
    cases hRaised
    exact hHierarchy.not_validation hRejects hClass
  · rw [hOut] at hRaised
    cases hRaised
    cases hClass

end

namespace Rejected

local instance : JsonLibrary where
  loads _ := none
  repr _ := "None"

local instance : PyText := asciiText

local instance : IntText where
  int s := (digitsAscii s.toList).map Nat.cast

local instance : BinanceModels where
  rowText _ := "Input should be a finite number"

local instance : Moments where
  timestamp := seconds
  strftime _ _ := "1970-01-01"
  strptime _ _ := none

/-- A `BadRequest`, with the classes above it. -/
def badRequest : SdkError where
  classes := [.badRequest, .exchangeError]
  text := "binance code -1100"
  repr := "BadRequest('binance code -1100')"

def sdk : Sdk := fun _ => .error badRequest

def call : FetchCandles where
  symbol := btcUsd
  timeframe := .h1
  now := 0

theorem badRequest_hierarchy : Hierarchy badRequest where
  exchangeError _ := by decide
  networkError hAny := absurd hAny (by decide)

/-- A new adapter with its default policy sends a bad request three times. -/
theorem sent_thrice : ¬Rejects {} sdk {} call ∧ ∃ out f' made,
    LoopRuns (steady ((source {} sdk).fetch call)) (source {} sdk).policy.run (({} : Fields), [])
      (source {} sdk).policy.run.first out (f', made) ∧ made.length = 3 := by
  obtain ⟨out, f', made, hRun⟩ := fetch_ends {} sdk {} call
  have hLength : (made.length : ℤ) = 3 :=
    (fetch_rejected badRequest_hierarchy rfl (by decide) (by decide) rfl hRun).1
  have hThree : made.length = 3 := Int.ofNat_inj.mp hLength
  refine ⟨fun hClaim => ?_, out, f', made, hRun, hThree⟩
  rw [(hClaim out f' made hRun).2] at hThree
  cases hThree

theorem call_never : ¬Rejects {} sdk {} call :=
  rejects_never badRequest_hierarchy rfl rfl

end Rejected

end TradingAgent.Marketdata.Binance
