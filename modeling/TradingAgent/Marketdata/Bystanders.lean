import TradingAgent.Marketdata.Yahoo
import TradingAgent.Marketdata.TwelveData
import TradingAgent.Word.Streaks

/-!
# Bystanders of rejected requests

Calls of one adapter share its breaker, which counts every domain error: also the rejection
of a request that is the caller's fault. The outcomes of the calls that the vendor serves are
the same with and without the rejected calls exactly if, before each of them, the breaker has
tripped both with and without the rejected calls, or with neither (`bystanders_iff`).
-/

namespace TradingAgent.Marketdata

open Coroutine Tooling Streaks

section

variable {C P R : Type}

/-- The calls that are not of the kind `dropped`. -/
def without (dropped : C → Bool) (calls : List C) : List C := calls.filter fun c => !dropped c

namespace Source

variable (source : Source C P R) (retry : RetryPolicy) (breaker : CircuitBreaker)

/-- The answers of the vendor to the attempts of a call, if none of them is rejected by the
breaker. -/
def attempts (c : C) : List (Except Raised P) :=
  match source.refused c with
  | some _ => []
  | none => trials retry (source.fetch c)

/-- The calls so far have tripped the breaker. -/
def TrippedBy (calls : List C) : Prop := breaker.Tripped (calls.flatMap (source.attempts retry))

/-- The calls so far have tripped the breaker just if they have without the dropped ones. -/
def Bystander (dropped : C → Bool) (before : List C) (c : C) : Prop :=
  source.served c = true →
    (source.TrippedBy retry breaker before ↔
      source.TrippedBy retry breaker (without dropped before))

/-- The calls that are served, with their outcomes. -/
def servedOutcomes (log : List (C × Except Raised R)) : List (C × Except Raised R) :=
  log.filter fun call => source.served call.1

/-- The outcomes of the calls that are served are the same with and without the dropped
calls. -/
def Indifferent (dropped : C → Bool) (calls : List C) : Prop :=
  ∀ log f log' f', source.Session log f → source.Session log' f' → log.map Prod.fst = calls →
    log'.map Prod.fst = without dropped calls →
      source.servedOutcomes log = source.servedOutcomes log'

variable {source retry breaker} {f f' : Fields} {c : C} {out : Except Raised R}
  {log : List (C × Except Raised R)}

/-! ## Sessions -/

/-- What a call makes of the counters. -/
theorem Fetches.counters (hRetry : source.policy.retry = some retry)
    (hBreaker : source.policy.breaker = some breaker) (h : source.Fetches f c out f') :
    Same f'.counters ((source.attempts retry c).foldl breaker.observe f.counters) := by
  unfold attempts
  cases h with
  | refused exc hRefused =>
    rw [hRefused]
    exact .refl _
  | ran hAdmitted hRun =>
    rw [hAdmitted]
    exact (steady_run hRetry hBreaker hRun).1

theorem Session.counters (hRetry : source.policy.retry = some retry)
    (hBreaker : source.policy.breaker = some breaker) (h : source.Session log f) :
    Same f.counters (breaker.after ((log.map Prod.fst).flatMap (source.attempts retry))) := by
  induction h with
  | nil => exact .refl _
  | @snoc log f f' c out _ hFetches ih =>
    rw [List.map_append, List.flatMap_append, after_append]
    refine (hFetches.counters hRetry hBreaker).trans ?_
    simpa using ih.foldl (source.attempts retry c)

theorem Session.opened_iff (hRetry : source.policy.retry = some retry)
    (hBreaker : source.policy.breaker = some breaker) (h : source.Session log f) :
    f.opened = true ↔ source.TrippedBy retry breaker (log.map Prod.fst) := by
  unfold TrippedBy
  rw [← opened_iff_tripped, ← (h.counters hRetry hBreaker).1]
  exact Iff.rfl

/-- A served call succeeds, unless the breaker is open. -/
theorem Fetches.outcome (hRetry : source.policy.retry = some retry)
    (hBreaker : source.policy.breaker = some breaker) (h : source.Fetches f c out f')
    (hServed : source.served c = true) :
    out = if f.opened = true then .error (.domain circuitOpen)
      else source.fetch c >>= source.map c := by
  unfold served at hServed
  cases h with
  | refused exc hRefused =>
    rw [hRefused] at hServed
    cases hServed
  | @ran ended made f' hAdmitted hRun =>
    rw [hAdmitted] at hServed
    obtain ⟨-, hRejected, hReturned⟩ := steady_run hRetry hBreaker hRun
    by_cases hOpen : f.opened = true
    · rw [if_pos hOpen, hRejected hOpen]
      rfl
    · rw [if_neg hOpen]
      cases hFetch : source.fetch c with
      | error e =>
        rw [hFetch] at hServed
        cases hServed
      | ok payload => rw [hReturned (Bool.not_eq_true _ ▸ hOpen) payload hFetch]

/-- The two outcomes of a served call differ. -/
theorem outcome_ne (hServed : source.served c = true) :
    (.error (.domain circuitOpen) : Except Raised R) ≠ source.fetch c >>= source.map c := by
  intro hSame
  unfold served at hServed
  rw [← hSame] at hServed
  split at hServed <;> cases hServed

theorem outcomes_agree {out' : Except Raised R} {f₁ : Fields}
    (hOut : out = if f.opened = true then .error (.domain circuitOpen)
      else source.fetch c >>= source.map c)
    (hOut' : out' = if f₁.opened = true then .error (.domain circuitOpen)
      else source.fetch c >>= source.map c) (hServed : source.served c = true) :
    out = out' ↔ (f.opened = true ↔ f₁.opened = true) := by
  have hNe := outcome_ne hServed
  rw [hOut, hOut']
  by_cases hOpen : f.opened = true <;> by_cases hOpen' : f₁.opened = true
  · simp [hOpen, hOpen']
  · simp [hOpen, hOpen', hNe]
  · simp [hOpen, hOpen', hNe.symm]
  · simp [hOpen, hOpen']

theorem servedOutcomes_snoc :
    source.servedOutcomes (log ++ [(c, out)]) =
      source.servedOutcomes log ++ if source.served c = true then [(c, out)] else [] := by
  unfold servedOutcomes
  rw [List.filter_append, List.filter_singleton]
  cases source.served c <;> rfl

theorem without_snoc (dropped : C → Bool) (calls : List C) (c : C) :
    without dropped (calls ++ [c]) =
      without dropped calls ++ if dropped c = true then [] else [c] := by
  unfold without
  rw [List.filter_append, List.filter_singleton]
  cases dropped c <;> rfl

/-- **Sessions with and without the dropped calls.** -/
theorem bystanders (hRetry : source.policy.retry = some retry)
    (hBreaker : source.policy.breaker = some breaker) {dropped : C → Bool}
    (hDropped : ∀ c, dropped c = true → source.served c = false)
    {log' : List (C × Except Raised R)} {f' : Fields} (h : source.Session log f)
    (h' : source.Session log' f')
    (hWithout : log'.map Prod.fst = without dropped (log.map Prod.fst)) :
    source.servedOutcomes log = source.servedOutcomes log' ↔
      Throughout (source.Bystander retry breaker dropped) (log.map Prod.fst) := by
  induction h generalizing log' f' with
  | nil =>
    rw [List.map_eq_nil_iff.mp hWithout]
    exact ⟨fun _ => throughout_nil, fun _ => rfl⟩
  | @snoc log f g c out hLog hFetches ih =>
    rw [List.map_append, List.map_singleton] at hWithout ⊢
    rw [without_snoc] at hWithout
    rw [servedOutcomes_snoc, throughout_append_singleton]
    by_cases hDrop : dropped c = true
    · -- The other session does not have the call.
      have hNot := hDropped c hDrop
      rw [if_pos hDrop, List.append_nil] at hWithout
      rw [hNot, if_neg Bool.false_ne_true, List.append_nil, ih h' hWithout]
      refine ⟨fun hAll => ⟨hAll, fun hServed => ?_⟩, fun hAll => hAll.1⟩
      rw [hNot] at hServed
      cases hServed
    · rw [if_neg hDrop] at hWithout
      cases h' with
      | nil => cases List.append_ne_nil_of_right_ne_nil _ (List.cons_ne_nil c []) hWithout.symm
      | @snoc log' f₁ g' c' out' hLog' hFetches' =>
        rw [List.map_append, List.map_singleton] at hWithout
        obtain ⟨hInit, hLast⟩ := List.append_inj' hWithout rfl
        have hSame : c' = c := List.singleton_inj.mp hLast
        subst hSame
        rw [servedOutcomes_snoc]
        by_cases hServed : source.served c' = true
        · rw [if_pos hServed, if_pos hServed, ← ih hLog' hInit]
          have hAgree := outcomes_agree (hFetches.outcome hRetry hBreaker hServed)
            (hFetches'.outcome hRetry hBreaker hServed) hServed
          rw [hLog.opened_iff hRetry hBreaker, hLog'.opened_iff hRetry hBreaker, hInit] at hAgree
          constructor
          · intro hEqual
            obtain ⟨hEarlier, hCall⟩ := List.append_inj' hEqual rfl
            exact ⟨hEarlier, fun _ => hAgree.mp (Prod.mk.inj (List.singleton_inj.mp hCall)).2⟩
          · rintro ⟨hEarlier, hBystander⟩
            rw [hEarlier, hAgree.mpr (hBystander hServed)]
        · rw [if_neg hServed, if_neg hServed, List.append_nil, List.append_nil, ih hLog' hInit]
          exact ⟨fun hAll => ⟨hAll, fun hYes => absurd hYes hServed⟩, fun hAll => hAll.1⟩

/-- Every sequence of calls has a session. -/
theorem session_exists (hRetry : source.policy.retry = some retry)
    (hBreaker : source.policy.breaker = some breaker) (calls : List C) :
    ∃ log f, source.Session log f ∧ log.map Prod.fst = calls := by
  induction calls using List.reverseRecOn with
  | nil => exact ⟨[], {}, .nil, rfl⟩
  | append_singleton calls c ih =>
    obtain ⟨log, f, hSession, hCalls⟩ := ih
    have hFetches : ∃ out f', source.Fetches f c out f' := by
      cases hRefused : source.refused c with
      | some exc => exact ⟨_, f, .refused exc hRefused⟩
      | none =>
        obtain ⟨out, f', made, hRun⟩ := steady_ends hRetry hBreaker (source.fetch c) f
        exact ⟨_, f', .ran hRefused hRun⟩
    obtain ⟨out, f', hFetches⟩ := hFetches
    refine ⟨log ++ [(c, out)], f', hSession.snoc hFetches, ?_⟩
    rw [List.map_append, hCalls]
    rfl

theorem indifferent_iff (hRetry : source.policy.retry = some retry)
    (hBreaker : source.policy.breaker = some breaker) {dropped : C → Bool}
    (hDropped : ∀ c, dropped c = true → source.served c = false) (calls : List C) :
    source.Indifferent dropped calls ↔
      Throughout (source.Bystander retry breaker dropped) calls := by
  constructor
  · intro h
    obtain ⟨log, f, hLog, hCalls⟩ := session_exists hRetry hBreaker calls
    obtain ⟨log', f', hLog', hKept⟩ := session_exists hRetry hBreaker (without dropped calls)
    have hSame := h log f log' f' hLog hLog' hCalls hKept
    subst hCalls
    exact (bystanders hRetry hBreaker hDropped hLog hLog' hKept).mp hSame
  · rintro h log f log' f' hLog hLog' rfl hKept
    exact (bystanders hRetry hBreaker hDropped hLog hLog' hKept).mpr h

end Source

/-! ## The two vendors -/

variable [JsonLibrary] [Yahoo.YahooModels] [Moments]
  [TwelveData.TwelveModels] [PyText]

/-- **Bystanders of rejected requests.** -/
theorem bystanders_iff (yahoo : Yahoo.YahooConfig) (twelve : TwelveData.TwelveDataConfig)
    (vendor : Request → Exchange) (calls : List FetchCandles) :
    ((Yahoo.source yahoo vendor).Indifferent (Yahoo.rejected vendor) calls ↔
      Throughout ((Yahoo.source yahoo vendor).Bystander { retries := yahoo.retries }
        { failureThreshold := yahoo.circuitOpenAfter } (Yahoo.rejected vendor)) calls) ∧
    ((TwelveData.source twelve vendor).Indifferent (TwelveData.rejected twelve vendor) calls ↔
      Throughout ((TwelveData.source twelve vendor).Bystander { retries := twelve.retries }
        { failureThreshold := twelve.circuitOpenAfter } (TwelveData.rejected twelve vendor))
        calls) := by
  constructor
  · exact Source.indifferent_iff rfl rfl (fun c => Yahoo.not_served) calls
  · exact Source.indifferent_iff rfl rfl (fun c => TwelveData.not_served) calls

end

namespace Mistyped

/-! Five requests for a symbol that Yahoo does not know open the breaker of the defaults for
the symbols that it knows. -/

theorem btc_formed : codePattern "BTC/USDT" = true := by decide

def btc : Symbol where
  code := "BTC/USDT"
  formed := btc_formed

def nope : Symbol where
  code := "NOPE/USD"
  formed := by decide

def chartText : String :=
  "\x7b\"chart\":\x7b\"result\":[\x7b\"timestamp\":[60],\"indicators\":\x7b\"quote\":[\x7b" ++
  "\"open\":[1],\"high\":[1],\"low\":[1],\"close\":[1],\"volume\":[1]\x7d]\x7d\x7d]\x7d\x7d"

def one : List (Option Decimal) := [some (.finite 1)]

def result : Yahoo.YahooChartResult where
  timestamp := some [60]
  quote := [⟨one, one, one, one, one⟩]

def ones : Json := .arr [.int 1]

def payload : Json :=
  .obj [("chart", .obj [("result", .arr [.obj [("timestamp", .arr [.int 60]),
    ("indicators", .obj [("quote", .arr [.obj [("open", ones), ("high", ones), ("low", ones),
      ("close", ones), ("volume", ones)]])])]])])]

local instance : JsonLibrary where
  loads text := if text = chartText then some payload else none
  repr _ := "None"

local instance : Yahoo.YahooModels where
  chart
    | .obj [("chart", _)] => .ok { result := some [result] }
    | _ => .error "chart: Field required"
  rowText _ := "Input should be a finite number"

local instance : Moments where
  timestamp moment := moment / 1000000
  strftime _ _ := "1970-01-01"
  strptime _ _ := none

def vendor (request : Request) : Exchange :=
  if request.path = "/v8/finance/chart/BTC-USD" then .response 200 chartText
  else .response 404 "Not Found"

def unknown : FetchCandles where
  symbol := nope
  timeframe := .h1
  now := 0

def known : FetchCandles where
  symbol := btc
  timeframe := .h1
  now := 0

def source : Source FetchCandles Yahoo.YahooChartResult (List Candle) := Yahoo.source {} vendor

theorem known_fetched : source.fetch known = .ok result := by
  have hPath : (Yahoo.requestOf known).path = "/v8/finance/chart/BTC-USD" := rfl
  have hAnswer : vendor (Yahoo.requestOf known) = .response 200 chartText := if_pos hPath
  have hLoads : JsonLibrary.loads chartText = some payload := if_pos rfl
  show Yahoo.chartOf (vendor (Yahoo.requestOf known)) = _
  rw [hAnswer, Yahoo.chartOf, getJson_ok (by decide) hLoads]
  rfl

theorem known_served : source.served known = true := by
  have hRefused : source.refused known = none := rfl
  unfold Source.served
  rw [hRefused, known_fetched]
  rfl

theorem unknown_rejected : Yahoo.rejected vendor unknown = true := by
  have hPath : (Yahoo.requestOf unknown).path ≠ "/v8/finance/chart/BTC-USD" := by decide
  have hAnswer : vendor (Yahoo.requestOf unknown) = .response 404 "Not Found" := if_neg hPath
  unfold Yahoo.rejected
  rw [hAnswer]
  rfl

theorem unknown_attempted :
    ∃ exc, source.attempts {} unknown = [.error (.domain exc)] := by
  obtain ⟨exc, hFetch, hClass⟩ := Yahoo.rejects_validation unknown_rejected
  have hFetched : source.fetch unknown = .error (.domain exc) := hFetch
  have hRefused : source.refused unknown = none := rfl
  have hOnce : transient (.error (.domain exc) : Except Raised Yahoo.YahooChartResult) = false := by
    show exc.cls.retryable = false
    rw [hClass]
    rfl
  refine ⟨exc, ?_⟩
  unfold Source.attempts
  rw [hRefused, hFetched]
  unfold trials
  rw [hOnce]
  rfl

def calls : List FetchCandles := List.replicate 5 unknown ++ [known]

theorem tripped : source.TrippedBy {} {} (List.replicate 5 unknown) := by
  obtain ⟨exc, hAttempts⟩ := unknown_attempted
  unfold Source.TrippedBy
  rw [← opened_iff_tripped]
  simp only [List.replicate, List.flatMap_cons, List.flatMap_nil, hAttempts]
  rfl

theorem not_always_indifferent : ¬∀ (config : Yahoo.YahooConfig) (vendor : Request → Exchange)
    (calls : List FetchCandles),
      (Yahoo.source config vendor).Indifferent (Yahoo.rejected vendor) calls := by
  intro hAlways
  have hAll := (Source.indifferent_iff rfl rfl (fun c => Yahoo.not_served) calls).mp
    (hAlways {} vendor calls)
  have hTripped := (hAll _ known [] rfl known_served).mp tripped
  have hKept : without (Yahoo.rejected vendor) (List.replicate 5 unknown) = [] := by
    unfold without
    simp only [List.replicate, List.filter, unknown_rejected, Bool.not_true]
  rw [hKept] at hTripped
  exact absurd (opened_iff_tripped.mpr hTripped) Bool.false_ne_true

end Mistyped

end TradingAgent.Marketdata
