import TradingAgent.Marketdata.Entities
import TradingAgent.Tooling.Http
import TradingAgent.Tooling.Steady

/-!
# Market data sources

What the adapters of the vendors share: the candles of a vendor are fetched through a policy,
by a request that the vendor answers, and are then mapped. A session is a sequence of calls of
one adapter. The vendor answers each call with the same result whenever it is asked.
-/

namespace TradingAgent.Marketdata

open Coroutine Tooling

/-- The arguments of `fetch_candles`, and the clock. -/
structure FetchCandles where
  symbol : Symbol
  timeframe : Timeframe
  since : Option Datetime := none
  limit : ℤ := 500
  now : Datetime
  deriving DecidableEq, Repr

/-- The parts of `datetime` that rest on floats and on format texts: `timestamp` is
`int(moment.timestamp())`; `strptime` is `None` where it raises `ValueError`. -/
class Moments where
  timestamp : Datetime → ℤ
  strftime : Datetime → String → String
  strptime : String → String → Option Datetime

/-- `xs[-limit:]`. -/
def lastOf {A : Type} (limit : ℤ) (xs : List A) : List A :=
  if 0 < limit then xs.drop (xs.length - limit.toNat) else xs.drop (-limit).toNat

/-- A finite value of a `Decimal` field; a model refuses the others. -/
def finite? : Decimal → Option ℚ
  | .finite q => some q
  | _ => none

/-- An adapter: whether it refuses a call itself, one attempt of a call, and the mapping. -/
structure Source (C P R : Type) where
  policy : Policy
  refused : C → Option DomainError
  fetch : C → Except Raised P
  map : C → P → Except Raised R

namespace Source

variable {C P R : Type} (source : Source C P R)

/-- A call of the adapter, and the fields of its policy after it. -/
inductive Fetches (f : Fields) (c : C) : Except Raised R → Fields → Prop
  | refused (exc : DomainError) (hRefused : source.refused c = some exc) :
    Fetches f c (.error (.domain exc)) f
  | ran {out : Except Raised P} {made : List (Except Raised P)} {f' : Fields}
      (hAdmitted : source.refused c = none)
      (hRun : LoopRuns (steady (source.fetch c)) source.policy.run (f, []) source.policy.run.first
        out (f', made)) :
    Fetches f c (out >>= source.map c) f'

/-- The calls of a session with their outcomes, one after another. -/
inductive Session : List (C × Except Raised R) → Fields → Prop
  | nil : Session [] {}
  | snoc {log : List (C × Except Raised R)} {f f' : Fields} {c : C} {out : Except Raised R}
      (h : Session log f) (hFetches : source.Fetches f c out f') : Session (log ++ [(c, out)]) f'

/-- The vendor serves the call correctly. -/
def served (c : C) : Bool :=
  match source.refused c with
  | some _ => false
  | none =>
    match source.fetch c >>= source.map c with
    | .ok _ => true
    | .error _ => false

variable {source}

/-- A call whose attempts fail is not served. -/
theorem served_of_error {c : C} {e : Raised} (h : source.fetch c = .error e) :
    source.served c = false := by
  unfold served
  cases source.refused c with
  | some exc => rfl
  | none =>
    rw [h]
    rfl

section

variable {retry : RetryPolicy} {breaker : CircuitBreaker} {f f' : Fields} {c : C} {payload : P}
  {out : Except Raised R} {result : R}

/-- A call that returns has mapped the payload of the vendor. -/
theorem Fetches.mapped (hRetry : source.policy.retry = some retry)
    (hBreaker : source.policy.breaker = some breaker) (h : source.Fetches f c out f')
    (hOut : out = .ok result) :
    source.refused c = none ∧ ∃ payload, source.fetch c = .ok payload ∧
      source.map c payload = .ok result := by
  cases h with
  | refused exc hRefused => cases hOut
  | @ran ended made f' hAdmitted hRun =>
    refine ⟨hAdmitted, ?_⟩
    cases ended with
    | error e => cases hOut
    | ok payload => exact ⟨payload, steady_run_ok hRetry hBreaker hRun, hOut⟩

/-- Through a closed breaker the payload of the vendor is mapped. -/
theorem Fetches.of_closed (hRetry : source.policy.retry = some retry)
    (hBreaker : source.policy.breaker = some breaker) (h : source.Fetches f c out f')
    (hClosed : f.opened = false) (hAdmitted : source.refused c = none)
    (hFetch : source.fetch c = .ok payload) : out = source.map c payload := by
  cases h with
  | refused exc hRefused =>
    rw [hAdmitted] at hRefused
    cases hRefused
  | @ran ended made f' _ hRun =>
    rw [(steady_run hRetry hBreaker hRun).2.2 hClosed payload hFetch]
    rfl

/-- The payload of the vendor is mapped by a call of a new adapter. -/
theorem fetches_new (hRetry : source.policy.retry = some retry)
    (hBreaker : source.policy.breaker = some breaker) (hAdmitted : source.refused c = none)
    (hFetch : source.fetch c = .ok payload) :
    ∃ f', source.Fetches {} c (source.map c payload) f' := by
  obtain ⟨out, f', made, hRun⟩ := steady_ends hRetry hBreaker (source.fetch c) {}
  have hFetches : source.Fetches {} c (out >>= source.map c) f' := .ran hAdmitted hRun
  rw [hFetches.of_closed hRetry hBreaker rfl hAdmitted hFetch] at hFetches
  exact ⟨f', hFetches⟩

end

end Source

end TradingAgent.Marketdata
