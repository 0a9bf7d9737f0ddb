import TradingAgent.Core.Python

/-!
# Domain events

A domain event is an instance of one of the subclasses of `DomainEvent`: its class, its
`event_id` and `occurred_at`, and a value for each field that the class declares. Values are
kept as `model_dump(mode="json")` gives them.

The text of JSON is a parameter (`JsonText`): what matters of it is that `json.loads` reads
what `json.dumps` has written. So is the validation that a constructor does (`EventModels`).
-/

namespace TradingAgent.Messaging

/-- What `json.loads` may return. -/
inductive Json
  | null
  | bool (value : Bool)
  | num (value : ℚ)
  | str (value : String)
  | arr (items : List Json)
  | obj (fields : List (String × Json))

/-- `data.get(key, default)`; only a mapping has `get`. -/
def Json.get (data : Json) (key : String) (default : Json) : Except Exn Json :=
  match data with
  | .obj fields => .ok ((fields.lookup key).getD default)
  | _ => .error (.other "AttributeError")

/-- The texts that Redis stores, with `json.dumps` and `json.loads`. Reading gives `none`
where the text is not JSON. -/
class JsonText (Raw : Type) where
  dumps : Json → Raw
  loads : Raw → Option Json
  loads_dumps : ∀ data, loads (dumps data) = some data

/-- The subclasses of `DomainEvent`. -/
inductive EventClass
  | backtestCompleted
  | candleReceived
  | featureComputed
  | killSwitchTriggered
  | orderStateChanged
  | riskBreached
  | strategyRegistered
  deriving DecidableEq, Repr

namespace EventClass

/-- `__name__`. -/
def name : EventClass → String
  | backtestCompleted => "BacktestCompleted"
  | candleReceived => "CandleReceived"
  | featureComputed => "FeatureComputed"
  | killSwitchTriggered => "KillSwitchTriggered"
  | orderStateChanged => "OrderStateChanged"
  | riskBreached => "RiskBreached"
  | strategyRegistered => "StrategyRegistered"

/-- The fields that the subclass declares. -/
def fields : EventClass → List String
  | backtestCompleted => ["symbol", "strategy_id", "trade_count", "total_return_pct"]
  | candleReceived => ["symbol", "timeframe", "candles"]
  | featureComputed => ["symbol", "timeframe", "feature_count", "vector_count"]
  | killSwitchTriggered => ["reason"]
  | orderStateChanged => ["order_id", "status", "symbol"]
  | riskBreached => ["symbol", "reason"]
  | strategyRegistered => ["strategy_id", "name"]

/-- `DomainEvent.__subclasses__()`. -/
def subclasses : List EventClass :=
  [backtestCompleted, candleReceived, featureComputed, killSwitchTriggered, orderStateChanged,
    riskBreached, strategyRegistered]

end EventClass

/-- An event. `model_post_init` sees to it that its id is not empty. -/
structure DomainEvent where
  cls : EventClass
  eventId : String
  occurredAt : String
  values : List Json
  identified : eventId ≠ ""
  declared : values.length = cls.fields.length

namespace DomainEvent

/-- The mapping that `model_dump(mode="json")` returns. -/
def dumpFields (event : DomainEvent) : List (String × Json) :=
  ("event_id", .str event.eventId) :: ("occurred_at", .str event.occurredAt) ::
    event.cls.fields.zip event.values

def modelDump (event : DomainEvent) : Json := .obj event.dumpFields

theorem lookup_zip_eq_none {key : String} {keys : List String} {values : List Json}
    (h : key ∉ keys) : (keys.zip values).lookup key = none := by
  rw [List.lookup_eq_none_iff]
  intro entry hEntry
  have hMem := List.of_mem_zip hEntry
  have hNe : key ≠ entry.1 := by
    rintro rfl
    exact h hMem.1
  simpa using hNe

/-- A dumped event has the declared fields and no others. -/
theorem get_modelDump {event : DomainEvent} {key : String} {default : Json}
    (hBase : key ∉ ["event_id", "occurred_at"]) (hFields : key ∉ event.cls.fields) :
    event.modelDump.get key default = .ok default := by
  have hLookup : event.dumpFields.lookup key = none := by
    simp only [List.mem_cons, List.not_mem_nil, or_false, not_or] at hBase
    unfold dumpFields
    rw [List.lookup_cons, beq_false_of_ne hBase.1, List.lookup_cons, beq_false_of_ne hBase.2]
    exact lookup_zip_eq_none hFields
  unfold modelDump Json.get
  dsimp only
  rw [hLookup]
  rfl

/-- A dumped event has no field `type` and no field `data`. -/
theorem get_type_modelDump (event : DomainEvent) (default : Json) :
    event.modelDump.get "type" default = .ok default := by
  apply get_modelDump
  · decide
  · cases event.cls <;> decide

theorem get_data_modelDump (event : DomainEvent) (default : Json) :
    event.modelDump.get "data" default = .ok default := by
  apply get_modelDump
  · decide
  · cases event.cls <;> decide

end DomainEvent

/-- The constructors of the event classes, called with keyword arguments. -/
class EventModels where
  construct : EventClass → List (String × Json) → Except Exn DomainEvent

/-- `cls(**payload)`. -/
def construct [EventModels] (cls : EventClass) : Json → Except Exn DomainEvent
  | .obj fields => EventModels.construct cls fields
  | _ => .error (.other "TypeError")

/-! ## Plain models -/

/-- Texts that are kept parsed. -/
@[reducible] def parsedText : JsonText Json where
  dumps data := data
  loads data := some data
  loads_dumps _ := rfl

/-- Models that take every declared field as it is given. -/
@[reducible] def plainModels : EventModels where
  construct cls fields :=
    match fields.lookup "event_id", fields.lookup "occurred_at",
      cls.fields.mapM (fields.lookup ·) with
    | some (.str eventId), some (.str occurredAt), some values =>
      if h : eventId ≠ "" ∧ values.length = cls.fields.length then
        .ok
          { cls := cls, eventId := eventId, occurredAt := occurredAt, values := values
            identified := h.1, declared := h.2 }
      else .error (.other "ValidationError")
    | _, _, _ => .error (.other "ValidationError")

def breach : DomainEvent where
  cls := .riskBreached
  eventId := "e-1"
  occurredAt := "2026-01-01T00:00:00Z"
  values := [.str "BTC/USDT", .str "posture_breach"]
  identified := by decide
  declared := rfl

end TradingAgent.Messaging
