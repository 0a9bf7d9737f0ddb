import TradingAgent.Coroutine.Pool
import TradingAgent.Messaging.Redis

/-!
# The Redis event bus

`publish` adds the dump of an event to the stream and runs the handlers of its class; what a
handler raises is swallowed. `consumeStream` reads the stream in a consumer group, yields the
events it can parse, and acknowledges every message that it has looked at.

Publishers and consumers run interleaved over one broker, where every call may fail. The
parser looks for `type` and `data` in the payload, which no published event has, so that
nothing is ever yielded: `acknowledged_iff` says that every acknowledged message was yielded
first only in the runs that acknowledge none.

The loop of `consume_stream` does not end; `consumeStream n` is its first `n` rounds, so that
every finite run of the loop is a run of some `consumeStream n`.
-/

namespace TradingAgent.Messaging

open Coroutine Coro

section Bus

variable {Raw : Type} [JsonText Raw] [EventModels]

/-- The subscriptions of a process: each class with the number of its handlers. -/
structure RedisEventBus where
  handlers : List (EventClass × ℕ) := []

namespace RedisEventBus

variable (self : RedisEventBus)

/-- The number of handlers of a class. -/
def handlersOf (cls : EventClass) : ℕ := (self.handlers.lookup cls).getD 0

def subscribe (cls : EventClass) : RedisEventBus where
  handlers :=
    if self.handlers.any fun entry => entry.1 = cls then
      self.handlers.map fun entry => if entry.1 = cls then (cls, entry.2 + 1) else entry
    else
      self.handlers ++ [(cls, 1)]

/-- Run handlers one after another; what they raise is logged and dropped. -/
def notify (event : DomainEvent) : List ℕ → Async Raw Unit
  | [] => return ()
  | index :: rest => do
    let _ ← (perform (.handle index event)).attempt
    notify event rest

/-- `publish` of one event. -/
def publishOne (event : DomainEvent) : Async Raw Unit := do
  perform (.xadd (JsonText.dumps event.modelDump))
  notify event (List.range (self.handlersOf event.cls))

def publish : List DomainEvent → Async Raw Unit
  | [] => return ()
  | event :: rest => do
    self.publishOne event
    publish rest

/-- `_handler_by_name`. -/
def handlerByName : Json → Option EventClass
  | .str name => (self.handlers.find? fun entry => entry.1.name = name).map Prod.fst
  | _ => none

/-- The class and the constructor's arguments that a payload names. -/
def parse (raw : Raw) : Except Exn (Option EventClass × Json) :=
  match JsonText.loads raw with
  | none => .error (.valueError "JSONDecodeError")
  | some data => do
    let typeName ← data.get "type" (.str "")
    let payload ← data.get "data" (.obj [])
    return (self.handlerByName typeName, payload)

/-- The inner `try` block: yield the event of a message, if its class has a handler, and
acknowledge the message. -/
def deliver (group : String) (message : ℕ × Raw) : Async Raw Unit := do
  let (handler, payload) ← ofExcept (self.parse message.2)
  match handler with
  | some cls => do
    let event ← ofExcept (construct cls payload)
    perform (.yield event)
  | none => pure ()
  perform (.xack group message.1)

/-- The messages of one batch; a failure is logged, and the message acknowledged. -/
def deliverAll (group : String) : List (ℕ × Raw) → Async Raw Unit
  | [] => return ()
  | message :: rest => do
    match ← (self.deliver group message).attempt with
    | .ok _ => pure ()
    | .error _ => perform (.xack group message.1)
    deliverAll group rest

/-- The first rounds of the loop of `consume_stream`. -/
def consumeStream (group consumer : String) (batch : ℕ) : ℕ → Async Raw Unit
  | 0 => return ()
  | rounds + 1 => do
    let round : Async Raw Unit := do
      let messages ← perform (.xreadgroup group consumer batch)
      self.deliverAll group messages
    match ← round.attempt with
    | .ok _ => pure ()
    | .error _ => perform .sleep
    consumeStream group consumer batch rounds

end RedisEventBus

/-! ## The contract of the workers -/

omit [EventModels] in
/-- A payload that `publish` has written. -/
def Published (payload : Raw) : Prop :=
  ∃ event : DomainEvent, payload = JsonText.dumps event.modelDump

omit [EventModels] in
/-- What a worker awaits: it yields nothing, and adds only dumps of events. -/
def Awaited : Op Raw → Prop
  | .yield _ => False
  | .xadd payload => Published payload
  | _ => True

omit [EventModels] in
/-- What a worker relies on: it reads only dumps of events. -/
def Given : (op : Op Raw) → Except Exn (Ret op) → Prop
  | .xreadgroup _ _ _, .ok messages => ∀ message ∈ messages, Published message.2
  | _, _ => True

namespace RedisEventBus

variable (self : RedisEventBus)

omit [EventModels] in
/-- A published payload names no class. -/
theorem parse_published {payload : Raw} (h : Published payload) :
    self.parse payload = .ok (none, .obj []) := by
  obtain ⟨event, rfl⟩ := h
  have hNone : self.handlers.find? (fun entry => entry.1.name = "") = none := by
    rw [List.find?_eq_none]
    intro entry _ hName
    have hEmpty : entry.1.name = "" := of_decide_eq_true hName
    cases hCls : entry.1 <;> rw [hCls] at hEmpty <;> exact absurd hEmpty (by decide)
  unfold parse
  rw [JsonText.loads_dumps]
  dsimp only
  rw [event.get_type_modelDump, event.get_data_modelDump]
  change Except.ok (self.handlerByName (.str ""), _) = _
  rw [handlerByName, hNone]
  rfl

omit [EventModels] in
/-- The coroutine keeps the contract, however it ends. -/
def Keeps {α : Type} (m : Async Raw α) : Prop := Obeys Awaited Given (fun _ => True) m

omit [EventModels] in
theorem keeps_perform {op : Op Raw} (h : Awaited op) : Keeps (perform op) :=
  Obeys.call h fun _ _ => trivial

omit [EventModels] in
theorem keeps_bind {α β : Type} {m : Async Raw α} {f : α → Async Raw β} (hFirst : Keeps m)
    (hRest : ∀ a, Keeps (f a)) : Keeps (m >>= f) :=
  Obeys.bind hFirst (fun a _ => hRest a) fun _ _ => trivial

omit [EventModels] in
theorem keeps_attempt {α : Type} {m : Async Raw α} (h : Keeps m) : Keeps m.attempt :=
  Obeys.attempt h fun _ _ => trivial

omit [EventModels] in
theorem keeps_notify (event : DomainEvent) (indices : List ℕ) :
    Keeps (notify event indices : Async Raw Unit) := by
  induction indices with
  | nil => exact trivial
  | cons index rest ih =>
    apply keeps_bind
    · exact keeps_attempt (keeps_perform trivial)
    · exact fun _ => ih

omit [EventModels] in
theorem keeps_publish (events : List DomainEvent) :
    Keeps (self.publish events : Async Raw Unit) := by
  induction events with
  | nil => exact trivial
  | cons event rest ih =>
    have hAdd : Awaited (.xadd (JsonText.dumps event.modelDump) : Op Raw) := ⟨event, rfl⟩
    apply keeps_bind
    · exact keeps_bind (keeps_perform hAdd) fun _ => keeps_notify event _
    · exact fun _ => ih

theorem keeps_deliver (group : String) {message : ℕ × Raw} (h : Published message.2) :
    Keeps (self.deliver group message) := by
  unfold deliver
  rw [self.parse_published h]
  exact keeps_perform trivial

theorem keeps_deliverAll (group : String) {messages : List (ℕ × Raw)}
    (h : ∀ message ∈ messages, Published message.2) :
    Keeps (self.deliverAll group messages) := by
  induction messages with
  | nil => exact trivial
  | cons message rest ih =>
    have hRest := ih fun other hOther => h other (List.mem_cons_of_mem message hOther)
    apply keeps_bind
    · exact keeps_attempt (self.keeps_deliver group (h message List.mem_cons_self))
    · intro outcome
      cases outcome with
      | ok _ => exact hRest
      | error _ => exact keeps_bind (keeps_perform trivial) fun _ => hRest

theorem keeps_consumeStream (group consumer : String) (batch rounds : ℕ) :
    Keeps (self.consumeStream group consumer batch rounds : Async Raw Unit) := by
  induction rounds with
  | zero => exact trivial
  | succ rounds ih =>
    have hRound : Keeps (do
        let messages ← perform (.xreadgroup group consumer batch)
        self.deliverAll group messages : Async Raw Unit) := by
      refine Obeys.bind (P := Given (.xreadgroup group consumer batch))
        (Obeys.call trivial fun _ hr => hr) (fun messages hMessages => ?_) fun _ _ => trivial
      exact self.keeps_deliverAll group hMessages
    apply keeps_bind
    · exact keeps_attempt hRound
    · intro outcome
      cases outcome with
      | ok _ => exact ih
      | error _ => exact keeps_bind (keeps_perform trivial) fun _ => ih

end RedisEventBus

/-! ## Interleaved publishers and consumers -/

/-- What a worker of some process runs: a publication, or rounds of the consumer's loop. -/
inductive Worker
  | publisher (bus : RedisEventBus) (events : List DomainEvent)
  | consumer (bus : RedisEventBus) (group name : String) (batch rounds : ℕ)

def Worker.program : Worker → Async Raw Unit
  | .publisher bus events => bus.publish events
  | .consumer bus group name batch rounds => bus.consumeStream group name batch rounds

abbrev BusConfig (Raw ι : Type) := Config (Broker Raw) Exn (@Ret Raw) fun _ : ι => Unit

abbrev BusLog (Raw ι : Type) := Log (Broker Raw) Exn (@Ret Raw) fun _ : ι => Unit

variable {ι : Type}

/-- All workers before their first step. -/
def start (workers : ι → Worker) (b : Broker Raw) : BusConfig Raw ι where
  state := b
  threads i := (workers i).program

omit [JsonText Raw] [EventModels] in
/-- The step acknowledges a message. -/
def Acknowledges (e : Event Exn (@Ret Raw) ι) (group : String) (id : ℕ) : Prop :=
  ∃ thread, e = ⟨thread, .xack group id, .ok ()⟩

omit [EventModels] in
/-- The environment keeps the contract: the stream holds only dumps of events. -/
theorem answer_given {b b' : Broker Raw} {op : Op Raw} {r : Except Exn (Ret op)}
    (hStream : ∀ payload ∈ b.stream, Published payload) (hAwaited : Awaited op)
    (h : Broker.answer b op r b') :
    Given op r ∧ ∀ payload ∈ b'.stream, Published payload := by
  rcases h with ⟨e, rfl, rfl⟩ | h
  · refine ⟨?_, hStream⟩
    cases op <;> exact trivial
  · cases op with
    | xadd payload =>
      cases h
      refine ⟨trivial, fun entry hEntry => ?_⟩
      rcases List.mem_append.mp hEntry with hOld | hNew
      · exact hStream entry hOld
      · rw [List.mem_singleton.mp hNew]
        exact hAwaited
    | xreadgroup group consumer count =>
      cases h
      refine ⟨fun message hMessage => ?_, hStream⟩
      have hUnread := List.mem_of_mem_drop (List.mem_of_mem_take hMessage)
      obtain ⟨⟨entry, id⟩, hEntry, rfl⟩ := List.mem_map.mp hUnread
      exact hStream entry (List.fst_mem_of_mem_zipIdx hEntry)
    | _ =>
      cases h
      exact ⟨trivial, hStream⟩

/-- No worker ever yields an event. -/
theorem never_yields [DecidableEq ι] {workers : ι → Worker} {b : Broker Raw} {c : BusConfig Raw ι}
    {log : BusLog Raw ι} (hStream : b.stream = [])
    (h : Run Broker.answer (start workers b) log c) :
    ∀ s ∈ log, ∀ event, s.2.op ≠ .yield event := by
  have hContract : ∀ i, RedisEventBus.Keeps ((start workers b).threads i) := by
    intro i
    change RedisEventBus.Keeps (workers i).program
    cases workers i with
    | publisher bus events => exact bus.keeps_publish events
    | consumer bus group name batch rounds => exact bus.keeps_consumeStream group name batch rounds
  obtain ⟨-, -, hAwaited⟩ := h.contracts
    (J := fun b => ∀ payload ∈ b.stream, Published payload)
    (by simp [start, hStream]) hContract
    fun b op r b' hPublished hMay hAnswer => answer_given hPublished hMay hAnswer
  intro s hs event hYield
  have hNever := hAwaited s hs
  rw [hYield] at hNever
  exact hNever

/-- **The stream consumers.** Publishers and consumers run interleaved over a stream that
starts empty. Every acknowledged message was first yielded, by the worker that acknowledges
it, as the event that was published, exactly when no message is acknowledged. -/
theorem acknowledged_iff [DecidableEq ι] {workers : ι → Worker} {b : Broker Raw}
    {c : BusConfig Raw ι} {log : BusLog Raw ι} (hStream : b.stream = [])
    (h : Run Broker.answer (start workers b) log c) :
    (∀ before c' e after group id, log = before ++ (c', e) :: after → Acknowledges e group id →
        ∃ event : DomainEvent,
          c'.state.stream[id]? = some (JsonText.dumps event.modelDump) ∧
            ∃ s ∈ before, s.2.thread = e.thread ∧ s.2.op = .yield event) ↔
      ∀ s ∈ log, ∀ group id, ¬Acknowledges s.2 group id := by
  constructor
  · rintro hYielded ⟨c', e⟩ hs group id hAcknowledges
    obtain ⟨before, after, rfl⟩ := List.append_of_mem hs
    obtain ⟨event, -, s, hBefore, -, hYield⟩ :=
      hYielded before c' e after group id rfl hAcknowledges
    exact never_yields hStream h s (List.mem_append_left _ hBefore) event hYield
  · intro hNone before c' e after group id hSplit hAcknowledges
    have hMem : (c', e) ∈ log := by simp [hSplit]
    exact absurd hAcknowledges (hNone _ hMem group id)

end Bus

/-! ## A message acknowledged unread -/

namespace Unread

local instance : JsonText Json := parsedText

local instance : EventModels := plainModels

/-- A process that handles breaches. -/
def bus : RedisEventBus := RedisEventBus.subscribe {} .riskBreached

/-- One publisher of a breach, and one consumer. -/
def workers : Bool → Worker
  | false => .publisher bus [breach]
  | true => .consumer bus "group" "worker" 100 1

/-- The breach is published and handled, read, and acknowledged. -/
def ended : BusLog Json Bool × BusConfig Json Bool :=
  simulate (start workers {})
    ([false, false, true, true].map fun worker => (worker, Broker.respond {}))

theorem ended_run : Run Broker.answer (start workers {}) ended.1 ended.2 := by
  refine run_simulate fun turn hTurn b op => ?_
  obtain ⟨worker, -, rfl⟩ := List.mem_map.mp hTurn
  exact .inr rfl

/-- The step that acknowledges the message. -/
def acked : BusConfig Json Bool × Event Exn (@Ret Json) Bool :=
  ((simulate (start workers {})
      ([false, false, true].map fun worker => (worker, Broker.respond {}))).2,
    ⟨true, .xack "group" 0, .ok ()⟩)

theorem ended_split : ended.1 = ended.1.dropLast ++ [acked] := rfl

/-- The message of the published event is acknowledged, and no step yields an event. -/
theorem breach_unread :
    ∃ before s, ended.1 = before ++ [s] ∧ Acknowledges s.2 "group" 0 ∧
      s.1.state.stream[0]? = some (JsonText.dumps breach.modelDump) ∧
      ∀ t ∈ before ++ [s], ∀ event, t.2.op ≠ .yield event := by
  refine ⟨ended.1.dropLast, acked, ended_split, ⟨true, rfl⟩, rfl, ?_⟩
  rw [← ended_split]
  exact never_yields rfl ended_run

theorem acknowledged_unyielded :
    ¬∀ before c' e after group id, ended.1 = before ++ (c', e) :: after →
      Acknowledges e group id → ∃ event : DomainEvent,
        c'.state.stream[id]? = some (JsonText.dumps event.modelDump) ∧
          ∃ s ∈ before, s.2.thread = e.thread ∧ s.2.op = .yield event := by
  intro hYielded
  have hMem : acked ∈ ended.1 := by
    rw [ended_split]
    exact List.mem_append_right _ (List.mem_singleton_self _)
  exact (acknowledged_iff rfl ended_run).mp hYielded acked hMem "group" 0 ⟨true, rfl⟩

end Unread

end TradingAgent.Messaging
