import TradingAgent.Messaging.Bus
import TradingAgent.Messaging.Outbox

/-!
# Dispatching the outbox

`OutboxPublisher.dispatchPending` publishes the undispatched events on the bus one by one, and
marks each whose publication did not raise. The bus does not raise what a handler raises, so
that an event is marked although one of its handlers failed: `at_least_once_iff` says that
dispatch is at least once exactly in the runs in which every such mark fails.

A run is a list of polls over any content of Redis. Which additions to the stream, handlers
and marks fail is given for each poll; `dispatched_poll` says what one poll does to the broker.
-/

namespace TradingAgent.Messaging

open Coroutine Coro Sequence RedisOutbox

section Dispatch

variable {Raw : Type} [JsonText Raw] [EventModels]

structure OutboxPublisher where
  bus : RedisEventBus
  batchSize : ℤ := 100

namespace OutboxPublisher

variable (self : OutboxPublisher)

/-- The `try` block: publish the event and mark it. -/
def dispatch (event : DomainEvent) : Async Raw Unit := do
  self.bus.publish [event]
  markDispatched event.eventId

/-- The loop over the pending events, with the number of those delivered so far. -/
def dispatchAll : List DomainEvent → ℕ → Async Raw ℕ
  | [], delivered => return delivered
  | event :: rest, delivered => do
    match ← (self.dispatch event).attempt with
    | .ok _ => dispatchAll rest (delivered + 1)
    | .error _ => dispatchAll rest delivered

/-- `limit or self.batch_size`. -/
def batch : Option ℤ → ℤ
  | some limit => if limit = 0 then self.batchSize else limit
  | none => self.batchSize

def dispatchPending (limit : Option ℤ) : Async Raw ℕ := do
  let pending ← nextUndispatched (self.batch limit)
  self.dispatchAll pending 0

end OutboxPublisher

/-! ## One event -/

section Event

variable (faults : Faults Raw) (publisher : OutboxPublisher) (b : Broker Raw) (event : DomainEvent)

/-- The event is added to the stream, so that its handlers run. -/
def Streamed : Prop := faults.xadd (JsonText.dumps event.modelDump) = false

instance : Decidable (Streamed faults event) := inferInstanceAs (Decidable (_ = _))

/-- The event is marked as dispatched. -/
def Marked : Prop := Streamed faults event ∧ faults.sadd event.eventId = false

instance : Decidable (Marked faults event) := inferInstanceAs (Decidable (_ ∧ _))

/-- The handlers that complete, each with the id of the event. -/
def completed : List (String × ℕ) :=
  if Streamed faults event then
    ((List.range (publisher.bus.handlersOf event.cls)).filter fun index =>
      !faults.handle index event).map fun index => (event.eventId, index)
  else []

omit [JsonText Raw] [EventModels] in
theorem drive_notify (indices : List ℕ) :
    drive (Broker.respond faults) b (RedisEventBus.notify event indices) =
      (.ok (), { b with
        handled := b.handled ++ (indices.filter fun index =>
          !faults.handle index event).map fun index => (event.eventId, index) }) := by
  induction indices generalizing b with
  | nil => simp [RedisEventBus.notify]
  | cons index rest ih =>
    unfold RedisEventBus.notify
    rw [drive_bind, drive_attempt, drive_call, Broker.respond]
    dsimp only
    cases hFails : faults.handle index event with
    | true =>
      rw [if_pos rfl, List.filter_cons_of_neg (by simp [hFails])]
      exact ih b
    | false =>
      rw [if_neg Bool.false_ne_true, List.filter_cons_of_pos (by simp [hFails])]
      dsimp only
      rw [ih]
      simp

omit [EventModels] in
/-- What the dispatch of some events does to the broker. -/
structure Dispatched (events : List DomainEvent) (b b' : Broker Raw) : Prop where
  strings : b'.strings = b.strings
  lists : b'.lists = b.lists
  done : b'.sets doneKey =
    b.sets doneKey ++ (events.filter fun event => Marked faults event).map DomainEvent.eventId
  handled : b'.handled = b.handled ++ events.flatMap (completed faults publisher)

omit [EventModels] in
/-- A publication that reaches the stream goes through, whatever its handlers do. -/
theorem drive_publish (hStream : Streamed faults event) :
    drive (Broker.respond faults) b (publisher.bus.publish [event]) =
      (.ok (), { b with
        stream := b.stream ++ [JsonText.dumps event.modelDump]
        handled := b.handled ++ completed faults publisher event }) := by
  have hAdd : drive (Broker.respond faults) b
      (perform (.xadd (JsonText.dumps event.modelDump))) =
        (.ok (), { b with stream := b.stream ++ [JsonText.dumps event.modelDump] }) := by
    rw [drive_call, Broker.respond, hStream, if_neg Bool.false_ne_true]
  unfold RedisEventBus.publish RedisEventBus.publishOne
  rw [drive_bind, drive_bind, hAdd]
  dsimp only
  rw [drive_notify, completed, if_pos hStream]
  rfl

omit [EventModels] in
theorem drive_publish_failed (hStream : ¬Streamed faults event) :
    drive (Broker.respond faults) b (publisher.bus.publish [event]) =
      (.error Broker.redisError, b) := by
  have hFails : faults.xadd (JsonText.dumps event.modelDump) = true := by
    simpa [Streamed] using hStream
  have hAdd : drive (Broker.respond faults) b
      (perform (.xadd (JsonText.dumps event.modelDump))) = (.error Broker.redisError, b) := by
    rw [drive_call, Broker.respond, hFails, if_pos rfl]
  unfold RedisEventBus.publish RedisEventBus.publishOne
  rw [drive_bind, drive_bind, hAdd]

omit [EventModels] in
theorem dispatched_dispatch :
    Dispatched faults publisher [event] b
      (drive (Broker.respond faults) b (publisher.dispatch event)).2 := by
  unfold OutboxPublisher.dispatch
  rw [drive_bind]
  by_cases hStream : Streamed faults event
  · have hCall : ∀ b : Broker Raw, drive (Broker.respond faults) b
        (markDispatched event.eventId) = b.respond faults (.sadd doneKey event.eventId) :=
      fun b => drive_call _ _ _
    rw [drive_publish _ _ _ _ hStream]
    dsimp only
    rw [hCall, Broker.respond]
    cases hMark : faults.sadd event.eventId with
    | true =>
      have hUnmarked : ¬Marked faults event := by
        rintro ⟨-, hNot⟩
        rw [hMark] at hNot
        cases hNot
      exact ⟨rfl, rfl, by simp [hUnmarked], by simp⟩
    | false =>
      have hMarked : Marked faults event := ⟨hStream, hMark⟩
      exact ⟨rfl, rfl, by simp [hMarked], by simp⟩
  · have hUnmarked : ¬Marked faults event := fun h => hStream h.1
    rw [drive_publish_failed _ _ _ _ hStream]
    exact ⟨rfl, rfl, by simp [hUnmarked], by simp [completed, hStream]⟩

variable {faults publisher} {b}

omit [EventModels] in
theorem Dispatched.append {b' b'' : Broker Raw} {events : List DomainEvent} {event : DomainEvent}
    (hFirst : Dispatched faults publisher [event] b b')
    (hRest : Dispatched faults publisher events b' b'') :
    Dispatched faults publisher (event :: events) b b'' := by
  refine ⟨hRest.strings.trans hFirst.strings, hRest.lists.trans hFirst.lists, ?_, ?_⟩
  · rw [hRest.done, hFirst.done, List.append_assoc, ← List.map_append, ← List.filter_append]
    rfl
  · rw [hRest.handled, hFirst.handled, List.append_assoc, ← List.flatMap_append]
    rfl

omit [EventModels] in
theorem dispatched_all (events : List DomainEvent) (delivered : ℕ) :
    Dispatched faults publisher events b
      (drive (Broker.respond faults) b (publisher.dispatchAll events delivered)).2 := by
  induction events generalizing b delivered with
  | nil => exact ⟨rfl, rfl, by simp [OutboxPublisher.dispatchAll], by
      simp [OutboxPublisher.dispatchAll]⟩
  | cons event rest ih =>
    have hFirst := dispatched_dispatch faults publisher b event
    unfold OutboxPublisher.dispatchAll
    rw [drive_bind, drive_attempt]
    dsimp only
    generalize drive (Broker.respond faults) b (publisher.dispatch event) = ended at hFirst ⊢
    obtain ⟨out, b'⟩ := ended
    cases out with
    | ok _ => exact hFirst.append (ih (delivered + 1))
    | error _ => exact hFirst.append (ih delivered)

end Event

/-! ## Polls -/

/-- A call of `dispatch_pending`, and the calls that fail in it. -/
structure Poll (Raw : Type) where
  limit : Option ℤ
  faults : Faults Raw

/-- Run one poll. -/
def poll (publisher : OutboxPublisher) (b : Broker Raw) (p : Poll Raw) :
    Except Exn ℕ × Broker Raw :=
  drive (Broker.respond p.faults) b (publisher.dispatchPending p.limit)

/-- The events that a poll offers to the bus. -/
def offered (publisher : OutboxPublisher) (b : Broker Raw) (limit : Option ℤ) : List DomainEvent :=
  pendingEvents b (publisher.batch limit)

/-- **One poll.** The events that are offered are dispatched. -/
theorem dispatched_poll (publisher : OutboxPublisher) (b : Broker Raw) (p : Poll Raw) :
    Dispatched p.faults publisher (offered publisher b p.limit) b (poll publisher b p).2 := by
  unfold poll OutboxPublisher.dispatchPending
  rw [drive_bind, drive_next]
  exact dispatched_all _ 0

/-! ## Runs of polls -/

section Runs

variable {publisher : OutboxPublisher} {b : Broker Raw}

/-- The documents of the queued ids are those of events with these ids. -/
def Keyed (b : Broker Raw) : Prop :=
  ∀ eid ∈ b.lists pendingKey, ∀ event ∈ eventOf b eid, event.eventId = eid

/-- A document gives at most one event. -/
theorem eventOf_unique {eid : String} {event event' : DomainEvent} (h : event ∈ eventOf b eid)
    (h' : event' ∈ eventOf b eid) : event = event' := by
  unfold eventOf at h h'
  cases hRaw : b.strings (eventKey eid) with
  | none =>
    rw [hRaw] at h
    cases h
  | some raw =>
    rw [hRaw] at h h'
    unfold decoded at h h'
    dsimp only at h h'
    generalize decode raw = outcome at h h'
    rcases outcome with e | _ | found
    · cases h
    · cases h
    · rw [List.mem_singleton.mp h, List.mem_singleton.mp h']

/-- An event that is offered is the one of its id, which is queued and not dispatched. -/
theorem offered_of (hKeyed : Keyed b) {limit : Option ℤ} {event : DomainEvent}
    (h : event ∈ offered publisher b limit) :
    event ∈ eventOf b event.eventId ∧ event.eventId ∈ b.lists pendingKey ∧
      event.eventId ∉ b.sets doneKey ∧
      event.eventId ∈ scan (publisher.batch limit) (b.sets doneKey) [] (b.lists pendingKey) := by
  obtain ⟨eid, hScanned, hEvent⟩ := List.mem_flatMap.mp h
  rcases scan_cases eid hScanned with hNever | ⟨hQueued, hUndone⟩
  · cases hNever
  · obtain rfl := hKeyed eid hQueued event hEvent
    exact ⟨hEvent, hQueued, hUndone, hScanned⟩

theorem final_content (b : Broker Raw) (polls : List (Poll Raw)) :
    (final (poll publisher) b polls).strings = b.strings ∧
      (final (poll publisher) b polls).lists = b.lists := by
  refine final_induction (I := fun (_ : List (Poll Raw)) (b' : Broker Raw) =>
    b'.strings = b.strings ∧ b'.lists = b.lists) ⟨rfl, rfl⟩ ?_
  intro before p _ _ hBefore
  have hPoll := dispatched_poll publisher (final (poll publisher) b before) p
  exact ⟨hPoll.strings.trans hBefore.1, hPoll.lists.trans hBefore.2⟩

theorem eventOf_final (polls : List (Poll Raw)) (eid : String) :
    eventOf (final (poll publisher) b polls) eid = eventOf b eid := by
  unfold eventOf
  rw [(final_content b polls).1]

theorem keyed_final (hKeyed : Keyed b) (polls : List (Poll Raw)) :
    Keyed (final (poll publisher) b polls) := by
  intro eid hQueued event hEvent
  rw [(final_content b polls).2] at hQueued
  rw [eventOf_final] at hEvent
  exact hKeyed eid hQueued event hEvent

/-- In the poll the event reaches its handlers, and one of them raises. -/
def HandlerFails (publisher : OutboxPublisher) (faults : Faults Raw) (event : DomainEvent) :
    Prop :=
  Streamed faults event ∧
    ∃ index < publisher.bus.handlersOf event.cls, faults.handle index event = true

omit [EventModels] in
/-- Every handler of an event completes, where none raises. -/
theorem mem_completed {faults : Faults Raw} {event : DomainEvent}
    (hStream : Streamed faults event) (hNone : ¬HandlerFails publisher faults event) :
    ∀ index < publisher.bus.handlersOf event.cls,
      (event.eventId, index) ∈ completed faults publisher event := by
  intro index hIndex
  unfold completed
  rw [if_pos hStream]
  refine List.mem_map.mpr ⟨index, List.mem_filter.mpr ⟨List.mem_range.mpr hIndex, ?_⟩, rfl⟩
  cases hFails : faults.handle index event with
  | false => rfl
  | true => exact absurd ⟨hStream, index, hIndex, hFails⟩ hNone

/-- In every poll, an event with a failing handler has a failing mark. -/
def MarksFail (publisher : OutboxPublisher) (b : Broker Raw) (polls : List (Poll Raw)) : Prop :=
  ∀ before p after, polls = before ++ p :: after →
    ∀ event ∈ offered publisher (final (poll publisher) b before) p.limit,
      HandlerFails publisher p.faults event → p.faults.sadd event.eventId = true

/-- The ids that the polls have marked are those of handled events. -/
def Handled (publisher : OutboxPublisher) (b b' : Broker Raw) : Prop :=
  ∀ eid ∈ b'.sets doneKey, eid ∉ b.sets doneKey → ∀ event ∈ eventOf b eid,
    ∀ index < publisher.bus.handlersOf event.cls, (eid, index) ∈ b'.handled

theorem handled_step (hKeyed : Keyed b) {before : List (Poll Raw)} {p : Poll Raw}
    (hMarks : ∀ event ∈ offered publisher (final (poll publisher) b before) p.limit,
      HandlerFails publisher p.faults event → p.faults.sadd event.eventId = true)
    (h : Handled publisher b (final (poll publisher) b before)) :
    Handled publisher b (poll publisher (final (poll publisher) b before) p).2 := by
  have hPoll := dispatched_poll publisher (final (poll publisher) b before) p
  intro eid hDone hNew event hEvent index hIndex
  rw [hPoll.done] at hDone
  rw [hPoll.handled]
  rcases List.mem_append.mp hDone with hOld | hMarked
  · exact List.mem_append_left _ (h eid hOld hNew event hEvent index hIndex)
  · obtain ⟨other, hOther, rfl⟩ := List.mem_map.mp hMarked
    obtain ⟨hOffered, hSure⟩ := List.mem_filter.mp hOther
    obtain ⟨hStream, hMark⟩ : Marked p.faults other := of_decide_eq_true hSure
    obtain ⟨hOwn, -⟩ := offered_of (keyed_final hKeyed before) hOffered
    rw [eventOf_final] at hOwn
    obtain rfl := eventOf_unique hEvent hOwn
    have hNone : ¬HandlerFails publisher p.faults event := by
      intro hFails
      have hRaised := hMarks event hOffered hFails
      rw [hMark] at hRaised
      cases hRaised
    apply List.mem_append_right
    exact List.mem_flatMap.mpr ⟨event, hOffered, mem_completed hStream hNone index hIndex⟩

/-- An event whose mark fails stays undispatched and is offered again. -/
theorem offered_again (hKeyed : Keyed b) {before : List (Poll Raw)} {p : Poll Raw}
    {event : DomainEvent}
    (hOffered : event ∈ offered publisher (final (poll publisher) b before) p.limit)
    (hMark : p.faults.sadd event.eventId = true) :
    event.eventId ∉ (poll publisher (final (poll publisher) b before) p).2.sets doneKey ∧
      ∀ limit, publisher.batch p.limit ≤ publisher.batch limit →
        event ∈ offered publisher (poll publisher (final (poll publisher) b before) p).2 limit := by
  have hPoll := dispatched_poll publisher (final (poll publisher) b before) p
  obtain ⟨hOwn, hQueued, hUndone, hScanned⟩ := offered_of (keyed_final hKeyed before) hOffered
  have hStays : event.eventId ∉
      (poll publisher (final (poll publisher) b before) p).2.sets doneKey := by
    rw [hPoll.done]
    intro hDone
    rcases List.mem_append.mp hDone with hOld | hMarked
    · exact hUndone hOld
    · obtain ⟨other, hOther, hSame⟩ := List.mem_map.mp hMarked
      obtain ⟨-, hSure⟩ := List.mem_filter.mp hOther
      have hMarkedOther : Marked p.faults other := of_decide_eq_true hSure
      have hNot := hMarkedOther.2
      rw [hSame, hMark] at hNot
      cases hNot
  refine ⟨hStays, fun limit hLimit => ?_⟩
  refine List.mem_flatMap.mpr ⟨event.eventId, ?_, ?_⟩
  · rw [hPoll.lists]
    refine scan_mono hLimit (fun other hOther => ?_) hStays le_rfl id hScanned
    rw [hPoll.done]
    exact List.mem_append_left _ hOther
  · unfold eventOf at hOwn ⊢
    rw [hPoll.strings]
    exact hOwn

/-- **At-least-once dispatch.** Over any content of the outbox in which the document of a queued
id is of an event with this id, and any polls: after every poll an id is marked only if all
handlers of its event have completed, and an event with a failing handler stays undispatched and
is offered again, exactly when in every poll the mark of each such event fails. -/
theorem at_least_once_iff (hKeyed : Keyed b) (polls : List (Poll Raw)) :
    ((∀ before after, polls = before ++ after →
        Handled publisher b (final (poll publisher) b before)) ∧
      ∀ before p after, polls = before ++ p :: after →
        ∀ event ∈ offered publisher (final (poll publisher) b before) p.limit,
          HandlerFails publisher p.faults event →
            event.eventId ∉ (final (poll publisher) b (before ++ [p])).sets doneKey ∧
              ∀ limit, publisher.batch p.limit ≤ publisher.batch limit →
                event ∈ offered publisher (final (poll publisher) b (before ++ [p])) limit) ↔
      MarksFail publisher b polls := by
  constructor
  · rintro ⟨-, hAgain⟩ before p after hSplit event hOffered hFails
    obtain ⟨hUndone, -⟩ := hAgain before p after hSplit event hOffered hFails
    by_contra hMark
    apply hUndone
    have hMarked : Marked p.faults event := ⟨hFails.1, Bool.not_eq_true _ ▸ hMark⟩
    rw [final_concat, (dispatched_poll publisher (final (poll publisher) b before) p).done]
    refine List.mem_append_right _ (List.mem_map.mpr ⟨event, ?_, rfl⟩)
    exact List.mem_filter.mpr ⟨hOffered, decide_eq_true hMarked⟩
  · intro hMarks
    refine ⟨fun before after hSplit => ?_, fun before p after hSplit event hOffered hFails => ?_⟩
    · refine final_induction (I := fun (_ : List (Poll Raw)) (b' : Broker Raw) =>
        Handled publisher b b') (fun eid hDone hNew => absurd hDone hNew) ?_
      intro earlier p later hBefore hHandled
      have hPolls : polls = earlier ++ p :: (later ++ after) := by simp [hSplit, hBefore]
      exact handled_step hKeyed (hMarks earlier p _ hPolls) hHandled
    · rw [final_concat]
      exact offered_again hKeyed hOffered (hMarks before p after hSplit event hOffered hFails)

end Runs

end Dispatch

/-! ## A failing handler -/

namespace Raising

local instance : JsonText Json := parsedText

local instance : EventModels := plainModels

/-- An outbox with one event, in the layout of the reader. -/
def queued : Broker Json where
  strings key :=
    if key = eventKey "e-1" then
      some (.obj [("type", .str "RiskBreached"), ("data", breach.modelDump)])
    else none
  lists key := if key = pendingKey then ["e-1"] else []

/-- One handler is subscribed to breaches. -/
def publisher : OutboxPublisher where
  bus := RedisEventBus.subscribe {} .riskBreached

/-- A poll in which the handler raises, and the mark too if `fails`. -/
def raising (fails : Bool) : Poll Json where
  limit := none
  faults := { handle := fun _ _ => true, sadd := fun _ => fails }

theorem queued_offered : offered publisher queued none = [breach] := rfl

theorem queued_keyed : Keyed queued := by
  intro eid hQueued event hEvent
  obtain rfl : eid = "e-1" := List.mem_singleton.mp hQueued
  obtain rfl : event = breach := List.mem_singleton.mp hEvent
  rfl

/-- The event is marked although its only handler has raised. -/
theorem breach_unhandled :
    HandlerFails publisher (raising false).faults breach ∧
      (poll publisher queued (raising false)).2.sets doneKey = ["e-1"] ∧
      queued.sets doneKey = [] ∧
      (poll publisher queued (raising false)).2.handled = [] :=
  ⟨⟨rfl, 0, by decide, rfl⟩, rfl, rfl, rfl⟩

/-- With a failing mark, the event is offered to the next poll. -/
theorem breach_offered_again :
    "e-1" ∉ (final (poll publisher) queued [raising true]).sets doneKey ∧
      breach ∈ offered publisher (final (poll publisher) queued [raising true]) none := by
  have hMarks : MarksFail publisher queued [raising true] := by
    intro before p after hSplit _ _ _
    rcases before with _ | ⟨q, rest⟩
    · obtain ⟨rfl, -⟩ := List.cons.inj hSplit
      rfl
    · simp at hSplit
  have hOffered : breach ∈ offered publisher (final (poll publisher) queued []) none := by
    rw [final_nil, queued_offered]
    exact List.mem_singleton_self breach
  have hAgain := ((at_least_once_iff queued_keyed [raising true]).mpr hMarks).2 [] (raising true) []
    rfl breach hOffered ⟨rfl, 0, by decide, rfl⟩
  exact ⟨hAgain.1, hAgain.2 none le_rfl⟩

end Raising

end TradingAgent.Messaging
