import TradingAgent.Coroutine.Audit
import TradingAgent.Messaging.Dispatch

/-!
# The outbox among processes

Producers append events to the outbox while dispatchers poll it and publishers and consumers
work on the stream. Whatever fails, `append` queues an id only once its document is stored,
and `dispatchPending` marks an id only once the event is in the stream: in no interleaving is
there a queued id without its document, or a marked event that was never published
(`outbox_safe`). The audit `relay` records what a process has written so far.

A process is one call; a loop of calls is a family of processes that start one after another.
-/

namespace TradingAgent.Messaging

open Coroutine Coro RedisOutbox

section Delivery

variable {Raw ι : Type}

/-- What a process has written: the keys of documents, queued ids, and payloads of the
stream. -/
structure Written (Raw : Type) where
  documents : List String := []
  queued : List String := []
  streamed : List Raw := []

/-- What a worker of the stream awaits. -/
def Streams : Op Raw → Prop
  | .set _ _ => False
  | .rpush _ _ => False
  | .sadd _ _ => False
  | _ => True

theorem streams_notify (event : DomainEvent) (indices : List ℕ) :
    Awaits Streams (RedisEventBus.notify event indices : Async Raw Unit) := by
  induction indices with
  | nil => exact trivial
  | cons index rest ih => exact .bind (.attempt (.call trivial)) fun _ => ih

theorem streams_collect (limit : ℤ) (ids undispatched : List String) :
    Awaits Streams (collect limit undispatched ids : Async Raw (List String)) := by
  induction ids generalizing undispatched with
  | nil => exact trivial
  | cons eid rest ih =>
    have hRest : ∀ next : List String, Awaits Streams (if limit ≤ next.length then return next
        else collect limit next rest : Async Raw (List String)) := by
      intro next
      split
      · exact trivial
      · exact ih next
    exact .bind (.call trivial) fun done => hRest _

theorem eventKey_injective : Function.Injective eventKey :=
  fun _ _ hSame => (String.append_right_inj _).mp hSame

variable [JsonText Raw]

/-- A process stores dumps of events under their keys, queues ids whose documents it has
stored, and marks ids whose events it has put into the stream. -/
def relay : Audit (Written Raw) Exn (@Ret Raw) where
  may written
    | .set key value => ∃ event : DomainEvent,
      key = eventKey event.eventId ∧ value = JsonText.dumps event.modelDump
    | .rpush key eventId => key = pendingKey ∧ eventKey eventId ∈ written.documents
    | .sadd key eventId => key = doneKey ∧ ∃ event : DomainEvent,
      event.eventId = eventId ∧ JsonText.dumps event.modelDump ∈ written.streamed
    | _ => True
  rely _ _ := True
  record
    | written, .set key _, .ok _ => { written with documents := written.documents ++ [key] }
    | written, .rpush _ eventId, .ok _ => { written with queued := written.queued ++ [eventId] }
    | written, .xadd payload, .ok _ => { written with streamed := written.streamed ++ [payload] }
    | written, _, _ => written

/-- The audit always allows what a worker of the stream awaits. -/
theorem relay_streams (written : Written Raw) (op : Op Raw) (h : Streams op) :
    relay.may written op := by
  cases op with
  | set key value => exact h.elim
  | rpush key value => exact h.elim
  | sadd key member => exact h.elim
  | _ => exact trivial

/-- What `append` queues is stored. -/
theorem passes_append (event : DomainEvent) :
    relay.Passes (fun out written => out.isOk → event.eventId ∈ written.queued) {}
      (RedisOutbox.append event : Async Raw Unit) := by
  refine .bind (P := fun out written => out.isOk → eventKey event.eventId ∈ written.documents)
    (.call ⟨event, rfl, rfl⟩ fun r _ hOk => ?_) (fun _ written hStored => ?_)
    fun _ _ _ hNever => by cases hNever
  · cases r with
    | ok _ => exact List.mem_append_right _ (List.mem_singleton_self _)
    | error e => cases hOk
  · refine .call ⟨rfl, hStored rfl⟩ fun r _ hOk => ?_
    cases r with
    | ok _ => exact List.mem_append_right _ (List.mem_singleton_self _)
    | error e => cases hOk

/-- A published event is in the stream. -/
theorem passes_publish (bus : RedisEventBus) (event : DomainEvent) (written : Written Raw) :
    relay.Passes (fun out written => out.isOk →
      JsonText.dumps event.modelDump ∈ written.streamed) written (bus.publish [event]) := by
  have hNotify : ∀ (indices : List ℕ) (written : Written Raw),
      JsonText.dumps event.modelDump ∈ written.streamed →
        relay.Passes (fun _ written => JsonText.dumps event.modelDump ∈ written.streamed) written
          (RedisEventBus.notify event indices) := by
    intro indices
    induction indices with
    | nil => exact fun _ hStreamed => hStreamed
    | cons index rest ih =>
      intro written hStreamed
      refine .attempt_bind (P := fun _ written => JsonText.dumps event.modelDump ∈
        written.streamed) (.call trivial fun r _ => ?_) fun _ written h => ih written h
      cases r <;> exact hStreamed
  refine .bind (P := fun out written => out.isOk →
      JsonText.dumps event.modelDump ∈ written.streamed) ?_
    (fun _ written hStreamed _ => hStreamed rfl) fun _ _ _ hNever => by cases hNever
  refine .bind (P := fun out written => out.isOk →
      JsonText.dumps event.modelDump ∈ written.streamed) (.call trivial fun r _ hOk => ?_)
    (fun _ written hStreamed => ?_) fun _ _ _ hNever => by cases hNever
  · cases r with
    | ok _ => exact List.mem_append_right _ (List.mem_singleton_self _)
    | error e => cases hOk
  · exact (hNotify _ written (hStreamed rfl)).mono fun _ _ h _ => h

/-- What a dispatcher marks is in the stream. -/
theorem passes_dispatch (publisher : OutboxPublisher) (event : DomainEvent)
    (written : Written Raw) :
    relay.Passes (fun _ _ => True) written (publisher.dispatch event) :=
  .bind (passes_publish publisher.bus event written)
    (fun _ _ hStreamed => .call ⟨rfl, event, rfl, hStreamed rfl⟩ fun _ _ => trivial)
    fun _ _ _ => trivial

theorem passes_dispatchAll (publisher : OutboxPublisher) (events : List DomainEvent)
    (delivered : ℕ) (written : Written Raw) :
    relay.Passes (fun _ _ => True) written (publisher.dispatchAll events delivered) := by
  induction events generalizing delivered written with
  | nil => exact trivial
  | cons event rest ih =>
    refine .attempt_bind (passes_dispatch publisher event written) ?_
    rintro (e | _) written -
    · exact ih delivered written
    · exact ih (delivered + 1) written

/-! ## Across processes -/

/-- The document of the id is stored. -/
def Documented (s : Broker Raw) (eventId : String) : Prop :=
  ∃ event : DomainEvent, event.eventId = eventId ∧
    s.strings (eventKey eventId) = some (JsonText.dumps event.modelDump)

/-- The event of the id is in the stream. -/
def InStream (s : Broker Raw) (eventId : String) : Prop :=
  ∃ event : DomainEvent, event.eventId = eventId ∧ JsonText.dumps event.modelDump ∈ s.stream

/-- What the processes have written is in the broker; the ids that they have queued have
documents, and those that they have marked are in the stream. -/
structure Relayed (b s : Broker Raw) (written : ι → Written Raw) : Prop where
  documents : ∀ i, ∀ key ∈ (written i).documents, ∃ eventId, key = eventKey eventId ∧
    Documented s eventId
  queued : ∀ i, ∀ eventId ∈ (written i).queued, eventId ∈ s.lists pendingKey
  streamed : ∀ i, ∀ payload ∈ (written i).streamed, payload ∈ s.stream
  documented : ∀ eventId ∈ s.lists pendingKey, eventId ∈ b.lists pendingKey ∨
    Documented s eventId
  marked : ∀ eventId ∈ s.sets doneKey, eventId ∈ b.sets doneKey ∨ InStream s eventId

namespace Relayed

variable [DecidableEq ι] {b s s' : Broker Raw} {written : ι → Written Raw} {i : ι}
  (h : Relayed b s written)
include h

/-- A call that adds to what is stored, queued, streamed and marked, and records it. -/
theorem grow {next : Written Raw}
    (hDocuments : ∀ eventId, Documented s eventId → Documented s' eventId)
    (hLists : s.lists pendingKey ⊆ s'.lists pendingKey) (hStream : s.stream ⊆ s'.stream)
    (hStored : ∀ key ∈ next.documents, key ∈ (written i).documents ∨
      ∃ eventId, key = eventKey eventId ∧ Documented s' eventId)
    (hQueued : ∀ eventId ∈ next.queued, eventId ∈ (written i).queued ∨
      eventId ∈ s'.lists pendingKey)
    (hStreamed : ∀ payload ∈ next.streamed, payload ∈ (written i).streamed ∨
      payload ∈ s'.stream)
    (hPending : ∀ eventId ∈ s'.lists pendingKey, eventId ∈ s.lists pendingKey ∨
      Documented s' eventId)
    (hDone : ∀ eventId ∈ s'.sets doneKey, eventId ∈ s.sets doneKey ∨ InStream s' eventId) :
    Relayed b s' (Function.update written i next) where
  documents j key hKey := by
    have hOld : ∀ k, key ∈ (written k).documents →
        ∃ eventId, key = eventKey eventId ∧ Documented s' eventId := by
      intro k hKey
      obtain ⟨eventId, rfl, hDocument⟩ := h.documents k key hKey
      exact ⟨eventId, rfl, hDocuments eventId hDocument⟩
    rcases mem_of_mem_update Written.documents hKey with hKey | hKey
    · exact hOld j hKey
    · exact (hStored key hKey).elim (hOld i) id
  queued j eventId hMem := by
    rcases mem_of_mem_update Written.queued hMem with hMem | hMem
    · exact hLists (h.queued j eventId hMem)
    · exact (hQueued eventId hMem).elim (fun hOld => hLists (h.queued i eventId hOld)) id
  streamed j payload hMem := by
    rcases mem_of_mem_update Written.streamed hMem with hMem | hMem
    · exact hStream (h.streamed j payload hMem)
    · exact (hStreamed payload hMem).elim (fun hOld => hStream (h.streamed i payload hOld)) id
  documented eventId hMem := by
    rcases hPending eventId hMem with hOld | hNew
    · exact (h.documented eventId hOld).imp_right (hDocuments eventId)
    · exact .inr hNew
  marked eventId hMem := by
    rcases hDone eventId hMem with hOld | hNew
    · refine (h.marked eventId hOld).imp_right ?_
      rintro ⟨event, hId, hPayload⟩
      exact ⟨event, hId, hStream hPayload⟩
    · exact .inr hNew

/-- A call that leaves the outbox and the stream as they are, and records nothing. -/
theorem quiet {next : Written Raw} (hNext : next = written i) (hStrings : s'.strings = s.strings)
    (hLists : s'.lists = s.lists) (hSets : s'.sets = s.sets) (hStream : s'.stream = s.stream) :
    Relayed b s' (Function.update written i next) := by
  subst hNext
  refine h.grow (fun eventId hDocument => ?_) (by rw [hLists]; exact List.Subset.refl _)
    (by rw [hStream]; exact List.Subset.refl _) (fun _ => .inl) (fun _ => .inl) (fun _ => .inl)
    (fun _ hMem => .inl (hLists ▸ hMem)) fun _ hMem => .inl (hSets ▸ hMem)
  unfold Documented
  rw [hStrings]
  exact hDocument

/-- Every answer of the broker to a call that a process may make. -/
theorem step {op : Op Raw} {r : Except Exn (Ret op)} (hMay : relay.may (written i) op)
    (hAnswer : Broker.answer s op r s') :
    Relayed b s' (Function.update written i (relay.record (written i) op r)) := by
  rcases hAnswer with ⟨e, rfl, rfl⟩ | hDone
  · exact h.quiet (by cases op <;> rfl) rfl rfl rfl rfl
  · cases op with
    | set key value =>
      cases hDone
      obtain ⟨event, rfl, rfl⟩ := hMay
      refine h.grow (fun eventId hDocument => ?_) (List.Subset.refl _) (List.Subset.refl _)
        (fun key hKey => ?_) (fun _ => .inl) (fun _ => .inl) (fun _ => .inl) fun _ => .inl
      · by_cases hSame : eventId = event.eventId
        · subst hSame
          exact ⟨event, rfl, Function.update_self _ _ _⟩
        · obtain ⟨other, hId, hOther⟩ := hDocument
          refine ⟨other, hId, ?_⟩
          exact (Function.update_of_ne (fun hKey => hSame (eventKey_injective hKey)) _ _).trans
            hOther
      · refine (List.mem_append.mp hKey).imp_right fun hKey => ?_
        exact ⟨_, List.mem_singleton.mp hKey, event, rfl, Function.update_self _ _ _⟩
    | rpush key eventId =>
      cases hDone
      obtain ⟨rfl, hKey⟩ := hMay
      obtain ⟨other, hSame, hDocument⟩ := h.documents i _ hKey
      obtain rfl := eventKey_injective hSame
      have hList : Function.update s.lists pendingKey (s.lists pendingKey ++ [eventId])
          pendingKey = s.lists pendingKey ++ [eventId] := Function.update_self _ _ _
      refine h.grow (fun _ hOld => hOld) ?_ (List.Subset.refl _) (fun _ => .inl) (fun id hId => ?_)
        (fun _ => .inl) (fun id hId => ?_) fun _ => .inl
      · dsimp only
        rw [hList]
        exact List.subset_append_left _ _
      · dsimp only
        rw [hList]
        exact (List.mem_append.mp hId).imp_right (List.mem_append_right _)
      · dsimp only at hId
        rw [hList] at hId
        refine (List.mem_append.mp hId).imp_right fun hId => ?_
        rw [List.mem_singleton.mp hId]
        exact hDocument
    | sadd key eventId =>
      cases hDone
      obtain ⟨rfl, event, rfl, hStreamed⟩ := hMay
      refine h.grow (fun _ hOld => hOld) (List.Subset.refl _) (List.Subset.refl _) (fun _ => .inl)
        (fun _ => .inl) (fun _ => .inl) (fun _ => .inl) fun id hId => ?_
      dsimp only at hId
      rw [Function.update_self] at hId
      refine (List.mem_append.mp hId).imp_right fun hId => ?_
      exact ⟨event, (List.mem_singleton.mp hId).symm, h.streamed i _ hStreamed⟩
    | xadd payload =>
      cases hDone
      exact h.grow (fun _ hOld => hOld) (List.Subset.refl _) (List.subset_append_left _ _)
        (fun _ => .inl) (fun _ => .inl)
        (fun _ hMem => (List.mem_append.mp hMem).imp_right (List.mem_append_right _))
        (fun _ => .inl) fun _ => .inl
    | _ =>
      cases hDone
      exact h.quiet rfl rfl rfl rfl rfl

end Relayed

/-! ## The processes -/

variable [EventModels]

inductive Process
  | append (event : DomainEvent)
  | dispatch (publisher : OutboxPublisher) (limit : Option ℤ)
  | stream (worker : Worker)

def Process.program : Process → Async Raw Unit
  | .append event => RedisOutbox.append event
  | .dispatch publisher limit => do
    let _ ← publisher.dispatchPending limit
    return ()
  | .stream worker => worker.program

namespace RedisEventBus

variable (self : RedisEventBus)

omit [EventModels] in
theorem streams_publish (events : List DomainEvent) :
    Awaits Streams (self.publish events : Async Raw Unit) := by
  induction events with
  | nil => exact trivial
  | cons event rest ih =>
    exact .bind (.bind (.call trivial) fun _ => streams_notify event _) fun _ => ih

theorem streams_deliver (group : String) (message : ℕ × Raw) :
    Awaits Streams (self.deliver group message) := by
  refine .bind (.ofExcept _) ?_
  rintro ⟨handler, payload⟩
  cases handler with
  | none => exact .call trivial
  | some cls =>
    exact .bind (.ofExcept _) fun _ => .bind (.call trivial) fun _ => .call trivial

theorem streams_deliverAll (group : String) (messages : List (ℕ × Raw)) :
    Awaits Streams (self.deliverAll group messages) := by
  induction messages with
  | nil => exact trivial
  | cons message rest ih =>
    refine .bind (.attempt (self.streams_deliver group message)) ?_
    rintro (e | _)
    · exact .bind (.call trivial) fun _ => ih
    · exact ih

theorem streams_consumeStream (group consumer : String) (batch rounds : ℕ) :
    Awaits Streams (self.consumeStream group consumer batch rounds : Async Raw Unit) := by
  induction rounds with
  | zero => exact trivial
  | succ rounds ih =>
    refine .bind (.attempt (.bind (.call trivial) fun messages =>
      self.streams_deliverAll group messages)) ?_
    rintro (e | _)
    · exact .bind (.call trivial) fun _ => ih
    · exact ih

end RedisEventBus

/-- A worker of the stream does not touch the outbox. -/
theorem Worker.streams (worker : Worker) : Awaits Streams (worker.program : Async Raw Unit) := by
  cases worker with
  | publisher bus events => exact bus.streams_publish events
  | consumer bus group name batch rounds =>
    exact bus.streams_consumeStream group name batch rounds

theorem streams_load (ids : List String) :
    Awaits Streams (load ids : Async Raw (List DomainEvent)) := by
  induction ids with
  | nil => exact trivial
  | cons eid rest ih => exact .bind (.call trivial) fun _ => .bind ih fun _ => trivial

/-- Reading the outbox writes nothing. -/
theorem streams_next (limit : ℤ) :
    Awaits Streams (nextUndispatched limit : Async Raw (List DomainEvent)) :=
  .bind (.call trivial) fun ids => .bind (streams_collect limit ids []) streams_load

theorem Process.passes (process : Process) :
    relay.Passes (fun out written => out.isOk → ∀ event, process = .append event →
      event.eventId ∈ written.queued) {} (process.program : Async Raw Unit) := by
  cases process with
  | append event =>
    refine (passes_append event).mono fun out written hQueued hOk other hSame => ?_
    cases hSame
    exact hQueued hOk
  | dispatch publisher limit =>
    have hPending : relay.Passes (fun _ _ => True) {}
        (publisher.dispatchPending limit : Async Raw ℕ) :=
      .bind (P := fun _ _ => True) (.of_awaits (streams_next _) relay_streams)
        (fun pending written _ => passes_dispatchAll publisher pending 0 written)
        fun _ _ _ => trivial
    have hProgram : relay.Passes (fun _ _ => True) {}
        ((Process.dispatch publisher limit).program : Async Raw Unit) :=
      .bind hPending (fun _ _ _ => trivial) fun _ _ _ => trivial
    refine hProgram.mono ?_
    intro _ _ _ _ _ hSame
    cases hSame
  | stream worker =>
    refine (Audit.Passes.of_awaits worker.streams relay_streams).mono ?_
    intro _ _ _ _ _ hSame
    cases hSame

/-- All processes before their first step. -/
def Process.start (processes : ι → Process) (b : Broker Raw) : BusConfig Raw ι where
  state := b
  threads i := (processes i).program

/-- **The outbox is safe.** However the processes interleave, and whichever calls fail: an id
that they have queued has the document of its event, an id that they have marked has its
event in the stream, and a call of `append` that has returned has queued its event. -/
theorem outbox_safe [DecidableEq ι] {processes : ι → Process} {b : Broker Raw}
    {c : BusConfig Raw ι} {log : BusLog Raw ι}
    (h : Run Broker.answer (Process.start processes b) log c) :
    (∀ eventId ∈ c.state.lists pendingKey, eventId ∉ b.lists pendingKey →
        Documented c.state eventId) ∧
      (∀ eventId ∈ c.state.sets doneKey, eventId ∉ b.sets doneKey →
        InStream c.state eventId) ∧
      ∀ i event, processes i = .append event → c.threads i = ret () →
        event.eventId ∈ c.state.lists pendingKey := by
  have hStart : Relayed b b fun _ : ι => ({} : Written Raw) :=
    ⟨fun _ _ hNever => absurd hNever List.not_mem_nil,
      fun _ _ hNever => absurd hNever List.not_mem_nil,
      fun _ _ hNever => absurd hNever List.not_mem_nil, fun _ => .inl, fun _ => .inl⟩
  obtain ⟨written, hRelayed, hPasses⟩ := h.audited (A := relay) (J := fun _ s g => Relayed b s g)
    hStart (fun i => (processes i).passes) fun events s written i op r s' hBefore hMay hAnswer =>
      ⟨trivial, hBefore.step hMay hAnswer⟩
  refine ⟨fun eventId hQueued hNew => (hRelayed.documented eventId hQueued).resolve_left hNew,
    fun eventId hMarked hNew => (hRelayed.marked eventId hMarked).resolve_left hNew,
    fun i event hAppend hReturned => ?_⟩
  have hEnded := hPasses i
  rw [hReturned] at hEnded
  exact hRelayed.queued i event.eventId (hEnded rfl event hAppend)

end Delivery

/-! ## An event dispatched, another appended -/

namespace Relaying

open Raising

local instance : JsonText Json := parsedText

local instance : EventModels := plainModels

def switched : DomainEvent where
  cls := .killSwitchTriggered
  eventId := "e-2"
  occurredAt := "2026-01-01T00:00:00Z"
  values := [.str "manual"]
  identified := by decide
  declared := rfl

/-- The queued event is dispatched, and another one is appended. -/
def processes : Bool → Process
  | false => .dispatch publisher none
  | true => .append switched

def relayed : BusLog Json Bool × BusConfig Json Bool :=
  simulate (Process.start processes queued)
    ([false, true, false, false, false, true, false, false].map fun i =>
      (i, Broker.respond { handle := fun _ _ => true }))

theorem relayed_run : Run Broker.answer (Process.start processes queued) relayed.1 relayed.2 := by
  refine run_simulate fun turn hTurn b op => ?_
  obtain ⟨i, -, rfl⟩ := List.mem_map.mp hTurn
  exact b.answer_respond _ op

theorem relayed_safe :
    Documented relayed.2.state "e-2" ∧ InStream relayed.2.state "e-1" := by
  obtain ⟨hDocumented, hInStream, -⟩ := outbox_safe relayed_run
  exact ⟨hDocumented "e-2" (by decide) (by decide), hInStream "e-1" (by decide) (by decide)⟩

end Relaying

end TradingAgent.Messaging
