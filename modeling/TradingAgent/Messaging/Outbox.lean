import TradingAgent.Coroutine.Sequence
import TradingAgent.Messaging.Redis

/-!
# The Redis outbox

`append` stores the dump of an event and queues its id; `nextUndispatched` collects the queued
ids that are not in the set of dispatched ones and reads their documents. `drive_next` says
what it returns over any content of Redis.

The writer stores the fields of the event at the top of the document, and the reader looks
there for `type` and `data`, which no event has. So no document of `append` is ever read back:
`recovered_iff` says that the undispatched events come back only where there are none.
-/

namespace TradingAgent.Messaging

open Coroutine Coro Sequence

namespace RedisOutbox

section Outbox

variable {Raw : Type} [JsonText Raw] [EventModels]

def eventKey (eventId : String) : String := "outbox:event:" ++ eventId

def pendingKey : String := "outbox:pending"

def doneKey : String := "outbox:dispatched"

omit [EventModels] in
def append (event : DomainEvent) : Async Raw Unit := do
  perform (.set (eventKey event.eventId) (JsonText.dumps event.modelDump))
  perform (.rpush pendingKey event.eventId)

omit [JsonText Raw] [EventModels] in
def markDispatched (eventId : String) : Async Raw Unit := perform (.sadd doneKey eventId)

/-- The first loop of `next_undispatched`: the limit is compared after each id. -/
def collect (limit : ℤ) : List String → List String → Async Raw (List String)
  | undispatched, [] => return undispatched
  | undispatched, eid :: rest => do
    let done ← perform (.sismember doneKey eid)
    let undispatched := if done then undispatched else undispatched ++ [eid]
    if limit ≤ undispatched.length then
      return undispatched
    else
      collect limit undispatched rest

/-- `_resolve_type`. -/
def resolveType : Json → Option EventClass
  | .str typeName => EventClass.subclasses.find? fun cls => cls.name = typeName
  | _ => none

/-- The body of the `try` block: the event that a document gives, if its type is known. -/
def decode (raw : Raw) : Except Exn (Option DomainEvent) :=
  match JsonText.loads raw with
  | none => .error (.valueError "JSONDecodeError")
  | some data => do
    let typeName ← data.get "type" (.str "")
    let payload ← data.get "data" (.obj [])
    match resolveType typeName with
    | some cls => return some (← construct cls payload)
    | none => return none

/-- What a stored document adds to the events: a document that is missing or cannot be
decoded adds nothing. -/
def decoded : Option Raw → List DomainEvent
  | none => []
  | some raw =>
    match decode raw with
    | .ok (some event) => [event]
    | _ => []

/-- The second loop of `next_undispatched`. -/
def load : List String → Async Raw (List DomainEvent)
  | [] => return []
  | eid :: rest => do
    let raw ← perform (.get (eventKey eid))
    let events ← load rest
    return decoded raw ++ events

def nextUndispatched (limit : ℤ) : Async Raw (List DomainEvent) := do
  let ids ← perform (.lrange pendingKey)
  let undispatched ← collect limit [] ids
  load undispatched

/-! ## What is read -/

/-- The ids that the first loop collects, where `done` are the dispatched ones. -/
def scan (limit : ℤ) (done : List String) : List String → List String → List String
  | undispatched, [] => undispatched
  | undispatched, eid :: rest =>
    let undispatched := if eid ∈ done then undispatched else undispatched ++ [eid]
    if limit ≤ undispatched.length then undispatched else scan limit done undispatched rest

omit [JsonText Raw] [EventModels] in
/-- The first loop collects queued ids that are not dispatched. -/
theorem scan_cases {limit : ℤ} {done ids undispatched : List String} :
    ∀ eid ∈ scan limit done undispatched ids, eid ∈ undispatched ∨ eid ∈ ids ∧ eid ∉ done := by
  induction ids generalizing undispatched with
  | nil => exact fun eid h => .inl h
  | cons first rest ih =>
    have hNext : ∀ eid ∈ (if first ∈ done then undispatched else undispatched ++ [first]),
        eid ∈ undispatched ∨ eid ∈ first :: rest ∧ eid ∉ done := by
      intro eid h
      split at h
      · exact .inl h
      · rename_i hDone
        rcases List.mem_append.mp h with hOld | hNew
        · exact .inl hOld
        · obtain rfl := List.mem_singleton.mp hNew
          exact .inr ⟨List.mem_cons_self, hDone⟩
    intro eid h
    unfold scan at h
    generalize (if first ∈ done then undispatched else undispatched ++ [first]) = next at h hNext
    by_cases hFull : limit ≤ next.length
    · rw [if_pos hFull] at h
      exact hNext eid h
    · rw [if_neg hFull] at h
      rcases ih eid h with hCollected | ⟨hRest, hDone⟩
      · exact hNext eid hCollected
      · exact .inr ⟨List.mem_cons_of_mem first hRest, hDone⟩

omit [JsonText Raw] [EventModels] in
theorem mem_scan_of_mem {limit : ℤ} {done ids undispatched : List String} {eid : String}
    (h : eid ∈ undispatched) : eid ∈ scan limit done undispatched ids := by
  induction ids generalizing undispatched with
  | nil => exact h
  | cons first rest ih =>
    unfold scan
    have hNext : eid ∈ (if first ∈ done then undispatched else undispatched ++ [first]) := by
      split
      · exact h
      · exact List.mem_append_left _ h
    generalize (if first ∈ done then undispatched else undispatched ++ [first]) = next at hNext ⊢
    by_cases hFull : limit ≤ next.length
    · rw [if_pos hFull]
      exact hNext
    · rw [if_neg hFull]
      exact ih hNext

omit [JsonText Raw] [EventModels] in
/-- An id that is collected is collected again once more ids are dispatched, if it is not one
of them and the limit is not lower. -/
theorem scan_mono {limit limit' : ℤ} {done done' ids undispatched undispatched' : List String}
    {eid : String} (hLimit : limit ≤ limit') (hDone : ∀ other ∈ done, other ∈ done')
    (hFree : eid ∉ done') (hLength : undispatched'.length ≤ undispatched.length)
    (hCollected : eid ∈ undispatched → eid ∈ undispatched')
    (h : eid ∈ scan limit done undispatched ids) : eid ∈ scan limit' done' undispatched' ids := by
  induction ids generalizing undispatched undispatched' with
  | nil => exact hCollected h
  | cons first rest ih =>
    have hNext : (if first ∈ done' then undispatched' else undispatched' ++ [first]).length ≤
          (if first ∈ done then undispatched else undispatched ++ [first]).length ∧
        (eid ∈ (if first ∈ done then undispatched else undispatched ++ [first]) →
          eid ∈ (if first ∈ done' then undispatched' else undispatched' ++ [first])) := by
      by_cases hFirst : first ∈ done
      · rw [if_pos hFirst, if_pos (hDone first hFirst)]
        exact ⟨hLength, hCollected⟩
      · rw [if_neg hFirst]
        by_cases hLater : first ∈ done'
        · rw [if_pos hLater]
          refine ⟨by rw [List.length_append]; omega, fun hMem => ?_⟩
          rcases List.mem_append.mp hMem with hOld | hNew
          · exact hCollected hOld
          · obtain rfl := List.mem_singleton.mp hNew
            exact absurd hLater hFree
        · rw [if_neg hLater]
          refine ⟨by simpa using hLength, fun hMem => ?_⟩
          rcases List.mem_append.mp hMem with hOld | hNew
          · exact List.mem_append_left _ (hCollected hOld)
          · exact List.mem_append_right _ hNew
    obtain ⟨hShorter, hMember⟩ := hNext
    unfold scan at h ⊢
    generalize (if first ∈ done then undispatched else undispatched ++ [first]) = next
      at h hShorter hMember
    generalize (if first ∈ done' then undispatched' else undispatched' ++ [first]) = next'
      at hShorter hMember ⊢
    by_cases hFull : limit ≤ next.length
    · rw [if_pos hFull] at h
      by_cases hFull' : limit' ≤ next'.length
      · rw [if_pos hFull']
        exact hMember h
      · rw [if_neg hFull']
        exact mem_scan_of_mem (hMember h)
    · rw [if_neg hFull] at h
      rw [if_neg (by omega)]
      exact ih hShorter hMember h

/-- The event of a queued id. -/
def eventOf (b : Broker Raw) (eid : String) : List DomainEvent :=
  decoded (b.strings (eventKey eid))

/-- What `next_undispatched` returns. -/
def pendingEvents (b : Broker Raw) (limit : ℤ) : List DomainEvent :=
  (scan limit (b.sets doneKey) [] (b.lists pendingKey)).flatMap (eventOf b)

omit [JsonText Raw] [EventModels] in
theorem drive_collect (faults : Faults Raw) (b : Broker Raw) (limit : ℤ)
    (ids undispatched : List String) :
    drive (Broker.respond faults) b (collect limit undispatched ids) =
      (.ok (scan limit (b.sets doneKey) undispatched ids), b) := by
  induction ids generalizing undispatched with
  | nil => rfl
  | cons eid rest ih =>
    unfold collect scan
    rw [drive_bind, drive_call, Broker.respond]
    dsimp only
    simp only [decide_eq_true_eq]
    generalize (if eid ∈ b.sets doneKey then undispatched else undispatched ++ [eid]) = next
    by_cases hFull : limit ≤ next.length
    · rw [if_pos hFull, if_pos hFull]
      rfl
    · rw [if_neg hFull, if_neg hFull]
      exact ih next

theorem drive_load (faults : Faults Raw) (b : Broker Raw) (ids : List String) :
    drive (Broker.respond faults) b (load ids) = (.ok (ids.flatMap (eventOf b)), b) := by
  induction ids with
  | nil => rfl
  | cons eid rest ih =>
    unfold load
    rw [drive_bind, drive_call, Broker.respond]
    dsimp only
    rw [drive_bind, ih]
    rfl

theorem drive_next (faults : Faults Raw) (b : Broker Raw) (limit : ℤ) :
    drive (Broker.respond faults) b (nextUndispatched limit) =
      (.ok (pendingEvents b limit), b) := by
  unfold nextUndispatched
  rw [drive_bind, drive_call, Broker.respond]
  dsimp only
  rw [drive_bind, drive_collect]
  exact drive_load faults b _

/-! ## What is written -/

/-- A call of the producer's side of the outbox. -/
inductive Call
  | append (event : DomainEvent)
  | mark (eventId : String)

omit [EventModels] in
/-- A call without faults. -/
def Call.step (b : Broker Raw) : Call → Except Exn Unit × Broker Raw
  | .append event => drive (Broker.respond {}) b (RedisOutbox.append event)
  | .mark eventId => drive (Broker.respond {}) b (markDispatched eventId)

/-- The events that were appended and not marked, in the order of their appends. -/
def undispatched (history : List Call) : List DomainEvent :=
  history.filterMap fun call =>
    match call with
    | .append event => if history.any (fun other => match other with
        | .mark eventId => eventId = event.eventId
        | .append _ => false) then none else some event
    | .mark _ => none

/-- The dump of an event has no type, so that it cannot be decoded. -/
theorem decode_dumps (event : DomainEvent) :
    decode (JsonText.dumps event.modelDump : Raw) = .ok none := by
  unfold decode
  rw [JsonText.loads_dumps]
  dsimp only
  rw [event.get_type_modelDump, event.get_data_modelDump]
  rfl

omit [EventModels] in
/-- Every queued id has the dump of an event as its document. -/
def Dumped (b : Broker Raw) : Prop :=
  ∀ eid ∈ b.lists pendingKey, ∃ event : DomainEvent,
    b.strings (eventKey eid) = some (JsonText.dumps event.modelDump)

omit [EventModels] in
theorem dumped_step {b : Broker Raw} (h : Dumped b) (call : Call) : Dumped (call.step b).2 := by
  cases call with
  | mark eventId => exact h
  | append event =>
    intro eid hQueued
    by_cases hSame : eventKey eid = eventKey event.eventId
    · refine ⟨event, ?_⟩
      change Function.update b.strings (eventKey event.eventId) _ (eventKey eid) = _
      rw [hSame, Function.update_self]
    · have hBefore : eid ∈ b.lists pendingKey := by
        change eid ∈ Function.update b.lists pendingKey _ pendingKey at hQueued
        rw [Function.update_self] at hQueued
        rcases List.mem_append.mp hQueued with hOld | hNew
        · exact hOld
        · obtain rfl := List.mem_singleton.mp hNew
          exact absurd rfl hSame
      obtain ⟨other, hOther⟩ := h eid hBefore
      refine ⟨other, ?_⟩
      change Function.update b.strings (eventKey event.eventId) _ (eventKey eid) = _
      rw [Function.update_of_ne hSame]
      exact hOther

omit [EventModels] in
theorem dumped_final {b : Broker Raw} (hEmpty : b.lists pendingKey = []) (history : List Call) :
    Dumped (final Call.step b history) := by
  refine final_induction (I := fun (_ : List Call) b => Dumped b) ?_ ?_
  · intro eid hQueued
    rw [hEmpty] at hQueued
    cases hQueued
  · intro before call _ _ hDumped
    exact dumped_step hDumped call

/-- The documents of an outbox that was only appended to give no event. -/
theorem pendingEvents_dumped {b : Broker Raw} (h : Dumped b) (limit : ℤ) :
    pendingEvents b limit = [] := by
  unfold pendingEvents
  rw [List.flatMap_eq_nil_iff]
  intro eid hScanned
  have hQueued : eid ∈ b.lists pendingKey := by
    rcases scan_cases eid hScanned with hNever | ⟨hQueued, -⟩
    · cases hNever
    · exact hQueued
  obtain ⟨event, hDocument⟩ := h eid hQueued
  unfold eventOf decoded
  rw [hDocument]
  dsimp only
  rw [decode_dumps]

/-- **The outbox round trip.** After any appends and marks on an empty outbox,
`next_undispatched` returns the undispatched events in the order of their appends exactly
when there are none. -/
theorem recovered_iff {b : Broker Raw} (hEmpty : b.lists pendingKey = []) (history : List Call)
    (limit : ℤ) :
    (drive (Broker.respond {}) (final Call.step b history) (nextUndispatched limit)).1 =
        .ok (undispatched history) ↔
      undispatched history = [] := by
  rw [drive_next, pendingEvents_dumped (dumped_final hEmpty history)]
  constructor
  · intro h
    exact (Except.ok.inj h).symm
  · intro h
    rw [h]

end Outbox

/-! ## A lost event -/

namespace Lost

local instance : JsonText Json := parsedText

local instance : EventModels := plainModels

/-- The event is appended, it is not marked, and the reader returns nothing. -/
theorem breach_lost :
    undispatched [.append breach] = [breach] ∧
      (drive (Broker.respond {}) (final Call.step ({} : Broker Json) [.append breach])
        (nextUndispatched 100)).1 = .ok [] :=
  ⟨rfl, rfl⟩

/-- It comes back only once there is nothing to return. -/
theorem breach_unrecovered :
    (drive (Broker.respond {}) (final Call.step ({} : Broker Json) [.append breach])
        (nextUndispatched 100)).1 = .ok (undispatched [.append breach]) ↔
      undispatched [.append breach] = [] :=
  recovered_iff rfl [.append breach] 100

end Lost

end RedisOutbox

end TradingAgent.Messaging
