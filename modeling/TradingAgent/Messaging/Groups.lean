import TradingAgent.Coroutine.Audit
import TradingAgent.Messaging.Bus
import Mathlib.Data.List.Flatten
import Mathlib.Data.List.Nodup

/-!
# Consumer groups

The consumers of a group share its place in the stream: a message is handed to one of them,
once. `consumeStream` acknowledges what it was handed, in order; a message whose
acknowledgement raises is tried once more, and when that raises too the rest of the batch is
dropped.

So every message is acknowledged at most once, and only by the consumer that it was handed
to; nothing is dropped by a consumer whose acknowledgements go through
(`acknowledged_once`). The audit `consumption` records the entries that a worker was handed
and has not settled.
-/

namespace TradingAgent.Messaging

open Coroutine Coro

section Groups

variable {Raw : Type} {ι : Type}

/-- A message of a group, by the group and the id. -/
abbrev Entry := String × ℕ

/-- The entries that a worker was handed and has not settled. Where the acknowledgements are
`reliable`, a worker settles all of them before it reads on. -/
def consumption (reliable : Prop) : Audit (List Entry) Exn (@Ret Raw) where
  may todo
    | .xack group id => todo.head? = some (group, id)
    | .xreadgroup _ _ _ => reliable → todo = []
    | _ => True
  rely
    | .xack _ _, .error _ => ¬reliable
    | _, _ => True
  record
    | _, .xreadgroup group _ _, .ok messages => messages.map fun message => (group, message.1)
    | todo, .xack _ _, .ok _ => todo.tail
    | todo, _, _ => todo

theorem relies_on_nothing (op : Op Raw) (r : Except Exn (Ret op)) :
    (consumption False).rely op r := by
  cases op with
  | xack group id =>
    cases r with
    | ok _ => exact trivial
    | error e => exact not_false
  | _ => cases r <;> exact trivial

/-- The entries that the answer hands to the worker. -/
def handed : Event Exn (@Ret Raw) ι → List Entry
  | ⟨_, .xreadgroup group _ _, .ok messages⟩ => messages.map fun message => (group, message.1)
  | _ => []

/-- The entry that the worker has acknowledged. -/
def acknowledged : Event Exn (@Ret Raw) ι → List Entry
  | ⟨_, .xack group id, .ok _⟩ => [(group, id)]
  | _ => []

namespace RedisEventBus

variable [JsonText Raw] [EventModels] (self : RedisEventBus) {reliable : Prop}

omit [JsonText Raw] [EventModels] in
theorem passes_notify (event : DomainEvent) (indices : List ℕ) {todo : List Entry}
    (hSettled : reliable → todo = []) :
    (consumption reliable).Passes (fun _ todo => reliable → todo = []) todo
      (notify event indices : Async Raw Unit) := by
  induction indices generalizing todo with
  | nil => exact hSettled
  | cons index rest ih =>
    refine Audit.Passes.attempt_bind (P := fun _ todo => reliable → todo = [])
      (.call trivial fun r _ => ?_) fun _ _ hTodo => ih hTodo
    cases r <;> exact hSettled

omit [EventModels] in
/-- A publisher is handed nothing. -/
theorem passes_publish (events : List DomainEvent) {todo : List Entry}
    (hSettled : reliable → todo = []) :
    (consumption reliable).Passes (fun _ todo => reliable → todo = []) todo
      (self.publish events : Async Raw Unit) := by
  induction events generalizing todo with
  | nil => exact hSettled
  | cons event rest ih =>
    refine Audit.Passes.bind (P := fun _ todo => reliable → todo = []) ?_
      (fun _ _ hTodo => ih hTodo) fun _ _ hTodo => hTodo
    refine Audit.Passes.bind (P := fun _ todo => reliable → todo = [])
      (.call trivial fun r _ => ?_) (fun _ _ hTodo => passes_notify event _ hTodo)
      fun _ _ hTodo => hTodo
    cases r <;> exact hSettled

/-- A delivered message is settled; one whose delivery raises is the next to settle. -/
theorem passes_deliver (group : String) (message : ℕ × Raw) (rest : List Entry) :
    (consumption reliable).Passes
      (fun out todo => todo = if out.isOk then rest else (group, message.1) :: rest)
      ((group, message.1) :: rest) (self.deliver group message) := by
  have hAck : (consumption reliable).Passes
      (fun out todo => todo = if out.isOk then rest else (group, message.1) :: rest)
      ((group, message.1) :: rest) (perform (.xack group message.1) : Async Raw Unit) := by
    refine .call rfl fun r _ => ?_
    cases r <;> rfl
  refine Audit.Passes.bind (P := fun _ todo => todo = (group, message.1) :: rest)
    (.ofExcept rfl) ?_ fun _ _ hSame => hSame
  rintro ⟨handler, payload⟩ todo rfl
  cases handler with
  | none => exact hAck
  | some cls =>
    refine Audit.Passes.bind (P := fun _ todo => todo = (group, message.1) :: rest)
      (.ofExcept rfl) ?_ fun _ _ hSame => hSame
    rintro event todo rfl
    refine Audit.Passes.bind (P := fun _ todo => todo = (group, message.1) :: rest)
      (.call trivial fun _ _ => rfl) ?_ fun _ _ hSame => hSame
    rintro - todo rfl
    exact hAck

/-- A batch is settled, unless an acknowledgement has raised twice. -/
theorem passes_deliverAll (group : String) (messages : List (ℕ × Raw)) :
    (consumption reliable).Passes (fun out todo => out.isOk ∨ reliable → todo = [])
      (messages.map fun message => (group, message.1)) (self.deliverAll group messages) := by
  induction messages with
  | nil => exact fun _ => rfl
  | cons message rest ih =>
    refine Audit.Passes.attempt_bind (self.passes_deliver group message _) ?_
    rintro (e | _) todo rfl
    · refine Audit.Passes.bind
        (P := fun out todo => if out.isOk then todo = rest.map fun message => (group, message.1)
          else ¬reliable) ?_ ?_ ?_
      · refine .call rfl fun r hRely => ?_
        cases r with
        | ok _ => exact rfl
        | error e => exact hRely
      · rintro - todo rfl
        exact ih
      · rintro e todo hLost (hNever | hReliable)
        · cases hNever
        · exact absurd hReliable hLost
    · exact ih

theorem passes_consumeStream (group consumer : String) (batch rounds : ℕ) {todo : List Entry}
    (hSettled : reliable → todo = []) :
    (consumption reliable).Passes (fun _ todo => reliable → todo = []) todo
      (self.consumeStream group consumer batch rounds : Async Raw Unit) := by
  induction rounds generalizing todo with
  | zero => exact hSettled
  | succ rounds ih =>
    refine Audit.Passes.attempt_bind (P := fun _ todo => reliable → todo = []) ?_ ?_
    · refine Audit.Passes.bind
        (P := fun out todo => match out with
          | .ok messages => todo = messages.map fun message => (group, message.1)
          | .error _ => reliable → todo = []) (.call hSettled fun r _ => ?_) ?_ fun _ _ h => h
      · cases r with
        | ok messages => exact rfl
        | error e => exact hSettled
      · rintro messages todo rfl
        exact (self.passes_deliverAll group messages).mono fun _ _ hTodo hReliable =>
          hTodo (.inr hReliable)
    · rintro (e | _) todo hSettled
      · exact Audit.Passes.bind (P := fun _ todo => reliable → todo = [])
          (.call trivial fun r _ => by cases r <;> exact hSettled) (fun _ _ hTodo => ih hTodo)
          fun _ _ hTodo => hTodo
      · exact ih hSettled

end RedisEventBus

/-! ## Entries across consumers -/

section Across

variable [DecidableEq ι]

/-- The events of one worker. -/
def eventsOf (i : ι) (events : List (Event Exn (@Ret Raw) ι)) : List (Event Exn (@Ret Raw) ι) :=
  events.filter fun e => e.thread = i

theorem eventsOf_concat (i : ι) (events : List (Event Exn (@Ret Raw) ι))
    (e : Event Exn (@Ret Raw) ι) :
    eventsOf i (events ++ [e]) = eventsOf i events ++ if e.thread = i then [e] else [] := by
  unfold eventsOf
  rw [List.filter_append]
  by_cases hThread : e.thread = i <;> simp [hThread]

/-- The entries handed to the workers of a group have the next ids of the group, in order, and
every worker settles in order the entries that it was handed. No entry is acknowledged
twice. -/
structure Handed (b : Broker Raw) (events : List (Event Exn (@Ret Raw) ι)) (s : Broker Raw)
    (todo : ι → List Entry) : Prop where
  next : ∀ group, ∃ n, s.delivered group = b.delivered group + n ∧
    ((events.flatMap handed).filter fun entry => entry.1 = group) =
      (List.range' (b.delivered group) n).map fun id => (group, id)
  order : ∀ i, ((eventsOf i events).flatMap acknowledged ++ todo i).Sublist
    ((eventsOf i events).flatMap handed)
  once : (events.flatMap acknowledged).Nodup

namespace Handed

variable {b s s' : Broker Raw} {events : List (Event Exn (@Ret Raw) ι)}
  {e : Event Exn (@Ret Raw) ι} {todo : ι → List Entry} {i : ι}

/-- No entry is handed out twice. -/
theorem nodup (h : Handed b events s todo) : (events.flatMap handed).Nodup := by
  rw [List.nodup_iff_count_le_one]
  intro entry
  obtain ⟨n, -, hNext⟩ := h.next entry.1
  have hGroup : ((events.flatMap handed).filter fun other => other.1 = entry.1).Nodup := by
    rw [hNext]
    exact List.Nodup.map (fun a b hSame => (Prod.mk.inj hSame).2) List.nodup_range'
  rw [← List.count_filter (p := fun other => decide (other.1 = entry.1)) (by simp)]
  exact List.nodup_iff_count_le_one.mp hGroup entry

/-- An entry is handed to one worker. -/
theorem handed_to_one (h : Handed b events s todo) {j : ι} {entry : Entry}
    (hi : entry ∈ (eventsOf i events).flatMap handed)
    (hj : entry ∈ (eventsOf j events).flatMap handed) : i = j := by
  by_contra hij
  have hPerm := (List.filter_append_perm (fun e => e.thread = i) events).flatMap_right handed
  have hNodup := hPerm.nodup_iff.mpr h.nodup
  rw [List.flatMap_append, List.nodup_append] at hNodup
  obtain ⟨e, he, hEntry⟩ := List.mem_flatMap.mp hj
  obtain ⟨hMem, hThread⟩ := List.mem_filter.mp he
  have hOther : e.thread ≠ i := fun hSame => hij (hSame.symm.trans (of_decide_eq_true hThread))
  refine hNodup.2.2 entry hi entry (List.mem_flatMap.mpr ⟨e, ?_, hEntry⟩) rfl
  exact List.mem_filter.mpr ⟨hMem, by simpa using hOther⟩

variable (h : Handed b events s todo)
include h

/-- An answer that hands out nothing and acknowledges nothing. -/
theorem quiet {entries : List Entry} (hHanded : handed e = []) (hAcknowledged : acknowledged e = [])
    (hTodo : entries = todo i) (hDelivered : s'.delivered = s.delivered) :
    Handed b (events ++ [e]) s' (Function.update todo i entries) where
  next group := by
    rw [hDelivered]
    simpa [hHanded] using h.next group
  order j := by
    rw [eventsOf_concat, hTodo, Function.update_eq_self]
    split <;> simpa [hHanded, hAcknowledged] using h.order j
  once := by simpa [hAcknowledged] using h.once

/-- A worker is handed the next entries of its group. -/
theorem read {group : String} {entries : List Entry} {count : ℕ} (hThread : e.thread = i)
    (hHanded : handed e = entries) (hAcknowledged : acknowledged e = [])
    (hEntries : entries = (List.range' (s.delivered group) count).map fun id => (group, id))
    (hDelivered : s'.delivered =
      Function.update s.delivered group (s.delivered group + count)) :
    Handed b (events ++ [e]) s' (Function.update todo i entries) where
  next other := by
    obtain ⟨n, hCount, hNext⟩ := h.next other
    rw [hDelivered, List.flatMap_append, List.filter_append, hNext, List.flatMap_singleton,
      hHanded]
    by_cases hSame : other = group
    · subst hSame
      have hAll : (entries.filter fun entry => entry.1 = other) = entries := by
        rw [List.filter_eq_self, hEntries]
        intro entry hEntry
        obtain ⟨id, -, rfl⟩ := List.mem_map.mp hEntry
        exact decide_eq_true rfl
      refine ⟨n + count, by rw [Function.update_self]; omega, ?_⟩
      rw [hAll, ← List.range'_append_1, List.map_append, ← hCount, ← hEntries]
    · have hNone : (entries.filter fun entry => entry.1 = other) = [] := by
        rw [List.filter_eq_nil_iff, hEntries]
        intro entry hEntry
        obtain ⟨id, -, rfl⟩ := List.mem_map.mp hEntry
        simpa using Ne.symm hSame
      refine ⟨n, by rw [Function.update_of_ne hSame]; exact hCount, ?_⟩
      rw [hNone, List.append_nil]
  order j := by
    have hBefore := h.order j
    rw [eventsOf_concat, hThread]
    by_cases hji : j = i
    · subst hji
      rw [if_pos rfl, Function.update_self, List.flatMap_append, List.flatMap_append,
        List.flatMap_singleton, List.flatMap_singleton, hAcknowledged, hHanded, List.append_nil]
      exact ((List.sublist_append_left _ _).trans hBefore).append (List.Sublist.refl entries)
    · rw [if_neg (Ne.symm hji), Function.update_of_ne hji, List.append_nil]
      exact hBefore
  once := by simpa [hAcknowledged] using h.once

/-- A worker acknowledges the first entry that it has to settle. -/
theorem acknowledge {entry : Entry} {rest : List Entry} (hThread : e.thread = i)
    (hHanded : handed e = []) (hAcknowledged : acknowledged e = [entry])
    (hTodo : todo i = entry :: rest) (hDelivered : s'.delivered = s.delivered) :
    Handed b (events ++ [e]) s' (Function.update todo i rest) where
  next group := by
    rw [hDelivered]
    simpa [hHanded] using h.next group
  order j := by
    have hBefore := h.order j
    rw [eventsOf_concat, hThread]
    by_cases hji : j = i
    · subst hji
      rw [hTodo] at hBefore
      rw [if_pos rfl, Function.update_self, List.flatMap_append, List.flatMap_append,
        List.flatMap_singleton, List.flatMap_singleton, hAcknowledged, hHanded, List.append_nil,
        List.append_assoc]
      exact hBefore
    · rw [if_neg (Ne.symm hji), Function.update_of_ne hji, List.append_nil]
      exact hBefore
  once := by
    rw [List.flatMap_append, List.flatMap_singleton, hAcknowledged]
    refine List.nodup_append.mpr ⟨h.once, List.nodup_singleton _, ?_⟩
    intro other hOther again hAgain hSame
    obtain rfl := List.mem_singleton.mp hAgain
    subst hSame
    -- The earlier acknowledgement would be one of an entry that the worker still has to settle.
    obtain ⟨f, hf, hEarlier⟩ := List.mem_flatMap.mp hOther
    have hMine : other ∈ todo i := by
      rw [hTodo]
      exact List.mem_cons_self
    have hTheirs : other ∈ (eventsOf f.thread events).flatMap acknowledged :=
      List.mem_flatMap.mpr ⟨f, List.mem_filter.mpr ⟨hf, decide_eq_true rfl⟩, hEarlier⟩
    have hHand : ∀ j, other ∈ (eventsOf j events).flatMap acknowledged ++ todo j →
        other ∈ (eventsOf j events).flatMap handed := fun j hj => (h.order j).subset hj
    obtain rfl := h.handed_to_one (hHand f.thread (List.mem_append_left _ hTheirs))
      (hHand i (List.mem_append_right _ hMine))
    have hNodup := (h.nodup.sublist (List.filter_sublist.flatMap handed)).sublist
      (h.order f.thread)
    exact (List.nodup_append.mp hNodup).2.2 other hTheirs other hMine rfl

omit h [DecidableEq ι] in
/-- The ids that a group is given next. -/
theorem unread_ids (s : Broker Raw) (group : String) (count : ℕ) :
    ((s.unread group).take count).map Prod.fst =
      List.range' (s.delivered group) ((s.unread group).take count).length := by
  have hIds : (s.stream.zipIdx.map Prod.swap).map Prod.fst = List.range' 0 s.stream.length := by
    rw [List.map_map]
    exact List.zipIdx_map_snd 0 s.stream
  have hLength : (s.stream.zipIdx.map Prod.swap).length = s.stream.length := by simp
  unfold Broker.unread
  rw [List.map_take, List.map_drop, hIds, List.length_take, List.length_drop, hLength,
    List.drop_range']
  apply List.ext_getElem
  · simp
  · intro n _ _
    simp

/-- Every answer of the broker to an operation that a worker may await. -/
theorem step {op : Op Raw} {r : Except Exn (Ret op)} (hMay : (consumption False).may (todo i) op)
    (hAnswer : Broker.answer s op r s') :
    Handed b (events ++ [⟨i, op, r⟩]) s'
      (Function.update todo i ((consumption False).record (todo i) op r)) := by
  rcases hAnswer with ⟨e, rfl, rfl⟩ | hDone
  · exact h.quiet (by cases op <;> rfl) (by cases op <;> rfl) (by cases op <;> rfl) rfl
  · cases op with
    | xreadgroup group consumer count =>
      cases hDone
      have hEntries : ((s.unread group).take count).map (fun message => (group, message.1)) =
          (List.range' (s.delivered group) ((s.unread group).take count).length).map fun id =>
            (group, id) := by
        rw [← unread_ids, List.map_map]
        rfl
      exact h.read rfl rfl rfl hEntries rfl
    | xack group id =>
      cases hDone
      obtain ⟨rest, hFirst⟩ := List.head?_eq_some_iff.mp hMay
      have hTodo : todo i = (group, id) :: (todo i).tail := by
        rw [hFirst, List.tail_cons]
      exact h.acknowledge rfl rfl rfl hTodo rfl
    | _ =>
      cases hDone
      exact h.quiet rfl rfl rfl rfl

end Handed

end Across

variable [JsonText Raw] [EventModels]

theorem Worker.passes {reliable : Prop} (worker : Worker) :
    (consumption reliable).Passes (fun _ todo => reliable → todo = []) []
      (worker.program : Async Raw Unit) := by
  cases worker with
  | publisher bus events => exact bus.passes_publish events fun _ => rfl
  | consumer bus group name batch rounds =>
    exact bus.passes_consumeStream group name batch rounds fun _ => rfl

/-- What was handed to a worker is what it has acknowledged and what it is to settle. -/
def Balanced (events : List (Event Exn (@Ret Raw) ι)) (todo : List Entry) : Prop :=
  events.flatMap acknowledged ++ todo = events.flatMap handed

omit [JsonText Raw] [EventModels] in
/-- Answers without a failing acknowledgement keep the balance. -/
theorem balanced_step {events : List (Event Exn (@Ret Raw) ι)} {todo : List Entry} {i : ι}
    {op : Op Raw} {r : Except Exn (Ret op)} (h : Balanced events todo)
    (hMay : (consumption True).may todo op) (hRely : (consumption True).rely op r) :
    Balanced (events ++ [⟨i, op, r⟩]) ((consumption True).record todo op r) := by
  have hQuiet : events.flatMap acknowledged ++ [] ++ todo = events.flatMap handed ++ [] := by
    rw [List.append_nil, List.append_nil]
    exact h
  unfold Balanced
  rw [List.flatMap_append, List.flatMap_append, List.flatMap_singleton, List.flatMap_singleton]
  cases op with
  | xreadgroup group consumer count =>
    cases r with
    | ok messages =>
      obtain rfl := hMay trivial
      rw [List.append_nil, List.append_nil] at hQuiet
      change events.flatMap acknowledged ++ [] ++ _ = _
      rw [List.append_nil, hQuiet, List.append_nil]
      rfl
    | error e => exact hQuiet
  | xack group id =>
    cases r with
    | ok _ =>
      obtain ⟨rest, rfl⟩ := List.head?_eq_some_iff.mp hMay
      change events.flatMap acknowledged ++ [(group, id)] ++ rest = _
      rw [List.append_assoc]
      exact h.trans (List.append_nil _).symm
    | error e => exact absurd trivial hRely
  | _ => cases r <;> exact hQuiet

/-- A worker whose acknowledgements go through settles everything that it was handed. -/
theorem settled_all [DecidableEq ι] {workers : ι → Worker} {b : Broker Raw}
    {c : BusConfig Raw ι} {log : BusLog Raw ι} {i : ι}
    (h : Run Broker.answer (start workers b) log c)
    (hReliable : ∀ s ∈ log, ∀ group id e, s.2 ≠ ⟨i, .xack group id, .error e⟩)
    (hReturned : c.threads i = ret ()) :
    (eventsOf i (log.map Prod.snd)).flatMap acknowledged =
      (eventsOf i (log.map Prod.snd)).flatMap handed := by
  have hRely : ∀ s ∈ log, s.2.thread = i → (consumption True).rely s.2.op s.2.answer := by
    rintro ⟨d, j, op, r⟩ hs rfl
    cases op with
    | xack group id =>
      cases r with
      | ok _ => exact trivial
      | error e => exact absurd rfl (hReliable _ hs group id e)
    | _ => cases r <;> exact trivial
  obtain ⟨todo, hSettled, hPasses⟩ := h.audited_alone (A := consumption True) (K := Balanced)
    rfl (workers i).passes hRely fun _ _ _ _ hBefore hMay hGiven =>
      balanced_step hBefore hMay hGiven
  rw [hReturned] at hPasses
  obtain rfl : todo = [] := hPasses trivial
  unfold Balanced at hSettled
  rwa [List.append_nil] at hSettled

/-- **Consumer groups.** However publishers and consumers interleave, and whichever calls
fail: no message is acknowledged twice in a group; the messages handed to the consumers of a
group are its next ones, each once and in order; a worker acknowledges, in order, only what
it was handed; and a worker that has returned and whose acknowledgements went through has
acknowledged everything that it was handed. -/
theorem acknowledged_once [DecidableEq ι] {workers : ι → Worker} {b : Broker Raw}
    {c : BusConfig Raw ι} {log : BusLog Raw ι} (h : Run Broker.answer (start workers b) log c) :
    ((log.map Prod.snd).flatMap acknowledged).Nodup ∧
      (∀ group, ∃ n, ((log.map Prod.snd).flatMap handed).filter (fun entry => entry.1 = group) =
        (List.range' (b.delivered group) n).map fun id => (group, id)) ∧
      (∀ i, ((eventsOf i (log.map Prod.snd)).flatMap acknowledged).Sublist
        ((eventsOf i (log.map Prod.snd)).flatMap handed)) ∧
      ∀ i, (∀ s ∈ log, ∀ group id e, s.2 ≠ ⟨i, .xack group id, .error e⟩) →
        c.threads i = ret () →
          (eventsOf i (log.map Prod.snd)).flatMap acknowledged =
            (eventsOf i (log.map Prod.snd)).flatMap handed := by
  have hStart : Handed b [] (start workers b : BusConfig Raw ι).state fun _ : ι => [] :=
    ⟨fun group => ⟨0, rfl, rfl⟩, fun i => List.Sublist.refl [], List.nodup_nil⟩
  obtain ⟨todo, hHanded, -⟩ := h.audited (A := consumption False) (J := Handed (ι := ι) b) hStart
    (fun i => (workers i).passes) fun events s todo i op r s' hBefore hMay hAnswer =>
      ⟨relies_on_nothing op r, hBefore.step hMay hAnswer⟩
  refine ⟨hHanded.once, fun group => ?_, fun i => ?_, fun i hReliable hReturned => ?_⟩
  · obtain ⟨n, -, hNext⟩ := hHanded.next group
    exact ⟨n, hNext⟩
  · exact (List.sublist_append_left _ _).trans (hHanded.order i)
  · exact settled_all h hReliable hReturned

end Groups

namespace Grouping

open Unread

local instance : JsonText Json := parsedText

local instance : EventModels := plainModels

/-- The consumer acknowledges the one message that it was handed. -/
theorem breach_acknowledged :
    (eventsOf true (ended.1.map Prod.snd)).flatMap acknowledged =
        (eventsOf true (ended.1.map Prod.snd)).flatMap handed ∧
      (eventsOf true (ended.1.map Prod.snd)).flatMap handed = [("group", 0)] := by
  have hAnswered : (ended.1.all fun s => s.2.answer.isOk) = true := rfl
  refine ⟨(acknowledged_once ended_run).2.2.2 true (fun s hs group id e hFails => ?_) rfl, rfl⟩
  have hOk := List.all_eq_true.mp hAnswered s hs
  rw [hFails] at hOk
  cases hOk

end Grouping

end TradingAgent.Messaging
