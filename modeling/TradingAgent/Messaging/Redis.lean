import TradingAgent.Coroutine.Runs
import TradingAgent.Messaging.Entities
import Mathlib.Logic.Function.Basic

/-!
# The broker behind outbox and bus

The adapters await Redis commands, the handlers of subscribers, and the consumer that takes
what a generator yields. `Broker` is the state these calls read and change: the strings,
lists and sets of Redis, the stream with what its groups have been given and have
acknowledged, and the handler runs that were completed.

`Broker.respond` answers with given faults, and `Broker.answer` is the environment in which
every call may fail. A call that fails changes nothing.
-/

namespace TradingAgent.Messaging

open Coroutine

inductive Op (Raw : Type)
  /- Strings, lists and sets -/
  | set (key : String) (value : Raw)
  | get (key : String)
  | rpush (key value : String)
  | lrange (key : String)
  | sadd (key member : String)
  | sismember (key member : String)
  /- The stream of domain events -/
  | xadd (payload : Raw)
  | xreadgroup (group consumer : String) (count : ℕ)
  | xack (group : String) (id : ℕ)
  /- A handler, by its place among those of the event's class; the consumer; the clock -/
  | handle (index : ℕ) (event : DomainEvent)
  | yield (event : DomainEvent)
  | sleep

@[reducible] def Ret {Raw : Type} : Op Raw → Type
  | .set _ _ => Unit
  | .get _ => Option Raw
  | .rpush _ _ => Unit
  | .lrange _ => List String
  | .sadd _ _ => Unit
  | .sismember _ _ => Bool
  | .xadd _ => Unit
  | .xreadgroup _ _ _ => List (ℕ × Raw)
  | .xack _ _ => Unit
  | .handle _ _ => Unit
  | .yield _ => Unit
  | .sleep => Unit

abbrev Async (Raw α : Type) := Coro Exn (@Ret Raw) α

abbrev perform {Raw : Type} (op : Op Raw) : Async Raw (Ret op) := Coro.call op

/-- The stream keeps its entries in order, and the place of an entry is its id. A group is
given each entry once, in order. -/
structure Broker (Raw : Type) where
  strings : String → Option Raw := fun _ => none
  lists : String → List String := fun _ => []
  sets : String → List String := fun _ => []
  stream : List Raw := []
  delivered : String → ℕ := fun _ => 0
  acked : List (String × ℕ) := []
  handled : List (String × ℕ) := []

/-- The calls that fail. -/
structure Faults (Raw : Type) where
  xadd : Raw → Bool := fun _ => false
  handle : ℕ → DomainEvent → Bool := fun _ _ => false
  sadd : String → Bool := fun _ => false

namespace Broker

variable {Raw : Type}

/-- The entries that the group is given next, with their ids. -/
def unread (b : Broker Raw) (group : String) : List (ℕ × Raw) :=
  (b.stream.zipIdx.map Prod.swap).drop (b.delivered group)

def redisError : Exn := .other "RedisError"

def respond (faults : Faults Raw) (b : Broker Raw) :
    (op : Op Raw) → Except Exn (Ret op) × Broker Raw
  | .set key value => (.ok (), { b with strings := Function.update b.strings key (some value) })
  | .get key => (.ok (b.strings key), b)
  | .rpush key value =>
    (.ok (), { b with lists := Function.update b.lists key (b.lists key ++ [value]) })
  | .lrange key => (.ok (b.lists key), b)
  | .sadd key member =>
    if faults.sadd member then (.error redisError, b)
    else (.ok (), { b with sets := Function.update b.sets key (b.sets key ++ [member]) })
  | .sismember key member => (.ok (decide (member ∈ b.sets key)), b)
  | .xadd payload =>
    if faults.xadd payload then (.error redisError, b)
    else (.ok (), { b with stream := b.stream ++ [payload] })
  | .xreadgroup group _ count =>
    let messages := (b.unread group).take count
    (.ok messages, { b with
      delivered := Function.update b.delivered group (b.delivered group + messages.length) })
  | .xack group id => (.ok (), { b with acked := b.acked ++ [(group, id)] })
  | .handle index event =>
    if faults.handle index event then (.error (.other "Exception"), b)
    else (.ok (), { b with handled := b.handled ++ [(event.eventId, index)] })
  | .yield _ => (.ok (), b)
  | .sleep => (.ok (), b)

/-- The environment: a call fails without effect, or it goes through. -/
def answer : Environment (Broker Raw) Exn (@Ret Raw) := fun b op r b' =>
  (∃ e, r = .error e ∧ b' = b) ∨ (r, b') = b.respond {} op

/-- The environment allows any faults. -/
theorem answer_respond (faults : Faults Raw) (b : Broker Raw) (op : Op Raw) :
    answer b op (b.respond faults op).1 (b.respond faults op).2 := by
  cases op with
  | xadd payload =>
    cases hFails : faults.xadd payload with
    | true =>
      have hRaises : b.respond faults (.xadd payload) = (.error redisError, b) := by
        rw [respond, hFails, if_pos rfl]
      rw [hRaises]
      exact .inl ⟨_, rfl, rfl⟩
    | false =>
      have hDone : b.respond faults (.xadd payload) = b.respond {} (.xadd payload) := by
        rw [respond, hFails, if_neg Bool.false_ne_true]
        rfl
      rw [hDone]
      exact .inr rfl
  | sadd key member =>
    cases hFails : faults.sadd member with
    | true =>
      have hRaises : b.respond faults (.sadd key member) = (.error redisError, b) := by
        rw [respond, hFails, if_pos rfl]
      rw [hRaises]
      exact .inl ⟨_, rfl, rfl⟩
    | false =>
      have hDone : b.respond faults (.sadd key member) = b.respond {} (.sadd key member) := by
        rw [respond, hFails, if_neg Bool.false_ne_true]
        rfl
      rw [hDone]
      exact .inr rfl
  | handle index event =>
    cases hFails : faults.handle index event with
    | true =>
      have hRaises : b.respond faults (.handle index event) = (.error (.other "Exception"), b) := by
        rw [respond, hFails, if_pos rfl]
      rw [hRaises]
      exact .inl ⟨_, rfl, rfl⟩
    | false =>
      have hDone : b.respond faults (.handle index event) = b.respond {} (.handle index event) := by
        rw [respond, hFails, if_neg Bool.false_ne_true]
        rfl
      rw [hDone]
      exact .inr rfl
  | _ => exact .inr rfl

end Broker

end TradingAgent.Messaging
