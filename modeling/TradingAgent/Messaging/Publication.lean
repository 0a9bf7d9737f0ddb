import TradingAgent.Coroutine.Audit
import TradingAgent.Messaging.Bus

/-!
# What a publication does

`publish` adds each event to the stream and then runs every handler of its class, in the
order of the subscriptions. A handler that raises keeps neither the handlers after it nor the
events after it from running; only an addition to the stream that raises ends the publication.
`published_in_order` says this of every publisher in every interleaving: the calls it makes
follow its `script`.
-/

namespace TradingAgent.Messaging

open Coroutine Coro

section Publication

variable {Raw ι : Type}

/-- What a publisher is still to call. Where the stream is `reliable`, no addition raises. -/
def following (reliable : Prop) : Audit (List (Op Raw)) Exn (@Ret Raw) where
  may left op := left.head? = some op
  rely
    | .xadd _, .error _ => ¬reliable
    | _, _ => True
  record left _ _ := left.tail

theorem relies_on_reliable {reliable : Prop} {e : Event Exn (@Ret Raw) ι}
    (h : reliable → ∀ payload failure, e ≠ ⟨e.thread, .xadd payload, .error failure⟩) :
    (following reliable).rely e.op e.answer := by
  obtain ⟨i, op, r⟩ := e
  cases op with
  | xadd payload =>
    cases r with
    | ok _ => exact trivial
    | error failure => exact fun hReliable => h hReliable payload failure rfl
  | _ => cases r <;> exact trivial

variable [JsonText Raw]

namespace RedisEventBus

variable (self : RedisEventBus)

/-- The calls that the publication of one event makes. -/
def scriptOne (event : DomainEvent) : List (Op Raw) :=
  .xadd (JsonText.dumps event.modelDump) ::
    (List.range (self.handlersOf event.cls)).map fun index => .handle index event

def script (events : List DomainEvent) : List (Op Raw) := events.flatMap self.scriptOne

variable {self} {reliable : Prop}

omit [JsonText Raw] in
theorem follows_notify (event : DomainEvent) (indices : List ℕ) (rest : List (Op Raw)) :
    (following reliable).Passes (fun out left => out.isOk ∧ left = rest)
      ((indices.map fun index => .handle index event) ++ rest) (notify event indices) := by
  induction indices with
  | nil => exact ⟨rfl, rfl⟩
  | cons index others ih =>
    refine .attempt_bind (P := fun _ left =>
      left = (others.map fun index => .handle index event) ++ rest) (.call rfl fun _ _ => rfl) ?_
    rintro - left rfl
    exact ih

/-- How a publication ends: with the rest of the script to go, or by a call that raises. -/
def Reaches (reliable : Prop) (rest : List (Op Raw)) : Except Exn Unit → List (Op Raw) → Prop
  | .ok _, left => left = rest
  | .error _, _ => ¬reliable

/-- A publication goes through its script, unless an addition to the stream raises. -/
theorem follows_publish (events : List DomainEvent) :
    (following reliable).Passes (Reaches reliable []) (self.script events)
      (self.publish events : Async Raw Unit) := by
  induction events with
  | nil => exact rfl
  | cons event rest ih =>
    refine .bind (P := Reaches reliable (self.script rest)) ?_ ?_ fun _ _ hRaised => hRaised
    · refine .bind (P := Reaches reliable
        (((List.range (self.handlersOf event.cls)).map fun index => .handle index event) ++
          self.script rest)) (.call rfl fun r hRely => ?_) ?_ fun _ _ hRaised => hRaised
      · cases r with
        | ok _ => exact rfl
        | error e => exact hRely
      · rintro _ left rfl
        refine (follows_notify event _ (self.script rest)).mono ?_
        rintro (e | _) left ⟨hOk, rfl⟩
        · cases hOk
        · exact rfl
    · rintro _ left rfl
      exact ih

end RedisEventBus

/-- What a worker has called and what it is still to call make up its script. -/
def Following (script : List (Op Raw)) (events : List (Event Exn (@Ret Raw) ι))
    (left : List (Op Raw)) : Prop :=
  events.map Event.op ++ left = script

omit [JsonText Raw] in
theorem following_step {reliable : Prop} {script left : List (Op Raw)} {i : ι}
    {events : List (Event Exn (@Ret Raw) ι)} {op : Op Raw} {r : Except Exn (Ret op)}
    (h : Following script events left) (hMay : (following reliable).may left op) :
    Following script (events ++ [⟨i, op, r⟩]) ((following reliable).record left op r) := by
  obtain ⟨rest, rfl⟩ := List.head?_eq_some_iff.mp hMay
  unfold Following at h ⊢
  rw [List.map_append, List.map_singleton, List.append_assoc]
  exact h

variable [EventModels]

/-- **Publication in order.** In every interleaving, whichever calls fail, the calls of a
publisher are the first ones of its script: every event is added to the stream, in order, and
then each of its handlers runs. A publisher that has returned has gone through the whole
script, and it raises only after an addition to the stream has. -/
theorem published_in_order [DecidableEq ι] {workers : ι → Worker} {b : Broker Raw}
    {c : BusConfig Raw ι} {log : BusLog Raw ι} (h : Run Broker.answer (start workers b) log c)
    {i : ι} {bus : RedisEventBus} {events : List DomainEvent}
    (hWorker : workers i = .publisher bus events) :
    (((log.map Prod.snd).filter fun e => e.thread = i).map Event.op) <+: bus.script events ∧
      (c.threads i = ret () →
        ((log.map Prod.snd).filter fun e => e.thread = i).map Event.op = bus.script events) ∧
      ∀ e, c.threads i = raise e →
        ∃ s ∈ log, ∃ payload failure, s.2 = ⟨i, .xadd payload, .error failure⟩ := by
  have hFollows : ∀ reliable : Prop, (following reliable).Passes
      (RedisEventBus.Reaches reliable []) (bus.script events)
      ((start workers b : BusConfig Raw ι).threads i) := by
    intro reliable
    change (following reliable).Passes _ _ (workers i).program
    rw [hWorker]
    exact RedisEventBus.follows_publish events
  obtain ⟨left, hScript, hPasses⟩ := h.audited_alone (A := following False)
    (K := Following (bus.script events)) rfl (hFollows False)
    (fun s _ _ => relies_on_reliable fun hNever _ _ _ => hNever)
    fun _ _ _ _ hBefore hMay _ => following_step hBefore hMay
  refine ⟨⟨left, hScript⟩, fun hReturned => ?_, fun e hRaised => ?_⟩
  · rw [hReturned] at hPasses
    obtain rfl : left = [] := hPasses
    rw [← hScript, List.append_nil]
  · by_contra hNone
    obtain ⟨left, -, hPasses⟩ := h.audited_alone (A := following True)
      (K := fun _ _ => True) trivial (hFollows True)
      (fun s hs hThread => relies_on_reliable fun _ payload failure hFails =>
        hNone ⟨s, hs, payload, failure, by rw [← hThread]; exact hFails⟩)
      fun _ _ _ _ _ _ _ => trivial
    rw [hRaised] at hPasses
    exact hPasses trivial

end Publication

namespace Publishing

open Unread

local instance : JsonText Json := parsedText

local instance : EventModels := plainModels

/-- The breach is added to the stream, and then its one handler runs. -/
theorem breach_published :
    ((ended.1.map Prod.snd).filter fun e => e.thread = false).map Event.op =
      [.xadd (JsonText.dumps breach.modelDump), .handle 0 breach] := by
  have hWorker : workers false = .publisher bus [breach] := rfl
  exact (published_in_order ended_run hWorker).2.1 rfl

end Publishing

end TradingAgent.Messaging
