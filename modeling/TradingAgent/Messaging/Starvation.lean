import TradingAgent.Messaging.Outbox
import TradingAgent.Word.Collect

/-!
# Ids that cannot be decoded

`nextUndispatched` compares the limit with the number of undispatched ids, and drops those whose
document is missing or cannot be decoded only afterwards. Nothing marks them, so they take their
places in every later call too: it returns the first deliverable events exactly if each of the
first undispatched ids has one, or if no later id has one (`next_iff`).
-/

namespace TradingAgent.Messaging

open Coroutine Coro Collecting

namespace RedisOutbox

variable {Raw : Type}

/-- The queued ids that are not dispatched, in order. -/
def waiting (b : Broker Raw) : List String :=
  (b.lists pendingKey).filter fun eid => eid ∉ b.sets doneKey

/-- The first loop collects the first undispatched ids. -/
theorem scan_eq {limit : ℤ} {done ids undispatched : List String}
    (hMore : (undispatched.length : ℤ) < limit) :
    scan limit done undispatched ids =
      undispatched ++ (ids.filter (· ∉ done)).take (limit - undispatched.length).toNat := by
  induction ids generalizing undispatched with
  | nil => simp [scan]
  | cons eid rest ih =>
    unfold scan
    dsimp only
    by_cases hDone : eid ∈ done
    · rw [if_pos hDone, if_neg (by omega), ih hMore, List.filter_cons_of_neg (by simpa using hDone)]
    · have hLength : ((undispatched ++ [eid]).length : ℤ) = undispatched.length + 1 := by simp
      obtain ⟨more, hCount⟩ : ∃ more, (limit - undispatched.length).toNat = more + 1 :=
        ⟨(limit - undispatched.length - 1).toNat, by omega⟩
      rw [if_neg hDone, List.filter_cons_of_pos (by simpa using hDone), hCount,
        List.take_succ_cons]
      by_cases hFull : limit ≤ (undispatched ++ [eid]).length
      · obtain rfl : more = 0 := by omega
        rw [if_pos hFull, List.take_zero]
      · have hRest : (limit - (undispatched ++ [eid]).length).toNat = more := by omega
        rw [if_neg hFull, ih (by omega), hRest, List.append_assoc]
        rfl

section

variable [JsonText Raw] [EventModels]

/-- The undispatched events that can be decoded, in order. -/
def deliverable (b : Broker Raw) : List DomainEvent := (waiting b).flatMap (eventOf b)

/-- Each of the first undispatched ids has an event, or no later one has. -/
def Unblocked (b : Broker Raw) (limit : ℤ) : Prop :=
  (∀ eid ∈ (waiting b).take limit.toNat, eventOf b eid ≠ []) ∨
    ∀ eid ∈ (waiting b).drop limit.toNat, eventOf b eid = []

theorem length_eventOf_le (b : Broker Raw) (eid : String) : (eventOf b eid).length ≤ 1 := by
  unfold eventOf decoded
  split
  · exact Nat.zero_le 1
  · split
    · exact le_rfl
    · exact Nat.zero_le 1

theorem pendingEvents_eq (b : Broker Raw) {limit : ℤ} (hLimit : 1 ≤ limit) :
    pendingEvents b limit = ((waiting b).take limit.toNat).flatMap (eventOf b) := by
  have hScan : scan limit (b.sets doneKey) [] (b.lists pendingKey) =
      (waiting b).take limit.toNat := by
    have hMore : (([] : List String).length : ℤ) < limit := Int.lt_of_add_one_le hLimit
    rw [scan_eq hMore]
    simp [waiting]
  rw [pendingEvents, hScan]

/-- **Starvation.** The first deliverable events are returned exactly if no id without one is in
their way. -/
theorem next_iff (b : Broker Raw) {limit : ℤ} (hLimit : 1 ≤ limit) :
    (drive (Broker.respond {}) b (nextUndispatched limit)).1 =
        .ok ((deliverable b).take limit.toNat) ↔
      Unblocked b limit := by
  rw [drive_next, Except.ok.injEq, pendingEvents_eq b hLimit]
  exact flatMap_take_eq_iff (length_eventOf_le b)

end

/-! ## An id without a document -/

namespace Missing

local instance : JsonText Json := parsedText

local instance : EventModels := plainModels

/-- The document of the first id is missing, and that of the second one has the layout of the
reader. -/
def blocked : Broker Json where
  strings key :=
    if key = eventKey "e-1" then
      some (.obj [("type", .str "RiskBreached"), ("data", breach.modelDump)])
    else none
  lists key := if key = pendingKey then ["e-0", "e-1"] else []

example : deliverable blocked = [breach] := rfl

/-- The event waits behind an id that has none. -/
theorem breach_starves :
    (drive (Broker.respond {}) blocked (nextUndispatched 1)).1 = .ok [] ∧
      (deliverable blocked).take 1 = [breach] :=
  ⟨rfl, rfl⟩

/-- With room for both ids it is returned. -/
theorem breach_returned :
    (drive (Broker.respond {}) blocked (nextUndispatched 2)).1 =
      .ok ((deliverable blocked).take 2) := by
  refine (next_iff blocked (by decide : (1 : ℤ) ≤ 2)).mpr (.inr fun eid hLater => ?_)
  exact absurd hLater List.not_mem_nil

end Missing

end RedisOutbox

end TradingAgent.Messaging
