import TradingAgent.Trading.Interleaving

/-!
# Failures and retries

One command after the other is executed, and a call whose `execute` raises is made again
with the same command until it returns. After the submission, every awaited call may raise;
such a fault has no effect of its own. The risk gate and the gateway answer as functions of
what they are asked (`Venue`), so that two runs with the same commands can be compared.

A fault leaves a trace that no retry removes: when the order could not be stored, the retry
submits it again; when it was stored, the retry finds it, and its fill is not booked or its
change of state not announced. `retried_agree_iff` says that a run ends like the run
without faults exactly when no fault happened. The invariant is `Tied`: the stored orders
are the same, and the first fault of the run shows in the submissions or the announcements.

Two runs draw different identifiers, so orders are compared by their `content`, and an
announced order is known by its client order id.
-/

namespace TradingAgent.Trading

open Coroutine Coro

/-- The order without what `uuid4()` and the clock gave it. -/
def TradeOrder.content (order : TradeOrder) : TradeOrder :=
  { order with id := ⟨""⟩, createdAt := 0 }

/-- The calls that `execute` awaits after the submission. -/
def late : Op → Bool
  | .saveOrder _ => true
  | .getPosition _ => true
  | .savePosition _ => true
  | .publish _ => true
  | _ => false

/-- A risk gate and a gateway that answer by functions. The gateway hands back the order
it was given, filled or as it is, and does the same for orders of the same content. -/
structure Venue extends World.Replies where
  executed : ∀ order : TradeOrder, order.Executed (gateway order)
  blind : ∀ order order' : TradeOrder, order.content = order'.content →
    (gateway order).map TradeOrder.content = (gateway order').map TradeOrder.content

section Calls

variable [PyText]

/-- A world and the number of faults so far. A call goes through, or a late one raises. -/
def Venue.faulty (venue : Venue) : Environment (World × ℕ) Exn Ret := fun s op r s' =>
  ((r, s'.1) = s.1.respond venue.toReplies op ∧ s'.2 = s.2) ∨
    (late op = true ∧ (∃ e, r = .error e) ∧ s' = (s.1, s.2 + 1))

/-- No stored order and no announcement has the id. -/
structure Fresh (w : World) (id : UUID) : Prop where
  orders : ∀ order ∈ w.orders, order.id ≠ id
  published : ∀ order : TradeOrder, order.stateChanged ∈ w.published → order.id ≠ id

/-- A command is executed until its call returns. -/
inductive Retried (venue : Venue) (command : PlaceOrderCommand) :
    World × ℕ → World × ℕ → Prop
  | returned {s s' : World × ℕ} {call : Call} {result : Result TradeOrder String}
      (hCommand : call.command = command) (hFresh : Fresh s.1 call.id)
      (hRuns : Runs venue.faulty s (PlaceOrderService.ports.execute call) (.ok result) s') :
      Retried venue command s s'
  | failed {s t s' : World × ℕ} {call : Call} {e : Exn} (hCommand : call.command = command)
      (hFresh : Fresh s.1 call.id)
      (hRuns : Runs venue.faulty s (PlaceOrderService.ports.execute call) (.error e) t)
      (hRetry : Retried venue command t s') : Retried venue command s s'

/-- The commands are executed one after the other. -/
inductive Session (venue : Venue) : List PlaceOrderCommand → World × ℕ → World × ℕ → Prop
  | nil (s : World × ℕ) : Session venue [] s s
  | cons {command : PlaceOrderCommand} {commands : List PlaceOrderCommand}
      {s t s' : World × ℕ} (hRetried : Retried venue command s t)
      (hRest : Session venue commands t s') : Session venue (command :: commands) s s'

/-- The change of state of an order stored under the client order id was announced. -/
def Announced (w : World) (clientOrderId : String) : Prop :=
  ∃ order ∈ w.orders, order.clientOrderId = clientOrderId ∧ order.stateChanged ∈ w.published

/-- Submissions, stored orders, stored positions and announced orders are the same. -/
structure Agree (w v : World) : Prop where
  submissions : w.submissions.map TradeOrder.content = v.submissions.map TradeOrder.content
  orders : w.orders.map TradeOrder.content = v.orders.map TradeOrder.content
  positions : w.positions = v.positions
  announced : ∀ clientOrderId, Announced w clientOrderId ↔ Announced v clientOrderId

/-! ## One attempt -/

namespace Venue

variable (venue : Venue)

/-- The order that a call submits when nothing is stored under its id. -/
def tries (c : Call) : Option TradeOrder :=
  if (venue.gate c.command.symbol (c.command.quantity * c.command.price) c.command.equity).1 then
    c.createOrder.toOption
  else none

/-- The order that the gateway hands back for it. -/
def makes (c : Call) : Option TradeOrder :=
  (venue.tries c).bind fun order => (venue.gateway order).toOption

end Venue

/-- How the calls after the store of `order` end: all of them went through, and the table
is `positions`, or a fault came before the announcement. -/
inductive Ended (order : TradeOrder) (positions : String → Option Position) (s : World × ℕ) :
    Except Exn (Result TradeOrder String) → World × ℕ → Prop
  | announced {s' : World × ℕ} (hOrders : s'.1.orders = s.1.orders)
      (hSubmissions : s'.1.submissions = s.1.submissions) (hPositions : s'.1.positions = positions)
      (hPublished : s'.1.published = s.1.published ++ [order.stateChanged])
      (hFaults : s'.2 = s.2) : Ended order positions s (.ok (.ok order)) s'
  | silent {s' : World × ℕ} (e : Exn) (hOrders : s'.1.orders = s.1.orders)
      (hSubmissions : s'.1.submissions = s.1.submissions)
      (hPublished : s'.1.published = s.1.published) (hFaults : s'.2 = s.2 + 1) :
      Ended order positions s (.error e) s'

section Attempt

variable {venue : Venue} {c : Call} {s s' : World × ℕ} {order : TradeOrder}
  {out : Except Exn (Result TradeOrder String)}

theorem Venue.faulty_ok {op : Op} {a : Ret op} (h : venue.faulty s op (.ok a) s') :
    (.ok a, s'.1) = s.1.respond venue.toReplies op ∧ s'.2 = s.2 := by
  rcases h with h | ⟨-, ⟨e, he⟩, -⟩
  · exact h
  · cases he

/-- A call that the world itself answers with a value raises only by a fault. -/
theorem Venue.faulty_error {op : Op} {e : Exn} {a : Ret op}
    (hRespond : (s.1.respond venue.toReplies op).1 = .ok a)
    (h : venue.faulty s op (.error e) s') : s' = (s.1, s.2 + 1) ∧ late op = true := by
  rcases h with ⟨hAnswer, -⟩ | ⟨hLate, -, hState⟩
  · rw [← hAnswer] at hRespond
    cases hRespond
  · exact ⟨hState, hLate⟩

theorem runs_publishing (h : Runs venue.faulty s ((Phase.publishing order).program c) out s') :
    Ended order s.1.positions s out s' := by
  obtain ⟨r, t, ph', hAnswer, hMoves, hRest⟩ := Phase.runs_cases rfl h
  cases hMoves with
  | announced =>
    obtain ⟨rfl, rfl⟩ := Runs.ret_iff.mp hRest
    obtain ⟨hWorld, hFaults⟩ := Venue.faulty_ok hAnswer
    obtain ⟨-, hWorld⟩ := Prod.mk.inj hWorld
    exact .announced (by rw [hWorld]; rfl) (by rw [hWorld]; rfl) (by rw [hWorld]; rfl)
      (by rw [hWorld]; rfl) hFaults
  | publishRaised _ e =>
    obtain ⟨rfl, rfl⟩ := Runs.raise_iff.mp hRest
    obtain ⟨rfl, -⟩ := Venue.faulty_error rfl hAnswer
    exact .silent e rfl rfl rfl rfl

theorem runs_writing {updated : Position}
    (h : Runs venue.faulty s ((Phase.writing order updated).program c) out s') :
    Ended order (s.1.savePosition updated).positions s out s' := by
  obtain ⟨r, t, ph', hAnswer, hMoves, hRest⟩ := Phase.runs_cases rfl h
  cases hMoves with
  | written =>
    obtain ⟨hWorld, hFaults⟩ := Venue.faulty_ok hAnswer
    obtain ⟨-, hWorld⟩ := Prod.mk.inj hWorld
    have hOrders : t.1.orders = s.1.orders := by rw [hWorld]; rfl
    have hSubmissions : t.1.submissions = s.1.submissions := by rw [hWorld]; rfl
    have hPublished : t.1.published = s.1.published := by rw [hWorld]; rfl
    cases runs_publishing hRest with
    | announced h₁ h₂ h₃ h₄ h₅ =>
      exact .announced (h₁.trans hOrders) (h₂.trans hSubmissions) (by rw [h₃, hWorld])
        (by rw [h₄, hPublished]) (h₅.trans hFaults)
    | silent e h₁ h₂ h₃ h₄ =>
      exact .silent e (h₁.trans hOrders) (h₂.trans hSubmissions) (h₃.trans hPublished)
        (by rw [h₄, hFaults])
  | writeRaised _ _ e =>
    obtain ⟨rfl, rfl⟩ := Runs.raise_iff.mp hRest
    obtain ⟨rfl, -⟩ := Venue.faulty_error rfl hAnswer
    exact .silent e rfl rfl rfl rfl

theorem runs_reading (hOfCall : OfCall c order) (hStatus : order.status = .filled)
    {executedPrice : ℚ} (hPrice : order.executedPrice = some executedPrice)
    (h : Runs venue.faulty s ((Phase.reading order executedPrice).program c) out s') :
    Ended order (booked s.1.positions order) s out s' := by
  obtain ⟨r, t, ph', hAnswer, hMoves, hRest⟩ := Phase.runs_cases rfl h
  obtain ⟨price, hSame, hPositive⟩ := hOfCall.filled_pos hStatus
  obtain rfl := Option.some.inj (hPrice.symm.trans hSame)
  cases hMoves with
  | applied _ _ stored updated hFill =>
    obtain ⟨hWorld, hFaults⟩ := Venue.faulty_ok hAnswer
    obtain ⟨hStored, hSame⟩ := Prod.mk.inj hWorld
    obtain rfl : stored = s.1.getPosition order.symbol := Except.ok.inj hStored
    obtain rfl : t = s := Prod.ext hSame hFaults
    rw [booked_filled hStatus hPrice hFill]
    exact runs_writing hRest
  | fillRaised _ _ stored e hFill =>
    obtain ⟨p, hp⟩ := (stored.getD (Position.empty order.symbol)).applyFill_ok order.side.value
      hOfCall.quantity_pos hPositive
    rw [hp] at hFill
    cases hFill
  | readRaised _ _ e =>
    obtain ⟨rfl, rfl⟩ := Runs.raise_iff.mp hRest
    obtain ⟨rfl, -⟩ := Venue.faulty_error rfl hAnswer
    exact .silent e rfl rfl rfl rfl

/-- Storing a new order fails, or the order is added and the rest follows. -/
theorem runs_saving (hOfCall : OfCall c order) (hFresh : Fresh s.1 order.id)
    (hFree : ¬s.1.Stores order.clientOrderId)
    (h : Runs venue.faulty s ((Phase.saving order).program c) out s') :
    (∃ e, out = .error e) ∧ s' = (s.1, s.2 + 1) ∨
      Ended order (booked s.1.positions order)
        ({ s.1 with orders := s.1.orders ++ [order] }, s.2) out s' := by
  obtain ⟨r, t, ph', hAnswer, hMoves, hRest⟩ := Phase.runs_cases rfl h
  have hSave : s.1.respond venue.toReplies (.saveOrder order) =
      (.ok (), { s.1 with orders := s.1.orders ++ [order] }) := by
    rw [World.respond, World.saveOrder_new hFresh.orders hFree]
  cases hMoves with
  | savedFilled _ executedPrice hStatus hPrice =>
    obtain ⟨hWorld, hFaults⟩ := Venue.faulty_ok hAnswer
    rw [hSave] at hWorld
    obtain rfl : t = ({ s.1 with orders := s.1.orders ++ [order] }, s.2) :=
      Prod.ext (Prod.mk.inj hWorld).2 hFaults
    exact .inr (runs_reading hOfCall hStatus hPrice hRest)
  | savedOpen _ hOpen =>
    obtain ⟨hWorld, hFaults⟩ := Venue.faulty_ok hAnswer
    rw [hSave] at hWorld
    obtain rfl : t = ({ s.1 with orders := s.1.orders ++ [order] }, s.2) :=
      Prod.ext (Prod.mk.inj hWorld).2 hFaults
    rw [booked_open hOpen]
    exact .inr (runs_publishing hRest)
  | saveRaised _ e =>
    obtain ⟨rfl, rfl⟩ := Runs.raise_iff.mp hRest
    obtain ⟨rfl, -⟩ := Venue.faulty_error (congrArg Prod.fst hSave) hAnswer
    exact .inl ⟨⟨e, rfl⟩, rfl⟩

end Attempt

/-- How one call of `execute` ends. -/
inductive Attempt (venue : Venue) (c : Call) (s : World × ℕ) :
    Except Exn (Result TradeOrder String) → World × ℕ → Prop
  | found (order : TradeOrder) (hStored : s.1.Stores c.command.clientOrderId) :
    Attempt venue c s (.ok (.ok order)) s
  | declined (message : String) (hFree : ¬s.1.Stores c.command.clientOrderId)
      (hMakes : venue.makes c = none)
      (hCaught : ∀ order name, venue.tries c = some order →
        venue.gateway order ≠ .error (.other name)) :
    Attempt venue c s (.ok (.err message))
      ({ s.1 with submissions := s.1.submissions ++ (venue.tries c).toList }, s.2)
  | raised (order : TradeOrder) (name : String) (hFree : ¬s.1.Stores c.command.clientOrderId)
      (hTries : venue.tries c = some order)
      (hRaised : venue.gateway order = .error (.other name)) :
    Attempt venue c s (.error (.other name)) (s.1.submit order, s.2)
  | unsaved (order submitted : TradeOrder) (e : Exn)
      (hFree : ¬s.1.Stores c.command.clientOrderId) (hTries : venue.tries c = some order)
      (hMakes : venue.makes c = some submitted) :
    Attempt venue c s (.error e) (s.1.submit order, s.2 + 1)
  | recorded {out : Except Exn (Result TradeOrder String)} {s' : World × ℕ}
      (order submitted : TradeOrder) (hFree : ¬s.1.Stores c.command.clientOrderId)
      (hTries : venue.tries c = some order) (hMakes : venue.makes c = some submitted)
      (hOfCall : OfCall c submitted)
      (hEnded : Ended submitted (booked s.1.positions submitted)
        ({ s.1.submit order with orders := s.1.orders ++ [submitted] }, s.2) out s') :
    Attempt venue c s out s'

section Attempts

variable {venue : Venue} {c : Call} {s s' : World × ℕ}
  {out : Except Exn (Result TradeOrder String)}

theorem runs_submitting {order : TradeOrder} (hFresh : Fresh s.1 c.id)
    (hFree : ¬s.1.Stores c.command.clientOrderId) (hTries : venue.tries c = some order)
    (hOfCall : OfCall c order)
    (h : Runs venue.faulty s ((Phase.submitting order).program c) out s') :
    Attempt venue c s out s' := by
  obtain ⟨r, t, ph', hAnswer, hMoves, hRest⟩ := Phase.runs_cases rfl h
  obtain ⟨hGateway, rfl⟩ : venue.gateway order = r ∧ t = (s.1.submit order, s.2) := by
    rcases hAnswer with ⟨hWorld, hFaults⟩ | ⟨hLate, -, -⟩
    · obtain ⟨hReply, hState⟩ := Prod.mk.inj hWorld
      exact ⟨hReply.symm, Prod.ext hState hFaults⟩
    · cases hLate
  have hMakes : venue.makes c = r.toOption := by rw [Venue.makes, hTries, ← hGateway]; rfl
  cases hMoves with
  | accepted _ submitted =>
    have hSubmitted := hOfCall.executed (hGateway ▸ venue.executed order)
    have hFresh' : Fresh (s.1.submit order) submitted.id := by
      rw [hSubmitted.id_eq]
      exact ⟨hFresh.orders, hFresh.published⟩
    have hFree' : ¬(s.1.submit order).Stores submitted.clientOrderId := by
      rw [hSubmitted.clientOrderId_eq]
      exact hFree
    rcases runs_saving (s := (s.1.submit order, s.2)) hSubmitted hFresh' hFree' hRest with
      ⟨⟨e, rfl⟩, rfl⟩ | hEnded
    · exact .unsaved order submitted e hFree hTries hMakes
    · exact .recorded order submitted hFree hTries hMakes hSubmitted hEnded
  | declined _ e message hCaught =>
    obtain ⟨rfl, rfl⟩ := Runs.ret_iff.mp hRest
    have hTries' : [order] = (venue.tries c).toList := by rw [hTries]; rfl
    rw [World.submit, hTries']
    refine .declined message hFree hMakes fun order' name hOrder hRaised => ?_
    obtain rfl := Option.some.inj (hTries.symm.trans hOrder)
    rw [hGateway] at hRaised
    rcases hCaught with rfl | rfl <;> cases hRaised
  | gatewayRaised _ name =>
    obtain ⟨rfl, rfl⟩ := Runs.raise_iff.mp hRest
    exact .raised order name hFree hTries hGateway

theorem runs_authorizing (hFresh : Fresh s.1 c.id)
    (hFree : ¬s.1.Stores c.command.clientOrderId)
    (h : Runs venue.faulty s (Phase.authorizing.program c) out s') :
    Attempt venue c s out s' := by
  obtain ⟨r, t, ph', hAnswer, hMoves, hRest⟩ := Phase.runs_cases rfl h
  obtain ⟨hGate, rfl⟩ : r = .ok (venue.gate c.command.symbol
      (c.command.quantity * c.command.price) c.command.equity) ∧ t = s := by
    rcases hAnswer with ⟨hWorld, hFaults⟩ | ⟨hLate, -, -⟩
    · obtain ⟨hReply, hState⟩ := Prod.mk.inj hWorld
      exact ⟨hReply, Prod.ext hState hFaults⟩
    · cases hLate
  -- Nothing is submitted when the gate refuses or the order is not valid.
  have hNothing : venue.tries c = none → ∀ message, Attempt venue c t (.ok (.err message)) t := by
    intro hTries message
    have hSame : { t.1 with submissions := t.1.submissions ++ (venue.tries c).toList } = t.1 := by
      rw [hTries, Option.toList_none, List.append_nil]
    have hMakes : venue.makes c = none := by rw [Venue.makes, hTries]; rfl
    have hDeclined : Attempt venue c t (.ok (.err message))
        ({ t.1 with submissions := t.1.submissions ++ (venue.tries c).toList }, t.2) := by
      refine .declined message hFree hMakes fun order name hOrder => ?_
      rw [hTries] at hOrder
      cases hOrder
    rwa [hSame] at hDeclined
  cases hMoves with
  | refused reason =>
    obtain ⟨rfl, rfl⟩ := Runs.ret_iff.mp hRest
    exact hNothing (by rw [Venue.tries, ← Except.ok.inj hGate]; rfl) _
  | invalid reason message hCreate =>
    obtain ⟨rfl, rfl⟩ := Runs.ret_iff.mp hRest
    exact hNothing (by rw [Venue.tries, ← Except.ok.inj hGate, hCreate]; rfl) _
  | allowed reason order hCreate =>
    refine runs_submitting hFresh hFree ?_ (OfCall.of_create hCreate).1 hRest
    rw [Venue.tries, ← Except.ok.inj hGate, hCreate]
    rfl
  | gateRaised e => cases hGate

theorem runs_execute (hFresh : Fresh s.1 c.id)
    (h : Runs venue.faulty s (PlaceOrderService.ports.execute c) out s') :
    Attempt venue c s out s' := by
  have hLooking : Runs venue.faulty s (Phase.looking.program c) out s' := h
  obtain ⟨r, t, ph', hAnswer, hMoves, hRest⟩ := Phase.runs_cases rfl hLooking
  obtain ⟨hLookup, rfl⟩ : r = .ok (s.1.getByClientOrderId c.command.clientOrderId) ∧ t = s := by
    rcases hAnswer with ⟨hWorld, hFaults⟩ | ⟨hLate, -, -⟩
    · obtain ⟨hReply, hState⟩ := Prod.mk.inj hWorld
      exact ⟨hReply, Prod.ext hState hFaults⟩
    · cases hLate
  cases hMoves with
  | found order =>
    obtain ⟨rfl, rfl⟩ := Runs.ret_iff.mp hRest
    exact .found order ⟨order, World.stored_of_getByClientOrderId (Except.ok.inj hLookup).symm⟩
  | missing =>
    refine runs_authorizing hFresh (World.getByClientOrderId_eq_none.mp ?_) hRest
    exact (Except.ok.inj hLookup).symm
  | lookupRaised e => cases hLookup

end Attempts

/-! ## One command -/

theorem Call.createOrder_content {c c' : Call} (h : c.command = c'.command) :
    c.createOrder.toOption.map TradeOrder.content =
      c'.createOrder.toOption.map TradeOrder.content := by
  unfold createOrder TradeOrder.create
  rw [h]
  repeat' split
  all_goals rfl

namespace Venue

variable (venue : Venue) {c c' : Call}

theorem tries_content (h : c.command = c'.command) :
    (venue.tries c).map TradeOrder.content = (venue.tries c').map TradeOrder.content := by
  unfold tries
  rw [h]
  split
  · exact Call.createOrder_content h
  · rfl

/-- The orders tried by two calls of one command are both missing or have one content. -/
theorem tries_cases (h : c.command = c'.command) :
    (venue.tries c = none ∧ venue.tries c' = none) ∨ ∃ order order', venue.tries c = some order ∧
      venue.tries c' = some order' ∧ order.content = order'.content := by
  have hContent := venue.tries_content h
  cases hTries : venue.tries c with
  | none =>
    cases hTries' : venue.tries c' with
    | none => exact .inl ⟨rfl, rfl⟩
    | some order' => rw [hTries, hTries'] at hContent; cases hContent
  | some order =>
    cases hTries' : venue.tries c' with
    | none => rw [hTries, hTries'] at hContent; cases hContent
    | some order' =>
      rw [hTries, hTries'] at hContent
      exact .inr ⟨order, order', rfl, rfl, Option.some.inj hContent⟩

theorem tries_toList (h : c.command = c'.command) :
    (venue.tries c).toList.map TradeOrder.content =
      (venue.tries c').toList.map TradeOrder.content := by
  rw [← Option.toList_map, ← Option.toList_map, venue.tries_content h]

theorem makes_content (h : c.command = c'.command) :
    (venue.makes c).map TradeOrder.content = (venue.makes c').map TradeOrder.content := by
  unfold makes
  rcases venue.tries_cases h with ⟨hTries, hTries'⟩ | ⟨order, order', hTries, hTries', hContent⟩
  · rw [hTries, hTries']
  · have hMap : ∀ x : Except Exn TradeOrder,
        x.toOption.map TradeOrder.content = (x.map TradeOrder.content).toOption := by
      intro x
      cases x <;> rfl
    rw [hTries, hTries', Option.bind_some, Option.bind_some, hMap, hMap,
      venue.blind order order' hContent]

theorem made_content {submitted submitted' : TradeOrder} (h : c.command = c'.command)
    (hMakes : venue.makes c = some submitted) (hMakes' : venue.makes c' = some submitted') :
    submitted.content = submitted'.content := by
  have hContent := venue.makes_content h
  rw [hMakes, hMakes'] at hContent
  exact Option.some.inj hContent

/-- A gateway that raises for one call of a command raises for every other. -/
theorem raised_content {order order' : TradeOrder} {name : String} (h : c.command = c'.command)
    (hTries : venue.tries c = some order) (hTries' : venue.tries c' = some order')
    (hRaised : venue.gateway order = .error (.other name)) :
    venue.gateway order' = .error (.other name) := by
  have hContent := venue.tries_content h
  rw [hTries, hTries'] at hContent
  have hBlind := venue.blind order order' (Option.some.inj hContent)
  rw [hRaised] at hBlind
  cases hGateway : venue.gateway order' with
  | ok submitted' => rw [hGateway] at hBlind; cases hBlind
  | error e => rw [hGateway] at hBlind; exact hBlind.symm

theorem tries_of_makes {submitted : TradeOrder} (h : venue.makes c = some submitted) :
    ∃ order, venue.tries c = some order ∧ venue.gateway order = .ok submitted := by
  unfold makes at h
  cases hTries : venue.tries c with
  | none => rw [hTries] at h; cases h
  | some order =>
    rw [hTries] at h
    cases hGateway : venue.gateway order with
    | ok made =>
      refine ⟨order, rfl, ?_⟩
      rw [Option.bind_some, hGateway] at h
      exact hGateway.trans (congrArg Except.ok (Option.some.inj h))
    | error e => rw [Option.bind_some, hGateway] at h; cases h

end Venue

/-- What executing a command until it returns comes to. A fault shows: the order was
submitted again, or it is stored and was not announced. -/
inductive Effect (venue : Venue) (command : PlaceOrderCommand) (s : World × ℕ) :
    World × ℕ → Prop
  | found (hStored : s.1.Stores command.clientOrderId) : Effect venue command s s
  | declined {s' : World × ℕ} (call : Call) (hCommand : call.command = command)
      (hFree : ¬s.1.Stores command.clientOrderId) (hMakes : venue.makes call = none)
      (hCaught : ∀ order name, venue.tries call = some order →
        venue.gateway order ≠ .error (.other name))
      (hOrders : s'.1.orders = s.1.orders) (hPositions : s'.1.positions = s.1.positions)
      (hPublished : s'.1.published = s.1.published)
      (hSubmissions : s'.1.submissions = s.1.submissions ++ (venue.tries call).toList)
      (hFaults : s'.2 = s.2) : Effect venue command s s'
  | placed {s' : World × ℕ} (call : Call) (submitted : TradeOrder)
      (hCommand : call.command = command) (hFree : ¬s.1.Stores command.clientOrderId)
      (hMakes : venue.makes call = some submitted) (hOfCall : OfCall call submitted)
      (hFresh : Fresh s.1 submitted.id) (hOrders : s'.1.orders = s.1.orders ++ [submitted])
      (hPositions : s'.1.positions = booked s.1.positions submitted)
      (hPublished : s'.1.published = s.1.published ++ [submitted.stateChanged])
      (hSubmissions : s'.1.submissions = s.1.submissions ++ (venue.tries call).toList)
      (hFaults : s'.2 = s.2) : Effect venue command s s'
  | faulted {s' : World × ℕ} (call : Call) (submitted : TradeOrder)
      (hCommand : call.command = command) (hFree : ¬s.1.Stores command.clientOrderId)
      (hMakes : venue.makes call = some submitted) (hOfCall : OfCall call submitted)
      (hFresh : Fresh s.1 submitted.id) (hOrders : s'.1.orders = s.1.orders ++ [submitted])
      (hSubmitted : s.1.submissions.length < s'.1.submissions.length)
      (hPublished : ∀ event ∈ s'.1.published,
        event ∈ s.1.published ∨ event = submitted.stateChanged)
      (hTrace : s.1.submissions.length + 1 < s'.1.submissions.length ∨
        s'.1.published = s.1.published)
      (hFaults : s.2 < s'.2) : Effect venue command s s'

namespace Retried

variable {venue : Venue} {command : PlaceOrderCommand} {s s' : World × ℕ}

/-- What is done again after a submission that could not be stored. -/
theorem resubmitted {order submitted : TradeOrder} {call : Call} {n : ℕ}
    (hCommand : call.command = command) (hMakes : venue.makes call = some submitted)
    (hFree : ¬s.1.Stores command.clientOrderId) (hLater : s.2 < n)
    (h : Effect venue command (s.1.submit order, n) s') : Effect venue command s s' := by
  have hLength : (s.1.submit order).submissions.length = s.1.submissions.length + 1 := by
    simp [World.submit]
  cases h with
  | found hStored => exact absurd hStored hFree
  | declined call' hCommand' _ hMakes' =>
    have hContent := venue.makes_content (hCommand.trans hCommand'.symm)
    rw [hMakes, hMakes'] at hContent
    cases hContent
  | placed call' submitted' hCommand' _ hMakes' hOfCall hFresh hOrders _ hPublished hSubmissions
      hFaults =>
    obtain ⟨tried, hTries, -⟩ := venue.tries_of_makes hMakes'
    have hMore : s'.1.submissions.length = s.1.submissions.length + 2 := by
      rw [hSubmissions, hTries, List.length_append, hLength]
      rfl
    refine .faulted call' submitted' hCommand' hFree hMakes' hOfCall
      ⟨hFresh.orders, hFresh.published⟩ hOrders (by omega) ?_ (.inl (by omega))
      (by rw [hFaults]; exact hLater)
    intro event hEvent
    rw [hPublished, List.mem_append, List.mem_singleton] at hEvent
    exact hEvent
  | faulted call' submitted' hCommand' _ hMakes' hOfCall hFresh hOrders hSubmitted hPublished _
      hFaults =>
    dsimp only at hSubmitted hFaults
    exact .faulted call' submitted' hCommand' hFree hMakes' hOfCall
      ⟨hFresh.orders, hFresh.published⟩ hOrders (by omega) hPublished (.inl (by omega))
      (by omega)

theorem effect (h : Retried venue command s s') : Effect venue command s s' := by
  induction h with
  | @returned s s' call result hCommand hFresh hRuns =>
    subst hCommand
    cases runs_execute hFresh hRuns with
    | found order hStored => exact .found hStored
    | declined message hFree hMakes hCaught =>
      exact .declined call rfl hFree hMakes hCaught rfl rfl rfl rfl rfl
    | recorded order submitted hFree hTries hMakes hOfCall hEnded =>
      cases hEnded with
      | announced hOrders hSubmissions hPositions hPublished hFaults =>
        refine .placed call submitted rfl hFree hMakes hOfCall (hOfCall.id_eq ▸ hFresh) hOrders
          hPositions hPublished ?_ hFaults
        rw [hSubmissions, hTries]
        rfl
  | @failed s t s' call e hCommand hFresh hRuns hRetry ih =>
    subst hCommand
    cases runs_execute hFresh hRuns with
    | raised order name hFree hTries hRaised =>
      -- The gateway raises again in every further attempt, so no attempt returns.
      cases ih with
      | found hStored => exact absurd hStored hFree
      | declined call' hCommand' _ _ hCaught =>
        rcases venue.tries_cases hCommand'.symm with
          ⟨hNone, -⟩ | ⟨_, order', _, hTries', -⟩
        · rw [hTries] at hNone
          cases hNone
        · exact absurd (venue.raised_content hCommand'.symm hTries hTries' hRaised)
            (hCaught order' name hTries')
      | placed call' submitted' hCommand' _ hMakes' =>
        obtain ⟨order', hTries', hGateway⟩ := venue.tries_of_makes hMakes'
        rw [venue.raised_content hCommand'.symm hTries hTries' hRaised] at hGateway
        cases hGateway
      | faulted call' submitted' hCommand' _ hMakes' =>
        obtain ⟨order', hTries', hGateway⟩ := venue.tries_of_makes hMakes'
        rw [venue.raised_content hCommand'.symm hTries hTries' hRaised] at hGateway
        cases hGateway
    | unsaved order submitted e hFree hTries hMakes =>
      exact resubmitted rfl hMakes hFree (Nat.lt_succ_self _) ih
    | recorded order submitted hFree hTries hMakes hOfCall hEnded =>
      cases hEnded with
      | silent _ hOrders hSubmissions hPublished hFaults =>
        have hStored : t.1.Stores call.command.clientOrderId := by
          refine ⟨submitted, ?_, hOfCall.clientOrderId_eq⟩
          rw [hOrders]
          exact List.mem_append_right _ (List.mem_singleton_self _)
        have hLater : s.2 < t.2 := by
          rw [hFaults]
          exact Nat.lt_succ_self _
        cases ih with
        | found _ =>
          refine .faulted call submitted rfl hFree hMakes hOfCall (hOfCall.id_eq ▸ hFresh) hOrders
            ?_ ?_ (.inr hPublished) hLater
          · rw [hSubmissions]
            simp [World.submit]
          · intro event hEvent
            rw [hPublished] at hEvent
            exact .inl hEvent
        | declined call' _ hFree' => exact absurd hStored hFree'
        | placed call' submitted' _ hFree' => exact absurd hStored hFree'
        | faulted call' submitted' _ hFree' => exact absurd hStored hFree'

end Retried

/-! ## Two runs side by side -/

omit [PyText] in
theorem TradeOrder.id_eq_of_stateChanged {order order' : TradeOrder}
    (h : order.stateChanged = order'.stateChanged) : order.id = order'.id := by
  have hText : order.id.text = order'.id.text :=
    congrArg OrderStateChanged.orderId (DomainEvent.orderStateChanged.inj h)
  calc order.id = ⟨order.id.text⟩ := rfl
    _ = ⟨order'.id.text⟩ := by rw [hText]
    _ = order'.id := rfl

omit [PyText] in
theorem stores_congr {w v : World}
    (h : w.orders.map TradeOrder.content = v.orders.map TradeOrder.content)
    (clientOrderId : String) : w.Stores clientOrderId ↔ v.Stores clientOrderId := by
  have hStores : ∀ u : World, u.Stores clientOrderId ↔
      ∃ order ∈ u.orders.map TradeOrder.content, order.clientOrderId = clientOrderId := by
    intro u
    simp [World.Stores, TradeOrder.content]
  rw [hStores, hStores, h]

omit [PyText] in
theorem announced_congr {w w' : World} (hOrders : w'.orders = w.orders)
    (hPublished : w'.published = w.published) (clientOrderId : String) :
    Announced w' clientOrderId ↔ Announced w clientOrderId := by
  rw [Announced, Announced, hOrders, hPublished]

theorem booked_congr {positions : String → Option Position} {order order' : TradeOrder}
    (h : order.content = order'.content) : booked positions order = booked positions order' := by
  have hSymbol := congrArg TradeOrder.symbol h
  have hSide := congrArg TradeOrder.side h
  have hQuantity := congrArg TradeOrder.quantity h
  have hStatus := congrArg TradeOrder.status h
  have hPrice := congrArg TradeOrder.executedPrice h
  simp only [TradeOrder.content] at hSymbol hSide hQuantity hStatus hPrice
  unfold booked
  rw [hSymbol, hSide, hQuantity, hStatus, hPrice]

section Added

variable {w w' : World} {submitted : TradeOrder} (hFresh : Fresh w submitted.id)
  (hOrders : w'.orders = w.orders ++ [submitted])
include hFresh hOrders

omit [PyText] in
/-- A new order and its announcement announce nothing else. -/
theorem announced_added {clientOrderId : String}
    (hPublished : ∀ event ∈ w'.published, event ∈ w.published ∨ event = submitted.stateChanged)
    (h : Announced w' clientOrderId) :
    Announced w clientOrderId ∨ submitted.clientOrderId = clientOrderId := by
  obtain ⟨order, hOrder, hClient, hEvent⟩ := h
  rw [hOrders] at hOrder
  rcases List.mem_append.mp hOrder with hOld | hNew
  · rcases hPublished _ hEvent with hEvent | hSame
    · exact .inl ⟨order, hOld, hClient, hEvent⟩
    · exact absurd (TradeOrder.id_eq_of_stateChanged hSame) (hFresh.orders order hOld)
  · obtain rfl := List.mem_singleton.mp hNew
    exact .inr hClient

omit [PyText] in
theorem announced_placed (hPublished : w'.published = w.published ++ [submitted.stateChanged])
    (clientOrderId : String) :
    Announced w' clientOrderId ↔
      Announced w clientOrderId ∨ submitted.clientOrderId = clientOrderId := by
  constructor
  · refine announced_added hFresh hOrders fun event hEvent => ?_
    rw [hPublished, List.mem_append, List.mem_singleton] at hEvent
    exact hEvent
  · rintro (⟨order, hOrder, hClient, hEvent⟩ | rfl)
    · refine ⟨order, ?_, hClient, ?_⟩
      · rw [hOrders]
        exact List.mem_append_left _ hOrder
      · rw [hPublished]
        exact List.mem_append_left _ hEvent
    · refine ⟨submitted, ?_, rfl, ?_⟩
      · rw [hOrders]
        exact List.mem_append_right _ (List.mem_singleton_self _)
      · rw [hPublished]
        exact List.mem_append_right _ (List.mem_singleton_self _)

omit [PyText] in
/-- A new order without a new announcement is not announced. -/
theorem not_announced_silent (hFree : ¬w.Stores submitted.clientOrderId)
    (hPublished : w'.published = w.published) : ¬Announced w' submitted.clientOrderId := by
  rintro ⟨order, hOrder, hClient, hEvent⟩
  rw [hOrders] at hOrder
  rw [hPublished] at hEvent
  rcases List.mem_append.mp hOrder with hOld | hNew
  · exact hFree ⟨order, hOld, hClient⟩
  · obtain rfl := List.mem_singleton.mp hNew
    exact hFresh.published order hEvent rfl

end Added

/-- A run beside the run without faults of the same commands. -/
structure Tied (s : World × ℕ) (v : World) : Prop where
  orders : s.1.orders.map TradeOrder.content = v.orders.map TradeOrder.content
  behind : v.submissions.length ≤ s.1.submissions.length
  same : s.2 = 0 → Agree s.1 v
  trace : 0 < s.2 → v.submissions.length < s.1.submissions.length ∨
    ∃ clientOrderId, s.1.Stores clientOrderId ∧ Announced v clientOrderId ∧
      ¬Announced s.1 clientOrderId

namespace Tied

variable {venue : Venue} {command : PlaceOrderCommand} {s s' : World × ℕ} {v v' : World}

omit [PyText] in
theorem refl (w : World) : Tied (w, 0) w :=
  ⟨rfl, le_rfl, fun _ => ⟨rfl, rfl, rfl, fun _ => .rfl⟩, fun h => absurd h (lt_irrefl 0)⟩

omit [PyText] in
/-- Tied runs agree exactly when no fault has happened. -/
theorem agree_iff (h : Tied s v) : Agree s.1 v ↔ s.2 = 0 := by
  refine ⟨fun hAgree => ?_, h.same⟩
  by_contra hFaults
  rcases h.trace (Nat.pos_of_ne_zero hFaults) with hMore | ⟨k, -, hAnnounced, hNot⟩
  · have hLength := congrArg List.length hAgree.submissions
    rw [List.length_map, List.length_map] at hLength
    omega
  · exact hNot ((hAgree.announced k).mpr hAnnounced)

/-- A command that submits nothing new or is refused in both runs. -/
theorem declined {call call' : Call} (h : Tied s v) (hCommand : call.command = call'.command)
    (hOrders : s'.1.orders = s.1.orders) (hPositions : s'.1.positions = s.1.positions)
    (hPublished : s'.1.published = s.1.published)
    (hSubmissions : s'.1.submissions = s.1.submissions ++ (venue.tries call).toList)
    (hFaults : s'.2 = s.2) (hOrders' : v'.orders = v.orders)
    (hPositions' : v'.positions = v.positions) (hPublished' : v'.published = v.published)
    (hSubmissions' : v'.submissions = v.submissions ++ (venue.tries call').toList) :
    Tied s' v' := by
  have hTried := venue.tries_toList hCommand
  have hLength := congrArg List.length hTried
  rw [List.length_map, List.length_map] at hLength
  have hAnnounced := announced_congr hOrders hPublished
  have hAnnounced' := announced_congr hOrders' hPublished'
  refine ⟨by rw [hOrders, hOrders', h.orders], ?_, fun hNone => ?_, fun hSome => ?_⟩
  · rw [hSubmissions, hSubmissions', List.length_append, List.length_append, hLength]
    exact Nat.add_le_add_right h.behind _
  · have hSame := h.same (hFaults ▸ hNone)
    refine ⟨?_, by rw [hOrders, hOrders', h.orders], ?_, fun k => ?_⟩
    · rw [hSubmissions, hSubmissions', List.map_append, List.map_append, hSame.submissions, hTried]
    · rw [hPositions, hPositions', hSame.positions]
    · rw [hAnnounced, hAnnounced', hSame.announced]
  · rcases h.trace (hFaults ▸ hSome) with hMore | ⟨k, hStored, hIn, hNot⟩
    · rw [hSubmissions, hSubmissions', List.length_append, List.length_append, hLength]
      exact .inl (Nat.add_lt_add_right hMore _)
    · refine .inr ⟨k, ?_, (hAnnounced' k).mpr hIn, fun hOut => hNot ((hAnnounced k).mp hOut)⟩
      rw [World.Stores, hOrders]
      exact hStored

omit [PyText] in
/-- The orders of a content are added to both tables. -/
theorem orders_added {submitted submitted' : TradeOrder} (h : Tied s v)
    (hContent : submitted.content = submitted'.content)
    (hOrders : s'.1.orders = s.1.orders ++ [submitted])
    (hOrders' : v'.orders = v.orders ++ [submitted']) :
    s'.1.orders.map TradeOrder.content = v'.orders.map TradeOrder.content := by
  rw [hOrders, hOrders', List.map_append, List.map_append, h.orders, List.map_singleton,
    List.map_singleton, hContent]

omit [PyText] in
/-- What was stored and not announced stays so while other orders are added. -/
theorem unannounced_added {submitted : TradeOrder} {k : String} (hFresh : Fresh s.1 submitted.id)
    (hFree : ¬s.1.Stores submitted.clientOrderId)
    (hOrders : s'.1.orders = s.1.orders ++ [submitted])
    (hPublished : ∀ event ∈ s'.1.published,
      event ∈ s.1.published ∨ event = submitted.stateChanged)
    (hStored : s.1.Stores k) (hNot : ¬Announced s.1 k) :
    s'.1.Stores k ∧ ¬Announced s'.1 k := by
  refine ⟨?_, fun hAnnounced => ?_⟩
  · obtain ⟨order, hOrder, hClient⟩ := hStored
    refine ⟨order, ?_, hClient⟩
    rw [hOrders]
    exact List.mem_append_left _ hOrder
  · rcases announced_added hFresh hOrders hPublished hAnnounced with hOld | rfl
    · exact hNot hOld
    · exact hFree hStored

theorem placed {call call' : Call} {submitted submitted' : TradeOrder} (h : Tied s v)
    (hCommand : call.command = call'.command) (hContent : submitted.content = submitted'.content)
    (hFree : ¬s.1.Stores submitted.clientOrderId) (hFresh : Fresh s.1 submitted.id)
    (hOrders : s'.1.orders = s.1.orders ++ [submitted])
    (hPositions : s'.1.positions = booked s.1.positions submitted)
    (hPublished : s'.1.published = s.1.published ++ [submitted.stateChanged])
    (hSubmissions : s'.1.submissions = s.1.submissions ++ (venue.tries call).toList)
    (hFaults : s'.2 = s.2) (hFresh' : Fresh v submitted'.id)
    (hOrders' : v'.orders = v.orders ++ [submitted'])
    (hPositions' : v'.positions = booked v.positions submitted')
    (hPublished' : v'.published = v.published ++ [submitted'.stateChanged])
    (hSubmissions' : v'.submissions = v.submissions ++ (venue.tries call').toList) :
    Tied s' v' := by
  have hTried := venue.tries_toList hCommand
  have hLength := congrArg List.length hTried
  rw [List.length_map, List.length_map] at hLength
  have hAnnounced := announced_placed hFresh hOrders hPublished
  have hAnnounced' := announced_placed hFresh' hOrders' hPublished'
  have hClient : submitted.clientOrderId = submitted'.clientOrderId :=
    congrArg (fun order => order.clientOrderId) hContent
  refine ⟨h.orders_added hContent hOrders hOrders', ?_, fun hNone => ?_, fun hSome => ?_⟩
  · rw [hSubmissions, hSubmissions', List.length_append, List.length_append, hLength]
    exact Nat.add_le_add_right h.behind _
  · have hSame := h.same (hFaults ▸ hNone)
    refine ⟨?_, h.orders_added hContent hOrders hOrders', ?_, fun k => ?_⟩
    · rw [hSubmissions, hSubmissions', List.map_append, List.map_append, hSame.submissions, hTried]
    · rw [hPositions, hPositions', hSame.positions, booked_congr hContent]
    · rw [hAnnounced, hAnnounced', hSame.announced, hClient]
  · rcases h.trace (hFaults ▸ hSome) with hMore | ⟨k, hStored, hIn, hNot⟩
    · rw [hSubmissions, hSubmissions', List.length_append, List.length_append, hLength]
      exact .inl (Nat.add_lt_add_right hMore _)
    · have hSubset : ∀ event ∈ s'.1.published,
          event ∈ s.1.published ∨ event = submitted.stateChanged := by
        intro event hEvent
        rwa [hPublished, List.mem_append, List.mem_singleton] at hEvent
      obtain ⟨hStays, hNever⟩ := unannounced_added hFresh hFree hOrders hSubset hStored hNot
      exact .inr ⟨k, hStays, (hAnnounced' k).mpr (.inl hIn), hNever⟩

theorem faulted {call' : Call} {submitted submitted' : TradeOrder} (h : Tied s v)
    (hContent : submitted.content = submitted'.content)
    (hFree : ¬s.1.Stores submitted.clientOrderId) (hFresh : Fresh s.1 submitted.id)
    (hOrders : s'.1.orders = s.1.orders ++ [submitted])
    (hSubmitted : s.1.submissions.length < s'.1.submissions.length)
    (hTrace : s.1.submissions.length + 1 < s'.1.submissions.length ∨
      s'.1.published = s.1.published)
    (hFaults : s.2 < s'.2) (hFresh' : Fresh v submitted'.id)
    (hOrders' : v'.orders = v.orders ++ [submitted'])
    (hPublished' : v'.published = v.published ++ [submitted'.stateChanged])
    (hSubmissions' : v'.submissions = v.submissions ++ (venue.tries call').toList) :
    Tied s' v' := by
  have hAnnounced' := announced_placed hFresh' hOrders' hPublished'
  have hLength : v'.submissions.length ≤ v.submissions.length + 1 := by
    rw [hSubmissions', List.length_append]
    cases venue.tries call' <;> simp
  have hBehind := h.behind
  refine ⟨h.orders_added hContent hOrders hOrders', by omega, fun hNone => by omega, fun _ => ?_⟩
  rcases hTrace with hTwice | hSilent
  · exact .inl (by omega)
  · refine .inr ⟨submitted.clientOrderId, ⟨submitted, ?_, rfl⟩, (hAnnounced' _).mpr (.inr ?_),
      not_announced_silent hFresh hOrders hFree hSilent⟩
    · rw [hOrders]
      exact List.mem_append_right _ (List.mem_singleton_self _)
    · exact (congrArg (fun order => order.clientOrderId) hContent).symm

/-- A command keeps the runs tied. -/
theorem step {t t' : World × ℕ} (h : Tied s t.1) (hRetried : Effect venue command s s')
    (hClean : Effect venue command t t') (hNone : t'.2 = 0) : Tied s' t'.1 := by
  have hStores := stores_congr h.orders command.clientOrderId
  cases hClean with
  | found hStored' =>
    have hStored := hStores.mpr hStored'
    cases hRetried with
    | found _ => exact h
    | declined _ _ hFree => exact absurd hStored hFree
    | placed _ _ _ hFree => exact absurd hStored hFree
    | faulted _ _ _ hFree => exact absurd hStored hFree
  | declined call' hCommand' hFree' hMakes' _ hOrders' hPositions' hPublished' hSubmissions' _ =>
    have hNothing : ∀ call, call.command = command → ∀ submitted,
        venue.makes call ≠ some submitted := by
      intro call hCommand submitted hMakes
      have hContent := venue.makes_content (hCommand.trans hCommand'.symm)
      rw [hMakes, hMakes'] at hContent
      cases hContent
    cases hRetried with
    | found hStored => exact absurd (hStores.mp hStored) hFree'
    | declined call hCommand hFree hMakes _ hOrders hPositions hPublished hSubmissions hFaults =>
      exact h.declined (hCommand.trans hCommand'.symm) hOrders hPositions hPublished
        hSubmissions hFaults hOrders' hPositions' hPublished' hSubmissions'
    | placed call submitted hCommand _ hMakes => exact absurd hMakes (hNothing call hCommand _)
    | faulted call submitted hCommand _ hMakes => exact absurd hMakes (hNothing call hCommand _)
  | placed call' submitted' hCommand' hFree' hMakes' hOfCall' hFresh' hOrders' hPositions'
      hPublished' hSubmissions' _ =>
    cases hRetried with
    | found hStored => exact absurd (hStores.mp hStored) hFree'
    | declined call hCommand _ hMakes =>
      have hContent := venue.makes_content (hCommand.trans hCommand'.symm)
      rw [hMakes, hMakes'] at hContent
      cases hContent
    | placed call submitted hCommand hFree hMakes hOfCall hFresh hOrders hPositions hPublished
        hSubmissions hFaults =>
      have hSame := hCommand.trans hCommand'.symm
      rw [← hCommand, ← hOfCall.clientOrderId_eq] at hFree
      exact h.placed hSame (venue.made_content hSame hMakes hMakes') hFree hFresh hOrders
        hPositions hPublished hSubmissions hFaults hFresh' hOrders' hPositions' hPublished'
        hSubmissions'
    | faulted call submitted hCommand hFree hMakes hOfCall hFresh hOrders hSubmitted _ hTrace
        hFaults =>
      have hSame := hCommand.trans hCommand'.symm
      rw [← hCommand, ← hOfCall.clientOrderId_eq] at hFree
      exact h.faulted (venue.made_content hSame hMakes hMakes') hFree hFresh hOrders hSubmitted
        hTrace hFaults hFresh' hOrders' hPublished' hSubmissions'
  | faulted call' submitted' _ _ _ _ _ _ _ _ _ hFaults' => omega

end Tied

theorem Effect.faults_mono {venue : Venue} {command : PlaceOrderCommand} {s s' : World × ℕ}
    (h : Effect venue command s s') : s.2 ≤ s'.2 := by
  cases h with
  | found _ => exact le_rfl
  | declined call _ _ _ _ _ _ _ _ hFaults => exact hFaults.ge
  | placed call submitted _ _ _ _ _ _ _ _ _ hFaults => exact hFaults.ge
  | faulted call submitted _ _ _ _ _ _ _ _ _ hFaults => exact hFaults.le

namespace Session

variable {venue : Venue} {commands : List PlaceOrderCommand} {s s' t t' : World × ℕ}

theorem faults_mono (h : Session venue commands s s') : s.2 ≤ s'.2 := by
  induction h with
  | nil s => exact le_rfl
  | cons hRetried _ ih => exact hRetried.effect.faults_mono.trans ih

/-- Runs of the same commands stay tied when one of them is without faults. -/
theorem tied (hRun : Session venue commands s s') (hClean : Session venue commands t t')
    (hNone : t'.2 = 0) (h : Tied s t.1) : Tied s' t'.1 := by
  induction hRun generalizing t with
  | nil s =>
    cases hClean
    exact h
  | cons hRetried hRest ih =>
    cases hClean with
    | cons hRetried' hRest' =>
      have hFaults := hRest'.faults_mono
      exact ih hRest' (h.step hRetried.effect hRetried'.effect (by omega))

end Session

/-- **Faults are not repaired by retries.** A run in which every failed call is made again
until it returns ends like the run of the same commands without faults exactly when no
call after a submission raised. -/
theorem retried_agree_iff {venue : Venue} {commands : List PlaceOrderCommand} {w w' v : World}
    {faults : ℕ} (hRun : Session venue commands (w, 0) (w', faults))
    (hClean : Session venue commands (w, 0) (v, 0)) : Agree w' v ↔ faults = 0 :=
  (hRun.tied hClean rfl (Tied.refl w)).agree_iff

end Calls

/-! ## A position that is never written -/

namespace PaperOrderGateway

theorem fill_content (order : TradeOrder) (price : ℚ) :
    (order.fill price).map TradeOrder.content = order.content.fill price := by
  have hStatus : order.content.status = order.status := rfl
  unfold TradeOrder.fill
  rw [hStatus]
  split
  · rfl
  · split
    · rfl
    · rfl

theorem submitMarketOrder_content (order : TradeOrder) :
    (submitMarketOrder order).map TradeOrder.content = submitMarketOrder order.content := by
  have hPrice : order.content.requestedPrice = order.requestedPrice := rfl
  unfold submitMarketOrder
  rw [hPrice]
  split
  · exact fill_content order _
  · rfl

end PaperOrderGateway

namespace Unwritten

local instance : PyText := asciiText

/-- The paper desk with a gate that approves everything. -/
def venue : Venue where
  toReplies := deskReplies
  executed := PaperOrderGateway.executed
  blind order order' h := by
    change (PaperOrderGateway.submitMarketOrder order).map _ =
      (PaperOrderGateway.submitMarketOrder order').map _
    rw [PaperOrderGateway.submitMarketOrder_content, PaperOrderGateway.submitMarketOrder_content, h]

/-- The desk, where the calls in `failing` raise. -/
def answering (failing : Op → Bool) (s : World × ℕ) (op : Op) :
    Except Exn (Ret op) × (World × ℕ) :=
  if late op && failing op then (.error (.other "OperationalError"), (s.1, s.2 + 1))
  else ((s.1.respond deskReplies op).1, ((s.1.respond deskReplies op).2, s.2))

theorem answering_faulty (failing : Op → Bool) (s : World × ℕ) (op : Op) :
    venue.faulty s op (answering failing s op).1 (answering failing s op).2 := by
  unfold answering
  split
  · rename_i hFails
    exact .inr ⟨(Bool.and_eq_true_iff.mp hFails).1, ⟨_, rfl⟩, rfl⟩
  · exact .inl ⟨rfl, rfl⟩

def command : PlaceOrderCommand :=
  { symbol := "BTC/USDT", side := .buy, quantity := 1, price := 100
    clientOrderId := "demo-1", equity := 10000 }

/-- The outcome and the state after a call in which the given calls raise. -/
def attempt (failing : Op → Bool) (id : String) (s : World × ℕ) :
    Except Exn (Result TradeOrder String) × (World × ℕ) :=
  drive (answering failing) s (PlaceOrderService.ports.execute ⟨command, ⟨id⟩, 0⟩)

theorem attempt_runs (failing : Op → Bool) (id : String) (s : World × ℕ) :
    Runs venue.faulty s (PlaceOrderService.ports.execute ⟨command, ⟨id⟩, 0⟩)
      (attempt failing id s).1 (attempt failing id s).2 :=
  runs_drive (answering_faulty failing) s _

def writes : Op → Bool
  | .savePosition _ => true
  | _ => false

/-- The call stores its order and then fails to write the position. -/
def failed : World × ℕ := (attempt writes "first" ({}, 0)).2

/-- The second call finds the stored order. -/
def retried : World × ℕ := (attempt (fun _ => false) "second" failed).2

/-- The call without faults. -/
def clean : World × ℕ := (attempt (fun _ => false) "first" ({}, 0)).2

theorem fresh_first : Fresh {} ⟨"first"⟩ where
  orders _ h := absurd h List.not_mem_nil
  published _ h := absurd h List.not_mem_nil

theorem fresh_second : Fresh failed.1 ⟨"second"⟩ where
  orders := by decide +kernel
  published order h := by
    have hNone : failed.1.published = [] := by decide +kernel
    rw [hNone] at h
    cases h

theorem runs_of_returned {s s' : World × ℕ} {call : Call}
    {out : Except Exn (Result TradeOrder String)} (hOk : out.toOption.isSome)
    (h : Runs venue.faulty s (PlaceOrderService.ports.execute call) out s') :
    ∃ result, Runs venue.faulty s (PlaceOrderService.ports.execute call) (.ok result) s' := by
  cases out with
  | ok result => exact ⟨result, h⟩
  | error e => cases hOk

theorem clean_session : Session venue [command] ({}, 0) clean := by
  obtain ⟨result, hRuns⟩ := runs_of_returned (by decide +kernel)
    (attempt_runs (fun _ => false) "first" ({}, 0))
  exact .cons (.returned rfl fresh_first hRuns) (.nil _)

theorem retried_session : Session venue [command] ({}, 0) retried := by
  obtain ⟨e, hFails⟩ : ∃ e, (attempt writes "first" ({}, 0)).1 = .error e :=
    ⟨.other "OperationalError", by decide +kernel⟩
  have hFirst := attempt_runs writes "first" ({}, 0)
  rw [hFails] at hFirst
  obtain ⟨result, hSecond⟩ := runs_of_returned (by decide +kernel)
    (attempt_runs (fun _ => false) "second" failed)
  have hRetry : Retried venue command failed retried := .returned rfl fresh_second hSecond
  exact .cons (.failed rfl fresh_first hFirst hRetry) (.nil _)

theorem position_unwritten :
    ∃ commands w' v faults, Session venue commands ({}, 0) (w', faults) ∧
      Session venue commands ({}, 0) (v, 0) ∧ ¬Agree w' v := by
  have hClean : clean = (clean.1, 0) := Prod.ext rfl (by decide +kernel)
  refine ⟨[command], retried.1, clean.1, retried.2, retried_session, ?_, fun hAgree => ?_⟩
  · rw [← hClean]
    exact clean_session
  · have hPosition : (retried.1.positions "BTC/USDT").isSome =
        (clean.1.positions "BTC/USDT").isSome := by rw [hAgree.positions]
    exact absurd hPosition (by decide +kernel)

/-- The two runs differ since a call raised. -/
theorem retried_disagrees : ¬Agree retried.1 clean.1 := by
  have hClean : clean = (clean.1, 0) := Prod.ext rfl (by decide +kernel)
  intro hAgree
  have hFaults : retried.2 = 0 :=
    (retried_agree_iff retried_session (hClean ▸ clean_session)).mp hAgree
  exact absurd hFaults (by decide +kernel)

end Unwritten

end TradingAgent.Trading
