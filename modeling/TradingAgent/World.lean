import TradingAgent.Ports

/-!
# The world of the services

`World` is the state that the awaited calls read and change: the tables of orders and
positions, what the gateway and the exchange were asked, the published events, and the
risk store. `World.answer ext` is the environment of the services. It determines what the
repositories, the stores and the bus answer; `ext` says how the parts outside the
repository may answer, and which calls may raise. A call that raises changes nothing, but
a submission reaches the gateway or the exchange before it can fail.

Stored numbers are kept exactly.
-/

namespace TradingAgent

open Coroutine Trading Risk

structure World where
  orders : List TradeOrder := []
  positions : String → Option Position := fun _ => none
  submissions : List TradeOrder := []
  exchangeOrders : List (String × String × String × ℚ) := []
  published : List DomainEvent := []
  profile : RiskProfile := {}
  killSwitch : KillSwitchState := {}
  redis : String → Option String := fun _ => none

namespace World

/-- `PostgresOrderRepository.get_by_client_order_id`. -/
def getByClientOrderId (w : World) (clientOrderId : String) : Option TradeOrder :=
  w.orders.find? fun row => row.clientOrderId = clientOrderId

/-- `PostgresOrderRepository.save`: update the row with the order's id or add one. The
column `client_order_id` is unique. -/
def saveOrder (w : World) (order : TradeOrder) : Except Exn World :=
  if w.orders.any fun row => row.clientOrderId = order.clientOrderId ∧ row.id ≠ order.id then
    .error (.other "IntegrityError")
  else if w.orders.any fun row => row.id = order.id then
    .ok { w with orders := w.orders.map fun row => if row.id = order.id then order else row }
  else
    .ok { w with orders := w.orders ++ [order] }

/-- An order is stored under the client order id. -/
def Stores (w : World) (clientOrderId : String) : Prop :=
  ∃ order ∈ w.orders, order.clientOrderId = clientOrderId

theorem getByClientOrderId_eq_none {w : World} {clientOrderId : String} :
    w.getByClientOrderId clientOrderId = none ↔ ¬w.Stores clientOrderId := by
  simp [getByClientOrderId, Stores]

theorem stored_of_getByClientOrderId {w : World} {clientOrderId : String} {order : TradeOrder}
    (h : w.getByClientOrderId clientOrderId = some order) :
    order ∈ w.orders ∧ order.clientOrderId = clientOrderId :=
  ⟨List.mem_of_find?_eq_some h, by simpa using List.find?_some h⟩

/-- A client order id that is free is taken by no other order. -/
theorem not_taken {w : World} {order : TradeOrder} (hFree : ¬w.Stores order.clientOrderId) :
    ¬w.orders.any fun row => row.clientOrderId = order.clientOrderId ∧ row.id ≠ order.id := by
  intro hAny
  obtain ⟨row, hRow, hSame⟩ := List.any_eq_true.mp hAny
  exact hFree ⟨row, hRow, (of_decide_eq_true hSame).1⟩

theorem saveOrder_new {w : World} {order : TradeOrder}
    (hFresh : ∀ row ∈ w.orders, row.id ≠ order.id) (hFree : ¬w.Stores order.clientOrderId) :
    w.saveOrder order = .ok { w with orders := w.orders ++ [order] } := by
  have hId : ¬w.orders.any fun row => row.id = order.id := by
    intro hAny
    obtain ⟨row, hRow, hSame⟩ := List.any_eq_true.mp hAny
    exact hFresh row hRow (of_decide_eq_true hSame)
  rw [saveOrder, if_neg (not_taken hFree), if_neg hId]

/-- Saving an order changes the table of orders only. -/
theorem saveOrder_frame {w w' : World} {order : TradeOrder} (h : w.saveOrder order = .ok w') :
    ∃ orders, w' = { w with orders := orders } := by
  unfold saveOrder at h
  split at h
  · cases h
  · split at h
    · exact ⟨_, (Except.ok.inj h).symm⟩
    · exact ⟨_, (Except.ok.inj h).symm⟩

/-- An order whose id no row has is added, and its client order id was free. -/
theorem saveOrder_fresh {w w' : World} {order : TradeOrder}
    (hFresh : ∀ row ∈ w.orders, row.id ≠ order.id) (h : w.saveOrder order = .ok w') :
    w' = { w with orders := w.orders ++ [order] } ∧ ¬w.Stores order.clientOrderId := by
  unfold saveOrder at h
  split at h
  · cases h
  · rename_i hUnique
    split at h
    · rename_i hSame
      obtain ⟨row, hRow, hId⟩ := List.any_eq_true.mp hSame
      exact absurd (of_decide_eq_true hId) (hFresh row hRow)
    · refine ⟨(Except.ok.inj h).symm, ?_⟩
      rintro ⟨row, hRow, hClient⟩
      exact hUnique (List.any_eq_true.mpr ⟨row, hRow, by simp [hClient, hFresh row hRow]⟩)

variable [PyText]

omit [PyText] in
/-- The row with this primary key, whose column `symbol` is the key. -/
def row (positions : String → Option Position) (symbol : String) : Option Position :=
  (positions symbol).map fun position => { position with symbol := symbol }

/-- `PostgresPositionRepository.get`: the primary key is the symbol in upper case. -/
def getPosition (w : World) (symbol : String) : Option Position :=
  row w.positions (PyText.upper symbol)

omit [PyText] in
/-- The position stored under a key, flat when there is none. -/
def position (w : World) (symbol : String) : Position :=
  (row w.positions symbol).getD (Position.empty symbol)

omit [PyText] in
@[simp] theorem position_symbol (w : World) (symbol : String) :
    (w.position symbol).symbol = symbol := by
  unfold position row
  cases w.positions symbol <;> rfl

/-- `PostgresPositionRepository.save`: the key is the symbol in upper case. -/
def savePosition (w : World) (position : Position) : World :=
  let symbol := PyText.upper position.symbol
  { w with
    positions := Function.update w.positions symbol (some { position with symbol := symbol }) }

theorem position_savePosition_self {w : World} {position : Position}
    (hKey : PyText.upper position.symbol = position.symbol) :
    (w.savePosition position).position position.symbol = position := by
  unfold World.position row savePosition
  simp only [hKey, Function.update_self]
  rfl

theorem position_savePosition_ne {w : World} {position : Position} {symbol : String}
    (hKey : PyText.upper position.symbol = position.symbol) (hNe : symbol ≠ position.symbol) :
    (w.savePosition position).position symbol = w.position symbol := by
  unfold World.position row savePosition
  simp only [hKey, Function.update_of_ne hNe]

omit [PyText] in
def submit (w : World) (order : TradeOrder) : World :=
  { w with submissions := w.submissions ++ [order] }

omit [PyText] in
def publish (w : World) (event : DomainEvent) : World :=
  { w with published := w.published ++ [event] }

end World

/-- How the parts outside the repository may behave: the answers of a risk gate, of a
gateway and of an exchange, and the calls that may raise. A gateway hands back the order
it was given, filled or as it is, or it raises. -/
structure Externals where
  authorizes : String → ℚ → ℚ → Bool × String → Prop
  executes : TradeOrder → Except Exn TradeOrder → Prop
  responds : String → String → String → ℚ → Except Exn Response → Prop
  raises : Op → Exn → Prop
  executed : ∀ {order r}, executes order r → order.Executed r

/-- The calls that hand an order out. -/
def Op.submits : Op → Bool
  | .submitMarketOrder _ => true
  | .createOrder _ _ _ _ => true
  | _ => false

namespace World

variable [PyText]

/-- The answers of a call that goes through. -/
def Answers (ext : Externals) (w : World) : (op : Op) → Except Exn (Ret op) → World → Prop
  | .getByClientOrderId clientOrderId, r, w' =>
    r = .ok (w.getByClientOrderId clientOrderId) ∧ w' = w
  | .saveOrder order, r, w' =>
    (r = .ok () ∧ w.saveOrder order = .ok w') ∨
      ∃ e, r = .error e ∧ w.saveOrder order = .error e ∧ w' = w
  | .getPosition symbol, r, w' => r = .ok (w.getPosition symbol) ∧ w' = w
  | .savePosition position, r, w' => r = .ok () ∧ w' = w.savePosition position
  | .authorize symbol notional equity, r, w' =>
    (∃ x, ext.authorizes symbol notional equity x ∧ r = .ok x) ∧ w' = w
  | .submitMarketOrder order, r, w' => ext.executes order r ∧ w' = w.submit order
  | .createOrder symbol orderType side amount, r, w' =>
    ext.responds symbol orderType side amount r ∧
      w' = { w with exchangeOrders := w.exchangeOrders ++ [(symbol, orderType, side, amount)] }
  | .publish event, r, w' => r = .ok () ∧ w' = w.publish event
  | .getProfile, r, w' => r = .ok w.profile ∧ w' = w
  | .saveProfile profile, r, w' => r = .ok () ∧ w' = { w with profile := profile }
  | .getKillSwitch, r, w' => r = .ok w.killSwitch ∧ w' = w
  | .setKillSwitch state, r, w' => r = .ok () ∧ w' = { w with killSwitch := state }
  | .redisGet name, r, w' => r = .ok (w.redis name) ∧ w' = w
  | .redisSet name value, r, w' =>
    r = .ok () ∧ w' = { w with redis := Function.update w.redis name (some value) }

/-- The environment: a call goes through, or it may raise without effect. -/
def answer (ext : Externals) : Environment World Exn Ret := fun w op r w' =>
  w.Answers ext op r w' ∨ op.submits = false ∧ ∃ e, ext.raises op e ∧ r = .error e ∧ w' = w

theorem answer_saveOrder {ext : Externals} {w w' : World} {order : TradeOrder}
    {r : Except Exn Unit} (h : answer ext w (.saveOrder order) r w') :
    (r = .ok () ∧ w.saveOrder order = .ok w') ∨ ∃ e, r = .error e ∧ w' = w := by
  rcases h with (⟨hr, hSave⟩ | ⟨e, hr, -, hw⟩) | ⟨-, e, -, hr, hw⟩
  · exact .inl ⟨hr, hSave⟩
  · exact .inr ⟨e, hr, hw⟩
  · exact .inr ⟨e, hr, hw⟩

theorem answer_submitMarketOrder {ext : Externals} {w w' : World} {order : TradeOrder}
    {r : Except Exn TradeOrder} (h : answer ext w (.submitMarketOrder order) r w') :
    order.Executed r ∧ w' = w.submit order := by
  rcases h with ⟨hExecutes, hw⟩ | ⟨hNever, -⟩
  · exact ⟨ext.executed hExecutes, hw⟩
  · cases hNever

/-- Only `saveOrder` changes the table of orders. -/
theorem answer_orders {ext : Externals} {w w' : World} {op : Op} {r : Except Exn (Ret op)}
    (h : answer ext w op r w') (hOp : ∀ order, op ≠ .saveOrder order) :
    w'.orders = w.orders := by
  rcases h with h | ⟨-, e, -, -, rfl⟩
  · cases op with
    | saveOrder order => exact absurd rfl (hOp order)
    | _ => rw [h.2]; try rfl
  · rfl

/-- Only `savePosition` changes the table of positions. -/
theorem answer_positions {ext : Externals} {w w' : World} {op : Op} {r : Except Exn (Ret op)}
    (h : answer ext w op r w') (hOp : ∀ position, op ≠ .savePosition position) :
    w'.positions = w.positions := by
  rcases h with h | ⟨-, e, -, -, rfl⟩
  · cases op with
    | savePosition position => exact absurd rfl (hOp position)
    | saveOrder order =>
      rcases h with ⟨-, hSave⟩ | ⟨e, -, -, rfl⟩
      · obtain ⟨orders, rfl⟩ := saveOrder_frame hSave
        rfl
      · rfl
    | _ => rw [h.2]; try rfl
  · rfl

/-- Only `publish` changes the published events. -/
theorem answer_published {ext : Externals} {w w' : World} {op : Op} {r : Except Exn (Ret op)}
    (h : answer ext w op r w') (hOp : ∀ event, op ≠ .publish event) :
    w'.published = w.published := by
  rcases h with h | ⟨-, e, -, -, rfl⟩
  · cases op with
    | publish event => exact absurd rfl (hOp event)
    | saveOrder order =>
      rcases h with ⟨-, hSave⟩ | ⟨e, -, -, rfl⟩
      · obtain ⟨orders, rfl⟩ := saveOrder_frame hSave
        rfl
      · rfl
    | _ => rw [h.2]; try rfl
  · rfl

/-- Only `setKillSwitch` changes the stored switch. -/
theorem answer_killSwitch {ext : Externals} {w w' : World} {op : Op} {r : Except Exn (Ret op)}
    (h : answer ext w op r w') (hOp : ∀ state, op ≠ .setKillSwitch state) :
    w'.killSwitch = w.killSwitch := by
  rcases h with h | ⟨-, e, -, -, rfl⟩
  · cases op with
    | setKillSwitch state => exact absurd rfl (hOp state)
    | saveOrder order =>
      rcases h with ⟨-, hSave⟩ | ⟨e, -, -, rfl⟩
      · obtain ⟨orders, rfl⟩ := saveOrder_frame hSave
        rfl
      · rfl
    | _ => rw [h.2]; try rfl
  · rfl

/-! ## Worlds that answer by functions -/

/-- Functions that answer in the place of `Externals`. -/
structure Replies where
  gate : String → ℚ → ℚ → Bool × String
  gateway : TradeOrder → Except Exn TradeOrder
  exchange : Except Exn Response

def respond (replies : Replies) (w : World) : (op : Op) → Except Exn (Ret op) × World
  | .getByClientOrderId clientOrderId => (.ok (w.getByClientOrderId clientOrderId), w)
  | .saveOrder order =>
    match w.saveOrder order with
    | .ok w' => (.ok (), w')
    | .error e => (.error e, w)
  | .getPosition symbol => (.ok (w.getPosition symbol), w)
  | .savePosition position => (.ok (), w.savePosition position)
  | .authorize symbol notional equity => (.ok (replies.gate symbol notional equity), w)
  | .submitMarketOrder order => (replies.gateway order, w.submit order)
  | .createOrder symbol orderType side amount =>
    (replies.exchange,
      { w with exchangeOrders := w.exchangeOrders ++ [(symbol, orderType, side, amount)] })
  | .publish event => (.ok (), w.publish event)
  | .getProfile => (.ok w.profile, w)
  | .saveProfile profile => (.ok (), { w with profile := profile })
  | .getKillSwitch => (.ok w.killSwitch, w)
  | .setKillSwitch state => (.ok (), { w with killSwitch := state })
  | .redisGet name => (.ok (w.redis name), w)
  | .redisSet name value =>
    (.ok (), { w with redis := Function.update w.redis name (some value) })

/-- The environment allows the replies that `ext` allows. -/
theorem answer_respond {ext : Externals} {replies : Replies}
    (hGate : ∀ symbol notional equity,
      ext.authorizes symbol notional equity (replies.gate symbol notional equity))
    (hGateway : ∀ order, ext.executes order (replies.gateway order))
    (hExchange : ∀ symbol orderType side amount,
      ext.responds symbol orderType side amount replies.exchange) (w : World) (op : Op) :
    answer ext w op (w.respond replies op).1 (w.respond replies op).2 := by
  left
  cases op with
  | saveOrder order =>
    simp only [respond, Answers]
    cases h : w.saveOrder order with
    | ok w' => exact .inl ⟨rfl, rfl⟩
    | error e => exact .inr ⟨e, rfl, rfl, rfl⟩
  | authorize symbol notional equity => exact ⟨⟨_, hGate symbol notional equity, rfl⟩, rfl⟩
  | submitMarketOrder order => exact ⟨hGateway order, rfl⟩
  | createOrder symbol orderType side amount => exact ⟨hExchange symbol orderType side amount, rfl⟩
  | _ => exact ⟨rfl, rfl⟩

end World

end TradingAgent
