import TradingAgent.Coroutine.Pool
import TradingAgent.Trading.Gateways
import TradingAgent.Trading.Phases
import TradingAgent.World

/-!
# Interleaved calls of `execute`

A family of calls runs over one world. Each call is in a phase (`Tracks`), the order it
carries is the one it created, at most filled, and no stored row has its id before it has
saved. `Tracks.step` says what a step of the pool is: one call makes one move of its
phases, and the world answers the awaited operation.
-/

namespace TradingAgent.Trading

open Coroutine Coro

variable [PyText] {ι : Type}

abbrev PoolConfig (ι : Type) := Config World Exn Ret fun _ : ι => Result TradeOrder String

abbrev PoolLog (ι : Type) := Log World Exn Ret fun _ : ι => Result TradeOrder String

/-- All calls before their first step. -/
def start (calls : ι → Call) (w : World) : PoolConfig ι where
  state := w
  threads i := PlaceOrderService.ports.execute (calls i)

/-- `uuid4()` draws ids that no other call and no stored order has. -/
structure Drawn (calls : ι → Call) (w : World) : Prop where
  injective : Function.Injective fun i => (calls i).id
  fresh : ∀ i, ∀ order ∈ w.orders, order.id ≠ (calls i).id

/-- The order is the one that the call creates, as it is or filled. -/
structure OfCall (c : Call) (order : TradeOrder) : Prop where
  id_eq : order.id = c.id
  clientOrderId_eq : order.clientOrderId = c.command.clientOrderId
  symbol_eq : order.symbol = PyText.upper c.command.symbol
  quantity_pos : 0 < order.quantity
  filled_pos : order.status = .filled → ∃ price, order.executedPrice = some price ∧ 0 < price

theorem OfCall.of_create {c : Call} {order : TradeOrder} (h : c.createOrder = .ok order) :
    OfCall c order ∧ order.status = .pending := by
  obtain ⟨hQuantity, -, -, -, rfl⟩ := TradeOrder.create_ok h
  exact ⟨⟨rfl, rfl, rfl, hQuantity, fun hStatus => by cases hStatus⟩, rfl⟩

theorem OfCall.executed {c : Call} {order submitted : TradeOrder} (h : OfCall c order)
    (hExecuted : order.Executed (.ok submitted)) : OfCall c submitted := by
  rcases hExecuted.ok_cases with rfl | ⟨price, hPrice, rfl⟩
  · exact h
  · exact ⟨h.id_eq, h.clientOrderId_eq, h.symbol_eq, h.quantity_pos, fun _ => ⟨price, rfl, hPrice⟩⟩

/-- The positions after the fill of an order is booked. -/
def booked (positions : String → Option Position) (order : TradeOrder) :
    String → Option Position :=
  match order.status, order.executedPrice with
  | .filled, some executedPrice =>
    match ((World.row positions (PyText.upper order.symbol)).getD
        (Position.empty order.symbol)).applyFill order.side.value order.quantity
        executedPrice with
    | .ok updated =>
      let symbol := PyText.upper updated.symbol
      Function.update positions symbol (some { updated with symbol := symbol })
    | .error _ => positions
  | _, _ => positions

theorem booked_filled {positions : String → Option Position} {order : TradeOrder}
    {executedPrice : ℚ} {updated : Position} (hStatus : order.status = .filled)
    (hPrice : order.executedPrice = some executedPrice)
    (hFill : ((World.row positions (PyText.upper order.symbol)).getD
      (Position.empty order.symbol)).applyFill order.side.value order.quantity executedPrice =
        .ok updated) :
    booked positions order = Function.update positions (PyText.upper updated.symbol)
      (some { updated with symbol := PyText.upper updated.symbol }) := by
  unfold booked
  rw [hStatus, hPrice]
  simp only [hFill]

theorem booked_open {positions : String → Option Position} {order : TradeOrder}
    (hOpen : ¬(order.status = .filled ∧ order.executedPrice.isSome)) :
    booked positions order = positions := by
  unfold booked
  split
  · rename_i executedPrice hStatus hPrice
    exact absurd ⟨hStatus, by rw [hPrice]; rfl⟩ hOpen
  · rfl

namespace Phase

/-- The order that a call has at hand. -/
def order : Phase → Option TradeOrder
  | submitting order => some order
  | saving order => some order
  | reading order _ => some order
  | writing order _ => some order
  | publishing order => some order
  | _ => none

/-- The call has not stored its order. -/
def Unsaved : Phase → Prop
  | looking => True
  | authorizing => True
  | submitting _ => True
  | saving _ => True
  | _ => False

end Phase

namespace Phase.Moves

variable {c : Call} {ph ph' : Phase} {op : Op} {r : Except Exn (Ret op)}

/-- A call keeps to the order it created. -/
theorem ofCall (h : Moves c ph op r ph')
    (hOrder : ∀ order, ph.order = some order → OfCall c order)
    (hExecuted : ∀ order submitted, ph = .submitting order → ph' = .saving submitted →
      order.Executed (.ok submitted)) :
    ∀ order, ph'.order = some order → OfCall c order := by
  intro o ho
  cases h with
  | allowed reason order hCreate =>
    obtain rfl := Option.some.inj ho
    exact (OfCall.of_create hCreate).1
  | accepted order submitted =>
    obtain rfl := Option.some.inj ho
    exact (hOrder order rfl).executed (hExecuted order _ rfl rfl)
  | savedFilled order executedPrice hStatus hPrice => exact hOrder o ho
  | savedOpen order hOpen => exact hOrder o ho
  | applied order executedPrice stored updated hFill => exact hOrder o ho
  | written order updated => exact hOrder o ho
  | _ => cases ho

/-- A call that has not stored its order had not, and has made no save. -/
theorem unsaved (h : Moves c ph op r ph') (hUnsaved : ph'.Unsaved) :
    ph.Unsaved ∧ ∀ order, op ≠ .saveOrder order := by
  cases h with
  | missing => exact ⟨trivial, fun _ hOp => by cases hOp⟩
  | allowed reason order hCreate => exact ⟨trivial, fun _ hOp => by cases hOp⟩
  | accepted order submitted => exact ⟨trivial, fun _ hOp => by cases hOp⟩
  | _ => exact hUnsaved.elim

/-- Only a call in its saving phase saves, and it saves the order it has at hand. -/
theorem saving_of_saveOrder {order : TradeOrder} {r : Except Exn Unit}
    (h : Moves c ph (.saveOrder order) r ph') : ph = .saving order := by
  cases h <;> rfl

end Phase.Moves

/-- The calls are in the phases `ph`. -/
structure Tracks (calls : ι → Call) (c : PoolConfig ι) (ph : ι → Phase) : Prop where
  program : ∀ i, c.threads i = (ph i).program (calls i)
  ofCall : ∀ i order, (ph i).order = some order → OfCall (calls i) order
  fresh : ∀ i, (ph i).Unsaved → ∀ order ∈ c.state.orders, order.id ≠ (calls i).id

namespace Tracks

variable {ext : Externals} {calls : ι → Call} {c c' : PoolConfig ι} {ph : ι → Phase}
  {e : Event Exn Ret ι}

theorem start {w : World} (hDrawn : Drawn calls w) :
    Tracks calls (start calls w) fun _ => .looking where
  program _ := rfl
  ofCall _ _ h := by cases h
  fresh i _ := hDrawn.fresh i

/-- The pending operation of a thread is the one that its phase awaits. -/
theorem pending (h : Tracks calls c ph) (i : ι) :
    (c.threads i).pending = (ph i).awaits (calls i) := by
  rw [h.program i, Phase.program_pending]

theorem pending_submitMarketOrder (h : Tracks calls c ph) {i : ι} {order : TradeOrder} :
    (c.threads i).pending = some (.submitMarketOrder order) ↔ ph i = .submitting order := by
  rw [h.pending i]
  constructor
  · intro hPending
    cases hPh : ph i <;> rw [hPh] at hPending <;> cases hPending
    rfl
  · intro hPh
    rw [hPh]
    rfl

theorem pending_saveOrder (h : Tracks calls c ph) {i : ι} {order : TradeOrder} :
    (c.threads i).pending = some (.saveOrder order) ↔ ph i = .saving order := by
  rw [h.pending i]
  constructor
  · intro hPending
    cases hPh : ph i <;> rw [hPh] at hPending <;> cases hPending
    rfl
  · intro hPh
    rw [hPh]
    rfl

theorem pending_savePosition (h : Tracks calls c ph) {i : ι} {updated : Position} :
    (c.threads i).pending = some (.savePosition updated) ↔
      ∃ order, ph i = .writing order updated := by
  rw [h.pending i]
  constructor
  · intro hPending
    cases hPh : ph i <;> rw [hPh] at hPending <;> cases hPending
    exact ⟨_, rfl⟩
  · rintro ⟨order, hPh⟩
    rw [hPh]
    rfl

/-- The table of orders after a step: unchanged, or with the order that the call saved. -/
theorem orders (h : Tracks calls c ph) {w' : World} {i : ι} {op : Op} {r : Except Exn (Ret op)}
    {ph' : Phase} (hMoves : Phase.Moves (calls i) (ph i) op r ph')
    (hAnswer : World.answer ext c.state op r w') :
    w'.orders = c.state.orders ∨ ∃ order, ph i = .saving order ∧
      w'.orders = c.state.orders ++ [order] ∧ ¬c.state.Stores order.clientOrderId := by
  by_cases hSave : ∃ order, op = .saveOrder order
  · obtain ⟨order, rfl⟩ := hSave
    have hPh := hMoves.saving_of_saveOrder
    rcases World.answer_saveOrder hAnswer with ⟨-, hSaved⟩ | ⟨e, -, rfl⟩
    · have hFresh : ∀ row ∈ c.state.orders, row.id ≠ order.id := by
        rw [(h.ofCall i order (by rw [hPh]; rfl)).id_eq]
        exact h.fresh i (by rw [hPh]; trivial)
      obtain ⟨rfl, hNew⟩ := World.saveOrder_fresh hFresh hSaved
      exact .inr ⟨order, hPh, rfl, hNew⟩
    · exact .inl rfl
  · exact .inl (World.answer_orders hAnswer fun order hOp => hSave ⟨order, hOp⟩)

/-- **A step of the pool.** One call makes a move, and the world answers it. -/
theorem step [DecidableEq ι] (h : Tracks calls c ph)
    (hIds : Function.Injective fun i => (calls i).id) (hStep : Step (World.answer ext) c e c') :
    ∃ ph', Phase.Moves (calls e.thread) (ph e.thread) e.op e.answer ph' ∧
      World.answer ext c.state e.op e.answer c'.state ∧
      Tracks calls c' (Function.update ph e.thread ph') := by
  cases hStep with
  | @mk i op resume r w' hThread hAnswer =>
    rw [h.program i] at hThread
    obtain ⟨ph', hMoves, hResume⟩ := Phase.program_step _ _ hThread r
    refine ⟨ph', hMoves, hAnswer, fun j => ?_, fun j order hOrder => ?_, fun j hUnsaved => ?_⟩
    · by_cases hji : j = i
      · subst hji
        simp [hResume]
      · simp [hji, h.program j]
    · by_cases hji : j = i
      · subst hji
        rw [Function.update_self] at hOrder
        refine hMoves.ofCall (h.ofCall j) (fun o submitted hPh hPh' => ?_) order hOrder
        rw [hPh, hPh'] at hMoves
        cases hMoves
        exact (World.answer_submitMarketOrder hAnswer).1
      · rw [Function.update_of_ne hji] at hOrder
        exact h.ofCall j order hOrder
    · have hBefore : (ph j).Unsaved ∧ (j = i → ∀ order, op ≠ .saveOrder order) := by
        by_cases hji : j = i
        · subst hji
          rw [Function.update_self] at hUnsaved
          exact ⟨(hMoves.unsaved hUnsaved).1, fun _ => (hMoves.unsaved hUnsaved).2⟩
        · rw [Function.update_of_ne hji] at hUnsaved
          exact ⟨hUnsaved, fun hEq => absurd hEq hji⟩
      intro row hRow
      rcases h.orders hMoves hAnswer with hSame | ⟨order, hPh, hAdded, -⟩
      · rw [hSame] at hRow
        exact h.fresh j hBefore.1 row hRow
      · rw [hAdded] at hRow
        rcases List.mem_append.mp hRow with hRow | hRow
        · exact h.fresh j hBefore.1 row hRow
        · obtain rfl := List.mem_singleton.mp hRow
          rw [(h.ofCall i row (by rw [hPh]; rfl)).id_eq]
          intro hSameId
          obtain rfl := hIds hSameId
          rw [hPh] at hMoves
          cases hMoves <;> exact hBefore.2 rfl row rfl

end Tracks

/-! ## The paper desk -/

/-- A risk gate that approves everything, the paper gateway, and no failures. -/
def desk : Externals where
  authorizes _ _ _ x := x = (true, "ok")
  executes order r := r = PaperOrderGateway.submitMarketOrder order
  responds _ _ _ _ r := r = .ok .other
  raises _ _ := False
  executed := by
    rintro order r rfl
    exact PaperOrderGateway.executed order

def deskReplies : World.Replies where
  gate _ _ _ := (true, "ok")
  gateway := PaperOrderGateway.submitMarketOrder
  exchange := .ok .other

theorem desk_answers (w : World) (op : Op) :
    World.answer desk w op (w.respond deskReplies op).1 (w.respond deskReplies op).2 :=
  World.answer_respond (fun _ _ _ => rfl) (fun _ => rfl) (fun _ _ _ _ => rfl) w op

/-- At the desk, every schedule of turns is a run. -/
theorem run_desk {A : ι → Type} [DecidableEq ι] (c : Config World Exn Ret A) (schedule : List ι) :
    let run := simulate c (schedule.map fun i => (i, World.respond deskReplies))
    Run (World.answer desk) c run.1 run.2 := by
  refine run_simulate fun turn hTurn w op => ?_
  obtain ⟨i, -, rfl⟩ := List.mem_map.mp hTurn
  exact desk_answers w op

end TradingAgent.Trading
