import TradingAgent.Coroutine.Sequence
import TradingAgent.Trading.Interleaving

/-!
# Calls made one after another

A placement is a call of `execute` that runs alone, together with the answers that the risk
gate and the gateway give in it; from one placement to the next the answers may change. The
repositories and the bus do not fail. `Ends` lists the ways a placement can end, for any
risk gate, and `placed_ends` says that every placement ends in one of them.
-/

namespace TradingAgent.Trading

open Coroutine Coro

variable [PyText]

/-- A call of `execute`, and what the gate and the gateway answer in it. -/
structure Placement where
  replies : World.Replies
  call : Call

/-- The service over plain repositories and a plain bus, with this risk gate and this
gateway. -/
def PlaceOrderService.over (authorize : String → ℚ → ℚ → Async (Bool × String))
    (submitMarketOrder : TradeOrder → Async TradeOrder) : PlaceOrderService :=
  { ports with authorize := authorize, submitMarketOrder := submitMarketOrder }

/-! ## Recording an order -/

section Record

variable (authorize : String → ℚ → ℚ → Async (Bool × String))
  (submitMarketOrder : TradeOrder → Async TradeOrder) {replies : World.Replies} {w w' : World}
  {c : Call} {submitted : TradeOrder}

/-- Booking changes the positions only. -/
theorem drive_book_frame (submitted : TradeOrder) :
    ∃ positions, (drive (World.respond replies) w
      ((PlaceOrderService.over authorize submitMarketOrder).book submitted)).2 =
        { w with positions := positions } := by
  unfold PlaceOrderService.book
  split
  · rename_i executedPrice hStatus hPrice
    cases hFill : ((w.getPosition submitted.symbol).getD
        (Position.empty submitted.symbol)).applyFill submitted.side.value submitted.quantity
        executedPrice with
    | ok updated =>
      refine ⟨(w.savePosition updated).positions, ?_⟩
      simp [PlaceOrderService.over, PlaceOrderService.ports, World.respond, hFill,
        World.savePosition]
    | error e =>
      refine ⟨w.positions, ?_⟩
      simp [PlaceOrderService.over, PlaceOrderService.ports, World.respond, hFill]
  · exact ⟨w.positions, rfl⟩

theorem drive_saveOrder (hSave : w.saveOrder submitted = .ok w') :
    drive (World.respond replies) w
        ((PlaceOrderService.over authorize submitMarketOrder).saveOrder submitted) =
      (.ok (), w') := by
  change drive _ w (perform (Op.saveOrder submitted)) = _
  rw [drive_call, World.respond, hSave]

/-- Once an order is stored, its recording changes the table of orders no more, and it
returns the order or raises. -/
theorem drive_record_orders (hSave : w.saveOrder submitted = .ok w') :
    let ended := drive (World.respond replies) w
      ((PlaceOrderService.over authorize submitMarketOrder).record submitted)
    ended.2.orders = w'.orders ∧
      (ended.1 = .ok (.ok submitted) ∨ ∃ e, ended.1 = .error e) := by
  intro ended
  obtain ⟨positions, hFrame⟩ := @drive_book_frame _ authorize submitMarketOrder
    replies w' submitted
  have hEnded : ended = drive (World.respond replies) w
      ((PlaceOrderService.over authorize submitMarketOrder).record submitted) := rfl
  unfold PlaceOrderService.record at hEnded
  rw [drive_bind, drive_saveOrder authorize submitMarketOrder hSave] at hEnded
  dsimp only at hEnded
  rw [drive_bind] at hEnded
  generalize drive (World.respond replies) w'
    ((PlaceOrderService.over authorize submitMarketOrder).book submitted) = b at hFrame hEnded
  obtain ⟨out, w₂⟩ := b
  subst hFrame
  cases out with
  | error e =>
    rw [hEnded]
    exact ⟨rfl, .inr ⟨e, rfl⟩⟩
  | ok _ =>
    rw [hEnded]
    exact ⟨rfl, .inl rfl⟩

end Record

/-! ## The ends of a call -/

/-- How a call of `execute` ends: the outcome and the world it leaves. `gate` is the
outcome of the risk gate and the world that the gate leaves. -/
inductive Ends (replies : World.Replies) (c : Call) (w : World)
    (gate : Except Exn (Bool × String) × World) :
    Except Exn (Result TradeOrder String) → World → Prop
  | stored {order : TradeOrder}
      (hStored : w.getByClientOrderId c.command.clientOrderId = some order) :
      Ends replies c w gate (.ok (.ok order)) w
  | unanswered {e : Exn} {w₁ : World} (hFree : ¬w.Stores c.command.clientOrderId)
      (hGate : gate = (.error e, w₁)) : Ends replies c w gate (.error e) w₁
  | rejected {reason : String} {w₁ : World} (hFree : ¬w.Stores c.command.clientOrderId)
      (hGate : gate = (.ok (false, reason), w₁)) :
      Ends replies c w gate (.ok (.err ("risk_rejected:" ++ reason))) w₁
  | invalid {reason message : String} {w₁ : World} (hFree : ¬w.Stores c.command.clientOrderId)
      (hGate : gate = (.ok (true, reason), w₁))
      (hCreate : c.createOrder = .error (.valueError message)) :
      Ends replies c w gate (.ok (.err message)) w₁
  | failed {reason : String} {w₁ : World} {order : TradeOrder} {e : Exn}
      {out : Except Exn (Result TradeOrder String)} (hFree : ¬w.Stores c.command.clientOrderId)
      (hGate : gate = (.ok (true, reason), w₁)) (hCreate : c.createOrder = .ok order)
      (hGateway : replies.gateway order = .error e) (hOut : ∀ order, out ≠ .ok (.ok order)) :
      Ends replies c w gate out (w₁.submit order)
  | recorded {reason : String} {w₁ : World} {order submitted : TradeOrder}
      (hFree : ¬w.Stores c.command.clientOrderId) (hGate : gate = (.ok (true, reason), w₁))
      (hCreate : c.createOrder = .ok order) (hGateway : replies.gateway order = .ok submitted) :
      Ends replies c w gate
        (drive (World.respond replies) (w₁.submit order)
          (PlaceOrderService.ports.record submitted)).1
        (drive (World.respond replies) (w₁.submit order)
          (PlaceOrderService.ports.record submitted)).2

section Placed

variable (authorize : String → ℚ → ℚ → Async (Bool × String)) (replies : World.Replies)
  (w : World) (c : Call)

/-- The service with the risk gate `authorize`; its other ports are plain. -/
def gated : PlaceOrderService := .over authorize PlaceOrderService.ports.submitMarketOrder

/-- The outcome of the risk gate in a call. -/
def gateOf : Except Exn (Bool × String) × World :=
  drive (World.respond replies) w
    (authorize c.command.symbol (c.command.quantity * c.command.price) c.command.equity)

/-- A call of `execute` that runs alone: its outcome and the world it leaves. -/
def placed : Except Exn (Result TradeOrder String) × World :=
  drive (World.respond replies) w ((gated authorize).execute c)

/-- After the risk gate's approval in the world `w`. -/
theorem place_ends {reason : String} {gate : Except Exn (Bool × String) × World} {w₁ : World}
    (hFree : ¬w.Stores c.command.clientOrderId) (hGate : gate = (.ok (true, reason), w₁)) :
    Ends replies c w gate (drive (World.respond replies) w₁ ((gated authorize).place c)).1
      (drive (World.respond replies) w₁ ((gated authorize).place c)).2 := by
  unfold PlaceOrderService.place PlaceOrderService.submit
  rw [drive_bind, drive_attempt, drive_bind, drive_ofExcept]
  cases hCreate : c.createOrder with
  | error e =>
    obtain ⟨message, rfl⟩ := TradeOrder.create_error hCreate
    exact .invalid hFree hGate hCreate
  | ok order =>
    have hSubmit : drive (World.respond replies) w₁ ((gated authorize).submitMarketOrder order) =
        (replies.gateway order, w₁.submit order) := drive_call _ _ _
    dsimp only
    rw [hSubmit]
    cases hGateway : replies.gateway order with
    | ok submitted => exact .recorded hFree hGate hCreate hGateway
    | error e =>
      rcases e with message | message | name
      · exact .failed hFree hGate hCreate hGateway fun _ h => by cases h
      · exact .failed hFree hGate hCreate hGateway fun _ h => by cases h
      · exact .failed hFree hGate hCreate hGateway fun _ h => by cases h

/-- **The ends of a call.** -/
theorem placed_ends :
    Ends replies c w (gateOf authorize replies w c) (placed authorize replies w c).1
      (placed authorize replies w c).2 := by
  have hLookup : drive (World.respond replies) w
      ((gated authorize).getByClientOrderId c.command.clientOrderId) =
        (.ok (w.getByClientOrderId c.command.clientOrderId), w) := drive_call _ _ _
  unfold placed PlaceOrderService.execute
  rw [drive_bind, hLookup]
  dsimp only
  cases hFound : w.getByClientOrderId c.command.clientOrderId with
  | some order => exact .stored hFound
  | none =>
    have hFree := World.getByClientOrderId_eq_none.mp hFound
    dsimp only
    have hAuthorize : drive (World.respond replies) w ((gated authorize).authorize
        c.command.symbol (c.command.quantity * c.command.price) c.command.equity) =
          gateOf authorize replies w c := rfl
    rw [drive_bind, hAuthorize]
    rcases gateOf authorize replies w c with ⟨e | ⟨allowed, reason⟩, w₁⟩
    · exact .unanswered hFree rfl
    · cases allowed with
      | false => exact .rejected hFree rfl
      | true => exact place_ends authorize replies w c hFree rfl

end Placed

end TradingAgent.Trading
