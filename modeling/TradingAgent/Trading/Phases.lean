import TradingAgent.Trading.PlaceOrder

/-!
# The phases of `execute`

Over plain ports, a call of `execute` is at any time in one of nine phases: before one of
its seven awaited calls, returned, or raised. `Moves` is this state machine: each
constructor is one way in which an answer takes the call from a phase to the next.
`program_step` is the simulation: what is left of the coroutine is the program of its
phase, and an answer resumes it to the program of a phase that `Moves` allows.
-/

namespace TradingAgent.Trading

open Coroutine Coro PlaceOrderService

variable [PyText]

inductive Phase
  | looking
  | authorizing
  | submitting (order : TradeOrder)
  | saving (submitted : TradeOrder)
  | reading (submitted : TradeOrder) (executedPrice : ℚ)
  | writing (submitted : TradeOrder) (updated : Position)
  | publishing (submitted : TradeOrder)
  | returned (result : Result TradeOrder String)
  | raised (e : Exn)

namespace Phase

/-- What `execute` does with the outcome of its `try` block. -/
def submitted : Except Exn TradeOrder → Async (Result TradeOrder String)
  | .ok order => ports.record order
  | .error (.valueError message) => ret (.err message)
  | .error (.runtimeError message) => ret (.err message)
  | .error exc => raise exc

/-- The announcement that ends a call. -/
def announce (order : TradeOrder) : Async (Result TradeOrder String) := do
  ports.publish order.stateChanged
  return .ok order

/-- The end of a call that has computed the position to write. -/
def write (order : TradeOrder) (updated : Position) : Async (Result TradeOrder String) := do
  ports.savePosition updated
  announce order

/-- What `execute` does with the position it has read. -/
def apply (order : TradeOrder) (executedPrice : ℚ) (stored : Option Position) :
    Async (Result TradeOrder String) := do
  let position := stored.getD (Position.empty order.symbol)
  let updated ← ofExcept (position.applyFill order.side.value order.quantity executedPrice)
  write order updated

/-- What is left of a call in each phase. -/
def program (c : Call) : Phase → Async (Result TradeOrder String)
  | looking => ports.execute c
  | authorizing => do
    let (allowed, reason) ← ports.authorize c.command.symbol
      (c.command.quantity * c.command.price) c.command.equity
    if !allowed then return .err ("risk_rejected:" ++ reason) else ports.place c
  | submitting order => (ports.submitMarketOrder order).attempt >>= submitted
  | saving order => ports.record order
  | reading order executedPrice => ports.getPosition order.symbol >>= apply order executedPrice
  | writing order updated => write order updated
  | publishing order => announce order
  | returned result => ret result
  | raised e => raise e

/-- One way in which an answer moves a call to its next phase. -/
inductive Moves (c : Call) : Phase → (op : Op) → Except Exn (Ret op) → Phase → Prop
  | found (order : TradeOrder) :
    Moves c looking (.getByClientOrderId c.command.clientOrderId) (.ok (some order))
      (returned (.ok order))
  | missing :
    Moves c looking (.getByClientOrderId c.command.clientOrderId) (.ok none) authorizing
  | lookupRaised (e : Exn) :
    Moves c looking (.getByClientOrderId c.command.clientOrderId) (.error e) (raised e)
  | refused (reason : String) :
    Moves c authorizing
      (.authorize c.command.symbol (c.command.quantity * c.command.price) c.command.equity)
      (.ok (false, reason)) (returned (.err ("risk_rejected:" ++ reason)))
  | invalid (reason message : String) (hCreate : c.createOrder = .error (.valueError message)) :
    Moves c authorizing
      (.authorize c.command.symbol (c.command.quantity * c.command.price) c.command.equity)
      (.ok (true, reason)) (returned (.err message))
  | allowed (reason : String) (order : TradeOrder) (hCreate : c.createOrder = .ok order) :
    Moves c authorizing
      (.authorize c.command.symbol (c.command.quantity * c.command.price) c.command.equity)
      (.ok (true, reason)) (submitting order)
  | gateRaised (e : Exn) :
    Moves c authorizing
      (.authorize c.command.symbol (c.command.quantity * c.command.price) c.command.equity)
      (.error e) (raised e)
  | accepted (order submitted : TradeOrder) :
    Moves c (submitting order) (.submitMarketOrder order) (.ok submitted) (saving submitted)
  | declined (order : TradeOrder) (e : Exn) (message : String)
      (hCaught : e = .valueError message ∨ e = .runtimeError message) :
    Moves c (submitting order) (.submitMarketOrder order) (.error e) (returned (.err message))
  | gatewayRaised (order : TradeOrder) (name : String) :
    Moves c (submitting order) (.submitMarketOrder order) (.error (.other name))
      (raised (.other name))
  | savedFilled (order : TradeOrder) (executedPrice : ℚ) (hStatus : order.status = .filled)
      (hPrice : order.executedPrice = some executedPrice) :
    Moves c (saving order) (.saveOrder order) (.ok ()) (reading order executedPrice)
  | savedOpen (order : TradeOrder)
      (hOpen : ¬(order.status = .filled ∧ order.executedPrice.isSome)) :
    Moves c (saving order) (.saveOrder order) (.ok ()) (publishing order)
  | saveRaised (order : TradeOrder) (e : Exn) :
    Moves c (saving order) (.saveOrder order) (.error e) (raised e)
  | applied (order : TradeOrder) (executedPrice : ℚ) (stored : Option Position)
      (updated : Position)
      (hFill : (stored.getD (Position.empty order.symbol)).applyFill order.side.value
        order.quantity executedPrice = .ok updated) :
    Moves c (reading order executedPrice) (.getPosition order.symbol) (.ok stored)
      (writing order updated)
  | fillRaised (order : TradeOrder) (executedPrice : ℚ) (stored : Option Position) (e : Exn)
      (hFill : (stored.getD (Position.empty order.symbol)).applyFill order.side.value
        order.quantity executedPrice = .error e) :
    Moves c (reading order executedPrice) (.getPosition order.symbol) (.ok stored) (raised e)
  | readRaised (order : TradeOrder) (executedPrice : ℚ) (e : Exn) :
    Moves c (reading order executedPrice) (.getPosition order.symbol) (.error e) (raised e)
  | written (order : TradeOrder) (updated : Position) :
    Moves c (writing order updated) (.savePosition updated) (.ok ()) (publishing order)
  | writeRaised (order : TradeOrder) (updated : Position) (e : Exn) :
    Moves c (writing order updated) (.savePosition updated) (.error e) (raised e)
  | announced (order : TradeOrder) :
    Moves c (publishing order) (.publish order.stateChanged) (.ok ()) (returned (.ok order))
  | publishRaised (order : TradeOrder) (e : Exn) :
    Moves c (publishing order) (.publish order.stateChanged) (.error e) (raised e)

/-- The call that a phase awaits. -/
def awaits (c : Call) : Phase → Option Op
  | looking => some (.getByClientOrderId c.command.clientOrderId)
  | authorizing => some
    (.authorize c.command.symbol (c.command.quantity * c.command.price) c.command.equity)
  | submitting order => some (.submitMarketOrder order)
  | saving order => some (.saveOrder order)
  | reading order _ => some (.getPosition order.symbol)
  | writing _ updated => some (.savePosition updated)
  | publishing order => some (.publish order.stateChanged)
  | returned _ => none
  | raised _ => none

theorem program_pending (c : Call) (ph : Phase) : (ph.program c).pending = ph.awaits c := by
  cases ph <;> rfl

/-- The store-book-announce part moves on once the order is stored. -/
theorem record_stored (c : Call) (order : TradeOrder) :
    ∃ ph', Moves c (saving order) (.saveOrder order) (.ok ()) ph' ∧
      (do ports.book order; announce order) = ph'.program c := by
  unfold book
  split
  · rename_i executedPrice hStatus hPrice
    refine ⟨_, .savedFilled order executedPrice hStatus hPrice, ?_⟩
    simp only [program, bind_assoc]
    rfl
  · rename_i hOpen
    refine ⟨_, .savedOpen order ?_, rfl⟩
    rintro ⟨hStatus, hPrice⟩
    obtain ⟨executedPrice, hSome⟩ := Option.isSome_iff_exists.mp hPrice
    exact hOpen executedPrice hStatus hSome

theorem program_step (c : Call) (ph : Phase) {op : Op}
    {resume : Except Exn (Ret op) → Async (Result TradeOrder String)}
    (h : ph.program c = await op resume) (r : Except Exn (Ret op)) :
    ∃ ph', Moves c ph op r ph' ∧ resume r = ph'.program c := by
  cases ph with
  | looking =>
    cases h
    rcases r with e | (_ | order)
    · exact ⟨_, .lookupRaised e, rfl⟩
    · exact ⟨_, .missing, rfl⟩
    · exact ⟨_, .found order, rfl⟩
  | authorizing =>
    cases h
    rcases r with e | ⟨allowed, reason⟩
    · exact ⟨_, .gateRaised e, rfl⟩
    · cases allowed with
      | false => exact ⟨_, .refused reason, rfl⟩
      | true =>
        cases hCreate : c.createOrder with
        | error e =>
          obtain ⟨message, rfl⟩ := TradeOrder.create_error hCreate
          refine ⟨_, .invalid reason message hCreate, ?_⟩
          change ports.place c = _
          simp [place, submit, hCreate, program]
        | ok order =>
          refine ⟨_, .allowed reason order hCreate, ?_⟩
          change ports.place c = _
          simp [place, submit, hCreate, program]
          rfl
  | submitting order =>
    cases h
    rcases r with e | submitted
    · cases e with
      | valueError message => exact ⟨_, .declined order _ message (.inl rfl), rfl⟩
      | runtimeError message => exact ⟨_, .declined order _ message (.inr rfl), rfl⟩
      | other name => exact ⟨_, .gatewayRaised order name, rfl⟩
    · exact ⟨_, .accepted order submitted, rfl⟩
  | saving order =>
    cases h
    rcases r with e | _
    · exact ⟨_, .saveRaised order e, rfl⟩
    · exact record_stored c order
  | reading order executedPrice =>
    cases h
    rcases r with e | stored
    · exact ⟨_, .readRaised order executedPrice e, rfl⟩
    · cases hFill : (stored.getD (Position.empty order.symbol)).applyFill order.side.value
        order.quantity executedPrice with
      | error e =>
        refine ⟨_, .fillRaised order executedPrice stored e hFill, ?_⟩
        change apply order executedPrice stored = _
        rw [apply, hFill]
        rfl
      | ok updated =>
        refine ⟨_, .applied order executedPrice stored updated hFill, ?_⟩
        change apply order executedPrice stored = _
        rw [apply, hFill]
        rfl
  | writing order updated =>
    cases h
    rcases r with e | _
    · exact ⟨_, .writeRaised order updated e, rfl⟩
    · exact ⟨_, .written order updated, rfl⟩
  | publishing order =>
    cases h
    rcases r with e | _
    · exact ⟨_, .publishRaised order e, rfl⟩
    · exact ⟨_, .announced order, rfl⟩
  | returned result => cases h
  | raised e => cases h

/-- A run of a call that is not over makes a move first. -/
theorem runs_cases {σ : Type} {E : Environment σ Exn Ret} {s s' : σ} {c : Call} {ph : Phase}
    {op : Op} {out : Except Exn (Result TradeOrder String)} (hAwaits : ph.awaits c = some op)
    (h : Runs E s (ph.program c) out s') :
    ∃ r t ph', E s op r t ∧ Moves c ph op r ph' ∧ Runs E t (ph'.program c) out s' := by
  rw [← program_pending] at hAwaits
  cases hProgram : ph.program c with
  | ret result => rw [hProgram] at hAwaits; cases hAwaits
  | raise e => rw [hProgram] at hAwaits; cases hAwaits
  | await op' resume =>
    rw [hProgram] at hAwaits h
    obtain rfl := Option.some.inj hAwaits
    obtain ⟨r, t, hAnswer, hRest⟩ := Runs.await_iff.mp h
    obtain ⟨ph', hMoves, hResume⟩ := program_step c ph hProgram r
    exact ⟨r, t, ph', hAnswer, hMoves, hResume ▸ hRest⟩

end Phase

end TradingAgent.Trading
