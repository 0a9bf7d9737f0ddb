import TradingAgent.Trading.Interleaving

/-!
# Client order ids that are used again

`execute` answers a command whose client order id is stored with the stored order, whatever
the command asks for. `runs_execute_cases` is what one call does: it returns the stored order, or it
creates, stores and returns an order with the content of its command. `truthful_iff` reads
from it when a run of calls answers every command with an order of that command.
-/

namespace TradingAgent.Trading

open Coroutine Coro

section Calls

variable [PyText]

/-- The order asks for what the command asks for. -/
structure Carries (command : PlaceOrderCommand) (order : TradeOrder) : Prop where
  symbol : order.symbol = PyText.upper command.symbol
  side : order.side = command.side
  quantity : order.quantity = command.quantity
  requestedPrice : order.requestedPrice = command.price

theorem Carries.of_create {c : Call} {order : TradeOrder} (h : c.createOrder = .ok order) :
    Carries c.command order := by
  obtain ⟨-, -, -, -, rfl⟩ := TradeOrder.create_ok h
  exact ⟨rfl, rfl, rfl, rfl⟩

theorem Carries.executed {command : PlaceOrderCommand} {order submitted : TradeOrder}
    (h : Carries command order) (hExecuted : order.Executed (.ok submitted)) :
    Carries command submitted := by
  rcases hExecuted.ok_cases with rfl | ⟨price, -, rfl⟩
  · exact h
  · exact ⟨h.symbol, h.side, h.quantity, h.requestedPrice⟩

omit [PyText] in
/-- A row after a save was there before, or it is the saved order. -/
theorem mem_saveOrder {w w' : World} {order row : TradeOrder} (h : w.saveOrder order = .ok w')
    (hRow : row ∈ w'.orders) : row ∈ w.orders ∨ row = order := by
  unfold World.saveOrder at h
  split at h
  · cases h
  · split at h
    · obtain rfl := Except.ok.inj h
      obtain ⟨old, hOld, hSame⟩ := List.mem_map.mp hRow
      split at hSame
      · exact .inr hSame.symm
      · exact .inl (hSame ▸ hOld)
    · obtain rfl := Except.ok.inj h
      rcases List.mem_append.mp hRow with hOld | hNew
      · exact .inl hOld
      · exact .inr (List.mem_singleton.mp hNew)

/-! ## One call -/

/-- The order is made by the call: it carries the command and its client order id. -/
def MadeBy (c : Call) (order : TradeOrder) : Prop :=
  Carries c.command order ∧ order.clientOrderId = c.command.clientOrderId

theorem MadeBy.of_create {c : Call} {order : TradeOrder} (h : c.createOrder = .ok order) :
    MadeBy c order :=
  ⟨.of_create h, (OfCall.of_create h).1.clientOrderId_eq⟩

theorem MadeBy.executed {c : Call} {order submitted : TradeOrder} (h : MadeBy c order)
    (hExecuted : order.Executed (.ok submitted)) : MadeBy c submitted := by
  refine ⟨h.1.executed hExecuted, ?_⟩
  rcases hExecuted.ok_cases with rfl | ⟨price, -, rfl⟩
  · exact h.2
  · exact h.2

/-- A call that started in the world `w` and found no order under its id. -/
structure Making (c : Call) (w : World) (ph : Phase) (s : World) : Prop where
  looked : ph ≠ .looking
  order : ∀ order, ph.order = some order ∨ ph = .returned (.ok order) → MadeBy c order
  rows : ∀ row ∈ s.orders, row ∈ w.orders ∨ MadeBy c row

namespace Making

variable {ext : Externals} {c : Call} {w s t : World} {ph ph' : Phase} {op : Op}
  {r : Except Exn (Ret op)}

/-- A call goes on with the order that it made. -/
theorem order_step (h : Making c w ph s) (hMoves : Phase.Moves c ph op r ph')
    (hExecuted : ∀ order submitted, ph = .submitting order → ph' = .saving submitted →
      order.Executed (.ok submitted)) (order : TradeOrder)
    (hOrder : ph'.order = some order ∨ ph' = .returned (.ok order)) : MadeBy c order := by
  cases hMoves with
  | found order => exact absurd rfl h.looked
  | allowed reason created hCreate =>
    rcases hOrder with hOrder | hEnd
    · obtain rfl := Option.some.inj hOrder
      exact .of_create hCreate
    · cases hEnd
  | accepted created submitted =>
    rcases hOrder with hOrder | hEnd
    · obtain rfl := Option.some.inj hOrder
      exact (h.order created (.inl rfl)).executed (hExecuted created _ rfl rfl)
    · cases hEnd
  | savedFilled saved executedPrice hStatus hPrice =>
    exact h.order order (.inl (hOrder.resolve_right nofun))
  | savedOpen saved hOpen => exact h.order order (.inl (hOrder.resolve_right nofun))
  | applied saved executedPrice stored updated hFill =>
    exact h.order order (.inl (hOrder.resolve_right nofun))
  | written saved updated => exact h.order order (.inl (hOrder.resolve_right nofun))
  | announced saved =>
    rcases hOrder with hOrder | hEnd
    · cases hOrder
    · cases hEnd
      exact h.order order (.inl rfl)
  | _ =>
    rcases hOrder with hOrder | hEnd
    · cases hOrder
    · cases hEnd

/-- Only a save adds a row, and it adds the order at hand. -/
theorem rows_step (h : Making c w ph s) (hMoves : Phase.Moves c ph op r ph')
    (hAnswer : World.answer ext s op r t) (row : TradeOrder) (hRow : row ∈ t.orders) :
    row ∈ w.orders ∨ MadeBy c row := by
  by_cases hSaves : ∃ order, op = .saveOrder order
  · obtain ⟨order, rfl⟩ := hSaves
    have hSaving := hMoves.saving_of_saveOrder
    rcases World.answer_saveOrder hAnswer with ⟨-, hSave⟩ | ⟨e, -, rfl⟩
    · rcases mem_saveOrder hSave hRow with hOld | rfl
      · exact h.rows row hOld
      · exact .inr (h.order row (.inl (by rw [hSaving]; rfl)))
    · exact h.rows row hRow
  · have hOrders := World.answer_orders hAnswer fun order hOp => hSaves ⟨order, hOp⟩
    exact h.rows row (hOrders ▸ hRow)

theorem step (h : Making c w ph s) (hMoves : Phase.Moves c ph op r ph')
    (hAnswer : World.answer ext s op r t) : Making c w ph' t where
  looked := by
    rintro rfl
    cases hMoves
  order := by
    refine h.order_step hMoves fun order submitted hSubmitting hSaving => ?_
    subst hSubmitting hSaving
    cases hMoves
    exact (World.answer_submitMarketOrder hAnswer).1
  rows := h.rows_step hMoves hAnswer

/-- What holds of the phases of a call holds at its end. -/
theorem runs {out : Except Exn (Result TradeOrder String)} (h : Making c w ph s)
    (hRuns : Runs (World.answer ext) s (ph.program c) out t) :
    (∀ order, out = .ok (.ok order) → MadeBy c order) ∧
      ∀ row ∈ t.orders, row ∈ w.orders ∨ MadeBy c row := by
  generalize hProgram : ph.program c = m at hRuns
  induction hRuns generalizing ph with
  | ret s result =>
    refine ⟨fun order hOut => h.order order (.inr ?_), h.rows⟩
    obtain rfl := Except.ok.inj hOut
    have hAwaits := ph.program_pending c
    rw [hProgram] at hAwaits
    cases ph with
    | returned result => cases hProgram; rfl
    | raised e => cases hProgram
    | _ => cases hAwaits
  | raise s e => exact ⟨fun order hOut => (nomatch hOut), h.rows⟩
  | await hAnswer hRest ih =>
    obtain ⟨ph', hMoves, hResume⟩ := ph.program_step c hProgram _
    exact ih (h.step hMoves hAnswer) hResume.symm

end Making

/-- A call that finds an order returns it or raises, and changes nothing; a call that finds
none returns an order that it made, or no order. -/
theorem runs_execute_cases {ext : Externals} {c : Call} {w t : World}
    {out : Except Exn (Result TradeOrder String)}
    (h : Runs (World.answer ext) w (PlaceOrderService.ports.execute c) out t) :
    (((∃ order, w.getByClientOrderId c.command.clientOrderId = some order ∧
          out = .ok (.ok order)) ∨ ∃ e, out = .error e) ∧ t = w) ∨
      w.getByClientOrderId c.command.clientOrderId = none ∧
        (∀ order, out = .ok (.ok order) → MadeBy c order) ∧
        ∀ row ∈ t.orders, row ∈ w.orders ∨ MadeBy c row := by
  have hLooking : Runs (World.answer ext) w (Phase.looking.program c) out t := h
  obtain ⟨r, s, ph', hAnswer, hMoves, hRest⟩ := Phase.runs_cases rfl hLooking
  cases hMoves with
  | found order =>
    obtain ⟨rfl, rfl⟩ := Runs.ret_iff.mp hRest
    rcases hAnswer with ⟨hFound, rfl⟩ | ⟨-, e, -, hError, -⟩
    · exact .inl ⟨.inl ⟨order, (Except.ok.inj hFound).symm, rfl⟩, rfl⟩
    · cases hError
  | lookupRaised e =>
    obtain ⟨rfl, rfl⟩ := Runs.raise_iff.mp hRest
    rcases hAnswer with ⟨hFound, -⟩ | ⟨-, e', -, -, rfl⟩
    · cases hFound
    · exact .inl ⟨.inr ⟨e, rfl⟩, rfl⟩
  | missing =>
    rcases hAnswer with ⟨hFound, rfl⟩ | ⟨-, e, -, hError, -⟩
    · have hMaking : Making c s .authorizing s :=
        ⟨nofun, fun order hOrder => by simp [Phase.order] at hOrder, fun row hRow => .inl hRow⟩
      exact .inr ⟨(Except.ok.inj hFound).symm, hMaking.runs hRest⟩
    · cases hError

/-! ## Runs of calls -/

/-- A call of `execute` in a run, with the world that it starts in and its outcome. -/
structure Execution where
  before : World
  call : Call
  out : Except Exn (Result TradeOrder String)

/-- Calls that run one after another. Any port may raise in any of them. -/
inductive Executions (ext : Externals) (w : World) : List Execution → World → Prop
  | nil : Executions ext w [] w
  | concat {steps : List Execution} {s t : World} {call : Call}
      {out : Except Exn (Result TradeOrder String)} (hEarlier : Executions ext w steps s)
      (hRuns : Runs (World.answer ext) s (PlaceOrderService.ports.execute call) out t) :
      Executions ext w (steps ++ [⟨s, call, out⟩]) t

namespace Execution

variable (step : Execution)

/-- The order stored under the client order id, when the call starts. -/
def stored : Option TradeOrder :=
  step.before.getByClientOrderId step.call.command.clientOrderId

/-- An order that is returned carries the command, and a command that contradicts the stored
order is answered with `Err`. -/
def Truthful : Prop :=
  (∀ order, step.out = .ok (.ok order) → Carries step.call.command order) ∧
    ∀ order, step.stored = some order → ¬Carries step.call.command order →
      ∃ message, step.out = .ok (.err message)

/-- The command does not contradict the order stored under its client order id. -/
def Agrees : Prop := ∀ order, step.stored = some order → Carries step.call.command order

end Execution

namespace Executions

variable {ext : Externals} {w t : World} {steps : List Execution}

/-- Every step of a run is a run of `execute`. -/
theorem step_runs (h : Executions ext w steps t) {step : Execution} (hStep : step ∈ steps) :
    ∃ after, Runs (World.answer ext) step.before (PlaceOrderService.ports.execute step.call)
      step.out after := by
  induction h with
  | nil => cases hStep
  | concat hEarlier hRuns ih =>
    rcases List.mem_append.mp hStep with hStep | hStep
    · exact ih hStep
    · obtain rfl := List.mem_singleton.mp hStep
      exact ⟨_, hRuns⟩

/-- A row was there at the start, or a call of the run made it. -/
theorem rows (h : Executions ext w steps t) :
    ∀ row ∈ t.orders, row ∈ w.orders ∨ ∃ step ∈ steps, MadeBy step.call row := by
  induction h with
  | nil => exact fun row hRow => .inl hRow
  | @concat steps s t call out hEarlier hRuns ih =>
    intro row hRow
    have hBefore : row ∈ s.orders → row ∈ w.orders ∨
        ∃ step ∈ steps ++ [⟨s, call, out⟩], MadeBy step.call row := by
      intro hOld
      rcases ih row hOld with hFirst | ⟨step, hStep, hMade⟩
      · exact .inl hFirst
      · exact .inr ⟨step, List.mem_append_left _ hStep, hMade⟩
    rcases runs_execute_cases hRuns with ⟨-, rfl⟩ | ⟨-, -, hRows⟩
    · exact hBefore hRow
    · rcases hRows row hRow with hOld | hMade
      · exact hBefore hOld
      · exact .inr ⟨_, List.mem_append_right _ (List.mem_singleton_self _), hMade⟩

end Executions

/-- One call is truthful exactly when its command agrees with what is stored. -/
theorem truthful_step_iff {ext : Externals} {step : Execution} {after : World}
    (h : Runs (World.answer ext) step.before (PlaceOrderService.ports.execute step.call)
      step.out after) : step.Truthful ↔ step.Agrees := by
  constructor
  · intro hTruthful order hStored
    by_contra hContradicts
    obtain ⟨message, hErr⟩ := hTruthful.2 order hStored hContradicts
    rcases runs_execute_cases h with ⟨⟨found, -, hOut⟩ | ⟨e, hOut⟩, -⟩ | ⟨hNone, -⟩
    · rw [hErr] at hOut
      cases hOut
    · rw [hErr] at hOut
      cases hOut
    · rw [Execution.stored, hNone] at hStored
      cases hStored
  · intro hAgrees
    refine ⟨fun order hOut => ?_, fun order hStored hNot => absurd (hAgrees order hStored) hNot⟩
    rcases runs_execute_cases h with ⟨⟨found, hFound, hReturned⟩ | ⟨e, hRaised⟩, -⟩ |
      ⟨-, hMade, -⟩
    · obtain rfl := Result.ok.inj (Except.ok.inj (hOut.symm.trans hReturned))
      exact hAgrees order hFound
    · rw [hRaised] at hOut
      cases hOut
    · exact (hMade order hOut).1

/-- The commands ask for the same. -/
structure SameContent (command other : PlaceOrderCommand) : Prop where
  symbol : PyText.upper command.symbol = PyText.upper other.symbol
  side : command.side = other.side
  quantity : command.quantity = other.quantity
  price : command.price = other.price

namespace Executions

variable {ext : Externals} {w t : World} {steps : List Execution}

/-- A step of a run starts where some earlier steps of the run have ended. -/
theorem before_step (h : Executions ext w steps t) {step : Execution} (hStep : step ∈ steps) :
    ∃ earlier, Executions ext w earlier step.before ∧ ∀ other ∈ earlier, other ∈ steps := by
  induction h with
  | nil => cases hStep
  | @concat steps s t call out hEarlier hRuns ih =>
    rcases List.mem_append.mp hStep with hStep | hStep
    · obtain ⟨earlier, hRun, hSubset⟩ := ih hStep
      exact ⟨earlier, hRun, fun other hOther => List.mem_append_left _ (hSubset other hOther)⟩
    · obtain rfl := List.mem_singleton.mp hStep
      exact ⟨steps, hEarlier, fun other hOther => List.mem_append_left _ hOther⟩

/-- From an empty table, commands agree with what is stored when those that share a client
order id ask for the same. -/
theorem agrees_of_same (h : Executions ext w steps t) (hEmpty : w.orders = [])
    (hSame : ∀ step ∈ steps, ∀ other ∈ steps,
      step.call.command.clientOrderId = other.call.command.clientOrderId →
        SameContent step.call.command other.call.command) :
    ∀ step ∈ steps, step.Agrees := by
  intro step hStep order hStored
  obtain ⟨hRow, hClient⟩ := World.stored_of_getByClientOrderId hStored
  obtain ⟨earlier, hRun, hSubset⟩ := h.before_step hStep
  rcases hRun.rows order hRow with hFirst | ⟨other, hOther, hCarries, hId⟩
  · rw [hEmpty] at hFirst
    cases hFirst
  · have hContent := hSame other (hSubset other hOther) step hStep (hId.symm.trans hClient)
    exact ⟨hCarries.symbol.trans hContent.symbol, hCarries.side.trans hContent.side,
      hCarries.quantity.trans hContent.quantity, hCarries.requestedPrice.trans hContent.price⟩

/-- **Reused client order ids.** A run answers every command with an order of that command,
and every contradicting command with `Err`, exactly when no command of the run contradicts the
order stored under its client order id. From an empty table this is so when the commands that
share a client order id ask for the same. -/
theorem truthful_iff (h : Executions ext w steps t) :
    ((∀ step ∈ steps, step.Truthful) ↔ ∀ step ∈ steps, step.Agrees) ∧
      (w.orders = [] →
        (∀ step ∈ steps, ∀ other ∈ steps,
          step.call.command.clientOrderId = other.call.command.clientOrderId →
            SameContent step.call.command other.call.command) →
        ∀ step ∈ steps, step.Truthful) := by
  have hEach : (∀ step ∈ steps, step.Truthful) ↔ ∀ step ∈ steps, step.Agrees := by
    refine forall₂_congr fun step hStep => ?_
    obtain ⟨after, hRuns⟩ := h.step_runs hStep
    exact truthful_step_iff hRuns
  exact ⟨hEach, fun hEmpty hSame => hEach.mpr (h.agrees_of_same hEmpty hSame)⟩

end Executions

end Calls

/-! ## A sell under the id of a buy -/

namespace Reused

local instance : PyText := asciiText

def buy : Call where
  command :=
    { symbol := "BTC/USDT", side := .buy, quantity := 1, price := 100
      clientOrderId := "demo-1", equity := 10000 }
  id := ⟨"first"⟩
  now := 0

def sell : Call where
  command :=
    { symbol := "ETH/USDT", side := .sell, quantity := 5, price := 50
      clientOrderId := "demo-1", equity := 10000 }
  id := ⟨"second"⟩
  now := 1

def bought : TradeOrder where
  id := ⟨"first"⟩
  symbol := "BTC/USDT"
  side := .buy
  quantity := 1
  orderType := .market
  status := .filled
  requestedPrice := 100
  executedPrice := some 100
  clientOrderId := "demo-1"
  createdAt := 0

/-- The call at the desk. -/
def execution (w : World) (c : Call) : Execution where
  before := w
  call := c
  out := (drive (World.respond deskReplies) w (PlaceOrderService.ports.execute c)).1

def after (w : World) (c : Call) : World :=
  (drive (World.respond deskReplies) w (PlaceOrderService.ports.execute c)).2

theorem executions :
    Executions desk {} [execution {} buy, execution (after {} buy) sell]
      (after (after {} buy) sell) :=
  .concat (.concat .nil (runs_drive desk_answers {} _)) (runs_drive desk_answers (after {} buy) _)

theorem sell_answered : (execution (after {} buy) sell).out = .ok (.ok bought) := by
  decide +kernel

/-- The sell is answered with the buy. -/
theorem bought_for_sell : ∃ steps t, Executions desk {} steps t ∧
    ¬∀ step ∈ steps, step.Truthful := by
  refine ⟨_, _, executions, fun h => ?_⟩
  have hCarries := (h (execution (after {} buy) sell) (by simp)).1 bought sell_answered
  exact absurd hCarries.side (by decide)

theorem reused_truthful_iff :
    ((∀ step ∈ [execution {} buy, execution (after {} buy) sell], step.Truthful) ↔
        ∀ step ∈ [execution {} buy, execution (after {} buy) sell], step.Agrees) ∧
      (({} : World).orders = [] →
        (∀ step ∈ [execution {} buy, execution (after {} buy) sell],
          ∀ other ∈ [execution {} buy, execution (after {} buy) sell],
            step.call.command.clientOrderId = other.call.command.clientOrderId →
              SameContent step.call.command other.call.command) →
        ∀ step ∈ [execution {} buy, execution (after {} buy) sell], step.Truthful) :=
  executions.truthful_iff

end Reused

end TradingAgent.Trading
