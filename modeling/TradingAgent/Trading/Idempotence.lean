import TradingAgent.Trading.Sequential

/-!
# Placing an order again

Placements run one after another; the answers of the gate and of the gateway may change
from one to the next. The table of orders only grows, and every new row carries a fresh id
and a client order id that was free (`Placement.place_cases`), so that a lookup which has
found an order goes on finding it. `placement_idempotent` concludes that a placement of a
command that was answered with an order returns that order and changes nothing, and that
all such retries may be left out of a run.
-/

namespace TradingAgent.Trading

open Coroutine Coro Sequence

section Placements

variable [PyText]

namespace Placement

/-- The gateway hands back an order with the ids of the order it was given. -/
def Keeps (p : Placement) : Prop :=
  ∀ order submitted, p.replies.gateway order = .ok submitted →
    submitted.id = order.id ∧ submitted.clientOrderId = order.clientOrderId

/-- Run a placement: what `execute` returns or raises, and the world it leaves. -/
def place (w : World) (p : Placement) : Except Exn (Result TradeOrder String) × World :=
  drive (World.respond p.replies) w (PlaceOrderService.ports.execute p.call)

variable {w : World} {p : Placement}

/-- What a placement does to the table of orders. -/
theorem place_cases (hKeeps : p.Keeps)
    (hFresh : ¬w.Stores p.call.command.clientOrderId → ∀ row ∈ w.orders, row.id ≠ p.call.id) :
    (∃ order, w.getByClientOrderId p.call.command.clientOrderId = some order ∧
        place w p = (.ok (.ok order), w)) ∨
      w.getByClientOrderId p.call.command.clientOrderId = none ∧
        (((∀ order, (place w p).1 ≠ .ok (.ok order)) ∧ (place w p).2.orders = w.orders) ∨
          ∃ submitted, submitted.id = p.call.id ∧
            submitted.clientOrderId = p.call.command.clientOrderId ∧
            (place w p).2.orders = w.orders ++ [submitted] ∧
            ∀ order, (place w p).1 = .ok (.ok order) → order = submitted) := by
  have hGateOf : gateOf PlaceOrderService.ports.authorize p.replies w p.call =
      (.ok (p.replies.gate p.call.command.symbol (p.call.command.quantity * p.call.command.price)
        p.call.command.equity), w) := drive_call _ _ _
  have hEnded := placed_ends PlaceOrderService.ports.authorize p.replies w p.call
  have hPlace : placed PlaceOrderService.ports.authorize p.replies w p.call = place w p := rfl
  rw [hGateOf, hPlace] at hEnded
  generalize place w p = ended at hEnded
  obtain ⟨out, w'⟩ := ended
  dsimp only at hEnded ⊢
  cases hEnded with
  | stored hStored => exact .inl ⟨_, hStored, rfl⟩
  | unanswered hFree hGate => cases hGate
  | rejected hFree hGate =>
    obtain rfl : w = w' := congrArg Prod.snd hGate
    exact .inr ⟨World.getByClientOrderId_eq_none.mpr hFree, .inl ⟨fun _ h => (nomatch h), rfl⟩⟩
  | invalid hFree hGate hCreate =>
    obtain rfl : w = w' := congrArg Prod.snd hGate
    exact .inr ⟨World.getByClientOrderId_eq_none.mpr hFree, .inl ⟨fun _ h => (nomatch h), rfl⟩⟩
  | @failed reason w₁ order e out hFree hGate hCreate hGateway hOut =>
    obtain rfl : w = w₁ := congrArg Prod.snd hGate
    exact .inr ⟨World.getByClientOrderId_eq_none.mpr hFree, .inl ⟨hOut, rfl⟩⟩
  | @recorded reason w₁ order submitted hFree hGate hCreate hGateway =>
    obtain rfl : w = w₁ := congrArg Prod.snd hGate
    obtain ⟨hId, hClient⟩ := hKeeps order submitted hGateway
    have hOfCall := (OfCall.of_create hCreate).1
    rw [hOfCall.id_eq] at hId
    rw [hOfCall.clientOrderId_eq] at hClient
    have hSave : (w.submit order).saveOrder submitted =
        .ok { w.submit order with orders := w.orders ++ [submitted] } := by
      apply World.saveOrder_new
      · rw [hId]
        exact hFresh hFree
      · rw [hClient]
        exact hFree
    obtain ⟨hOrders, hOut⟩ := @drive_record_orders _
      PlaceOrderService.ports.authorize PlaceOrderService.ports.submitMarketOrder p.replies _ _ _
      hSave
    refine .inr ⟨World.getByClientOrderId_eq_none.mpr hFree, .inr ⟨submitted, hId, hClient, hOrders,
      fun row hRow => ?_⟩⟩
    rcases hOut with hOk | ⟨e, hError⟩
    · have hSame : (Except.ok (Result.ok submitted) : Except Exn (Result TradeOrder String)) =
          .ok (.ok row) := hOk.symm.trans hRow
      exact (Result.ok.inj (Except.ok.inj hSame)).symm
    · have hNever : (Except.error e : Except Exn (Result TradeOrder String)) = .ok (.ok row) :=
        hError.symm.trans hRow
      cases hNever

omit [PyText] in
/-- A lookup that finds an order goes on finding it when a row is added. -/
theorem lookup_append {order row : TradeOrder} {clientOrderId : String} {w' : World}
    (hOrders : w'.orders = w.orders ++ [row])
    (hFound : w.getByClientOrderId clientOrderId = some order) :
    w'.getByClientOrderId clientOrderId = some order := by
  unfold World.getByClientOrderId at hFound ⊢
  rw [hOrders, List.find?_append, hFound]
  rfl

omit [PyText] in
theorem lookup_added {order : TradeOrder} {clientOrderId : String} {w' : World}
    (hOrders : w'.orders = w.orders ++ [order]) (hClient : order.clientOrderId = clientOrderId)
    (hNone : w.getByClientOrderId clientOrderId = none) :
    w'.getByClientOrderId clientOrderId = some order := by
  unfold World.getByClientOrderId at hNone ⊢
  rw [hOrders, List.find?_append, hNone]
  simp [hClient]

/-- A placement that returns an order leaves it to be found under its client order id. -/
theorem lookup_of_placed {order : TradeOrder} (hKeeps : p.Keeps)
    (hFresh : ¬w.Stores p.call.command.clientOrderId → ∀ row ∈ w.orders, row.id ≠ p.call.id)
    (hPlaced : (place w p).1 = .ok (.ok order)) :
    (place w p).2.getByClientOrderId p.call.command.clientOrderId = some order := by
  rcases place_cases hKeeps hFresh with ⟨found, hFound, hPlace⟩ | ⟨hNone, hNew⟩
  · rw [hPlace] at hPlaced ⊢
    obtain rfl := Result.ok.inj (Except.ok.inj hPlaced)
    exact hFound
  · rcases hNew with ⟨hNever, -⟩ | ⟨submitted, -, hClient, hOrders, hOut⟩
    · exact absurd hPlaced (hNever order)
    · obtain rfl := hOut order hPlaced
      exact lookup_added hOrders hClient hNone

/-- A lookup that has found an order finds it after any placement. -/
theorem lookup_kept {order : TradeOrder} {clientOrderId : String} (hKeeps : p.Keeps)
    (hFresh : ¬w.Stores p.call.command.clientOrderId → ∀ row ∈ w.orders, row.id ≠ p.call.id)
    (hFound : w.getByClientOrderId clientOrderId = some order) :
    (place w p).2.getByClientOrderId clientOrderId = some order := by
  rcases place_cases hKeeps hFresh with ⟨found, -, hPlace⟩ | ⟨-, hNew⟩
  · rw [hPlace]
    exact hFound
  · rcases hNew with ⟨-, hOrders⟩ | ⟨submitted, -, -, hOrders, -⟩
    · unfold World.getByClientOrderId
      rw [hOrders]
      exact hFound
    · exact lookup_append hOrders hFound

/-- A placement whose lookup finds an order returns it and changes nothing. -/
theorem place_found {order : TradeOrder}
    (hFound : w.getByClientOrderId p.call.command.clientOrderId = some order) :
    place w p = (.ok (.ok order), w) := by
  unfold place PlaceOrderService.execute
  simp [PlaceOrderService.ports, World.respond, hFound]

end Placement

/-! ## Runs with retries -/

open Placement

/-- A placement in a run; the mark says that it is a retry. -/
abbrev Marked := Placement × Bool

def Marked.step (w : World) (s : Marked) : Except Exn (Result TradeOrder String) × World :=
  place w s.1

/-- An earlier placement of the command returned the order. -/
def Returned (w : World) (before : List Marked) (command : PlaceOrderCommand)
    (order : TradeOrder) : Prop :=
  ∃ earlier s later, before = earlier ++ s :: later ∧ s.1.call.command = command ∧
    (Marked.step (final Marked.step w earlier) s).1 = .ok (.ok order)

/-- A run from the world `w` whose retries repeat commands that have returned an order. Each
placement that is not a retry draws an id that nothing else has. -/
structure Retries (w : World) (steps : List Marked) : Prop where
  keeps : ∀ s ∈ steps, s.1.Keeps
  fresh : ∀ s ∈ steps, s.2 = false → ∀ row ∈ w.orders, row.id ≠ s.1.call.id
  distinct : ((steps.filter fun s => !s.2).map fun s => s.1.call.id).Nodup
  returned : ∀ before s after, steps = before ++ s :: after → s.2 = true →
    ∃ order, Returned w before s.1.call.command order

theorem returned_concat {w : World} {before : List Marked} {s : Marked}
    {command : PlaceOrderCommand} {order : TradeOrder} :
    Returned w (before ++ [s]) command order ↔
      Returned w before command order ∨
        s.1.call.command = command ∧
          (Marked.step (final Marked.step w before) s).1 = .ok (.ok order) := by
  constructor
  · rintro ⟨earlier, t, later, hSplit, hCommand, hOut⟩
    rcases List.eq_nil_or_concat later with rfl | ⟨rest, u, rfl⟩
    · obtain ⟨rfl, hLast⟩ := List.append_inj' hSplit rfl
      obtain rfl := List.singleton_injective hLast
      exact .inr ⟨hCommand, hOut⟩
    · have hSplit' : before ++ [s] = (earlier ++ t :: rest) ++ [u] := by simpa using hSplit
      exact .inl ⟨earlier, t, rest, (List.append_inj' hSplit' rfl).1, hCommand, hOut⟩
  · rintro (⟨earlier, t, later, rfl, hCommand, hOut⟩ | ⟨hCommand, hOut⟩)
    · exact ⟨earlier, t, later ++ [s], by simp, hCommand, hOut⟩
    · exact ⟨before, s, [], rfl, hCommand, hOut⟩

/-- The invariant of such a run: the new rows carry the ids drawn so far, and what a command
has returned is what its lookup finds. -/
structure Remembers (w : World) (before : List Marked) (w' : World) : Prop where
  ids : ∀ row ∈ w'.orders, row ∈ w.orders ∨
    ∃ s ∈ before, s.2 = false ∧ row.id = s.1.call.id
  lookups : ∀ command order, Returned w before command order →
    w'.getByClientOrderId command.clientOrderId = some order

namespace Retries

variable {w : World} {steps before after : List Marked} {s : Marked}

/-- In a world that remembers, the id of the next placement is fresh, unless its command has
returned an order already. -/
theorem next_fresh (h : Retries w steps) (hSplit : steps = before ++ s :: after)
    (hRemembers : Remembers w before (final Marked.step w before)) :
    ¬(final Marked.step w before).Stores s.1.call.command.clientOrderId →
      ∀ row ∈ (final Marked.step w before).orders, row.id ≠ s.1.call.id := by
  intro hFree row hRow
  cases hMark : s.2 with
  | true =>
    obtain ⟨order, hReturned⟩ := h.returned before s after hSplit hMark
    have hFound := hRemembers.lookups _ _ hReturned
    rw [World.getByClientOrderId_eq_none.mpr hFree] at hFound
    cases hFound
  | false =>
    have hMem : s ∈ steps := by simp [hSplit]
    rcases hRemembers.ids row hRow with hOld | ⟨t, ht, hNew, hId⟩
    · exact h.fresh s hMem hMark row hOld
    · rw [hId]
      intro hSame
      have hDistinct := h.distinct
      rw [hSplit, List.filter_append, List.map_append, List.nodup_append] at hDistinct
      refine hDistinct.2.2 _ ?_ _ ?_ hSame
      · exact List.mem_map.mpr ⟨t, List.mem_filter.mpr ⟨ht, by simp [hNew]⟩, rfl⟩
      · exact List.mem_map.mpr ⟨s, List.mem_filter.mpr ⟨by simp, by simp [hMark]⟩, rfl⟩

/-- One placement keeps the invariant. -/
theorem remembers_step (h : Retries w steps) (hSplit : steps = before ++ s :: after)
    (hRemembers : Remembers w before (final Marked.step w before)) :
    Remembers w (before ++ [s]) (Marked.step (final Marked.step w before) s).2 := by
  have hKeeps := h.keeps s (by simp [hSplit])
  have hFresh := h.next_fresh hSplit hRemembers
  refine ⟨fun row hRow => ?_, fun command order hReturned => ?_⟩
  · have hEarlier : row ∈ (final Marked.step w before).orders → row ∈ w.orders ∨
        ∃ t ∈ before ++ [s], t.2 = false ∧ row.id = t.1.call.id := by
      intro hBefore
      rcases hRemembers.ids row hBefore with hOld | ⟨t, ht, hNew, hId⟩
      · exact .inl hOld
      · exact .inr ⟨t, List.mem_append_left _ ht, hNew, hId⟩
    change row ∈ (place (final Marked.step w before) s.1).2.orders at hRow
    rcases place_cases hKeeps hFresh with ⟨found, -, hPlace⟩ | ⟨hNone, hNew⟩
    · rw [hPlace] at hRow
      exact hEarlier hRow
    · rcases hNew with ⟨-, hOrders⟩ | ⟨submitted, hId, -, hOrders, -⟩
      · rw [hOrders] at hRow
        exact hEarlier hRow
      · rw [hOrders] at hRow
        rcases List.mem_append.mp hRow with hRow | hRow
        · exact hEarlier hRow
        · obtain rfl := List.mem_singleton.mp hRow
          refine .inr ⟨s, by simp, ?_, hId⟩
          -- A retry finds its order, so a placement that adds a row is not one.
          cases hMark : s.2 with
          | false => rfl
          | true =>
            obtain ⟨order, hReturned⟩ := h.returned before s after hSplit hMark
            rw [hRemembers.lookups _ _ hReturned] at hNone
            cases hNone
  · rcases returned_concat.mp hReturned with hEarlier | ⟨rfl, hOut⟩
    · exact lookup_kept hKeeps hFresh (hRemembers.lookups command order hEarlier)
    · exact lookup_of_placed hKeeps hFresh hOut

theorem remembers (h : Retries w steps) : ∀ before after, steps = before ++ after →
    Remembers w before (final Marked.step w before) := by
  intro before after hSplit
  refine final_induction ⟨fun row hRow => .inl hRow, fun command order hReturned => ?_⟩
    fun earlier s later hBefore hRemembers => ?_
  · obtain ⟨earlier, s, later, hNil, -⟩ := hReturned
    simp at hNil
  · have hSteps : steps = earlier ++ s :: (later ++ after) := by simp [hSplit, hBefore]
    exact h.remembers_step hSteps hRemembers

/-- A placement of a command that has returned an order returns that order again and leaves
the world as it is. -/
theorem step_returned (h : Retries w steps) (hSplit : steps = before ++ s :: after)
    {order : TradeOrder} (hReturned : Returned w before s.1.call.command order) :
    Marked.step (final Marked.step w before) s =
      (.ok (.ok order), final Marked.step w before) :=
  place_found ((h.remembers before (s :: after) hSplit).lookups _ _ hReturned)

end Retries

/-- **Order placement is idempotent.** In a run with retries, a placement of a command that
has returned an order returns that same order and changes nothing; and without its retries
the run ends in the same world and its other placements have the same results. -/
theorem placement_idempotent {w : World} {steps : List Marked} (h : Retries w steps) :
    (∀ before s after order, steps = before ++ s :: after →
        Returned w before s.1.call.command order →
          Marked.step (final Marked.step w before) s =
            (.ok (.ok order), final Marked.step w before)) ∧
      final Marked.step w (steps.filter fun s => !s.2) = final Marked.step w steps ∧
      outputs Marked.step w (steps.filter fun s => !s.2) =
        ((steps.zip (outputs Marked.step w steps)).filter fun x => !x.1.2).map Prod.snd := by
  have hSilent : ∀ before s after, steps = before ++ s :: after → s.2 = true →
      (Marked.step (final Marked.step w before) s).2 = final Marked.step w before := by
    intro before s after hSplit hMark
    obtain ⟨order, hReturned⟩ := h.returned before s after hSplit hMark
    rw [h.step_returned hSplit hReturned]
  refine ⟨fun before s after order hSplit hReturned => h.step_returned hSplit hReturned, ?_, ?_⟩
  · exact final_erase hSilent
  · exact outputs_erase hSilent

end Placements

/-! ## A buy placed again -/

namespace Again

local instance : PyText := asciiText

def buy : Call where
  command :=
    { symbol := "BTC/USDT", side := .buy, quantity := 1, price := 100
      clientOrderId := "demo-1", equity := 10000 }
  id := ⟨"first"⟩
  now := 0

def bought : TradeOrder where
  id := ⟨"first"⟩
  symbol := "BTC/USDT"
  side := .buy
  quantity := 1
  orderType := .market
  status := .filled
  requestedPrice := 100
  executedPrice := some 100
  clientOrderId := "demo-1"
  createdAt := 0

/-- The buy is approved and filled. -/
def first : Marked := (⟨deskReplies, buy⟩, false)

/-- The same command, when the gate refuses every order. -/
def again : Marked :=
  (⟨{ deskReplies with gate := fun _ _ _ => (false, "kill_switch: active") },
    { buy with id := ⟨"second"⟩, now := 1 }⟩, true)

theorem keeps : ∀ s ∈ [first, again], s.1.Keeps := by
  intro s hs order submitted hSubmitted
  have hGateway : PaperOrderGateway.submitMarketOrder order = .ok submitted := by
    rcases List.mem_pair.mp hs with rfl | rfl
    · exact hSubmitted
    · exact hSubmitted
  have hExecuted : order.Executed (.ok submitted) := hGateway ▸ PaperOrderGateway.executed order
  rcases hExecuted.ok_cases with rfl | ⟨price, -, rfl⟩
  · exact ⟨rfl, rfl⟩
  · exact ⟨rfl, rfl⟩

theorem returned : Returned {} [first] again.1.call.command bought :=
  ⟨[], first, [], rfl, rfl, by decide +kernel⟩

theorem retries : Retries {} [first, again] where
  keeps := keeps
  fresh _ _ _ _ hRow := absurd hRow List.not_mem_nil
  distinct := by decide
  returned before s after hSplit hMark := by
    rcases before with _ | ⟨t, _ | ⟨u, rest⟩⟩
    · obtain ⟨rfl, -⟩ := List.cons.inj hSplit
      cases hMark
    · obtain ⟨rfl, hTail⟩ := List.cons.inj hSplit
      obtain ⟨rfl, -⟩ := List.cons.inj hTail
      exact ⟨bought, returned⟩
    · simp at hSplit

/-- The second placement returns the first order, although the gate would refuse it. -/
theorem bought_again :
    Marked.step (final Marked.step {} [first]) again =
      (.ok (.ok bought), final Marked.step {} [first]) :=
  (placement_idempotent retries).1 [first] again [] bought rfl returned

end Again

end TradingAgent.Trading
