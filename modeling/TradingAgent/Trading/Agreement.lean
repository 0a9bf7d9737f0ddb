import TradingAgent.Trading.Submission
import Mathlib.Data.List.Nodup

/-!
# Agreement of concurrent calls

Two overlapping calls with one client order id may both submit, but they never both store:
the column is unique, and the later save raises. So the table of orders only grows at its
end, and a call that returns an order returns the row under its client order id
(`orders_agree`), whatever the other calls do and whichever calls of the ports raise. The
invariant `Filed` says this of every order that a call has stored or found.
-/

namespace TradingAgent.Trading

open Coroutine Coro

section Calls

variable [PyText] {ι : Type}

/-- The order that a call has stored or found. -/
def Phase.filed : Phase → Option TradeOrder
  | reading order _ => some order
  | writing order _ => some order
  | publishing order => some order
  | returned (.ok order) => some order
  | _ => none

/-- The rows of the start are the first rows, the client order ids are unique, and what the
calls have stored or found are rows under their client order ids. -/
structure Filed (calls : ι → Call) (w₀ : World) (c : PoolConfig ι) (ph : ι → Phase) : Prop where
  tracks : Tracks calls c ph
  kept : w₀.orders <+: c.state.orders
  unique : (c.state.orders.map TradeOrder.clientOrderId).Nodup
  filed : ∀ i order, (ph i).filed = some order →
    order ∈ c.state.orders ∧ order.clientOrderId = (calls i).command.clientOrderId

/-- A save that goes through adds the order as the last row. -/
theorem Tracks.saved {ext : Externals} {calls : ι → Call} {w' : World} {c : PoolConfig ι}
    {ph : ι → Phase} {i : ι} {order : TradeOrder} (h : Tracks calls c ph)
    (hPh : ph i = .saving order)
    (hAnswer : World.answer ext c.state (.saveOrder order) (.ok ()) w') :
    w' = { c.state with orders := c.state.orders ++ [order] } := by
  rcases World.answer_saveOrder hAnswer with ⟨-, hSaved⟩ | ⟨e, hError, -⟩
  · refine (World.saveOrder_fresh ?_ hSaved).1
    rw [(h.ofCall i order (by rw [hPh]; rfl)).id_eq]
    exact h.fresh i (by rw [hPh]; trivial)
  · cases hError

/-- A call that has returned is in the phase that says so. -/
theorem Tracks.returned_iff {calls : ι → Call} {c : PoolConfig ι} {ph : ι → Phase} {i : ι}
    {result : Result TradeOrder String} (h : Tracks calls c ph) :
    c.threads i = ret result ↔ ph i = .returned result := by
  have hProgram := h.program i
  have hPending := h.pending i
  constructor
  · intro hReturned
    rw [hReturned] at hProgram hPending
    generalize ph i = phase at hProgram hPending
    cases phase with
    | returned other =>
      cases hProgram
      rfl
    | raised e => cases hProgram
    | _ => cases hPending
  · intro hPh
    rw [hProgram, hPh]
    rfl

namespace Filed

variable {ext : Externals} {calls : ι → Call} {w₀ w' : World} {log : PoolLog ι}
  {c c' : PoolConfig ι} {ph : ι → Phase} {e : Event Exn Ret ι} {i : ι} {op : Op}
  {r : Except Exn (Ret op)} {ph' : Phase}

theorem start (hDrawn : Drawn calls w₀)
    (hUnique : (w₀.orders.map TradeOrder.clientOrderId).Nodup) :
    Filed calls w₀ (start calls w₀) fun _ => .looking where
  tracks := .start hDrawn
  kept := List.prefix_rfl
  unique := hUnique
  filed i order h := by cases h

section Move

variable (h : Filed calls w₀ c ph) (hMoves : Phase.Moves (calls i) (ph i) op r ph')
  (hAnswer : World.answer ext c.state op r w')
include h hMoves hAnswer

/-- The table grows at its end. -/
theorem grows : c.state.orders <+: w'.orders := by
  rcases h.tracks.orders hMoves hAnswer with hSame | ⟨order, -, hAdded, -⟩
  · exact hSame ▸ List.prefix_rfl
  · rw [hAdded]
    exact List.prefix_append _ _

theorem unique_move : (w'.orders.map TradeOrder.clientOrderId).Nodup := by
  rcases h.tracks.orders hMoves hAnswer with hSame | ⟨order, -, hAdded, hFree⟩
  · rw [hSame]
    exact h.unique
  · rw [hAdded, List.map_append, List.nodup_append]
    refine ⟨h.unique, List.nodup_singleton _, ?_⟩
    intro k hk k' hk' hSame
    obtain ⟨row, hRow, rfl⟩ := List.mem_map.mp hk
    rw [List.map_singleton, List.mem_singleton] at hk'
    exact hFree ⟨row, hRow, hSame.trans hk'⟩

/-- A call files an order by a lookup that finds it or by a save, and then keeps to it. -/
theorem filed_move {order : TradeOrder} (hFiled : ph'.filed = some order) :
    order ∈ w'.orders ∧ order.clientOrderId = (calls i).command.clientOrderId := by
  have hKept : (ph i).filed = some order →
      order ∈ w'.orders ∧ order.clientOrderId = (calls i).command.clientOrderId :=
    fun hBefore => ⟨(h.grows hMoves hAnswer).subset (h.filed i order hBefore).1,
      (h.filed i order hBefore).2⟩
  have hSaved : ∀ row, ph i = .saving row →
      World.answer ext c.state (.saveOrder row) (.ok ()) w' →
        row ∈ w'.orders ∧ row.clientOrderId = (calls i).command.clientOrderId := by
    intro row hPh hSave
    rw [h.tracks.saved hPh hSave]
    exact ⟨List.mem_append_right _ (List.mem_singleton_self _),
      (h.tracks.ofCall i row (by rw [hPh]; rfl)).clientOrderId_eq⟩
  generalize hPh : ph i = phase at hMoves hKept hSaved
  cases hMoves with
  | found row =>
    obtain rfl := Option.some.inj hFiled
    rcases hAnswer with ⟨hFound, rfl⟩ | ⟨-, e, -, hError, -⟩
    · exact World.stored_of_getByClientOrderId (Except.ok.inj hFound).symm
    · cases hError
  | savedFilled row executedPrice hStatus hPrice =>
    obtain rfl := Option.some.inj hFiled
    exact hSaved row rfl hAnswer
  | savedOpen row hOpen =>
    obtain rfl := Option.some.inj hFiled
    exact hSaved row rfl hAnswer
  | applied row executedPrice stored updated hFill => exact hKept hFiled
  | written row updated => exact hKept hFiled
  | announced row => exact hKept hFiled
  | _ => cases hFiled

end Move

theorem step [DecidableEq ι] (h : Filed calls w₀ c ph)
    (hIds : Function.Injective fun i => (calls i).id) (hStep : Step (World.answer ext) c e c') :
    ∃ ph', Filed calls w₀ c' ph' := by
  obtain ⟨ph', hMoves, hAnswer, hTracks⟩ := h.tracks.step hIds hStep
  obtain ⟨i, op, r⟩ := e
  dsimp only at hMoves hAnswer hTracks
  have hGrows := h.grows hMoves hAnswer
  refine ⟨Function.update ph i ph', hTracks, h.kept.trans hGrows, h.unique_move hMoves hAnswer,
    fun j order hj => ?_⟩
  by_cases hji : j = i
  · subst hji
    rw [Function.update_self] at hj
    exact h.filed_move hMoves hAnswer hj
  · rw [Function.update_of_ne hji] at hj
    exact ⟨hGrows.subset (h.filed j order hj).1, (h.filed j order hj).2⟩

/-- The invariant holds in every run. -/
theorem of_run [DecidableEq ι] (hDrawn : Drawn calls w₀)
    (hUnique : (w₀.orders.map TradeOrder.clientOrderId).Nodup)
    (h : Run (World.answer ext) (Trading.start calls w₀) log c) : ∃ ph, Filed calls w₀ c ph :=
  h.invariant (I := fun _ c => ∃ ph, Filed calls w₀ c ph) ⟨_, .start hDrawn hUnique⟩
    fun _ _ _ _ ⟨_, hFiled⟩ hStep => hFiled.step hDrawn.injective hStep

omit [PyText] in
/-- With unique client order ids, the lookup finds the row that is stored. -/
theorem lookup {w : World} {order : TradeOrder}
    (hUnique : (w.orders.map TradeOrder.clientOrderId).Nodup) (hOrder : order ∈ w.orders) :
    w.getByClientOrderId order.clientOrderId = some order := by
  cases hFound : w.getByClientOrderId order.clientOrderId with
  | none => exact absurd ⟨order, hOrder, rfl⟩ (World.getByClientOrderId_eq_none.mp hFound)
  | some row =>
    obtain ⟨hRow, hSame⟩ := World.stored_of_getByClientOrderId hFound
    exact congrArg some (List.inj_on_of_nodup_map hUnique hRow hOrder hSame)

end Filed

end Calls

/-! ## A save that loses -/

/-- What a call has returned. -/
def resultOf : Async (Result TradeOrder String) → Option (Result TradeOrder String)
  | ret result => some result
  | _ => none

theorem resultOf_eq_some {m : Async (Result TradeOrder String)}
    {result : Result TradeOrder String} : resultOf m = some result ↔ m = ret result := by
  cases m <;> simp [resultOf]

namespace Answering

open Overlap

local instance : PyText := asciiText

/-- Both calls submit. The first stores its order and returns; the save of the second one
raises. -/
def answering : PoolLog Bool × PoolConfig Bool :=
  simulate (start overlapping {})
    ([true, false, true, false, true, false, true, false, true, true, true].map fun i =>
      (i, World.respond deskReplies))

theorem answering_run :
    Run (World.answer desk) (start overlapping {}) answering.1 answering.2 :=
  run_desk (start overlapping {})
    [true, false, true, false, true, false, true, false, true, true, true]

def stored : TradeOrder where
  id := ⟨"first"⟩
  symbol := "BTC/USDT"
  side := .buy
  quantity := 1
  orderType := .market
  status := .filled
  requestedPrice := 100
  executedPrice := some 100
  clientOrderId := "demo-1"
  createdAt := 0

end Answering

end TradingAgent.Trading
