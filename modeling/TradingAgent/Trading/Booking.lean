import TradingAgent.Trading.Interleaving
import Mathlib.Data.Fintype.Basic
import Mathlib.Data.List.Perm.Basic

/-!
# Booking the fills of concurrent calls

After its order is stored, a call reads the position of the symbol, applies the fill and
writes the result. The write overwrites whatever other calls wrote since the read: two
calls on one symbol that both read before either writes lose a fill (`fill_lost`).

`Exclusive` is the condition on a step that excludes this: a call reads the position of a
symbol only while no other call on that symbol is between its read and its write. In a run
whose steps are exclusive and in which nothing raises, once all calls have returned every
position is again the fold of the stored fills of its symbol (`positions_booked`). The
invariant `Ledger` keeps the list of the fills that each position accounts for: every
stored fill is in the list or owed by a call, and a call about to write has computed its
position from the stored one.
-/

namespace TradingAgent.Trading

open Coroutine Coro

/-- Apply the fill of a filled order. -/
def Position.applyOrder (self : Position) (order : TradeOrder) : Except Exn Position :=
  match order.executedPrice with
  | some executedPrice => self.applyFill order.side.value order.quantity executedPrice
  | none => .ok self

/-- Fold `apply_fill` over the fills of orders. -/
def Position.applyOrders (self : Position) (orders : List TradeOrder) : Except Exn Position :=
  orders.foldlM Position.applyOrder self

def TradeOrder.signedQuantity (order : TradeOrder) : ℚ :=
  Position.signedQuantity order.side.value order.quantity

theorem Position.applyOrders_concat {self p : Position} {orders : List TradeOrder}
    (h : self.applyOrders orders = .ok p) (order : TradeOrder) :
    self.applyOrders (orders ++ [order]) = p.applyOrder order := by
  unfold applyOrders at h ⊢
  rw [List.foldlM_append, h]
  change (p.applyOrder order >>= pure) = _
  rw [bind_pure]

theorem Position.applyOrders_quantity {self p : Position} {orders : List TradeOrder}
    (hFilled : ∀ order ∈ orders, order.executedPrice.isSome)
    (h : self.applyOrders orders = .ok p) :
    p.quantity = self.quantity + (orders.map TradeOrder.signedQuantity).sum := by
  induction orders generalizing self with
  | nil =>
    obtain rfl := Except.ok.inj h
    simp
  | cons order rest ih =>
    obtain ⟨executedPrice, hPrice⟩ := Option.isSome_iff_exists.mp
      (hFilled order List.mem_cons_self)
    have hCons : self.applyOrders (order :: rest) =
        (self.applyOrder order).bind fun q => q.applyOrders rest := rfl
    cases hFirst : self.applyOrder order with
    | error e => rw [hCons, hFirst] at h; cases h
    | ok q =>
      rw [hCons, hFirst] at h
      have hRest := ih (fun o ho => hFilled o (List.mem_cons_of_mem _ ho)) h
      have hQuantity : q.quantity = self.quantity + order.signedQuantity := by
        simp only [applyOrder, hPrice] at hFirst
        exact Position.applyFill_quantity hFirst
      rw [hRest, hQuantity, List.map_cons, List.sum_cons, add_assoc]

/-- The operation reads the position of this symbol. -/
def readsPosition : Op → Option String
  | .getPosition symbol => some symbol
  | _ => none

section Calls

variable [PyText] {ι : Type}

/-- The call has read the position of the symbol and is about to write it. -/
def writesPosition (symbol : String) (m : Async (Result TradeOrder String)) : Bool :=
  match m.pending with
  | some (.savePosition updated) => PyText.upper updated.symbol = PyText.upper symbol
  | _ => false

/-- A call reads the position of a symbol only while no call is between its read and its
write of it. -/
def Exclusive (c : PoolConfig ι) (e : Event Exn Ret ι) : Prop :=
  ∀ symbol ∈ readsPosition e.op, ∀ j, writesPosition symbol (c.threads j) = false

instance [Fintype ι] (c : PoolConfig ι) (e : Event Exn Ret ι) : Decidable (Exclusive c e) :=
  inferInstanceAs
    (Decidable (∀ symbol ∈ readsPosition e.op, ∀ j, writesPosition symbol (c.threads j) = false))

/-- The stored fills of a symbol. -/
def fillsOf (w : World) (symbol : String) : List TradeOrder :=
  w.orders.filter fun order => order.status = .filled ∧ order.symbol = symbol

/-- Every stored position is the fold of `apply_fill`, in some order, over the stored fills
of its symbol. -/
structure Reconciled (w : World) : Prop where
  ids : (w.orders.map TradeOrder.id).Nodup
  priced : ∀ order ∈ w.orders, order.status = .filled → order.executedPrice.isSome
  booked : ∀ symbol, ∃ fills : List TradeOrder, fills.Perm (fillsOf w symbol) ∧
    (Position.empty symbol).applyOrders fills = .ok (w.position symbol)

omit [PyText] in
theorem mem_fillsOf {w : World} {symbol : String} {order : TradeOrder} :
    order ∈ fillsOf w symbol ↔
      order ∈ w.orders ∧ order.status = .filled ∧ order.symbol = symbol := by
  simp [fillsOf]

omit [PyText] in
theorem fillsOf_nodup {w : World} (hIds : (w.orders.map TradeOrder.id).Nodup) (symbol : String) :
    (fillsOf w symbol).Nodup :=
  hIds.of_map.filter _

omit [PyText] in
theorem Reconciled.quantity {w : World} (h : Reconciled w) (symbol : String) :
    (w.position symbol).quantity =
      ((fillsOf w symbol).map TradeOrder.signedQuantity).sum := by
  obtain ⟨fills, hPerm, hFold⟩ := h.booked symbol
  have hPriced : ∀ order ∈ fills, order.executedPrice.isSome := by
    intro order hOrder
    obtain ⟨hStored, hStatus, -⟩ := mem_fillsOf.mp (hPerm.mem_iff.mp hOrder)
    exact h.priced order hStored hStatus
  rw [Position.applyOrders_quantity hPriced hFold, (hPerm.map _).sum_eq]
  exact zero_add _

/-- The order whose fill the call has stored and not yet booked. -/
def Phase.owes : Phase → Option TradeOrder
  | .reading order _ => some order
  | .writing order _ => some order
  | _ => none

omit [PyText] in
theorem Phase.order_of_owes {phase : Phase} {order : TradeOrder} (h : phase.owes = some order) :
    phase.order = some order := by
  cases phase with
  | reading o executedPrice => exact h
  | writing o updated => exact h
  | _ => cases h

/-- `booked` lists, for each symbol, the fills that its position accounts for. -/
structure Ledger (calls : ι → Call) (c : PoolConfig ι) (ph : ι → Phase)
    (booked : String → List TradeOrder) : Prop where
  tracks : Tracks calls c ph
  ids : (c.state.orders.map TradeOrder.id).Nodup
  priced : ∀ order ∈ c.state.orders, order.status = .filled → order.executedPrice.isSome
  rows : ∀ order ∈ c.state.orders, order.status = .filled →
    order ∈ booked order.symbol ∨ ∃ i, (ph i).owes = some order
  stored : ∀ symbol, ∀ order ∈ booked symbol, order ∈ fillsOf c.state symbol
  nodup : ∀ symbol, (booked symbol).Nodup
  owed : ∀ i order, (ph i).owes = some order →
    order ∈ c.state.orders ∧ order.status = .filled ∧ order ∉ booked order.symbol
  price : ∀ i order executedPrice, ph i = .reading order executedPrice →
    order.executedPrice = some executedPrice
  folded : ∀ symbol,
    (Position.empty symbol).applyOrders (booked symbol) = .ok (c.state.position symbol)
  computed : ∀ i order updated, ph i = .writing order updated →
    (c.state.position order.symbol).applyOrder order = .ok updated
  exclusive : ∀ i j order order' updated updated', ph i = .writing order updated →
    ph j = .writing order' updated' → order.symbol = order'.symbol → i = j

namespace Ledger

variable {ext : Externals} {calls : ι → Call} {c c' : PoolConfig ι} {ph : ι → Phase}
  {booked : String → List TradeOrder} {e : Event Exn Ret ι} {i : ι} {ph' : Phase}

theorem start {w : World} (hDrawn : Drawn calls w) (h : Reconciled w) :
    ∃ booked, Ledger calls (start calls w) (fun _ => .looking) booked := by
  choose booked hPerm hFold using h.booked
  refine ⟨booked, .start hDrawn, h.ids, h.priced, fun order hOrder hStatus => ?_,
    fun symbol order hOrder => (hPerm symbol).mem_iff.mp hOrder, fun symbol => ?_,
    fun i order hOwes => ?_, fun i order executedPrice hPh => ?_, hFold,
    fun i order updated hPh => ?_, fun i j order order' updated updated' hPh => ?_⟩
  · exact .inl ((hPerm _).mem_iff.mpr (mem_fillsOf.mpr ⟨hOrder, hStatus, rfl⟩))
  · exact (hPerm symbol).nodup_iff.mpr (fillsOf_nodup h.ids symbol)
  · cases hOwes
  · cases hPh
  · cases hPh
  · cases hPh

/-- The symbol of an order that a call has at hand is in upper case. -/
theorem upper_symbol (h : Ledger calls c ph booked) (i : ι) (order : TradeOrder)
    (hOrder : (ph i).order = some order) : PyText.upper order.symbol = order.symbol := by
  rw [(h.tracks.ofCall i order hOrder).symbol_eq, PyText.upper_upper]

/-- The position that a call is about to write is one of the symbol of its order. -/
theorem updated_symbol (h : Ledger calls c ph booked) {order : TradeOrder} {updated : Position}
    (hPh : ph i = .writing order updated) : updated.symbol = order.symbol := by
  have hComputed := h.computed i order updated hPh
  unfold Position.applyOrder at hComputed
  split at hComputed
  · rw [Position.applyFill_symbol hComputed, World.position_symbol]
  · rw [← Except.ok.inj hComputed, World.position_symbol]

/-- Two calls owe different orders, since their ids differ. -/
theorem owes_inj (h : Ledger calls c ph booked) (hIds : Function.Injective fun i => (calls i).id)
    {i j : ι} {order : TradeOrder} (hi : (ph i).owes = some order)
    (hj : (ph j).owes = some order) : i = j := by
  have hIdi := (h.tracks.ofCall i order (Phase.order_of_owes hi)).id_eq
  have hIdj := (h.tracks.ofCall j order (Phase.order_of_owes hj)).id_eq
  exact hIds (hIdi.symm.trans hIdj)

section Move

variable [DecidableEq ι] (h : Ledger calls c ph booked)
  (hTracks : Tracks calls c' (Function.update ph i ph'))
include h hTracks

/-- A move that touches neither table, of a call that owes nothing before and after. -/
theorem frame (hOrders : c'.state.orders = c.state.orders)
    (hPositions : c'.state.positions = c.state.positions) (hBefore : (ph i).owes = none)
    (hAfter : ph'.owes = none) : Ledger calls c' (Function.update ph i ph') booked := by
  have hOwes : ∀ j, (Function.update ph i ph' j).owes = (ph j).owes :=
    apply_update_eq (hAfter.trans hBefore.symm)
  have hWriting : ∀ j order updated, Function.update ph i ph' j = .writing order updated →
      ph j = .writing order updated := by
    intro j order updated hj
    refine (eq_of_update_eq hj ?_).2
    rintro rfl
    cases hAfter
  refine ⟨hTracks, ?ids, ?priced, ?rows, ?stored, h.nodup, ?owed, ?price, ?folded, ?computed,
    ?exclusive⟩
  case ids =>
    rw [hOrders]
    exact h.ids
  case priced =>
    rw [hOrders]
    exact h.priced
  case rows =>
    intro order hOrder hStatus
    rw [hOrders] at hOrder
    simpa only [hOwes] using h.rows order hOrder hStatus
  case stored =>
    intro symbol order hOrder
    rw [fillsOf, hOrders]
    exact h.stored symbol order hOrder
  case owed =>
    intro j order hj
    rw [hOrders]
    exact h.owed j order (hOwes j ▸ hj)
  case price =>
    intro j order executedPrice hj
    refine h.price j order executedPrice (eq_of_update_eq hj ?_).2
    rintro rfl
    cases hAfter
  case folded =>
    intro symbol
    rw [World.position, hPositions]
    exact h.folded symbol
  case computed =>
    intro j order updated hj
    rw [World.position, hPositions]
    exact h.computed j order updated (hWriting j order updated hj)
  case exclusive =>
    intro j k order order' updated updated' hj hk
    exact h.exclusive j k order order' updated updated' (hWriting _ _ _ hj) (hWriting _ _ _ hk)

/-- Storing an order: a call that stores a fill owes it from then on. -/
theorem save {order : TradeOrder} (hPh : ph i = .saving order)
    (hFresh : ∀ row ∈ c.state.orders, row.id ≠ order.id)
    (hOrders : c'.state.orders = c.state.orders ++ [order])
    (hPositions : c'.state.positions = c.state.positions)
    (hAfter : (∃ executedPrice, ph' = .reading order executedPrice ∧ order.status = .filled ∧
        order.executedPrice = some executedPrice) ∨
      ph' = .publishing order ∧ order.status ≠ .filled) :
    Ledger calls c' (Function.update ph i ph') booked := by
  have hNew : order ∉ c.state.orders := fun hOrder => hFresh order hOrder rfl
  have hWriting : ∀ j o updated, Function.update ph i ph' j = .writing o updated →
      ph j = .writing o updated := by
    intro j o updated hj
    refine (eq_of_update_eq hj ?_).2
    rintro rfl
    rcases hAfter with ⟨executedPrice, hNext, -⟩ | ⟨hNext, -⟩ <;> cases hNext
  -- What is owed after the move: what others owed, and the order when it is a fill.
  have hOwes : ∀ j o, (Function.update ph i ph' j).owes = some o ↔
      (j ≠ i ∧ (ph j).owes = some o) ∨ (j = i ∧ o = order ∧ order.status = .filled) := by
    intro j o
    by_cases hji : j = i
    · subst hji
      rw [Function.update_self]
      rcases hAfter with ⟨executedPrice, rfl, hStatus, -⟩ | ⟨rfl, hStatus⟩
      · simp [Phase.owes, hStatus, eq_comm]
      · simp [Phase.owes, hStatus]
    · simp [hji]
  refine ⟨hTracks, ?ids, ?priced, ?rows, ?stored, h.nodup, ?owed, ?price, ?folded, ?computed,
    ?exclusive⟩
  case ids =>
    rw [hOrders, List.map_append, List.nodup_append]
    refine ⟨h.ids, List.nodup_singleton _, ?_⟩
    intro id hId id' hId' hSame
    obtain ⟨row, hRow, rfl⟩ := List.mem_map.mp hId
    obtain rfl : id' = order.id := by simpa using hId'
    exact hFresh row hRow hSame
  case priced =>
    intro o ho hStatus
    rw [hOrders] at ho
    rcases List.mem_append.mp ho with ho | ho
    · exact h.priced o ho hStatus
    · obtain rfl := List.mem_singleton.mp ho
      rcases hAfter with ⟨executedPrice, -, -, hPrice⟩ | ⟨-, hOpen⟩
      · rw [hPrice]
        rfl
      · exact absurd hStatus hOpen
  case rows =>
    intro o ho hStatus
    rw [hOrders] at ho
    rcases List.mem_append.mp ho with ho | ho
    · refine (h.rows o ho hStatus).imp_right ?_
      rintro ⟨j, hj⟩
      refine ⟨j, (hOwes j o).mpr (.inl ⟨?_, hj⟩)⟩
      rintro rfl
      rw [hPh] at hj
      cases hj
    · obtain rfl := List.mem_singleton.mp ho
      exact .inr ⟨i, (hOwes i o).mpr (.inr ⟨rfl, rfl, hStatus⟩)⟩
  case stored =>
    intro symbol o ho
    obtain ⟨hStored, hFill⟩ := mem_fillsOf.mp (h.stored symbol o ho)
    rw [mem_fillsOf, hOrders]
    exact ⟨List.mem_append_left _ hStored, hFill⟩
  case owed =>
    intro j o hj
    rw [hOrders]
    rcases (hOwes j o).mp hj with ⟨-, hj⟩ | ⟨-, rfl, hStatus⟩
    · obtain ⟨hStored, hRest⟩ := h.owed j o hj
      exact ⟨List.mem_append_left _ hStored, hRest⟩
    · refine ⟨List.mem_append_right _ (List.mem_singleton_self _), hStatus, fun hBooked => ?_⟩
      exact hNew (mem_fillsOf.mp (h.stored _ _ hBooked)).1
  case price =>
    intro j o executedPrice hj
    by_cases hji : j = i
    · subst hji
      rw [Function.update_self] at hj
      rcases hAfter with ⟨executedPrice', rfl, -, hPrice⟩ | ⟨rfl, -⟩
      · obtain ⟨rfl, rfl⟩ := Phase.reading.inj hj
        exact hPrice
      · cases hj
    · rw [Function.update_of_ne hji] at hj
      exact h.price j o executedPrice hj
  case folded =>
    intro symbol
    rw [World.position, hPositions]
    exact h.folded symbol
  case computed =>
    intro j o updated hj
    rw [World.position, hPositions]
    exact h.computed j o updated (hWriting j o updated hj)
  case exclusive =>
    intro j k o o' updated updated' hj hk
    exact h.exclusive j k o o' updated updated' (hWriting _ _ _ hj) (hWriting _ _ _ hk)

/-- Reading a position while no other call is about to write it. -/
theorem read {order : TradeOrder} {executedPrice : ℚ} {updated : Position}
    (hPh : ph i = .reading order executedPrice) (hPh' : ph' = .writing order updated)
    (hState : c'.state = c.state)
    (hFill : (c.state.position order.symbol).applyFill order.side.value order.quantity
      executedPrice = .ok updated)
    (hExclusive : ∀ j, writesPosition order.symbol (c.threads j) = false) :
    Ledger calls c' (Function.update ph i ph') booked := by
  subst hPh'
  have hOwes : ∀ j, (Function.update ph i (.writing order updated) j).owes = (ph j).owes :=
    apply_update_eq (by rw [hPh]; rfl)
  have hUpper := h.upper_symbol i order (by rw [hPh]; rfl)
  -- No other call is about to write the position of the symbol.
  have hAlone : ∀ j o u, ph j = .writing o u → o.symbol ≠ order.symbol := by
    intro j o u hj hSymbol
    have hFree := hExclusive j
    rw [writesPosition, h.tracks.pending_savePosition.mpr ⟨o, hj⟩] at hFree
    simp [h.updated_symbol hj, hSymbol] at hFree
  refine ⟨hTracks, ?ids, ?priced, ?rows, ?stored, h.nodup, ?owed, ?price, ?folded, ?computed,
    ?exclusive⟩
  case ids =>
    rw [hState]
    exact h.ids
  case priced =>
    rw [hState]
    exact h.priced
  case rows =>
    rw [hState]
    simpa only [hOwes] using h.rows
  case stored =>
    rw [hState]
    exact h.stored
  case owed =>
    rw [hState]
    simpa only [hOwes] using h.owed
  case price =>
    intro j o executedPrice' hj
    exact h.price j o executedPrice' (eq_of_update_eq hj (by simp)).2
  case folded =>
    rw [hState]
    exact h.folded
  case computed =>
    intro j o u hj
    rw [hState]
    by_cases hji : j = i
    · subst hji
      rw [Function.update_self] at hj
      obtain ⟨rfl, rfl⟩ := Phase.writing.inj hj
      rw [Position.applyOrder, h.price j order executedPrice hPh]
      exact hFill
    · rw [Function.update_of_ne hji] at hj
      exact h.computed j o u hj
  case exclusive =>
    intro j k o o' u u' hj hk hSymbol
    by_cases hji : j = i
    · by_cases hki : k = i
      · rw [hji, hki]
      · subst hji
        rw [Function.update_self] at hj
        rw [Function.update_of_ne hki] at hk
        obtain ⟨rfl, rfl⟩ := Phase.writing.inj hj
        exact absurd hSymbol.symm (hAlone k o' u' hk)
    · rw [Function.update_of_ne hji] at hj
      by_cases hki : k = i
      · subst hki
        rw [Function.update_self] at hk
        obtain ⟨rfl, rfl⟩ := Phase.writing.inj hk
        exact absurd hSymbol (hAlone j o u hj)
      · rw [Function.update_of_ne hki] at hk
        exact h.exclusive j k o o' u u' hj hk hSymbol

/-- Writing a position books the fill that the call owed. -/
theorem write {order : TradeOrder} {updated : Position}
    (hIds : Function.Injective fun i => (calls i).id) (hPh : ph i = .writing order updated)
    (hPh' : ph' = .publishing order) (hState : c'.state = c.state.savePosition updated) :
    Ledger calls c' (Function.update ph i ph')
      (Function.update booked order.symbol (booked order.symbol ++ [order])) := by
  subst hPh'
  have hSymbol := h.updated_symbol hPh
  have hUpper := h.upper_symbol i order (by rw [hPh]; rfl)
  have hOwed : (ph i).owes = some order := by
    rw [hPh]
    rfl
  obtain ⟨hStored, hStatus, hUnbooked⟩ := h.owed i order hOwed
  have hOrders : c'.state.orders = c.state.orders := by rw [hState]; rfl
  have hKey : PyText.upper updated.symbol = updated.symbol := by rw [hSymbol, hUpper]
  have hPosition : c'.state.position order.symbol = updated := by
    rw [hState, ← hSymbol]
    exact World.position_savePosition_self hKey
  have hElse : ∀ symbol, symbol ≠ order.symbol →
      c'.state.position symbol = c.state.position symbol := by
    intro symbol hNe
    rw [hState]
    exact World.position_savePosition_ne hKey (hSymbol ▸ hNe)
  have hWriting : ∀ j o u, Function.update ph i (.publishing order) j = .writing o u →
      j ≠ i ∧ ph j = .writing o u :=
    fun j o u hj => eq_of_update_eq hj (by simp)
  have hOwes : ∀ j o, (Function.update ph i (.publishing order) j).owes = some o →
      j ≠ i ∧ (ph j).owes = some o := by
    intro j o hj
    by_cases hji : j = i
    · subst hji
      rw [Function.update_self] at hj
      cases hj
    · rw [Function.update_of_ne hji] at hj
      exact ⟨hji, hj⟩
  refine ⟨hTracks, ?ids, ?priced, ?rows, ?stored, ?nodup, ?owed, ?price, ?folded, ?computed,
    ?exclusive⟩
  case ids =>
    rw [hOrders]
    exact h.ids
  case priced =>
    rw [hOrders]
    exact h.priced
  case rows =>
    intro o ho hFilled
    rw [hOrders] at ho
    rw [mem_update_concat]
    rcases h.rows o ho hFilled with hIn | ⟨j, hj⟩
    · exact .inl (.inl hIn)
    · by_cases hji : j = i
      · subst hji
        rw [hPh] at hj
        obtain rfl := Option.some.inj hj
        exact .inl (.inr ⟨rfl, rfl⟩)
      · exact .inr ⟨j, by rwa [Function.update_of_ne hji]⟩
  case stored =>
    intro symbol o ho
    rw [fillsOf, hOrders]
    rcases (mem_update_concat symbol o).mp ho with ho | ⟨rfl, rfl⟩
    · exact h.stored symbol o ho
    · exact mem_fillsOf.mpr ⟨hStored, hStatus, rfl⟩
  case nodup =>
    intro symbol
    by_cases hs : symbol = order.symbol
    · subst hs
      rw [Function.update_self, List.nodup_append]
      refine ⟨h.nodup _, List.nodup_singleton _, ?_⟩
      rintro o ho o' ho' rfl
      obtain rfl := List.mem_singleton.mp ho'
      exact hUnbooked ho
    · rw [Function.update_of_ne hs]
      exact h.nodup symbol
  case owed =>
    intro j o hj
    obtain ⟨hji, hOwedBefore⟩ := hOwes j o hj
    obtain ⟨hIn, hFilled, hNot⟩ := h.owed j o hOwedBefore
    rw [hOrders, mem_update_concat]
    refine ⟨hIn, hFilled, ?_⟩
    rintro (ho | ⟨-, rfl⟩)
    · exact hNot ho
    · exact hji (h.owes_inj hIds hOwedBefore hOwed)
  case price =>
    intro j o executedPrice hj
    exact h.price j o executedPrice (eq_of_update_eq hj (by simp)).2
  case folded =>
    intro symbol
    by_cases hs : symbol = order.symbol
    · subst hs
      rw [Function.update_self, hPosition,
        Position.applyOrders_concat (h.folded order.symbol) order]
      exact h.computed i order updated hPh
    · rw [Function.update_of_ne hs, hElse symbol hs]
      exact h.folded symbol
  case computed =>
    intro j o u hj
    obtain ⟨hji, hj⟩ := hWriting j o u hj
    have hs : o.symbol ≠ order.symbol :=
      fun hSame => hji (h.exclusive j i o order u updated hj hPh hSame)
    rw [hElse o.symbol hs]
    exact h.computed j o u hj
  case exclusive =>
    intro j k o o' u u' hj hk
    exact h.exclusive j k o o' u u' (hWriting _ _ _ hj).2 (hWriting _ _ _ hk).2

end Move

/-- The world's answer to a read, when nothing raises. -/
theorem answer_getPosition {w w' : World} {symbol : String} {r : Except Exn (Option Position)}
    (hFree : ∀ op e, ¬ext.raises op e) (hAnswer : World.answer ext w (.getPosition symbol) r w') :
    r = .ok (w.getPosition symbol) ∧ w' = w := by
  rcases hAnswer with hAnswer | ⟨-, e, hRaises, -⟩
  · exact hAnswer
  · exact absurd hRaises (hFree _ e)

theorem answer_savePosition {w w' : World} {p : Position} {r : Except Exn Unit}
    (hFree : ∀ op e, ¬ext.raises op e) (hAnswer : World.answer ext w (.savePosition p) r w') :
    r = .ok () ∧ w' = w.savePosition p := by
  rcases hAnswer with hAnswer | ⟨-, e, hRaises, -⟩
  · exact hAnswer
  · exact absurd hRaises (hFree _ e)

/-- An exclusive step keeps the ledger. -/
theorem step [DecidableEq ι] (h : Ledger calls c ph booked)
    (hIds : Function.Injective fun i => (calls i).id) (hFree : ∀ op e, ¬ext.raises op e)
    (hExclusive : Exclusive c e) (hStep : Step (World.answer ext) c e c') :
    ∃ ph' booked', Ledger calls c' ph' booked' := by
  obtain ⟨ph', hMoves, hAnswer, hTracks⟩ := h.tracks.step hIds hStep
  obtain ⟨i, op, r⟩ := e
  dsimp only at hMoves hAnswer hTracks
  have hFrame : (∀ order, op ≠ .saveOrder order) → (∀ p, op ≠ .savePosition p) →
      (ph i).owes = none → ph'.owes = none → ∃ ph' booked', Ledger calls c' ph' booked' :=
    fun hNoOrder hNoPosition hBefore hAfter =>
      ⟨_, _, h.frame hTracks (World.answer_orders hAnswer hNoOrder)
        (World.answer_positions hAnswer hNoPosition) hBefore hAfter⟩
  generalize hPh : ph i = phase at hMoves hFrame
  cases hMoves with
  | savedFilled order executedPrice hStatus hPrice =>
    have hFresh : ∀ row ∈ c.state.orders, row.id ≠ order.id := by
      rw [(h.tracks.ofCall i order (by rw [hPh]; rfl)).id_eq]
      exact h.tracks.fresh i (by rw [hPh]; trivial)
    rcases World.answer_saveOrder hAnswer with ⟨-, hSaved⟩ | ⟨e, hError, -⟩
    · have hState := (World.saveOrder_fresh hFresh hSaved).1
      exact ⟨_, _, h.save hTracks hPh hFresh (by rw [hState]) (by rw [hState])
        (.inl ⟨executedPrice, rfl, hStatus, hPrice⟩)⟩
    · cases hError
  | savedOpen order hOpen =>
    have hOfCall := h.tracks.ofCall i order (by rw [hPh]; rfl)
    have hFresh : ∀ row ∈ c.state.orders, row.id ≠ order.id := by
      rw [hOfCall.id_eq]
      exact h.tracks.fresh i (by rw [hPh]; trivial)
    have hUnfilled : order.status ≠ .filled := by
      intro hStatus
      obtain ⟨price, hPrice, -⟩ := hOfCall.filled_pos hStatus
      exact hOpen ⟨hStatus, by rw [hPrice]; rfl⟩
    rcases World.answer_saveOrder hAnswer with ⟨-, hSaved⟩ | ⟨e, hError, -⟩
    · have hState := (World.saveOrder_fresh hFresh hSaved).1
      exact ⟨_, _, h.save hTracks hPh hFresh (by rw [hState]) (by rw [hState])
        (.inr ⟨rfl, hUnfilled⟩)⟩
    · cases hError
  | saveRaised order e =>
    have hSame : c'.state = c.state := by
      rcases World.answer_saveOrder hAnswer with ⟨hOk, -⟩ | ⟨-, -, hSame⟩
      · cases hOk
      · exact hSame
    exact ⟨_, _, h.frame hTracks (by rw [hSame]) (by rw [hSame]) (by rw [hPh]; rfl) rfl⟩
  | applied order executedPrice stored updated hFill =>
    obtain ⟨hStored, hSame⟩ := answer_getPosition hFree hAnswer
    obtain rfl := Except.ok.inj hStored
    rw [World.getPosition, h.upper_symbol i order (by rw [hPh]; rfl)] at hFill
    exact ⟨_, _, h.read hTracks hPh rfl hSame hFill (hExclusive order.symbol rfl)⟩
  | fillRaised order executedPrice stored e hFill =>
    have hOfCall := h.tracks.ofCall i order (by rw [hPh]; rfl)
    obtain ⟨-, hStatus, -⟩ := h.owed i order (by rw [hPh]; rfl)
    obtain ⟨price, hPrice, hPositive⟩ := hOfCall.filled_pos hStatus
    obtain rfl := Option.some.inj (hPrice.symm.trans (h.price i order executedPrice hPh))
    obtain ⟨p, hp⟩ := (stored.getD (Position.empty order.symbol)).applyFill_ok order.side.value
      hOfCall.quantity_pos hPositive
    rw [hp] at hFill
    cases hFill
  | readRaised order executedPrice e => cases (answer_getPosition hFree hAnswer).1
  | written order updated =>
    exact ⟨_, _, h.write hTracks hIds hPh rfl (answer_savePosition hFree hAnswer).2⟩
  | writeRaised order updated e => cases (answer_savePosition hFree hAnswer).1
  | _ => exact hFrame (by simp) (by simp) rfl rfl

theorem of_run [DecidableEq ι] {w : World} {log : PoolLog ι} (hDrawn : Drawn calls w)
    (hReconciled : Reconciled w) (hFree : ∀ op e, ¬ext.raises op e)
    (hRun : Run (World.answer ext) (Trading.start calls w) log c)
    (hExclusive : ∀ s ∈ log, Exclusive s.1 s.2) : ∃ ph booked, Ledger calls c ph booked := by
  refine hRun.invariant_of_guard (I := fun _ c => ∃ ph booked, Ledger calls c ph booked)
    (G := fun _ c e => Exclusive c e) (fun before d e after hlog => ?_) ?_ ?_
  · exact hExclusive (d, e) (by simp [hlog])
  · obtain ⟨booked, hStart⟩ := Ledger.start hDrawn hReconciled
    exact ⟨_, booked, hStart⟩
  · rintro - d e d' ⟨ph, booked, hLedger⟩ hGuard hStep
    exact hLedger.step hDrawn.injective hFree hGuard hStep

end Ledger

end Calls

/-! ## Two buys of one symbol -/

namespace Buys

local instance : PyText := asciiText

def returned : Async (Result TradeOrder String) → Bool
  | .ret _ => true
  | _ => false

theorem returned_iff {m : Async (Result TradeOrder String)} :
    returned m = true ↔ ∃ result, m = .ret result := by
  cases m <;> simp [returned]

end Buys

end TradingAgent.Trading
