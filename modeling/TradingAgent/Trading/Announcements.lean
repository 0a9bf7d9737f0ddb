import TradingAgent.Trading.Agreement

/-!
# The events of concurrent calls

`execute` stores an order, books its fill, and publishes the change of its state. The bus
carries one event for each order that a call has carried through, and no others
(`announced_once`): a row without an event was there at the start, or its call has not
returned. The invariant `Told` keeps the list of the orders that were announced.
-/

namespace TradingAgent.Trading

open Coroutine Coro

section Calls

variable [PyText] {ι : Type}

/-- The order that a call has stored and not announced. -/
def Phase.unannounced : Phase → Option TradeOrder
  | reading order _ => some order
  | writing order _ => some order
  | publishing order => some order
  | _ => none

/-- `told` are the announced orders. -/
structure Told (calls : ι → Call) (w₀ : World) (c : PoolConfig ι) (ph : ι → Phase)
    (told : List TradeOrder) : Prop where
  tracks : Tracks calls c ph
  published : c.state.published = w₀.published ++ told.map TradeOrder.stateChanged
  nodup : told.Nodup
  announced : ∀ order ∈ told,
    order ∈ c.state.orders ∧ ∃ i, ph i = .returned (.ok order) ∧ order.id = (calls i).id
  own : ∀ i order, ph i = .returned (.ok order) → order.id = (calls i).id → order ∈ told
  stored : ∀ i order, (ph i).unannounced = some order → order ∈ c.state.orders
  rows : ∀ order ∈ c.state.orders, order ∈ w₀.orders ∨ order ∈ told ∨
    ∃ i, order.id = (calls i).id ∧ ((ph i).unannounced = some order ∨ ∃ e, ph i = .raised e)

namespace Told

variable {ext : Externals} {calls : ι → Call} {w₀ : World} {log : PoolLog ι}
  {c c' : PoolConfig ι} {ph : ι → Phase} {e : Event Exn Ret ι} {i : ι} {ph' : Phase}
  {told : List TradeOrder}

theorem start (hDrawn : Drawn calls w₀) :
    Told calls w₀ (start calls w₀) (fun _ => .looking) [] where
  tracks := .start hDrawn
  published := by simp [Trading.start]
  nodup := List.nodup_nil
  announced order h := absurd h List.not_mem_nil
  own i order h := by cases h
  stored i order h := by cases h
  rows order h := .inl h

section Step

variable [DecidableEq ι] (h : Told calls w₀ c ph told)
  (hTracks : Tracks calls c' (Function.update ph i ph'))
include h hTracks

/-- A call that neither stores nor announces goes on with what it has stored, or raises. -/
theorem quiet (hOrders : c'.state.orders = c.state.orders)
    (hPublished : c'.state.published = c.state.published)
    (hReturned : ∀ result, ph i ≠ .returned result) (hRaised : ∀ e, ph i ≠ .raised e)
    (hNext : ph'.unannounced = (ph i).unannounced ∨ ∃ e, ph' = .raised e)
    (hForeign : ∀ order, ph' = .returned (.ok order) → order.id ≠ (calls i).id) :
    Told calls w₀ c' (Function.update ph i ph') told where
  tracks := hTracks
  published := hPublished.trans h.published
  nodup := h.nodup
  announced order hTold := by
    obtain ⟨hRow, j, hj, hId⟩ := h.announced order hTold
    have hji : j ≠ i := by
      rintro rfl
      exact hReturned _ hj
    exact ⟨hOrders ▸ hRow, j, by rwa [Function.update_of_ne hji], hId⟩
  own j order hj hId := by
    by_cases hji : j = i
    · subst hji
      rw [Function.update_self] at hj
      exact absurd hId (hForeign order hj)
    · rw [Function.update_of_ne hji] at hj
      exact h.own j order hj hId
  stored j order hj := by
    rw [hOrders]
    by_cases hji : j = i
    · subst hji
      rw [Function.update_self] at hj
      rcases hNext with hSame | ⟨e, rfl⟩
      · exact h.stored j order (hSame ▸ hj)
      · cases hj
    · rw [Function.update_of_ne hji] at hj
      exact h.stored j order hj
  rows order hRow := by
    rw [hOrders] at hRow
    refine (h.rows order hRow).imp_right (Or.imp_right ?_)
    rintro ⟨j, hId, hj⟩
    refine ⟨j, hId, ?_⟩
    by_cases hji : j = i
    · subst hji
      rw [Function.update_self]
      rcases hj with hj | ⟨e, hj⟩
      · exact hNext.imp_left fun hSame => hSame.trans hj
      · exact absurd hj (hRaised e)
    · rwa [Function.update_of_ne hji]

/-- A call that stores its order is to announce it. -/
theorem save {order : TradeOrder} (hPh : ph i = .saving order)
    (hOrders : c'.state.orders = c.state.orders ++ [order])
    (hPublished : c'.state.published = c.state.published)
    (hNext : ph'.unannounced = some order) :
    Told calls w₀ c' (Function.update ph i ph') told where
  tracks := hTracks
  published := hPublished.trans h.published
  nodup := h.nodup
  announced other hTold := by
    obtain ⟨hRow, j, hj, hId⟩ := h.announced other hTold
    have hji : j ≠ i := by
      rintro rfl
      rw [hPh] at hj
      cases hj
    rw [hOrders]
    exact ⟨List.mem_append_left _ hRow, j, by rwa [Function.update_of_ne hji], hId⟩
  own j other hj hId := by
    by_cases hji : j = i
    · subst hji
      rw [Function.update_self] at hj
      subst hj
      cases hNext
    · rw [Function.update_of_ne hji] at hj
      exact h.own j other hj hId
  stored j other hj := by
    rw [hOrders]
    by_cases hji : j = i
    · subst hji
      rw [Function.update_self, hNext] at hj
      obtain rfl := Option.some.inj hj
      exact List.mem_append_right _ (List.mem_singleton_self _)
    · rw [Function.update_of_ne hji] at hj
      exact List.mem_append_left _ (h.stored j other hj)
  rows other hRow := by
    rw [hOrders] at hRow
    rcases List.mem_append.mp hRow with hRow | hRow
    · refine (h.rows other hRow).imp_right (Or.imp_right ?_)
      rintro ⟨j, hId, hj⟩
      have hji : j ≠ i := by
        rintro rfl
        rw [hPh] at hj
        rcases hj with hj | ⟨e, hj⟩ <;> cases hj
      exact ⟨j, hId, by rwa [Function.update_of_ne hji]⟩
    · obtain rfl := List.mem_singleton.mp hRow
      refine .inr (.inr ⟨i, (h.tracks.ofCall i other (by rw [hPh]; rfl)).id_eq, .inl ?_⟩)
      rwa [Function.update_self]

/-- A call that announces its order returns it. -/
theorem announce {order : TradeOrder} (hPh : ph i = .publishing order)
    (hIds : Function.Injective fun i => (calls i).id)
    (hOrders : c'.state.orders = c.state.orders)
    (hPublished : c'.state.published = c.state.published ++ [order.stateChanged])
    (hNext : ph' = .returned (.ok order)) :
    Told calls w₀ c' (Function.update ph i ph') (told ++ [order]) := by
  have hId := (h.tracks.ofCall i order (by rw [hPh]; rfl)).id_eq
  have hRow := h.stored i order (by rw [hPh]; rfl)
  have hOther : ∀ j result, ph j = .returned result → j ≠ i := by
    rintro j result hj rfl
    rw [hPh] at hj
    cases hj
  -- A call announces once: an order that was announced belongs to a call that has returned.
  have hFirst : order ∉ told := by
    intro hTold
    obtain ⟨-, j, hj, hSame⟩ := h.announced order hTold
    exact hOther j _ hj (hIds (hSame.symm.trans hId))
  refine ⟨hTracks, ?_, ?_, ?_, ?_, ?_, ?_⟩
  · rw [hPublished, h.published, List.map_append, List.append_assoc]
    rfl
  · exact List.nodup_append.mpr ⟨h.nodup, List.nodup_singleton _, fun a ha b hb hSame =>
      hFirst (List.mem_singleton.mp hb ▸ hSame ▸ ha)⟩
  · intro other hTold
    rw [hOrders]
    rcases List.mem_append.mp hTold with hTold | hTold
    · obtain ⟨hStored, j, hj, hSame⟩ := h.announced other hTold
      exact ⟨hStored, j, by rwa [Function.update_of_ne (hOther j _ hj)], hSame⟩
    · obtain rfl := List.mem_singleton.mp hTold
      exact ⟨hRow, i, by rw [Function.update_self, hNext], hId⟩
  · intro j other hj hSame
    by_cases hji : j = i
    · subst hji
      rw [Function.update_self, hNext] at hj
      cases hj
      exact List.mem_append_right _ (List.mem_singleton_self _)
    · rw [Function.update_of_ne hji] at hj
      exact List.mem_append_left _ (h.own j other hj hSame)
  · intro j other hj
    rw [hOrders]
    by_cases hji : j = i
    · subst hji
      rw [Function.update_self, hNext] at hj
      cases hj
    · rw [Function.update_of_ne hji] at hj
      exact h.stored j other hj
  · intro other hStored
    rw [hOrders] at hStored
    rcases h.rows other hStored with hInit | hTold | ⟨j, hSame, hj⟩
    · exact .inl hInit
    · exact .inr (.inl (List.mem_append_left _ hTold))
    · by_cases hji : j = i
      · subst hji
        rw [hPh] at hj
        rcases hj with hj | ⟨e, hj⟩
        · obtain rfl := Option.some.inj hj
          exact .inr (.inl (List.mem_append_right _ (List.mem_singleton_self _)))
        · cases hj
      · exact .inr (.inr ⟨j, hSame, by rwa [Function.update_of_ne hji]⟩)

end Step

/-- A step of the pool keeps the invariant. -/
theorem step [DecidableEq ι] (h : Told calls w₀ c ph told)
    (hIds : Function.Injective fun i => (calls i).id) (hStep : Step (World.answer ext) c e c') :
    ∃ ph' told', Told calls w₀ c' ph' told' := by
  obtain ⟨ph', hMoves, hAnswer, hTracks⟩ := h.tracks.step hIds hStep
  obtain ⟨i, op, r⟩ := e
  dsimp only at hMoves hAnswer hTracks
  have hFresh := h.tracks.fresh i
  have hSaves := h.tracks.orders hMoves hAnswer
  generalize hPh : ph i = phase at hMoves hFresh hSaves
  have hQuiet := fun hOrders hPublished =>
    h.quiet hTracks hOrders hPublished (by rw [hPh]; cases hMoves <;> simp)
      (by rw [hPh]; cases hMoves <;> simp)
  rw [hPh] at hQuiet
  cases hMoves with
  | found order =>
    refine ⟨_, told, hQuiet (World.answer_orders hAnswer (by simp))
      (World.answer_published hAnswer (by simp)) (.inl rfl) fun row hRow => ?_⟩
    obtain rfl : order = row := by simpa using hRow
    rcases hAnswer with ⟨hFound, -⟩ | ⟨-, e, -, hError, -⟩
    · exact hFresh trivial order
        (World.stored_of_getByClientOrderId (Except.ok.inj hFound).symm).1
    · cases hError
  | savedFilled order executedPrice hStatus hPrice =>
    have hSaved := h.tracks.saved hPh hAnswer
    exact ⟨_, told, h.save hTracks hPh (by rw [hSaved]) (by rw [hSaved]) rfl⟩
  | savedOpen order hOpen =>
    have hSaved := h.tracks.saved hPh hAnswer
    exact ⟨_, told, h.save hTracks hPh (by rw [hSaved]) (by rw [hSaved]) rfl⟩
  | saveRaised order e =>
    obtain ⟨-, -, hSame⟩ : ∃ e', Except.error e = .error e' ∧ c'.state = c.state := by
      rcases World.answer_saveOrder hAnswer with ⟨hOk, -⟩ | ⟨e', hError, hSame⟩
      · cases hOk
      · exact ⟨e', hError, hSame⟩
    exact ⟨_, told, hQuiet (by rw [hSame]) (by rw [hSame]) (.inr ⟨e, rfl⟩) (by simp)⟩
  | announced order =>
    have hPublished : c'.state = c.state.publish order.stateChanged := by
      rcases hAnswer with ⟨-, hDone⟩ | ⟨-, e, -, hError, -⟩
      · exact hDone
      · cases hError
    exact ⟨_, _, h.announce hTracks hPh hIds (by rw [hPublished]; rfl)
      (by rw [hPublished]; rfl) rfl⟩
  | publishRaised order e =>
    have hSame : c'.state = c.state := by
      rcases hAnswer with ⟨hOk, -⟩ | ⟨-, e', -, -, hDone⟩
      · cases hOk
      · exact hDone
    exact ⟨_, told, hQuiet (by rw [hSame]) (by rw [hSame]) (.inr ⟨e, rfl⟩) (by simp)⟩
  | _ =>
    exact ⟨_, told, hQuiet (World.answer_orders hAnswer (by simp))
      (World.answer_published hAnswer (by simp)) (by simp [Phase.unannounced]) (by simp)⟩

theorem of_run [DecidableEq ι] (hDrawn : Drawn calls w₀)
    (h : Run (World.answer ext) (Trading.start calls w₀) log c) :
    ∃ ph told, Told calls w₀ c ph told :=
  h.invariant (I := fun _ c => ∃ ph told, Told calls w₀ c ph told) ⟨_, _, .start hDrawn⟩
    fun _ _ _ _ ⟨_, _, hTold⟩ hStep => hTold.step hDrawn.injective hStep

end Told

/-- **One event for each order.** In every interleaving, whichever calls of the ports raise,
the run has published one event for each order of a list without repetitions. The list has
the stored orders that their own calls have returned; a row that is not in it was there at
the start, or its call has not returned. -/
theorem announced_once [DecidableEq ι] {ext : Externals} {calls : ι → Call} {w₀ : World}
    {log : PoolLog ι} {c : PoolConfig ι} (hDrawn : Drawn calls w₀)
    (h : Run (World.answer ext) (start calls w₀) log c) :
    ∃ told : List TradeOrder,
      c.state.published = w₀.published ++ told.map TradeOrder.stateChanged ∧
      told.Nodup ∧
      (∀ order, order ∈ told ↔ order ∈ c.state.orders ∧
        ∃ i, c.threads i = ret (.ok order) ∧ order.id = (calls i).id) ∧
      ∀ order ∈ c.state.orders, order ∉ told → order ∈ w₀.orders ∨
        ∃ i, order.id = (calls i).id ∧ ∀ result, c.threads i ≠ ret result := by
  obtain ⟨ph, told, hTold⟩ := Told.of_run hDrawn h
  refine ⟨told, hTold.published, hTold.nodup, fun order => ⟨fun hMem => ?_, ?_⟩,
    fun order hRow hUntold => ?_⟩
  · obtain ⟨hRow, i, hPh, hId⟩ := hTold.announced order hMem
    exact ⟨hRow, i, hTold.tracks.returned_iff.mpr hPh, hId⟩
  · rintro ⟨-, i, hReturned, hId⟩
    exact hTold.own i order (hTold.tracks.returned_iff.mp hReturned) hId
  · rcases hTold.rows order hRow with hInit | hMem | ⟨i, hId, hPh⟩
    · exact .inl hInit
    · exact absurd hMem hUntold
    · refine .inr ⟨i, hId, fun result hReturned => ?_⟩
      rw [hTold.tracks.returned_iff.mp hReturned] at hPh
      rcases hPh with hPh | ⟨e, hPh⟩ <;> cases hPh

end Calls

namespace Announcing

open Overlap Answering

local instance : PyText := asciiText

/-- Two calls submit, one order is announced. -/
theorem answering_announced :
    ∃ told : List TradeOrder, answering.2.state.published = told.map TradeOrder.stateChanged ∧
      told.Nodup ∧ stored ∈ told := by
  obtain ⟨told, hPublished, hNodup, hTold, -⟩ :=
    announced_once overlapping_drawn answering_run
  refine ⟨told, hPublished, hNodup, (hTold stored).mpr ⟨?_, true, ?_, rfl⟩⟩
  · have hRow : ∃ row ∈ answering.2.state.orders, row = stored := by decide +kernel
    obtain ⟨row, hRow, rfl⟩ := hRow
    exact hRow
  · exact resultOf_eq_some.mp (by decide +kernel)

end Announcing

end TradingAgent.Trading
