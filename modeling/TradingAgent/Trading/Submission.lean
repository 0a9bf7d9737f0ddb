import TradingAgent.Trading.Interleaving
import TradingAgent.Trading.Gateways

/-!
# Submissions of concurrent calls

`execute` checks that no order is stored under the client order id, asks the risk gate,
submits, and only then stores. Between the check and the store other calls run, so the
check can be out of date at the submission: two overlapping calls with one id both submit
(`twice_submitted`).

`Settled` says when the check is still good at a submission: nothing is stored under the
id, no call is about to store an order under it, and no submission or store under it has
raised before. A run submits every id at most once exactly when all its submissions are
settled (`submitted_once_iff`). The invariant behind it is `Accounted`: every submission
so far is stored, or about to be stored, or has been lost to an exception.
-/

namespace TradingAgent.Trading

open Coroutine Coro

section Calls

variable [PyText] {ι : Type}

/-- The step calls `submit_market_order` for the client order id. -/
def submits (clientOrderId : String) (s : PoolConfig ι × Event Exn Ret ι) : Bool :=
  match s.2.op with
  | .submitMarketOrder order => order.clientOrderId = clientOrderId
  | _ => false

/-- The step is a submission or a store for the client order id that raises. -/
def loses (clientOrderId : String) (s : PoolConfig ι × Event Exn Ret ι) : Bool :=
  match s.2 with
  | ⟨_, .submitMarketOrder order, .error _⟩ => order.clientOrderId = clientOrderId
  | ⟨_, .saveOrder order, .error _⟩ => order.clientOrderId = clientOrderId
  | _ => false

def Submitted (log : PoolLog ι) (clientOrderId : String) : Prop :=
  ∃ s ∈ log, submits clientOrderId s

def Lost (log : PoolLog ι) (clientOrderId : String) : Prop :=
  ∃ s ∈ log, loses clientOrderId s

omit [PyText] in
theorem submitted_concat {log : PoolLog ι} {s : PoolConfig ι × Event Exn Ret ι} {k : String} :
    Submitted (log ++ [s]) k ↔ Submitted log k ∨ submits k s := by
  simp [Submitted, or_and_right, exists_or]

omit [PyText] in
theorem lost_concat {log : PoolLog ι} {s : PoolConfig ι × Event Exn Ret ι} {k : String} :
    Lost (log ++ [s]) k ↔ Lost log k ∨ loses k s := by
  simp [Lost, or_and_right, exists_or]

/-- Nothing is stored under the id, no call is about to store under it, and no submission
or store under it has raised. -/
def Settled (before : PoolLog ι) (c : PoolConfig ι) (clientOrderId : String) : Prop :=
  c.state.getByClientOrderId clientOrderId = none ∧
    (∀ j order, (c.threads j).pending = some (.saveOrder order) →
      order.clientOrderId ≠ clientOrderId) ∧
    ¬Lost before clientOrderId

/-- Every submission of the log is accounted for. -/
structure Accounted (calls : ι → Call) (w₀ : World) (log : PoolLog ι) (c : PoolConfig ι)
    (ph : ι → Phase) : Prop where
  tracks : Tracks calls c ph
  kept : ∀ k, w₀.Stores k → c.state.Stores k
  looked : ∀ i, (ph i = .authorizing ∨ ∃ order, ph i = .submitting order) →
    ¬w₀.Stores (calls i).command.clientOrderId
  stored : ∀ k, c.state.Stores k → w₀.Stores k ∨ Submitted log k
  saving : ∀ i order, ph i = .saving order → Submitted log order.clientOrderId
  accounted : ∀ k, Submitted log k →
    c.state.Stores k ∨ (∃ i order, ph i = .saving order ∧ order.clientOrderId = k) ∨ Lost log k
  lost : ∀ k, Lost log k → Submitted log k

namespace Accounted

variable {ext : Externals} {calls : ι → Call} {w₀ w' : World} {log : PoolLog ι}
  {c c' : PoolConfig ι} {ph : ι → Phase} {e : Event Exn Ret ι} {i : ι} {op : Op}
  {r : Except Exn (Ret op)} {ph' : Phase}

theorem start (hDrawn : Drawn calls w₀) :
    Accounted calls w₀ [] (start calls w₀) fun _ => .looking where
  tracks := .start hDrawn
  kept _ h := h
  looked i h := by simp at h
  stored _ h := .inl h
  saving i order h := by cases h
  accounted k h := by simp [Submitted] at h
  lost k h := by simp [Lost] at h

/-! One lemma for each part of the invariant: a move of the call `i` that the world
answers preserves it. -/

section Move

variable (h : Accounted calls w₀ log c ph) (hMoves : Phase.Moves (calls i) (ph i) op r ph')
  (hAnswer : World.answer ext c.state op r w')
include h hMoves hAnswer

/-- Stored orders stay. -/
theorem stores_mono {k : String} (hk : c.state.Stores k) : w'.Stores k := by
  obtain ⟨order, hOrder, hk⟩ := hk
  refine ⟨order, ?_, hk⟩
  rcases h.tracks.orders hMoves hAnswer with hSame | ⟨added, -, hAdded, -⟩
  · rwa [hSame]
  · rw [hAdded]
    exact List.mem_append_left _ hOrder

/-- The lookup of a call that goes on to the submission found nothing. -/
theorem looked_move (hPh' : ph' = .authorizing ∨ ∃ order, ph' = .submitting order) :
    ¬w₀.Stores (calls i).command.clientOrderId := by
  generalize hPh : ph i = phase at hMoves
  cases hMoves with
  | missing =>
    rcases hAnswer with ⟨hNone, -⟩ | ⟨-, e, -, hError, -⟩
    · have hFree := World.getByClientOrderId_eq_none.mp (Except.ok.inj hNone).symm
      exact fun hInit => hFree (h.kept _ hInit)
    · cases hError
  | allowed reason order hCreate => exact h.looked i (.inl hPh)
  | _ => simp at hPh'

theorem stored_move {k : String} (hk : w'.Stores k) : w₀.Stores k ∨ Submitted log k := by
  obtain ⟨order, hOrder, hk⟩ := hk
  rcases h.tracks.orders hMoves hAnswer with hSame | ⟨added, hPh, hAdded, -⟩
  · rw [hSame] at hOrder
    exact h.stored k ⟨order, hOrder, hk⟩
  · rw [hAdded] at hOrder
    rcases List.mem_append.mp hOrder with hOrder | hOrder
    · exact h.stored k ⟨order, hOrder, hk⟩
    · obtain rfl := List.mem_singleton.mp hOrder
      exact .inr (hk ▸ h.saving i order hPh)

/-- A call comes to its saving phase by a submission. -/
theorem saving_move {order : TradeOrder} (hPh' : ph' = .saving order) :
    submits order.clientOrderId (c, ⟨i, op, r⟩) := by
  generalize hPh : ph i = phase at hMoves
  cases hMoves with
  | accepted sent submitted =>
    obtain rfl := Phase.saving.inj hPh'
    have hSent := h.tracks.ofCall i sent (by rw [hPh]; rfl)
    have hSubmitted := hSent.executed (World.answer_submitMarketOrder hAnswer).1
    simp [submits, hSent.clientOrderId_eq, hSubmitted.clientOrderId_eq]
  | _ => cases hPh'

/-- A call that was about to store has stored its order, or has lost it. -/
theorem saved_move {order : TradeOrder} (hPh : ph i = .saving order) :
    w'.Stores order.clientOrderId ∨ loses order.clientOrderId (c, ⟨i, op, r⟩) := by
  have hOfCall := h.tracks.ofCall i order (by rw [hPh]; rfl)
  have hFresh : ∀ row ∈ c.state.orders, row.id ≠ order.id := by
    rw [hOfCall.id_eq]
    exact h.tracks.fresh i (by rw [hPh]; trivial)
  rw [hPh] at hMoves
  cases hMoves with
  | saveRaised _ e => exact .inr (by simp [loses])
  | _ =>
    rcases World.answer_saveOrder hAnswer with ⟨-, hSaved⟩ | ⟨e, hError, -⟩
    · rw [(World.saveOrder_fresh hFresh hSaved).1]
      exact .inl ⟨order, List.mem_append_right _ (List.mem_singleton_self _), rfl⟩
    · cases hError

/-- A call that submits is about to store the order, or has lost it. -/
theorem submitted_move {k : String} (hk : submits k (c, ⟨i, op, r⟩)) :
    (∃ order, ph' = .saving order ∧ order.clientOrderId = k) ∨ loses k (c, ⟨i, op, r⟩) := by
  generalize hPh : ph i = phase at hMoves
  cases hMoves with
  | accepted sent submitted =>
    have hSent := h.tracks.ofCall i sent (by rw [hPh]; rfl)
    have hSubmitted := hSent.executed (World.answer_submitMarketOrder hAnswer).1
    refine .inl ⟨submitted, rfl, ?_⟩
    rw [hSubmitted.clientOrderId_eq, ← hSent.clientOrderId_eq]
    simpa [submits] using hk
  | declined sent e message hCaught => exact .inr hk
  | gatewayRaised sent name => exact .inr hk
  | _ => simp [submits] at hk

omit hAnswer in
/-- Only a submitted order can be lost. -/
theorem lost_move {k : String} (hk : loses k (c, ⟨i, op, r⟩)) :
    Submitted log k ∨ submits k (c, ⟨i, op, r⟩) := by
  generalize hPh : ph i = phase at hMoves
  cases hMoves with
  | declined sent e message hCaught => exact .inr hk
  | gatewayRaised sent name => exact .inr hk
  | saveRaised order e =>
    have hk' : order.clientOrderId = k := by simpa [loses] using hk
    exact .inl (hk' ▸ h.saving i order hPh)
  | _ => simp [loses] at hk

end Move

theorem step [DecidableEq ι] (h : Accounted calls w₀ log c ph)
    (hIds : Function.Injective fun i => (calls i).id) (hStep : Step (World.answer ext) c e c') :
    ∃ ph', Accounted calls w₀ (log ++ [(c, e)]) c' ph' := by
  obtain ⟨ph', hMoves, hAnswer, hTracks⟩ := h.tracks.step hIds hStep
  obtain ⟨i, op, r⟩ := e
  dsimp only at hMoves hAnswer hTracks
  refine ⟨Function.update ph i ph', hTracks, fun k hk => h.stores_mono hMoves hAnswer (h.kept k hk),
    fun j hj => ?_, fun k hk => ?_, fun j order hj => ?_, fun k hk => ?_, fun k hk => ?_⟩
  · by_cases hji : j = i
    · subst hji
      rw [Function.update_self] at hj
      exact h.looked_move hMoves hAnswer hj
    · rw [Function.update_of_ne hji] at hj
      exact h.looked j hj
  · exact (h.stored_move hMoves hAnswer hk).imp_right fun hk => submitted_concat.mpr (.inl hk)
  · rw [submitted_concat]
    by_cases hji : j = i
    · subst hji
      rw [Function.update_self] at hj
      exact .inr (h.saving_move hMoves hAnswer hj)
    · rw [Function.update_of_ne hji] at hj
      exact .inl (h.saving j order hj)
  · rw [lost_concat]
    rcases submitted_concat.mp hk with hk | hk
    · rcases h.accounted k hk with hStored | ⟨j, order, hj, rfl⟩ | hLost
      · exact .inl (h.stores_mono hMoves hAnswer hStored)
      · by_cases hji : j = i
        · subst hji
          rcases h.saved_move hMoves hAnswer hj with hStored | hLost
          · exact .inl hStored
          · exact .inr (.inr (.inr hLost))
        · refine .inr (.inl ⟨j, order, ?_, rfl⟩)
          rwa [Function.update_of_ne hji]
      · exact .inr (.inr (.inl hLost))
    · rcases h.submitted_move hMoves hAnswer hk with ⟨order, rfl, hOrder⟩ | hLost
      · exact .inr (.inl ⟨i, order, Function.update_self .., hOrder⟩)
      · exact .inr (.inr (.inr hLost))
  · rw [submitted_concat]
    rcases lost_concat.mp hk with hk | hk
    · exact .inl (h.lost k hk)
    · exact h.lost_move hMoves hk

/-- The invariant holds in every run. -/
theorem of_run [DecidableEq ι] (hDrawn : Drawn calls w₀)
    (h : Run (World.answer ext) (Trading.start calls w₀) log c) :
    ∃ ph, Accounted calls w₀ log c ph :=
  h.invariant (I := fun log c => ∃ ph, Accounted calls w₀ log c ph) ⟨_, .start hDrawn⟩
    fun _ _ _ _ ⟨_, hAccounted⟩ hStep => hAccounted.step hDrawn.injective hStep

/-- At a submission, being settled is having no earlier submission of the id. -/
theorem settled_iff (h : Accounted calls w₀ log c ph) {order : TradeOrder}
    (hPh : ph i = .submitting order) :
    Settled log c order.clientOrderId ↔ ¬Submitted log order.clientOrderId := by
  constructor
  · rintro ⟨hFree, hNone, hKept⟩ hSubmitted
    rcases h.accounted _ hSubmitted with hStored | ⟨j, saved, hj, hSame⟩ | hLost
    · exact World.getByClientOrderId_eq_none.mp hFree hStored
    · exact hNone j saved (h.tracks.pending_saveOrder.mpr hj) hSame
    · exact hKept hLost
  · intro hFirst
    refine ⟨World.getByClientOrderId_eq_none.mpr fun hStored => ?_, fun j saved hj hSame => ?_,
      fun hLost => hFirst (h.lost _ hLost)⟩
    · rcases h.stored _ hStored with hInit | hSubmitted
      · rw [(h.tracks.ofCall i order (by rw [hPh]; rfl)).clientOrderId_eq] at hInit
        exact h.looked i (.inr ⟨order, hPh⟩) hInit
      · exact hFirst hSubmitted
    · rw [h.tracks.pending_saveOrder] at hj
      exact hFirst (hSame ▸ h.saving j saved hj)

end Accounted

/-- **At most one submission.** A run submits each client order id at most once exactly
when the lookup of every call is still good when it submits. -/
theorem submitted_once_iff [DecidableEq ι] {ext : Externals} {calls : ι → Call} {w₀ : World}
    {log : PoolLog ι} {c : PoolConfig ι} (hDrawn : Drawn calls w₀)
    (h : Run (World.answer ext) (start calls w₀) log c) :
    (∀ clientOrderId, log.countP (submits clientOrderId) ≤ 1) ↔
      ∀ before d e after, log = before ++ (d, e) :: after →
        ∀ order, e.op = .submitMarketOrder order → Settled before d order.clientOrderId := by
  -- At each submission, the invariant of the run so far turns the one into the other.
  have hSettled : ∀ before d e after, log = before ++ (d, e) :: after →
      ∀ order, e.op = .submitMarketOrder order →
        (Settled before d order.clientOrderId ↔ ¬Submitted before order.clientOrderId) := by
    intro before d e after hlog order hOp
    obtain ⟨hBefore, d', hStep, -⟩ := h.split hlog
    obtain ⟨ph, hAccounted⟩ := Accounted.of_run hDrawn hBefore
    cases hStep with
    | @mk i op resume r w' hThread hAnswer =>
      obtain rfl : op = .submitMarketOrder order := hOp
      exact hAccounted.settled_iff
        (hAccounted.tracks.pending_submitMarketOrder.mp (by rw [hThread]; rfl))
  constructor
  · intro hOnce before d e after hlog order hOp
    rw [hSettled before d e after hlog order hOp]
    rintro ⟨s, hs, hSubmits⟩
    exact countP_le_one_iff.mp (hOnce order.clientOrderId) before (d, e) after hlog
      (by simp [submits, hOp]) s hs hSubmits
  · intro hAll clientOrderId
    rw [countP_le_one_iff]
    rintro before ⟨d, e⟩ after hlog hSubmits t ht hEarlier
    obtain ⟨order, hOp, rfl⟩ : ∃ order, e.op = .submitMarketOrder order ∧
        order.clientOrderId = clientOrderId := by
      unfold submits at hSubmits
      split at hSubmits
      · exact ⟨_, ‹_›, of_decide_eq_true hSubmits⟩
      · cases hSubmits
    exact (hSettled before d e after hlog order hOp).mp (hAll before d e after hlog order hOp)
      ⟨t, ht, hEarlier⟩

end Calls

/-! ## Two overlapping calls -/

namespace Overlap

local instance : PyText := asciiText

/-- A client retry that overlaps the first request. -/
def overlapping (first : Bool) : Call where
  command :=
    { symbol := "BTC/USDT", side := .buy, quantity := 1, price := 100
      clientOrderId := "demo-1", equity := 10000 }
  id := ⟨if first then "first" else "second"⟩
  now := 0

/-- Both calls look up, are approved, and submit, in turns. -/
def overlap : PoolLog Bool × PoolConfig Bool :=
  simulate (start overlapping {})
    ([true, false, true, false, true, false].map fun i => (i, World.respond deskReplies))

theorem overlapping_drawn : Drawn overlapping {} where
  injective := by
    intro a b
    revert a b
    decide
  fresh _ _ h := by simp at h

theorem overlap_run : Run (World.answer desk) (start overlapping {}) overlap.1 overlap.2 :=
  run_desk (start overlapping {}) [true, false, true, false, true, false]

theorem twice_submitted :
    ∃ log c, Run (World.answer desk) (start overlapping {}) log c ∧
      ¬∀ clientOrderId, log.countP (submits clientOrderId) ≤ 1 :=
  ⟨_, _, overlap_run, fun h => absurd (h "demo-1") (by decide +kernel)⟩

/-- In the overlapping run a submission is not settled. -/
theorem overlap_unsettled :
    ¬∀ before d e after, overlap.1 = before ++ (d, e) :: after →
      ∀ order, e.op = .submitMarketOrder order → Settled before d order.clientOrderId := by
  rw [← submitted_once_iff overlapping_drawn overlap_run]
  exact fun h => absurd (h "demo-1") (by decide +kernel)

end Overlap

end TradingAgent.Trading
