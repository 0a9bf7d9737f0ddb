import TradingAgent.Coroutine.Shared

/-!
# Views of a shared state

An observer sees part of the shared state and predicts it from the answers that the callers
receive. `Tracks` is the proof rule for one coroutine: at each awaited operation the view is
what was predicted, whatever the state was when the answer came. If the two parts of a loop
track the observer, then after every interleaved run the view is the prediction from the log
(`Team.Run.view_eq`).
-/

namespace Coroutine

open Coro Shared

/-- A view of the state, and what an answer makes of it. -/
structure Observer (σ ε : Type) {Op : Type} (Ret : Op → Type) (τ : Type) where
  view : σ → τ
  track : τ → (op : Op) → Except ε (Ret op) → τ

variable {σ τ ε Op ι : Type} {Ret : Op → Type} {α β : Type}

/-- From the state `s`, for which the view `v` is predicted, the coroutine has the predicted
view at each awaited operation, and `Q` when it ends. -/
def Tracks (O : Observer σ ε Ret τ) :
    Shared σ ε Ret α → (Except ε α → τ → σ → Prop) → τ → σ → Prop
  | ret a, Q, v, s => Q (.ok a) v s
  | raise e, Q, v, s => Q (.error e) v s
  | await .get resume, Q, v, s => Tracks O (resume (.ok s)) Q v s
  | await (.put t) resume, Q, v, _ => Tracks O (resume (.ok ())) Q v t
  | await (.ext op) resume, Q, v, s =>
    O.view s = v ∧ ∀ r s', Tracks O (resume r) Q (O.track (O.view s') op r) s'

namespace Tracks

variable {O : Observer σ ε Ret τ} {Q : Except ε α → τ → σ → Prop} {v : τ} {s : σ}

@[simp] theorem raise_iff {e : ε} : Tracks O (raise e) Q v s ↔ Q (.error e) v s := Iff.rfl

/-- A sequence tracks the observer if its first part does up to the second. -/
theorem bind {m : Shared σ ε Ret β} {f : β → Shared σ ε Ret α}
    (h : Tracks O m (fun out v s => Tracks O (ofExcept out >>= f) Q v s) v s) :
    Tracks O (m >>= f) Q v s := by
  induction m generalizing v s with
  | ret b => exact h
  | raise e => exact h
  | await op resume ih =>
    cases op with
    | get => exact ih (.ok s) h
    | put t => exact ih (.ok ()) h
    | ext op => exact ⟨h.1, fun r s' => ih r (h.2 r s')⟩

theorem attempt {m : Shared σ ε Ret α} {Q : Except ε (Except ε α) → τ → σ → Prop}
    (h : Tracks O m (fun out v s => Q (.ok out) v s) v s) : Tracks O m.attempt Q v s := by
  induction m generalizing v s with
  | ret b => exact h
  | raise e => exact h
  | await op resume ih =>
    cases op with
    | get => exact ih (.ok s) h
    | put t => exact ih (.ok ()) h
    | ext op => exact ⟨h.1, fun r s' => ih r (h.2 r s')⟩

@[simp] theorem get_bind_iff {f : σ → Shared σ ε Ret α} :
    Tracks O (get >>= f) Q v s ↔ Tracks O (f s) Q v s := Iff.rfl

@[simp] theorem modify_bind_iff {g : σ → σ} {f : Unit → Shared σ ε Ret α} :
    Tracks O (modify g >>= f) Q v s ↔ Tracks O (f ()) Q v (g s) := Iff.rfl

theorem ask {op : Op} {Q : Except ε (Ret op) → τ → σ → Prop} (hView : O.view s = v)
    (hAnswer : ∀ r s', Q r (O.track (O.view s') op r) s') : Tracks O (ask op) Q v s := by
  refine ⟨hView, fun r s' => ?_⟩
  cases r with
  | ok a => exact hAnswer _ s'
  | error e => exact hAnswer _ s'

theorem settle {m : Shared σ ε Ret α} (h : Tracks O m Q v s) :
    Tracks O (settle s m).1 Q v (settle s m).2 := by
  induction m generalizing s with
  | ret a => exact h
  | raise e => exact h
  | await op resume ih =>
    cases op with
    | get => exact ih (.ok s) h
    | put t => exact ih (.ok ()) h
    | ext op => exact h

end Tracks

/-- The view is what was predicted. -/
def Observer.Keeps (O : Observer σ ε Ret τ) (_ : Except ε α) (v : τ) (s : σ) : Prop := O.view s = v

/-- What a call in progress does with an answer is tracked. -/
def Observer.Tracked (O : Observer σ ε Ret τ) (m : Shared σ ε Ret (Option α)) : Prop :=
  ∀ op resume, m = await (.ext op) resume →
    ∀ r s, Tracks O (resume r) O.Keeps (O.track (O.view s) op r) s

/-- The loop tracks the observer, from each of its two starts. -/
structure Loop.Tracks (O : Observer σ ε Ret τ) (loop : Loop σ ε Ret α) : Prop where
  first : ∀ s, Coroutine.Tracks O loop.first O.Keeps (O.view s) s
  body : ∀ s, Coroutine.Tracks O loop.body O.Keeps (O.view s) s

variable {O : Observer σ ε Ret τ} {loop : Loop σ ε Ret α} {m : Shared σ ε Ret (Option α)}
  {v : τ} {s : σ}

theorem Observer.settled (h : Coroutine.Tracks O m O.Keeps v s) :
    O.view (settle s m).2 = v ∧ O.Tracked (settle s m).1 := by
  have hSettled := h.settle
  rcases settle_cases s m with ⟨a, hRet⟩ | ⟨e, hRaise⟩ | ⟨op, resume, hAwait⟩
  · rw [hRet] at hSettled ⊢
    exact ⟨hSettled, fun _ _ hAwait => nomatch hAwait⟩
  · rw [hRaise] at hSettled ⊢
    exact ⟨hSettled, fun _ _ hAwait => nomatch hAwait⟩
  · rw [hAwait] at hSettled ⊢
    refine ⟨hSettled.1, fun op' resume' hEq r s' => ?_⟩
    cases hEq
    exact hSettled.2 r s'

theorem Observer.advanced (hLoop : loop.Tracks O) (h : Coroutine.Tracks O m O.Keeps v s) :
    O.view (loop.advance s m).2 = v ∧ O.Tracked (loop.advance s m).1 := by
  have hSettled := Observer.settled h
  unfold Loop.advance
  split
  · next s' hOver =>
    rw [hOver] at hSettled
    have hView : O.view s' = v := hSettled.1
    rw [← hView]
    exact Observer.settled (hLoop.body s')
  · exact hSettled

namespace Team

/-- What the observer predicts after a turn. -/
def Visit.observe (O : Observer σ ε Ret τ) (v : τ) (visit : Visit σ ε Ret ι α) : τ :=
  match visit.turn with
  | .start => v
  | .answer op r => O.track v op r

variable [DecidableEq ι] {c₀ c : Team σ ε Ret ι α} {log : List (Visit σ ε Ret ι α)}

/-- **The view is predicted by the log.** -/
theorem Run.view_eq (hLoop : loop.Tracks O) (hIdle : ∀ i, ¬Running (c₀.calls i))
    (h : Run loop c₀ log c) : O.view c.state = log.foldl (Visit.observe O) (O.view c₀.state) := by
  have hAll : O.view c.state = log.foldl (Visit.observe O) (O.view c₀.state) ∧
      ∀ i m, c.calls i = some m → O.Tracked m := by
    induction h with
    | nil =>
      refine ⟨rfl, fun i m hCall op resume hAwait => ?_⟩
      exact absurd ⟨op, resume, hAwait ▸ hCall⟩ (hIdle i)
    | @snoc log c c' i turn hRun hStep ih =>
      obtain ⟨hView, hCalls⟩ := ih
      rw [List.foldl_append, ← hView]
      have hResumed {m : Shared σ ε Ret (Option α)} {v : τ}
          (hTracks : Coroutine.Tracks O m O.Keeps v c.state) :
          O.view (c.resumed loop i m).state = v ∧
            ∀ j m', (c.resumed loop i m).calls j = some m' → O.Tracked m' := by
        obtain ⟨hState, hSelf⟩ := Observer.advanced hLoop hTracks
        refine ⟨hState, fun j m' hCall => ?_⟩
        by_cases hSame : j = i
        · subst hSame
          simp only [resumed, Function.update_self, Option.some.injEq] at hCall
          rw [← hCall]
          exact hSelf
        · simp only [resumed, Function.update_of_ne hSame] at hCall
          exact hCalls j m' hCall
      cases hStep with
      | start hFree => exact hResumed (hLoop.first c.state)
      | answer hCall r => exact hResumed (hCalls i _ hCall _ _ rfl r c.state)
  exact hAll.1

end Team

end Coroutine
