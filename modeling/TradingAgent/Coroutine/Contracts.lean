import TradingAgent.Coroutine.Shared

/-!
# What a call does next

A contract says which operations a call may await, given the last move of the call and the
shared state that it leaves, and with which outcomes it may end. `Heeds` is the proof rule for
one coroutine: each of its operations is awaited as the contract says, whatever the state was
when the answer came. If the two parts of a loop heed a contract, then so does every call in
every interleaved run (`Team.Run.heeded` with `Team.Held.step`).
-/

namespace Coroutine

open Coro Shared

/-- What a call may await after a move in a state, and how it may end. -/
structure Contract (σ ε : Type) {Op : Type} (Ret : Op → Type) (α : Type) where
  may : Move ε Ret → σ → Op → Prop
  ends : Move ε Ret → Except ε α → Prop

variable {σ ε Op ι : Type} {Ret : Op → Type} {α β γ : Type}

/-- From the state `s`, after the move `turn`, the coroutine awaits only what the contract
allows, and `Q` holds when it ends. -/
def Heeds (may : Move ε Ret → σ → Op → Prop) :
    Shared σ ε Ret α → (Except ε α → Move ε Ret → Prop) → Move ε Ret → σ → Prop
  | ret a, Q, turn, _ => Q (.ok a) turn
  | raise e, Q, turn, _ => Q (.error e) turn
  | await .get resume, Q, turn, s => Heeds may (resume (.ok s)) Q turn s
  | await (.put t) resume, Q, turn, _ => Heeds may (resume (.ok ())) Q turn t
  | await (.ext op) resume, Q, turn, s =>
    may turn s op ∧ ∀ r s', Heeds may (resume r) Q (.answer op r) s'

namespace Heeds

variable {may : Move ε Ret → σ → Op → Prop} {Q : Except ε α → Move ε Ret → Prop}
  {turn : Move ε Ret} {s : σ}

@[simp] theorem raise_iff {e : ε} : Heeds may (raise e) Q turn s ↔ Q (.error e) turn := Iff.rfl

theorem bind {m : Shared σ ε Ret β} {f : β → Shared σ ε Ret α}
    {P : Except ε β → Move ε Ret → Prop} (hFirst : Heeds may m P turn s)
    (hOk : ∀ b turn s, P (.ok b) turn → Heeds may (f b) Q turn s)
    (hError : ∀ e turn, P (.error e) turn → Q (.error e) turn) :
    Heeds may (m >>= f) Q turn s := by
  induction m generalizing turn s with
  | ret b => exact hOk b turn s hFirst
  | raise e => exact hError e turn hFirst
  | await op resume ih =>
    cases op with
    | get => exact ih (.ok s) hFirst
    | put t => exact ih (.ok ()) hFirst
    | ext op => exact ⟨hFirst.1, fun r s' => ih r (hFirst.2 r s')⟩

/-- A `try` block, and what follows each of its outcomes. -/
theorem attempt_bind {m : Shared σ ε Ret β} {f : Except ε β → Shared σ ε Ret α}
    {P : Except ε β → Move ε Ret → Prop} (hBody : Heeds may m P turn s)
    (hRest : ∀ out turn s, P out turn → Heeds may (f out) Q turn s) :
    Heeds may (m.attempt >>= f) Q turn s := by
  induction m generalizing turn s with
  | ret b => exact hRest _ turn s hBody
  | raise e => exact hRest _ turn s hBody
  | await op resume ih =>
    cases op with
    | get => exact ih (.ok s) hBody
    | put t => exact ih (.ok ()) hBody
    | ext op => exact ⟨hBody.1, fun r s' => ih r (hBody.2 r s')⟩

@[simp] theorem get_bind_iff {f : σ → Shared σ ε Ret α} :
    Heeds may (get >>= f) Q turn s ↔ Heeds may (f s) Q turn s := Iff.rfl

@[simp] theorem modify_bind_iff {g : σ → σ} {f : Unit → Shared σ ε Ret α} :
    Heeds may (modify g >>= f) Q turn s ↔ Heeds may (f ()) Q turn (g s) := Iff.rfl

theorem ask {op : Op} {Q : Except ε (Ret op) → Move ε Ret → Prop} (hMay : may turn s op)
    (hAnswer : ∀ r, Q r (.answer op r)) : Heeds may (ask op) Q turn s := by
  refine ⟨hMay, fun r s' => ?_⟩
  cases r with
  | ok a => exact hAnswer _
  | error e => exact hAnswer _

theorem settle {m : Shared σ ε Ret α} (h : Heeds may m Q turn s) :
    Heeds may (settle s m).1 Q turn (settle s m).2 := by
  induction m generalizing s with
  | ret a => exact h
  | raise e => exact h
  | await op resume ih =>
    cases op with
    | get => exact ih (.ok s) h
    | put t => exact ih (.ok ()) h
    | ext op => exact h

end Heeds

namespace Contract

variable (C : Contract σ ε Ret (Option α))

/-- The rest of a call heeds the contract. -/
def Kept (m : Shared σ ε Ret (Option α)) (turn : Move ε Ret) (s : σ) : Prop :=
  Heeds C.may m (fun out turn => C.ends turn out) turn s

/-- Whatever a call in progress is answered, it heeds the contract. -/
def Waits (m : Shared σ ε Ret (Option α)) : Prop :=
  ∀ op resume, m = await (.ext op) resume → ∀ r s, C.Kept (resume r) (.answer op r) s

end Contract

/-- The loop heeds the contract, from each of its two starts. -/
structure Loop.Heeds (C : Contract σ ε Ret (Option α)) (loop : Loop σ ε Ret α) : Prop where
  first : ∀ s, C.Kept loop.first .start s
  body : ∀ turn s, C.ends turn (.ok none) → C.Kept loop.body turn s

/-- What the call has settled to after a move: it waits or has ended as the contract says. -/
structure Contract.Settled (C : Contract σ ε Ret (Option α)) (m : Shared σ ε Ret (Option α))
    (turn : Move ε Ret) (s : σ) : Prop where
  waits : C.Waits m
  may : ∀ op resume, m = await (.ext op) resume → C.may turn s op
  ends : ∀ a, m = ret a → C.ends turn (.ok a)

variable {C : Contract σ ε Ret (Option α)} {loop : Loop σ ε Ret α}
  {m : Shared σ ε Ret (Option α)} {turn : Move ε Ret} {s : σ}

theorem Contract.Kept.settle (h : C.Kept m turn s) :
    C.Settled (settle s m).1 turn (settle s m).2 := by
  have hSettled := Heeds.settle h
  rcases settle_cases s m with ⟨a, hRet⟩ | ⟨e, hRaise⟩ | ⟨op, resume, hAwait⟩
  · rw [hRet] at hSettled ⊢
    refine ⟨fun _ _ hAwait => (nomatch hAwait), fun _ _ hAwait => (nomatch hAwait), ?_⟩
    intro b hEq
    cases hEq
    exact hSettled
  · rw [hRaise]
    exact ⟨fun _ _ hAwait => (nomatch hAwait), fun _ _ hAwait => (nomatch hAwait),
      fun _ hEq => (nomatch hEq)⟩
  · rw [hAwait] at hSettled ⊢
    refine ⟨fun op' resume' hEq r s' => ?_, fun op' resume' hEq => ?_, fun _ hEq => (nomatch hEq)⟩
    · cases hEq
      exact hSettled.2 r s'
    · cases hEq
      exact hSettled.1

theorem Contract.Kept.advance (hLoop : loop.Heeds C) (h : C.Kept m turn s) :
    C.Settled (loop.advance s m).1 turn (loop.advance s m).2 := by
  have hSettled := h.settle
  unfold Loop.advance
  split
  · next s' hOver =>
    rw [hOver] at hSettled
    exact (hLoop.body turn s' (hSettled.ends none rfl)).settle
  · exact hSettled

namespace Team

variable {c₀ c c' : Team σ ε Ret ι α} {log : List (Visit σ ε Ret ι α)} {i : ι}

/-- All calls heed the contract. -/
def Held (C : Contract σ ε Ret (Option α)) (c : Team σ ε Ret ι α) : Prop :=
  ∀ i m, c.calls i = some m → C.Waits m

theorem Held.of_idle (hIdle : ∀ i, ¬Running (c.calls i)) : Held C c :=
  fun i _ hCall op resume hAwait => absurd ⟨op, resume, hAwait ▸ hCall⟩ (hIdle i)

variable [DecidableEq ι]

/-- A move changes the call of its caller only, and leaves it as the contract says. -/
theorem Held.step (hHeld : Held C c) (hLoop : loop.Heeds C) (hStep : Step loop c i turn c') :
    (∃ m, c'.calls i = some m ∧ C.Settled m turn c'.state) ∧
      ∀ j, j ≠ i → c'.calls j = c.calls j := by
  have hResumed {m : Shared σ ε Ret (Option α)} (hKept : C.Kept m turn c.state) :
      (∃ m', (c.resumed loop i m).calls i = some m' ∧
        C.Settled m' turn (c.resumed loop i m).state) ∧
      ∀ j, j ≠ i → (c.resumed loop i m).calls j = c.calls j :=
    ⟨⟨_, Function.update_self .., hKept.advance hLoop⟩, fun j hOther =>
      Function.update_of_ne hOther ..⟩
  cases hStep with
  | start hFree => exact hResumed (hLoop.first c.state)
  | answer hCall r => exact hResumed (hHeld i _ hCall _ _ rfl r c.state)

/-- **Every call heeds the contract**, in every interleaving. -/
theorem Run.heeded (hLoop : loop.Heeds C) (hHeld : Held C c₀) (h : Run loop c₀ log c) :
    Held C c := by
  induction h with
  | nil => exact hHeld
  | @snoc log c c' i turn hRun hStep ih =>
    obtain ⟨⟨m, hCall, hSettled⟩, hOthers⟩ := ih.step hLoop hStep
    intro j m' hCall'
    by_cases hSame : j = i
    · subst hSame
      rw [hCall, Option.some.injEq] at hCall'
      exact hCall' ▸ hSettled.waits
    · rw [hOthers j hSame] at hCall'
      exact ih j m' hCall'

end Team

end Coroutine
