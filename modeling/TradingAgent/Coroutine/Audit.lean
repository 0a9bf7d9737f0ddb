import TradingAgent.Coroutine.Pool

/-!
# Contracts with a record

`Obeys` lets a coroutine await the same operations at any time. An `Audit` keeps a record of
what the coroutine was answered so far, and what it may await next depends on the record.
`Passes` is the contract, with rules for the ways in which coroutines are put together.

In an interleaving each coroutine has a record of its own. `Run.audited` is the invariant
rule for what relates the shared state, the history and all records, and
`Run.audited_alone` is the rule for one coroutine and its own history.
-/

namespace Coroutine

open Coro

/-- What a coroutine may await after a record, what it relies on, and how an answer is
recorded. -/
structure Audit (γ ε : Type) {Op : Type} (Ret : Op → Type) where
  may : γ → Op → Prop
  rely : (op : Op) → Except ε (Ret op) → Prop
  record : γ → (op : Op) → Except ε (Ret op) → γ

variable {σ γ ε Op ι : Type} {Ret : Op → Type}

/-- Whatever it is answered, the coroutine awaits only these operations. -/
def Awaits {α : Type} (may : Op → Prop) (m : Coro ε Ret α) : Prop :=
  Obeys may (fun _ _ => True) (fun _ => True) m

namespace Awaits

variable {α β : Type} {may : Op → Prop}

theorem call {op : Op} (h : may op) : Awaits may (Coro.call op : Coro ε Ret (Ret op)) :=
  Obeys.call h fun _ _ => trivial

theorem ofExcept (x : Except ε α) : Awaits may (Coro.ofExcept x : Coro ε Ret α) := by
  cases x <;> exact trivial

theorem bind {m : Coro ε Ret α} {f : α → Coro ε Ret β} (hFirst : Awaits may m)
    (hRest : ∀ a, Awaits may (f a)) : Awaits may (m >>= f) :=
  Obeys.bind hFirst (fun a _ => hRest a) fun _ _ => trivial

theorem attempt {m : Coro ε Ret α} (h : Awaits may m) : Awaits may m.attempt :=
  Obeys.attempt h fun _ _ => trivial

end Awaits

namespace Audit

variable {α β : Type} (A : Audit γ ε Ret)

/-- The coroutine keeps to the audit from the record `g` on, and ends with `post`. -/
def Passes (post : Except ε α → γ → Prop) : γ → Coro ε Ret α → Prop
  | g, ret a => post (.ok a) g
  | g, raise e => post (.error e) g
  | g, await op resume =>
    A.may g op ∧ ∀ r, A.rely op r → Passes post (A.record g op r) (resume r)

variable {A} {g : γ}

theorem Passes.call {op : Op} {post : Except ε (Ret op) → γ → Prop} (hMay : A.may g op)
    (hPost : ∀ r, A.rely op r → post r (A.record g op r)) : A.Passes post g (Coro.call op) := by
  refine ⟨hMay, fun r hr => ?_⟩
  cases r with
  | ok a => exact hPost _ hr
  | error e => exact hPost _ hr

theorem Passes.ofExcept {x : Except ε α} {post : Except ε α → γ → Prop} (h : post x g) :
    A.Passes post g (Coro.ofExcept x) := by
  cases x with
  | ok a => exact h
  | error e => exact h

theorem Passes.bind {m : Coro ε Ret α} {f : α → Coro ε Ret β} {P : Except ε α → γ → Prop}
    {Q : Except ε β → γ → Prop} (hFirst : A.Passes P g m)
    (hOk : ∀ a g', P (.ok a) g' → A.Passes Q g' (f a))
    (hError : ∀ e g', P (.error e) g' → Q (.error e) g') : A.Passes Q g (m >>= f) := by
  induction m generalizing g with
  | ret a => exact hOk a g hFirst
  | raise e => exact hError e g hFirst
  | await op resume ih => exact ⟨hFirst.1, fun r hr => ih r (hFirst.2 r hr)⟩

/-- A `try` block, and what follows each of its outcomes. -/
theorem Passes.attempt_bind {m : Coro ε Ret α} {f : Except ε α → Coro ε Ret β}
    {P : Except ε α → γ → Prop} {Q : Except ε β → γ → Prop} (hBody : A.Passes P g m)
    (hRest : ∀ out g', P out g' → A.Passes Q g' (f out)) : A.Passes Q g (m.attempt >>= f) := by
  induction m generalizing g with
  | ret a => exact hRest _ g hBody
  | raise e => exact hRest _ g hBody
  | await op resume ih => exact ⟨hBody.1, fun r hr => ih r (hBody.2 r hr)⟩

theorem Passes.mono {m : Coro ε Ret α} {P Q : Except ε α → γ → Prop} (h : A.Passes P g m)
    (hPost : ∀ out g', P out g' → Q out g') : A.Passes Q g m := by
  induction m generalizing g with
  | ret a => exact hPost _ g h
  | raise e => exact hPost _ g h
  | await op resume ih => exact ⟨h.1, fun r hr => ih r (h.2 r hr)⟩

/-- A coroutine that awaits only what the audit always allows passes it. -/
theorem Passes.of_awaits {may : Op → Prop} {m : Coro ε Ret α} (h : Awaits may m)
    (hMay : ∀ g op, may op → A.may g op) : A.Passes (fun _ _ => True) g m := by
  induction m generalizing g with
  | ret a => exact trivial
  | raise e => exact trivial
  | await op resume ih => exact ⟨hMay g op h.1, fun r _ => ih r (h.2 r trivial)⟩

end Audit

/-- The audit of a coroutine `i` whose record is its own history. -/
def Audit.history (i : ι) (may : List (Event ε Ret ι) → Op → Prop) :
    Audit (List (Event ε Ret ι)) ε Ret where
  may := may
  rely _ _ := True
  record own op r := own ++ [⟨i, op, r⟩]

namespace Run

variable {α : ι → Type} [DecidableEq ι] {E : Environment σ ε Ret} {c₀ c : Config σ ε Ret α}
  {log : Log σ ε Ret α} {A : Audit γ ε Ret}

/-- The steps of one coroutine, as it sees them. -/
def own (i : ι) (log : Log σ ε Ret α) : List (Event ε Ret ι) :=
  (log.map Prod.snd).filter fun e => e.thread = i

/-- A part of the own history of a coroutine is a part of the log. -/
theorem exists_sublist_of_own {i : ι} {events : List (Event ε Ret ι)}
    (h : events.Sublist (own i log)) :
    ∃ steps : Log σ ε Ret α, steps.Sublist log ∧ steps.map Prod.snd = events := by
  obtain ⟨steps, hSteps, hMap⟩ := List.sublist_map_iff.mp (h.trans List.filter_sublist)
  exact ⟨steps, hSteps, hMap.symm⟩

/-- Coroutines that all pass an audit: what relates the history, the state and the records at
the start, and is kept by every answer to an operation that the audit allows, holds in every
interleaving. -/
theorem audited {post : (i : ι) → Except ε (α i) → γ → Prop}
    {J : List (Event ε Ret ι) → σ → (ι → γ) → Prop} {g₀ : ι → γ} (h : Run E c₀ log c)
    (h₀ : J [] c₀.state g₀) (hThreads : ∀ i, A.Passes (post i) (g₀ i) (c₀.threads i))
    (hStep : ∀ events s g i op r s', J events s g → A.may (g i) op → E s op r s' →
      A.rely op r ∧
        J (events ++ [⟨i, op, r⟩]) s' (Function.update g i (A.record (g i) op r))) :
    ∃ g, J (log.map Prod.snd) c.state g ∧ ∀ i, A.Passes (post i) (g i) (c.threads i) := by
  induction h with
  | nil => exact ⟨g₀, h₀, hThreads⟩
  | snoc _ hs ih =>
    obtain ⟨g, hBefore, hPasses⟩ := ih
    cases hs with
    | @mk i op resume r s' hThread hAnswer =>
      have hMover := hPasses i
      rw [hThread] at hMover
      obtain ⟨hRely, hAfter⟩ := hStep _ _ g i op r s' hBefore hMover.1 hAnswer
      refine ⟨_, by rwa [List.map_append], fun j => ?_⟩
      dsimp only
      by_cases hji : j = i
      · subst hji
        rw [Function.update_self, Function.update_self]
        exact hMover.2 r hRely
      · rw [Function.update_of_ne hji, Function.update_of_ne hji]
        exact hPasses j

/-- A coroutine that passes an audit, among any others, when it is answered as it relies on:
what relates its own history and its record at the start, and is kept by every answer to an
operation that the audit allows, holds in every interleaving. -/
theorem audited_alone {i : ι} {post : Except ε (α i) → γ → Prop}
    {K : List (Event ε Ret ι) → γ → Prop} {g : γ} (h : Run E c₀ log c) (h₀ : K [] g)
    (hThread : A.Passes post g (c₀.threads i))
    (hRely : ∀ s ∈ log, s.2.thread = i → A.rely s.2.op s.2.answer)
    (hKeep : ∀ events g op r, K events g → A.may g op → A.rely op r →
      K (events ++ [⟨i, op, r⟩]) (A.record g op r)) :
    ∃ g, K ((log.map Prod.snd).filter fun e => e.thread = i) g ∧
      A.Passes post g (c.threads i) := by
  induction h with
  | nil => exact ⟨g, h₀, hThread⟩
  | snoc _ hs ih =>
    obtain ⟨g', hBefore, hPasses⟩ := ih fun s hs => hRely s (List.mem_append_left _ hs)
    have hLast := hRely _ (List.mem_append_right _ (List.mem_singleton_self _))
    rw [List.map_append, List.filter_append, List.map_singleton]
    cases hs with
    | @mk j op resume r s' hAwait hAnswer =>
      by_cases hji : j = i
      · subst hji
        rw [hAwait] at hPasses
        have hOwn : [(⟨j, op, r⟩ : Event ε Ret ι)].filter (fun e => e.thread = j) =
          [⟨j, op, r⟩] := List.filter_cons_of_pos (decide_eq_true rfl)
        rw [hOwn]
        dsimp only
        rw [Function.update_self]
        exact ⟨_, hKeep _ g' op r hBefore hPasses.1 (hLast rfl), hPasses.2 r (hLast rfl)⟩
      · have hOther : [(⟨j, op, r⟩ : Event ε Ret ι)].filter (fun e => e.thread = i) = [] :=
          List.filter_cons_of_neg (by simpa using hji)
        rw [hOther, List.append_nil]
        dsimp only
        rw [Function.update_of_ne (Ne.symm hji)]
        exact ⟨g', hBefore, hPasses⟩

/-- Whatever a coroutine awaits, its own history before the step allows it. -/
theorem audited_history {i : ι} {may : List (Event ε Ret ι) → Op → Prop}
    {post : Except ε (α i) → List (Event ε Ret ι) → Prop} {before after : Log σ ε Ret α}
    {s : Config σ ε Ret α × Event ε Ret ι} (h : Run E c₀ (before ++ s :: after) c)
    (hThread : (Audit.history i may).Passes post [] (c₀.threads i)) (hs : s.2.thread = i) :
    may (own i before) s.2.op := by
  obtain ⟨d, e⟩ := s
  obtain ⟨hBefore, d', hStep, -⟩ := h.split rfl
  obtain ⟨_, rfl, hPasses⟩ := hBefore.audited_alone (K := fun events g => events = g) rfl hThread
    (fun _ _ _ => trivial) fun events g op r hSame _ _ => congrArg (· ++ [⟨i, op, r⟩]) hSame
  cases hStep with
  | @mk j op resume r s' hAwaits hAnswer =>
    obtain rfl : j = i := hs
    rw [hAwaits] at hPasses
    exact hPasses.1

end Run

end Coroutine
