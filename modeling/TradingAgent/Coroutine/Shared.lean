import TradingAgent.Coroutine.Runs
import Mathlib.Data.List.Induction

/-!
# Coroutines that share a state

Besides its awaited operations, a coroutine of this kind reads and writes a state that it
shares with others. It does not yield at these accesses: `settle` runs them up to the next
awaited operation. A `Loop` runs a body again and again until the body has a result, so
that its runs are finite and their length is not bounded.

`LoopRuns` is the semantics of a loop that runs alone. A `Team` is a family of callers, each
of which runs the loop over and over, interleaved with the others.
-/

namespace Coroutine

open Coro

/-- The operations over a shared state: its accesses, and the awaited operations. -/
inductive SharedOp (σ Op : Type)
  | get
  | put (s : σ)
  | ext (op : Op)

@[reducible] def SharedRet (σ : Type) {Op : Type} (Ret : Op → Type) : SharedOp σ Op → Type
  | .get => σ
  | .put _ => Unit
  | .ext op => Ret op

abbrev Shared (σ ε : Type) {Op : Type} (Ret : Op → Type) (α : Type) :=
  Coro ε (SharedRet σ Ret) α

variable {σ τ ε Op ι : Type} {Ret : Op → Type} {α β : Type}

namespace Shared

def get : Shared σ ε Ret σ := await .get ofExcept

def put (s : σ) : Shared σ ε Ret Unit := await (.put s) ofExcept

def modify (f : σ → σ) : Shared σ ε Ret Unit := await .get fun
  | .ok s => put (f s)
  | .error e => raise e

def ask (op : Op) : Shared σ ε Ret (Ret op) := await (.ext op) ofExcept

/-- Run the accesses up to the next awaited operation. -/
def settle : σ → Shared σ ε Ret α → Shared σ ε Ret α × σ
  | s, await .get resume => settle s (resume (.ok s))
  | _, await (.put t) resume => settle t (resume (.ok ()))
  | s, await (.ext op) resume => (await (.ext op) resume, s)
  | s, ret a => (ret a, s)
  | s, raise e => (raise e, s)

theorem settle_cases (s : σ) (m : Shared σ ε Ret α) :
    (∃ a, (settle s m).1 = ret a) ∨ (∃ e, (settle s m).1 = raise e) ∨
      ∃ op resume, (settle s m).1 = await (.ext op) resume := by
  induction m generalizing s with
  | ret a => exact .inl ⟨a, rfl⟩
  | raise e => exact .inr (.inl ⟨e, rfl⟩)
  | await op resume ih =>
    cases op with
    | get => exact ih (.ok s) s
    | put t => exact ih (.ok ()) t
    | ext op => exact .inr (.inr ⟨op, resume, rfl⟩)

/-- An environment of the awaited operations, with a state that is accessed alone. -/
def alone (E : Environment τ ε Ret) : Environment (σ × τ) ε (SharedRet σ Ret)
  | (s, t), .get, r, w => r = .ok s ∧ w = (s, t)
  | (_, t), .put s, r, w => r = .ok () ∧ w = (s, t)
  | (s, t), .ext op, r, w => ∃ t', E t op r t' ∧ w = (s, t')

variable {E : Environment τ ε Ret} {s : σ} {t : τ} {w : σ × τ}

@[simp] theorem runs_get {out : Except ε σ} :
    Runs (alone E) (s, t) get out w ↔ out = .ok s ∧ w = (s, t) :=
  Runs.call_iff

@[simp] theorem runs_put {s' : σ} {out : Except ε Unit} :
    Runs (alone E) (s, t) (put s' : Shared σ ε Ret Unit) out w ↔ out = .ok () ∧ w = (s', t) :=
  Runs.call_iff

@[simp] theorem runs_modify {f : σ → σ} {out : Except ε Unit} :
    Runs (alone E) (s, t) (modify f : Shared σ ε Ret Unit) out w ↔
      out = .ok () ∧ w = (f s, t) := by
  unfold modify
  rw [Runs.await_iff]
  constructor
  · rintro ⟨r, u, ⟨rfl, rfl⟩, hRest⟩
    exact runs_put.mp hRest
  · intro h
    exact ⟨.ok s, (s, t), ⟨rfl, rfl⟩, runs_put.mpr h⟩

@[simp] theorem runs_ask {op : Op} {out : Except ε (Ret op)} :
    Runs (alone E) (s, t) (ask op : Shared σ ε Ret (Ret op)) out w ↔
      ∃ t', E t op out t' ∧ w = (s, t') :=
  Runs.call_iff

/-! The accesses, before the rest of a coroutine. -/

@[simp] theorem runs_get_bind {k : σ → Shared σ ε Ret α} {out : Except ε α} :
    Runs (alone E) (s, t) (get >>= k) out w ↔ Runs (alone E) (s, t) (k s) out w := by
  rw [Runs.bind_iff]
  simp

@[simp] theorem runs_modify_bind {f : σ → σ} {k : Unit → Shared σ ε Ret α}
    {out : Except ε α} :
    Runs (alone E) (s, t) (modify f >>= k) out w ↔ Runs (alone E) (f s, t) (k ()) out w := by
  rw [Runs.bind_iff]
  constructor
  · rintro (⟨u, v, hModify, hRest⟩ | ⟨e, hModify, -⟩)
    · obtain ⟨-, rfl⟩ := runs_modify.mp hModify
      exact hRest
    · cases (runs_modify.mp hModify).1
  · intro hRest
    exact .inl ⟨(), _, runs_modify.mpr ⟨rfl, rfl⟩, hRest⟩

/-- Answers to the awaited operations answer the accesses too. -/
def aloneAnswer (answer : τ → (op : Op) → Except ε (Ret op) × τ) :
    σ × τ → (op : SharedOp σ Op) → Except ε (SharedRet σ Ret op) × (σ × τ)
  | (s, t), .get => (.ok s, (s, t))
  | (_, t), .put s => (.ok (), (s, t))
  | (s, t), .ext op => ((answer t op).1, (s, (answer t op).2))

section

variable (answer : τ → (op : Op) → Except ε (Ret op) × τ) (s : σ) (t : τ)

@[simp] theorem drive_get :
    drive (aloneAnswer answer) (s, t) (get : Shared σ ε Ret σ) = (.ok s, s, t) := rfl

@[simp] theorem drive_modify (f : σ → σ) :
    drive (aloneAnswer answer) (s, t) (modify f : Shared σ ε Ret Unit) = (.ok (), f s, t) := rfl

@[simp] theorem drive_ask (op : Op) :
    drive (aloneAnswer answer) (s, t) (ask op : Shared σ ε Ret (Ret op)) =
      ((answer t op).1, s, (answer t op).2) :=
  drive_ofExcept _ _ _

end

theorem alone_answer {answer : τ → (op : Op) → Except ε (Ret op) × τ}
    (hAnswer : ∀ t op, E t op (answer t op).1 (answer t op).2) (w : σ × τ)
    (op : SharedOp σ Op) :
    alone E w op (aloneAnswer answer w op).1 (aloneAnswer answer w op).2 := by
  obtain ⟨s, t⟩ := w
  cases op with
  | get => exact ⟨rfl, rfl⟩
  | put s' => exact ⟨rfl, rfl⟩
  | ext op => exact ⟨_, hAnswer t op, rfl⟩

theorem alone_answered (answer : τ → (op : Op) → Except ε (Ret op) × τ) :
    alone (σ := σ) (answered answer) = answered (aloneAnswer answer) := by
  funext w op r w'
  obtain ⟨s, t⟩ := w
  obtain ⟨s', t'⟩ := w'
  cases op with
  | get => simp [alone, answered, aloneAnswer]
  | put u => simp [alone, answered, aloneAnswer]
  | ext op =>
    refine propext ⟨?_, fun h => ?_⟩
    · rintro ⟨u, hAnswer, hState⟩
      obtain ⟨rfl, rfl⟩ := Prod.mk.inj hState
      obtain ⟨rfl, rfl⟩ := Prod.mk.inj (show (r, t') = (_, _) from hAnswer)
      rfl
    · obtain ⟨rfl, hState⟩ := Prod.mk.inj h
      exact ⟨_, rfl, hState⟩

end Shared

open Shared

/-- `first` is run once, and then `body` until there is a result. -/
structure Loop (σ ε : Type) {Op : Type} (Ret : Op → Type) (α : Type) where
  first : Shared σ ε Ret (Option α)
  body : Shared σ ε Ret (Option α)

/-- The runs of a loop that has `m` left of its present round. -/
inductive LoopRuns (E : Environment τ ε Ret) (loop : Loop σ ε Ret α) :
    σ × τ → Shared σ ε Ret (Option α) → Except ε α → σ × τ → Prop
  | returned {w w' : σ × τ} {m : Shared σ ε Ret (Option α)} {a : α}
      (hRound : Runs (alone E) w m (.ok (some a)) w') : LoopRuns E loop w m (.ok a) w'
  | raised {w w' : σ × τ} {m : Shared σ ε Ret (Option α)} {e : ε}
      (hRound : Runs (alone E) w m (.error e) w') : LoopRuns E loop w m (.error e) w'
  | again {w w' w'' : σ × τ} {m : Shared σ ε Ret (Option α)} {out : Except ε α}
      (hRound : Runs (alone E) w m (.ok none) w') (hRest : LoopRuns E loop w' loop.body out w'') :
      LoopRuns E loop w m out w''

/-- A loop ends if a measure descends with every round that does not end it. -/
theorem LoopRuns.total {loop : Loop σ ε Ret α} {answer : τ → (op : Op) → Except ε (Ret op) × τ}
    (hAnswer : ∀ t op, E t op (answer t op).1 (answer t op).2) (measure : σ × τ → ℕ)
    (hDescends : ∀ w w', Runs (alone E) w loop.body (.ok none) w' → measure w' < measure w)
    (w : σ × τ) (m : Shared σ ε Ret (Option α)) : ∃ out w', LoopRuns E loop w m out w' := by
  have hBody (n : ℕ) : ∀ w, measure w < n → ∃ out w', LoopRuns E loop w loop.body out w' := by
    induction n with
    | zero => exact fun w hLt => absurd hLt (Nat.not_lt_zero _)
    | succ n ih =>
      intro w hLt
      have hRuns := runs_drive (alone_answer hAnswer) w loop.body
      generalize (drive (aloneAnswer answer) w loop.body).1 = ended at hRuns
      generalize (drive (aloneAnswer answer) w loop.body).2 = w' at hRuns
      match ended with
      | .ok (some a) => exact ⟨_, _, .returned hRuns⟩
      | .error e => exact ⟨_, _, .raised hRuns⟩
      | .ok none =>
        obtain ⟨out, w'', hRest⟩ := ih w' (by have := hDescends w w' hRuns; omega)
        exact ⟨out, w'', .again hRuns hRest⟩
  have hRuns := runs_drive (alone_answer hAnswer) w m
  generalize (drive (aloneAnswer answer) w m).1 = ended at hRuns
  generalize (drive (aloneAnswer answer) w m).2 = w' at hRuns
  match ended with
  | .ok (some a) => exact ⟨_, _, .returned hRuns⟩
  | .error e => exact ⟨_, _, .raised hRuns⟩
  | .ok none =>
    obtain ⟨out, w'', hRest⟩ := hBody (measure w' + 1) w' (Nat.lt_succ_self _)
    exact ⟨out, w'', .again hRuns hRest⟩

/-! ## Callers of one loop -/

/-- Go on up to the next awaited operation, into the next round if the present one is over. -/
def Loop.advance (loop : Loop σ ε Ret α) (s : σ) (m : Shared σ ε Ret (Option α)) :
    Shared σ ε Ret (Option α) × σ :=
  match settle s m with
  | (ret none, s') => settle s' loop.body
  | settled => settled

/-- A shared state, and what is left of the present or last call of each caller. -/
structure Team (σ ε : Type) {Op : Type} (Ret : Op → Type) (ι α : Type) where
  state : σ
  calls : ι → Option (Shared σ ε Ret (Option α))

/-- A caller makes a call, or its call receives an answer. -/
inductive Move (ε : Type) {Op : Type} (Ret : Op → Type)
  | start
  | answer (op : Op) (r : Except ε (Ret op))

/-- A call is in progress until it returns or raises. -/
def Running (call : Option (Shared σ ε Ret (Option α))) : Prop :=
  ∃ op resume, call = some (await (.ext op) resume)

namespace Team

variable [DecidableEq ι]

/-- The caller's call goes on with `m`. -/
def resumed (loop : Loop σ ε Ret α) (c : Team σ ε Ret ι α) (i : ι)
    (m : Shared σ ε Ret (Option α)) : Team σ ε Ret ι α where
  state := (loop.advance c.state m).2
  calls := Function.update c.calls i (some (loop.advance c.state m).1)

inductive Step (loop : Loop σ ε Ret α) (c : Team σ ε Ret ι α) (i : ι) :
    Move ε Ret → Team σ ε Ret ι α → Prop
  | start (hFree : ¬Running (c.calls i)) : Step loop c i .start (c.resumed loop i loop.first)
  | answer {op : Op} {resume : Except ε (Ret op) → Shared σ ε Ret (Option α)}
      (hCall : c.calls i = some (await (.ext op) resume)) (r : Except ε (Ret op)) :
      Step loop c i (.answer op r) (c.resumed loop i (resume r))

/-- A turn of a run, and the configuration in which it was taken. -/
structure Visit (σ ε : Type) {Op : Type} (Ret : Op → Type) (ι α : Type) where
  before : Team σ ε Ret ι α
  caller : ι
  turn : Move ε Ret

inductive Run (loop : Loop σ ε Ret α) (c₀ : Team σ ε Ret ι α) :
    List (Visit σ ε Ret ι α) → Team σ ε Ret ι α → Prop
  | nil : Run loop c₀ [] c₀
  | snoc {log : List (Visit σ ε Ret ι α)} {c c' : Team σ ε Ret ι α} {i : ι} {turn : Move ε Ret}
      (hRun : Run loop c₀ log c) (hStep : Step loop c i turn c') :
      Run loop c₀ (log ++ [⟨c, i, turn⟩]) c'

theorem Run.trans {loop : Loop σ ε Ret α} {c₀ c c' : Team σ ε Ret ι α}
    {log log' : List (Visit σ ε Ret ι α)} (h : Run loop c₀ log c) (h' : Run loop c log' c') :
    Run loop c₀ (log ++ log') c' := by
  induction h' with
  | nil => rwa [List.append_nil]
  | snoc h' hStep ih =>
    rw [← List.append_assoc]
    exact .snoc ih hStep

/-- A run is of finitely many callers. -/
theorem Run.idle_from {loop : Loop σ ε Ret α} {c₀ c : Team σ ε Ret ℕ α}
    {log : List (Visit σ ε Ret ℕ α)} (h : Run loop c₀ log c) {n : ℕ}
    (hIdle : ∀ i, n ≤ i → c₀.calls i = none) : ∃ m, ∀ i, m ≤ i → c.calls i = none := by
  induction h with
  | nil => exact ⟨n, hIdle⟩
  | @snoc log c c' i turn _ hStep ih =>
    obtain ⟨m, hFree⟩ := ih
    have hOthers (k : Shared σ ε Ret (Option α)) :
        ∀ j, max m (i + 1) ≤ j → (c.resumed loop i k).calls j = none := by
      intro j hj
      have hOther : j ≠ i := by omega
      show Function.update c.calls i _ j = none
      rw [Function.update_of_ne hOther]
      exact hFree j (by omega)
    cases hStep with
    | start => exact ⟨_, hOthers _⟩
    | answer => exact ⟨_, hOthers _⟩

end Team

end Coroutine
