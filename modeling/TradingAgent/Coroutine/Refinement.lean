import TradingAgent.Coroutine.Audit
import Mathlib.Data.List.Forall2

/-!
# Refinement of operations

A `Translation` carries out each operation of an abstract signature by one operation of a
concrete one, whose answer it reads back. `translate` puts the concrete operations into a
coroutine, and goes through all ways in which coroutines are put together.

If a relation between the abstract and the concrete states is kept by every concrete answer to
an operation that the coroutines may await (`Simulates`), then the concrete runs are images of
abstract ones: of one coroutine (`Runs.translated`), and step by step of any interleaving
(`Run.translated`).
-/

namespace Coroutine

open Coro

/-- The concrete operation of an abstract one, and how its answer is read. -/
structure Translation (ε : Type) {Op Op' : Type} (Ret : Op → Type) (Ret' : Op' → Type) where
  operation : Op → Op'
  read : (op : Op) → Except ε (Ret' (operation op)) → Except ε (Ret op)

variable {σ τ ε Op Op' ι : Type} {Ret : Op → Type} {Ret' : Op' → Type}

namespace Coro

variable {α β : Type} (T : Translation ε Ret Ret')

/-- The coroutine over the concrete operations. -/
def translate : Coro ε Ret α → Coro ε Ret' α
  | ret a => ret a
  | raise e => raise e
  | await op resume => await (T.operation op) fun r => (resume (T.read op r)).translate

@[simp] theorem translate_ret (a : α) : (ret a : Coro ε Ret α).translate T = ret a := rfl

@[simp] theorem translate_raise (e : ε) : (raise e : Coro ε Ret α).translate T = raise e := rfl

@[simp] theorem translate_await (op : Op) (resume : Except ε (Ret op) → Coro ε Ret α) :
    (await op resume).translate T =
      await (T.operation op) fun r => (resume (T.read op r)).translate T := rfl

@[simp] theorem translate_ofExcept (x : Except ε α) :
    (ofExcept x : Coro ε Ret α).translate T = ofExcept x := by
  cases x <;> rfl

theorem translate_call (op : Op) : (call op : Coro ε Ret (Ret op)).translate T =
    await (T.operation op) fun r => ofExcept (T.read op r) := by
  unfold call
  rw [translate_await]
  exact congrArg _ (funext fun r => translate_ofExcept T _)

@[simp] theorem translate_bind (m : Coro ε Ret α) (f : α → Coro ε Ret β) :
    (m >>= f).translate T = m.translate T >>= fun a => (f a).translate T := by
  induction m with
  | ret a => rfl
  | raise e => rfl
  | await op resume ih => exact congrArg (await (T.operation op)) (funext fun r => ih _)

@[simp] theorem translate_attempt (m : Coro ε Ret α) :
    m.attempt.translate T = (m.translate T).attempt := by
  induction m with
  | ret a => rfl
  | raise e => rfl
  | await op resume ih => exact congrArg (await (T.operation op)) (funext fun r => ih _)

variable {T}

@[simp] theorem translate_eq_ret {m : Coro ε Ret α} {a : α} :
    m.translate T = ret a ↔ m = ret a := by
  cases m <;> simp

@[simp] theorem translate_eq_raise {m : Coro ε Ret α} {e : ε} :
    m.translate T = raise e ↔ m = raise e := by
  cases m <;> simp

/-- A translated coroutine that awaits an operation awaits that of an abstract one. -/
theorem translate_eq_await {m : Coro ε Ret α} {op' : Op'}
    {resume' : Except ε (Ret' op') → Coro ε Ret' α} (h : m.translate T = await op' resume') :
    ∃ op resume, m = await op resume ∧ op' = T.operation op ∧
      HEq resume' fun r => (resume (T.read op r)).translate T := by
  cases m with
  | ret a => cases h
  | raise e => cases h
  | await op resume =>
    cases h
    exact ⟨op, resume, rfl, rfl, HEq.rfl⟩

end Coro

/-- Whatever the concrete environment answers to these operations, the abstract one may answer
what is read of it, and the states stay related. -/
def Simulates (T : Translation ε Ret Ret') (may : Op → Prop) (R : σ → τ → Prop)
    (E : Environment σ ε Ret) (E' : Environment τ ε Ret') : Prop :=
  ∀ s t op r t', may op → R s t → E' t (T.operation op) r t' →
    ∃ s', E s op (T.read op r) s' ∧ R s' t'

variable {may : Op → Prop} {T : Translation ε Ret Ret'} {R : σ → τ → Prop} {E : Environment σ ε Ret}
  {E' : Environment τ ε Ret'}

/-- A concrete run of one coroutine is a run of the abstract one with the same outcome. -/
theorem Runs.translated {α : Type} (h : Simulates T may R E E') {s : σ} {t t' : τ}
    {m : Coro ε Ret α} {out : Except ε α} (hMay : Awaits may m) (hState : R s t)
    (hRuns : Runs E' t (m.translate T) out t') :
    ∃ s', Runs E s m out s' ∧ R s' t' := by
  induction m generalizing s t with
  | ret a =>
    obtain ⟨rfl, rfl⟩ := Runs.ret_iff.mp hRuns
    exact ⟨s, .ret s a, hState⟩
  | raise e =>
    obtain ⟨rfl, rfl⟩ := Runs.raise_iff.mp hRuns
    exact ⟨s, .raise s e, hState⟩
  | await op resume ih =>
    obtain ⟨r, u, hAnswer, hRest⟩ := Runs.await_iff.mp hRuns
    obtain ⟨v, hAbstract, hRelated⟩ := h s t op r u hMay.1 hState hAnswer
    obtain ⟨s', hRuns', hEnd⟩ := ih _ (hMay.2 _ trivial) hRelated hRest
    exact ⟨s', .await hAbstract hRuns', hEnd⟩

/-- An abstract event and its concrete one. -/
inductive Event.Renders (T : Translation ε Ret Ret') (may : Op → Prop) :
    Event ε Ret ι → Event ε Ret' ι → Prop
  | mk (i : ι) (op : Op) (hMay : may op) (r : Except ε (Ret' (T.operation op))) :
    Renders T may ⟨i, op, T.read op r⟩ ⟨i, T.operation op, r⟩

variable {α : ι → Type}

/-- The states are related, and the concrete coroutines are the translated ones. -/
structure Config.Renders (T : Translation ε Ret Ret') (may : Op → Prop) (R : σ → τ → Prop)
    (c : Config σ ε Ret α) (c' : Config τ ε Ret' α) : Prop where
  state : R c.state c'.state
  awaits : ∀ i, Awaits may (c.threads i)
  threads : ∀ i, c'.threads i = (c.threads i).translate T

/-- Logs of equal length, whose entries render each other. -/
def Log.Renders (T : Translation ε Ret Ret') (may : Op → Prop) (R : σ → τ → Prop)
    (log : Log σ ε Ret α) (log' : Log τ ε Ret' α) : Prop :=
  List.Forall₂ (fun s s' => Config.Renders T may R s.1 s'.1 ∧ Event.Renders T may s.2 s'.2) log log'

variable [DecidableEq ι] {c c₀ : Config σ ε Ret α} {c₀' c' d' : Config τ ε Ret' α}
  {log' : Log τ ε Ret' α} {e' : Event ε Ret' ι}

theorem Step.translated (h : Simulates T may R E E') (hConfig : Config.Renders T may R c c')
    (hStep : Step E' c' e' d') :
    ∃ e d, Step E c e d ∧ Config.Renders T may R d d' ∧ Event.Renders T may e e' := by
  cases hStep with
  | @mk i op' resume' r t' hThread hAnswer =>
    rw [hConfig.threads i] at hThread
    obtain ⟨op, resume, hAwait, rfl, hResume⟩ := translate_eq_await hThread
    obtain rfl := eq_of_heq hResume
    have hMay := hConfig.awaits i
    rw [hAwait] at hMay
    obtain ⟨s', hAbstract, hState⟩ := h c.state c'.state op r t' hMay.1 hConfig.state hAnswer
    refine ⟨_, _, .mk hAwait hAbstract, ⟨hState, fun j => ?_, fun j => ?_⟩, .mk i op hMay.1 r⟩
    · dsimp only
      by_cases hji : j = i
      · subst hji
        rw [Function.update_self]
        exact hMay.2 _ trivial
      · rw [Function.update_of_ne hji]
        exact hConfig.awaits j
    · dsimp only
      by_cases hji : j = i
      · subst hji
        rw [Function.update_self, Function.update_self]
      · rw [Function.update_of_ne hji, Function.update_of_ne hji]
        exact hConfig.threads j

/-- A concrete interleaving is, step by step, an abstract one. -/
theorem Run.translated (h : Simulates T may R E E') (hStart : Config.Renders T may R c₀ c₀')
    (hRun : Run E' c₀' log' c') :
    ∃ log c, Run E c₀ log c ∧ Config.Renders T may R c c' ∧ Log.Renders T may R log log' := by
  induction hRun with
  | nil => exact ⟨[], c₀, .nil, hStart, .nil⟩
  | @snoc log' c' d' e' _ hStep ih =>
    obtain ⟨log, c, hAbstract, hConfig, hLog⟩ := ih
    obtain ⟨e, d, hAbstractStep, hAfter, hEvent⟩ := Step.translated h hConfig hStep
    exact ⟨log ++ [(c, e)], d, hAbstract.snoc hAbstractStep, hAfter,
      List.rel_append hLog (.cons ⟨hConfig, hEvent⟩ .nil)⟩

end Coroutine
