import TradingAgent.Coroutine.Basic

/-!
# Runs of one coroutine

`Runs E s m out s'` is the big-step semantics of a coroutine that runs alone in an
environment `E`: from state `s` it ends with outcome `out` in state `s'`. The environment
is a relation, so an operation may have several answers, or none.

`Obeys` is a contract of a coroutine with its environment. If every answer is one that
the coroutine may rely on, then it awaits only the operations it may await, and its
outcome satisfies the postcondition. The contract does not mention the state: it is what
the coroutine keeps however other coroutines interleave with it.
-/

namespace Coroutine

open Coro

variable {σ ε Op : Type} {Ret : Op → Type} {α β : Type}

/-- `E s op r s'`: in state `s`, the operation `op` may be answered with `r`, and the
state is then `s'`. -/
abbrev Environment (σ ε : Type) {Op : Type} (Ret : Op → Type) :=
  σ → (op : Op) → Except ε (Ret op) → σ → Prop

inductive Runs (E : Environment σ ε Ret) : σ → Coro ε Ret α → Except ε α → σ → Prop
  | ret (s : σ) (a : α) : Runs E s (ret a) (.ok a) s
  | raise (s : σ) (e : ε) : Runs E s (raise e) (.error e) s
  | await {s s' s'' : σ} {op : Op} {resume : Except ε (Ret op) → Coro ε Ret α}
      {r : Except ε (Ret op)} {out : Except ε α} (hAnswer : E s op r s')
      (hRest : Runs E s' (resume r) out s'') : Runs E s (await op resume) out s''

namespace Runs

variable {E : Environment σ ε Ret} {s s' : σ}

@[simp] theorem ret_iff {a : α} {out : Except ε α} :
    Runs E s (.ret a) out s' ↔ out = .ok a ∧ s' = s := by
  constructor
  · intro h
    cases h
    exact ⟨rfl, rfl⟩
  · rintro ⟨rfl, rfl⟩
    exact .ret _ a

@[simp] theorem raise_iff {e : ε} {out : Except ε α} :
    Runs E s (.raise e) out s' ↔ out = .error e ∧ s' = s := by
  constructor
  · intro h
    cases h
    exact ⟨rfl, rfl⟩
  · rintro ⟨rfl, rfl⟩
    exact .raise _ e

theorem await_iff {op : Op} {resume : Except ε (Ret op) → Coro ε Ret α} {out : Except ε α} :
    Runs E s (.await op resume) out s' ↔ ∃ r t, E s op r t ∧ Runs E t (resume r) out s' := by
  constructor
  · intro h
    cases h with
    | await hAnswer hRest => exact ⟨_, _, hAnswer, hRest⟩
  · rintro ⟨r, t, hAnswer, hRest⟩
    exact .await hAnswer hRest

/-- A sequence runs its first part, and the second unless the first has raised. -/
theorem bind_iff {m : Coro ε Ret α} {f : α → Coro ε Ret β} {out : Except ε β} :
    Runs E s (m >>= f) out s' ↔
      (∃ a t, Runs E s m (.ok a) t ∧ Runs E t (f a) out s') ∨
        ∃ e, Runs E s m (.error e) s' ∧ out = .error e := by
  induction m generalizing s with
  | ret a =>
    rw [ret_bind]
    constructor
    · intro h
      exact .inl ⟨a, _, .ret _ a, h⟩
    · rintro (⟨b, t, hFirst, hRest⟩ | ⟨e, hFirst, -⟩)
      · cases hFirst
        exact hRest
      · cases hFirst
  | raise e =>
    rw [raise_bind]
    constructor
    · intro h
      cases h
      exact .inr ⟨e, .raise _ e, rfl⟩
    · rintro (⟨a, t, hFirst, -⟩ | ⟨e', hFirst, rfl⟩)
      · cases hFirst
      · cases hFirst
        exact .raise _ e
  | await op resume ih =>
    simp only [await_bind, await_iff, ih]
    constructor
    · rintro ⟨r, t, hAnswer, ⟨a, u, hFirst, hRest⟩ | ⟨e, hFirst, hOut⟩⟩
      · exact .inl ⟨a, u, ⟨r, t, hAnswer, hFirst⟩, hRest⟩
      · exact .inr ⟨e, ⟨r, t, hAnswer, hFirst⟩, hOut⟩
    · rintro (⟨a, u, ⟨r, t, hAnswer, hFirst⟩, hRest⟩ | ⟨e, ⟨r, t, hAnswer, hFirst⟩, hOut⟩)
      · exact ⟨r, t, hAnswer, .inl ⟨a, u, hFirst, hRest⟩⟩
      · exact ⟨r, t, hAnswer, .inr ⟨e, hFirst, hOut⟩⟩

/-- An attempt returns the outcome of its body. -/
theorem attempt_iff {m : Coro ε Ret α} {out : Except ε (Except ε α)} :
    Runs E s m.attempt out s' ↔ ∃ ended, Runs E s m ended s' ∧ out = .ok ended := by
  induction m generalizing s with
  | ret a =>
    rw [attempt_ret]
    constructor
    · intro h
      cases h
      exact ⟨.ok a, .ret _ a, rfl⟩
    · rintro ⟨ended, hBody, rfl⟩
      cases hBody
      exact .ret _ _
  | raise e =>
    rw [attempt_raise]
    constructor
    · intro h
      cases h
      exact ⟨.error e, .raise _ e, rfl⟩
    · rintro ⟨ended, hBody, rfl⟩
      cases hBody
      exact .ret _ _
  | await op resume ih =>
    simp only [attempt_await, await_iff, ih]
    constructor
    · rintro ⟨r, t, hAnswer, ended, hRest, hOut⟩
      exact ⟨ended, ⟨r, t, hAnswer, hRest⟩, hOut⟩
    · rintro ⟨ended, ⟨r, t, hAnswer, hRest⟩, hOut⟩
      exact ⟨r, t, hAnswer, ended, hRest, hOut⟩

theorem call_iff {op : Op} {out : Except ε (Ret op)} :
    Runs E s (call op) out s' ↔ E s op out s' := by
  rw [call, await_iff]
  constructor
  · rintro ⟨r, t, hAnswer, hRest⟩
    cases r with
    | ok a =>
      obtain ⟨rfl, rfl⟩ := ret_iff.mp hRest
      exact hAnswer
    | error e =>
      obtain ⟨rfl, rfl⟩ := raise_iff.mp hRest
      exact hAnswer
  · intro hAnswer
    refine ⟨out, s', hAnswer, ?_⟩
    cases out with
    | ok a => exact .ret s' a
    | error e => exact .raise s' e

end Runs

/-- Run a coroutine against answers given by a function. -/
def drive (answer : σ → (op : Op) → Except ε (Ret op) × σ) : σ → Coro ε Ret α → Except ε α × σ
  | s, ret a => (.ok a, s)
  | s, raise e => (.error e, s)
  | s, await op resume => drive answer (answer s op).2 (resume (answer s op).1)

section Drive

variable (answer : σ → (op : Op) → Except ε (Ret op) × σ) (s : σ)

@[simp] theorem drive_ret (a : α) : drive answer s (ret a : Coro ε Ret α) = (.ok a, s) := rfl

@[simp] theorem drive_raise (e : ε) : drive answer s (raise e : Coro ε Ret α) = (.error e, s) :=
  rfl

@[simp] theorem drive_ofExcept (x : Except ε α) :
    drive answer s (ofExcept x : Coro ε Ret α) = (x, s) := by
  cases x <;> rfl

@[simp] theorem drive_call (op : Op) : drive answer s (call op) = answer s op :=
  drive_ofExcept answer (answer s op).2 (answer s op).1

@[simp] theorem drive_bind (m : Coro ε Ret α) (f : α → Coro ε Ret β) :
    drive answer s (m >>= f) =
      match drive answer s m with
      | (.ok a, t) => drive answer t (f a)
      | (.error e, t) => (.error e, t) := by
  induction m generalizing s with
  | ret a => rfl
  | raise e => rfl
  | await op resume ih => exact ih _ _

@[simp] theorem drive_attempt (m : Coro ε Ret α) :
    drive answer s m.attempt = (.ok (drive answer s m).1, (drive answer s m).2) := by
  induction m generalizing s with
  | ret a => rfl
  | raise e => rfl
  | await op resume ih => exact ih _ _

end Drive

/-- It is a run when the environment allows the answers. -/
theorem runs_drive {E : Environment σ ε Ret} {answer : σ → (op : Op) → Except ε (Ret op) × σ}
    (hAnswer : ∀ s op, E s op (answer s op).1 (answer s op).2) (s : σ) (m : Coro ε Ret α) :
    Runs E s m (drive answer s m).1 (drive answer s m).2 := by
  induction m generalizing s with
  | ret a => exact .ret s a
  | raise e => exact .raise s e
  | await op resume ih => exact .await (hAnswer s op) (ih _ _)

/-- The environment whose answers a function gives. -/
def answered (answer : σ → (op : Op) → Except ε (Ret op) × σ) : Environment σ ε Ret :=
  fun s op r s' => (r, s') = answer s op

/-- There is one run. -/
theorem runs_answered_iff {answer : σ → (op : Op) → Except ε (Ret op) × σ} {s s' : σ}
    {m : Coro ε Ret α} {out : Except ε α} :
    Runs (answered answer) s m out s' ↔ (out, s') = drive answer s m := by
  induction m generalizing s with
  | ret a => rw [Runs.ret_iff, drive_ret, Prod.mk.injEq]
  | raise e => rw [Runs.raise_iff, drive_raise, Prod.mk.injEq]
  | await op resume ih =>
    rw [Runs.await_iff]
    constructor
    · rintro ⟨r, t, hAnswer, hRest⟩
      have hPair : (r, t) = ((answer s op).1, (answer s op).2) := hAnswer
      obtain ⟨rfl, rfl⟩ := Prod.mk.inj hPair
      exact (ih _).mp hRest
    · intro hDrive
      exact ⟨_, _, rfl, (ih _).mpr hDrive⟩

/-- Answered within `rely`, the coroutine awaits only operations within `may`, and its
outcome satisfies `post`. -/
def Obeys (may : Op → Prop) (rely : (op : Op) → Except ε (Ret op) → Prop)
    (post : Except ε α → Prop) : Coro ε Ret α → Prop
  | ret a => post (.ok a)
  | raise e => post (.error e)
  | await op resume => may op ∧ ∀ r, rely op r → Obeys may rely post (resume r)

namespace Obeys

variable {may : Op → Prop} {rely : (op : Op) → Except ε (Ret op) → Prop}

theorem call {op : Op} {post : Except ε (Ret op) → Prop} (hMay : may op)
    (hPost : ∀ r, rely op r → post r) : Obeys may rely post (Coro.call op) := by
  refine ⟨hMay, fun r hr => ?_⟩
  cases r with
  | ok a => exact hPost _ hr
  | error e => exact hPost _ hr

theorem bind {m : Coro ε Ret α} {f : α → Coro ε Ret β} {P : Except ε α → Prop}
    {Q : Except ε β → Prop} (hFirst : Obeys may rely P m)
    (hOk : ∀ a, P (.ok a) → Obeys may rely Q (f a))
    (hError : ∀ e, P (.error e) → Q (.error e)) : Obeys may rely Q (m >>= f) := by
  induction m with
  | ret a => exact hOk a hFirst
  | raise e => exact hError e hFirst
  | await op resume ih => exact ⟨hFirst.1, fun r hr => ih r (hFirst.2 r hr)⟩

/-- What an attempt keeps as a value is the outcome of its coroutine. -/
theorem attempt {m : Coro ε Ret α} {P : Except ε α → Prop} {Q : Except ε (Except ε α) → Prop}
    (hBody : Obeys may rely P m) (hOut : ∀ out, P out → Q (.ok out)) :
    Obeys may rely Q m.attempt := by
  induction m with
  | ret a => exact hOut _ hBody
  | raise e => exact hOut _ hBody
  | await op resume ih => exact ⟨hBody.1, fun r hr => ih r (hBody.2 r hr)⟩

end Obeys

end Coroutine
