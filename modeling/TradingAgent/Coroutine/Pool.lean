import TradingAgent.Coroutine.Runs
import Mathlib.Data.List.Induction

/-!
# Interleaved coroutines

A configuration is a shared state and what is left of each coroutine. In one step, one
coroutine that awaits an operation receives an answer and computes to its next awaited
operation; which one moves is not determined. `Run E c₀ log c` is a finite interleaving;
its log keeps each configuration in which a step was taken, and the event of that step.

The index type is arbitrary, so the number of coroutines is not bounded. All coroutines
are present from the start: one that starts later is one that takes its first step later.
-/

namespace Coroutine

open Coro

variable {σ ε Op ι : Type} {Ret : Op → Type} {α : ι → Type}

structure Config (σ ε : Type) {Op ι : Type} (Ret : Op → Type) (α : ι → Type) where
  state : σ
  threads : (i : ι) → Coro ε Ret (α i)

/-- The coroutine `thread` awaited `op` and received `answer`. -/
structure Event (ε : Type) {Op : Type} (Ret : Op → Type) (ι : Type) where
  thread : ι
  op : Op
  answer : Except ε (Ret op)

abbrev Log (σ ε : Type) {Op ι : Type} (Ret : Op → Type) (α : ι → Type) :=
  List (Config σ ε Ret α × Event ε Ret ι)

variable [DecidableEq ι]

inductive Step (E : Environment σ ε Ret) :
    Config σ ε Ret α → Event ε Ret ι → Config σ ε Ret α → Prop
  | mk {c : Config σ ε Ret α} {i : ι} {op : Op} {resume : Except ε (Ret op) → Coro ε Ret (α i)}
      {r : Except ε (Ret op)} {s' : σ} (hThread : c.threads i = await op resume)
      (hAnswer : E c.state op r s') :
      Step E c ⟨i, op, r⟩ ⟨s', Function.update c.threads i (resume r)⟩

inductive Run (E : Environment σ ε Ret) (c₀ : Config σ ε Ret α) :
    Log σ ε Ret α → Config σ ε Ret α → Prop
  | nil : Run E c₀ [] c₀
  | snoc {log : Log σ ε Ret α} {c c' : Config σ ε Ret α} {e : Event ε Ret ι}
      (hRun : Run E c₀ log c) (hStep : Step E c e c') : Run E c₀ (log ++ [(c, e)]) c'

namespace Run

variable {E : Environment σ ε Ret} {c₀ c : Config σ ε Ret α} {log : Log σ ε Ret α}

/-- What holds at the start and is preserved by every step holds throughout. The
invariant may speak of the log. -/
theorem invariant {I : Log σ ε Ret α → Config σ ε Ret α → Prop} (h : Run E c₀ log c)
    (h₀ : I [] c₀)
    (hStep : ∀ log c e c', I log c → Step E c e c' → I (log ++ [(c, e)]) c') : I log c := by
  induction h with
  | nil => exact h₀
  | snoc _ hs ih => exact hStep _ _ _ _ ih hs

/-- As `invariant`, for runs whose steps all meet a condition on the log before the step,
the configuration in which it is taken, and its event. -/
theorem invariant_of_guard {I : Log σ ε Ret α → Config σ ε Ret α → Prop}
    {G : Log σ ε Ret α → Config σ ε Ret α → Event ε Ret ι → Prop} (h : Run E c₀ log c)
    (hGuard : ∀ before c e after, log = before ++ (c, e) :: after → G before c e)
    (h₀ : I [] c₀)
    (hStep : ∀ log c e c', I log c → G log c e → Step E c e c' → I (log ++ [(c, e)]) c') :
    I log c := by
  induction h with
  | nil => exact h₀
  | @snoc log c c' e _ hs ih =>
    refine hStep _ _ _ _ (ih fun before d f after hlog => ?_) (hGuard _ _ _ [] rfl) hs
    exact hGuard before d f (after ++ [(c, e)]) (by simp [hlog])

/-- Every logged configuration is reached by the part of the log before it. -/
theorem split {before after : Log σ ε Ret α} {d : Config σ ε Ret α} {e : Event ε Ret ι}
    (h : Run E c₀ log c) (hlog : log = before ++ (d, e) :: after) :
    Run E c₀ before d ∧ ∃ d', Step E d e d' ∧ Run E c₀ (before ++ [(d, e)]) d' := by
  induction h generalizing after with
  | nil => simp at hlog
  | @snoc log c c' e' hRun hStep ih =>
    rcases List.eq_nil_or_concat after with rfl | ⟨rest, x, rfl⟩
    · obtain ⟨rfl, hLast⟩ := List.append_inj' hlog rfl
      cases hLast
      exact ⟨hRun, c', hStep, hRun.snoc hStep⟩
    · refine @ih rest ?_
      have hlog' : log ++ [(c, e')] = (before ++ (d, e) :: rest) ++ [x] := by simpa using hlog
      exact (List.append_inj' hlog' rfl).1

theorem concat_iff {s : Config σ ε Ret α × Event ε Ret ι} :
    Run E c₀ (log ++ [s]) c ↔ Run E c₀ log s.1 ∧ Step E s.1 s.2 c := by
  constructor
  · intro h
    generalize hlog : log ++ [s] = log' at h
    cases h with
    | nil => simp at hlog
    | snoc hRun hStep =>
      obtain ⟨rfl, hLast⟩ := List.append_inj' hlog rfl
      cases hLast
      exact ⟨hRun, hStep⟩
  · rintro ⟨hRun, hStep⟩
    exact hRun.snoc hStep

/-- The part of a run after a prefix of its log is a run. -/
theorem suffix {before after : Log σ ε Ret α} (h : Run E c₀ (before ++ after) c) :
    ∃ d, Run E c₀ before d ∧ Run E d after c := by
  induction after using List.reverseRecOn generalizing c with
  | nil =>
    rw [List.append_nil] at h
    exact ⟨c, h, .nil⟩
  | append_singleton rest s ih =>
    rw [← List.append_assoc] at h
    obtain ⟨hRun, hStep⟩ := concat_iff.mp h
    obtain ⟨d, hBefore, hAfter⟩ := ih hRun
    exact ⟨d, hBefore, hAfter.snoc hStep⟩

/-- A coroutine that takes no step stays as it is. -/
theorem untouched {i : ι} (h : Run E c₀ log c) (hNone : ∀ s ∈ log, s.2.thread ≠ i) :
    c.threads i = c₀.threads i := by
  induction h with
  | nil => rfl
  | snoc _ hStep ih =>
    have hOther := hNone _ (List.mem_append_right _ (List.mem_singleton_self _))
    rw [← ih fun s hs => hNone s (List.mem_append_left _ hs)]
    cases hStep with
    | mk hThread hAnswer => exact Function.update_of_ne (Ne.symm hOther) _ _

/-- A coroutine keeps its contract in every interleaving in which its own operations are
answered within what it relies on. -/
theorem obeys {may : Op → Prop} {rely : (op : Op) → Except ε (Ret op) → Prop} {i : ι}
    {post : Except ε (α i) → Prop} (h : Run E c₀ log c)
    (h₀ : Obeys may rely post (c₀.threads i))
    (hRely : ∀ s ∈ log, s.2.thread = i → rely s.2.op s.2.answer) :
    (∀ s ∈ log, s.2.thread = i → may s.2.op) ∧ Obeys may rely post (c.threads i) := by
  induction h with
  | nil => exact ⟨by simp, h₀⟩
  | snoc _ hStep ih =>
    obtain ⟨hMay, hObeys⟩ := ih fun s hs => hRely s (List.mem_append_left _ hs)
    have hLast := hRely _ (List.mem_append_right _ (List.mem_singleton_self _))
    cases hStep with
    | @mk j op resume r s' hThread _ =>
      by_cases hji : j = i
      · subst hji
        rw [hThread] at hObeys
        refine ⟨fun s hs hsi => ?_, ?_⟩
        · rcases List.mem_append.mp hs with hs | hs
          · exact hMay s hs hsi
          · rw [List.mem_singleton.mp hs]
            exact hObeys.1
        · simpa using hObeys.2 r (hLast rfl)
      · refine ⟨fun s hs hsi => ?_, ?_⟩
        · rcases List.mem_append.mp hs with hs | hs
          · exact hMay s hs hsi
          · rw [List.mem_singleton.mp hs] at hsi
            exact absurd hsi hji
        · simpa [Function.update_of_ne (Ne.symm hji)] using hObeys

/-- Coroutines that keep one contract, in an environment that answers within it as long as
the shared state satisfies `J`, and that keeps `J`: the contract holds in every
interleaving. -/
theorem contracts {J : σ → Prop} {may : Op → Prop}
    {rely : (op : Op) → Except ε (Ret op) → Prop} {post : (i : ι) → Except ε (α i) → Prop}
    (h : Run E c₀ log c) (hState : J c₀.state)
    (hThreads : ∀ i, Obeys may rely (post i) (c₀.threads i))
    (hAnswers : ∀ s op r s', J s → may op → E s op r s' → rely op r ∧ J s') :
    J c.state ∧ (∀ i, Obeys may rely (post i) (c.threads i)) ∧ ∀ s ∈ log, may s.2.op := by
  induction h with
  | nil => exact ⟨hState, hThreads, by simp⟩
  | snoc _ hStep ih =>
    obtain ⟨hBefore, hObeys, hLog⟩ := ih
    cases hStep with
    | @mk j op resume r s' hThread hAnswer =>
      have hMover := hObeys j
      rw [hThread] at hMover
      obtain ⟨hRely, hAfter⟩ := hAnswers _ op r s' hBefore hMover.1 hAnswer
      refine ⟨hAfter, fun i => ?_, fun s hs => ?_⟩
      · dsimp only
        by_cases hij : i = j
        · subst hij
          rw [Function.update_self]
          exact hMover.2 r hRely
        · rw [Function.update_of_ne hij]
          exact hObeys i
      · rcases List.mem_append.mp hs with hs | hs
        · exact hLog s hs
        · rw [List.mem_singleton.mp hs]
          exact hMover.1

/-- A list of the shared state to which every step adds at most one entry, for its operation:
what was there stays in front, and each further entry is for the operation of a step. -/
theorem appended {R : Type} (h : Run E c₀ log c) (rows : σ → List R) (adds : Op → R → Prop)
    (hStep : ∀ s ∈ log, ∀ s', E s.1.state s.2.op s.2.answer s' → rows s' = rows s.1.state ∨
      ∃ row, adds s.2.op row ∧ rows s' = rows s.1.state ++ [row]) :
    ∃ new, rows c.state = rows c₀.state ++ new ∧ ∀ row ∈ new, ∃ s ∈ log, adds s.2.op row := by
  induction h with
  | nil => exact ⟨[], (List.append_nil _).symm, by simp⟩
  | @snoc log c c' e _ hs ih =>
    obtain ⟨new, hRows, hNew⟩ := ih fun s hs => hStep s (List.mem_append_left _ hs)
    have hEarlier : ∀ row ∈ new, ∃ s ∈ log ++ [(c, e)], adds s.2.op row := by
      intro row hRow
      obtain ⟨s, hs, hAdds⟩ := hNew row hRow
      exact ⟨s, List.mem_append_left _ hs, hAdds⟩
    cases hs with
    | @mk i op resume r s' hThread hAnswer =>
      have hLast := hStep _ (List.mem_append_right _ (List.mem_singleton_self _)) s' hAnswer
      rcases hLast with hSame | ⟨row, hAdds, hAdded⟩
      · exact ⟨new, hSame.trans hRows, hEarlier⟩
      · refine ⟨new ++ [row], ?_, fun other hOther => ?_⟩
        · rw [← List.append_assoc, ← hRows]
          exact hAdded
        · rcases List.mem_append.mp hOther with hOther | hOther
          · exact hEarlier other hOther
          · rw [List.mem_singleton.mp hOther]
            exact ⟨_, List.mem_append_right _ (List.mem_singleton_self _), hAdds⟩

end Run

/-! ## Updated families -/

/-- After an update, a value other than the new one was there before. -/
theorem eq_of_update_eq {A B : Type*} [DecidableEq A] {f : A → B} {a x : A} {b y : B}
    (h : Function.update f a b x = y) (hNe : b ≠ y) : x ≠ a ∧ f x = y := by
  by_cases hx : x = a
  · subst hx
    rw [Function.update_self] at h
    exact absurd h hNe
  · rw [Function.update_of_ne hx] at h
    exact ⟨hx, h⟩

/-- Where the new value is found after an update. -/
theorem update_eq_new_iff {A B : Type*} [DecidableEq A] {f : A → B} {a x : A} {b : B} :
    Function.update f a b x = b ↔ x = a ∨ f x = b := by
  by_cases hx : x = a
  · simp [hx]
  · simp [hx]

/-- An update that neither removes nor adds a value `y`. -/
theorem update_eq_iff_of_ne {A B : Type*} [DecidableEq A] {f : A → B} {a : A} {b y : B}
    (hOld : f a ≠ y) (hNew : b ≠ y) (x : A) : Function.update f a b x = y ↔ f x = y := by
  by_cases hx : x = a
  · subst hx
    rw [Function.update_self]
    exact iff_of_false hNew hOld
  · rw [Function.update_of_ne hx]

/-- An update that `g` does not see. -/
theorem apply_update_eq {A B C : Type*} [DecidableEq A] {f : A → B} {a : A} {b : B} {g : B → C}
    (hSame : g b = g (f a)) (x : A) : g (Function.update f a b x) = g (f x) := by
  by_cases hx : x = a
  · subst hx
    rw [Function.update_self, hSame]
  · rw [Function.update_of_ne hx]

/-- What an update appends to the list of one argument. -/
theorem mem_update_concat {A B : Type*} [DecidableEq A] {f : A → List B} {a : A} {b : B} (x : A)
    (y : B) : y ∈ Function.update f a (f a ++ [b]) x ↔ y ∈ f x ∨ x = a ∧ y = b := by
  by_cases hx : x = a
  · subst hx
    simp
  · simp [hx]

/-- What a field of a family holds after an update was there, or is in the new value. -/
theorem mem_of_mem_update {A B C : Type*} [DecidableEq A] {f : A → B} {a x : A} {b : B} {y : C}
    (field : B → List C) (h : y ∈ field (Function.update f a b x)) :
    y ∈ field (f x) ∨ y ∈ field b := by
  by_cases hx : x = a
  · subst hx
    rw [Function.update_self] at h
    exact .inr h
  · rw [Function.update_of_ne hx] at h
    exact .inl h

/-! ## Events of a log -/

/-- At most one entry of a log satisfies `p` exactly when no entry that does has one
before it. -/
theorem countP_le_one_iff {A : Type*} {p : A → Bool} {log : List A} :
    log.countP p ≤ 1 ↔
      ∀ before s after, log = before ++ s :: after → p s → ∀ t ∈ before, ¬p t := by
  constructor
  · rintro h before s after rfl hs
    rw [List.countP_append, List.countP_cons_of_pos hs] at h
    exact List.countP_eq_zero.mp (by omega)
  · intro h
    induction log using List.reverseRecOn with
    | nil => simp
    | append_singleton log s ih =>
      have hBefore := ih fun before t after hlog ht =>
        h before t (after ++ [s]) (by simp [hlog]) ht
      rw [List.countP_append, List.countP_singleton]
      by_cases hs : p s = true
      · have hNone := List.countP_eq_zero.mpr (h log s [] rfl hs)
        have hOne : (if p s = true then 1 else 0) = 1 := if_pos hs
        omega
      · rw [if_neg hs]
        exact hBefore

/-! ## Scheduled runs -/

/-- A scheduled step: the coroutine that moves, and how its operation is answered. -/
abbrev Turn (σ ε ι : Type) {Op : Type} (Ret : Op → Type) :=
  ι × (σ → (op : Op) → Except ε (Ret op) × σ)

/-- Take one turn. Nothing happens when the coroutine has ended. -/
def advance (p : Log σ ε Ret α × Config σ ε Ret α) (turn : Turn σ ε ι Ret) :
    Log σ ε Ret α × Config σ ε Ret α :=
  match p.2.threads turn.1 with
  | ret _ => p
  | raise _ => p
  | await op resume =>
    let answered := turn.2 p.2.state op
    (p.1 ++ [(p.2, ⟨turn.1, op, answered.1⟩)],
      ⟨answered.2, Function.update p.2.threads turn.1 (resume answered.1)⟩)

def simulate (c : Config σ ε Ret α) (schedule : List (Turn σ ε ι Ret)) :
    Log σ ε Ret α × Config σ ε Ret α :=
  schedule.foldl advance ([], c)

/-- A schedule whose answers the environment allows is a run. -/
theorem run_simulate {E : Environment σ ε Ret} {c : Config σ ε Ret α}
    {schedule : List (Turn σ ε ι Ret)}
    (hAnswers : ∀ turn ∈ schedule, ∀ s op, E s op (turn.2 s op).1 (turn.2 s op).2) :
    Run E c (simulate c schedule).1 (simulate c schedule).2 := by
  suffices h : ∀ p : Log σ ε Ret α × Config σ ε Ret α, Run E c p.1 p.2 →
      Run E c (schedule.foldl advance p).1 (schedule.foldl advance p).2 from h ([], c) .nil
  induction schedule with
  | nil => exact fun p hp => hp
  | cons turn rest ih =>
    intro p hp
    refine ih (fun t ht => hAnswers t (List.mem_cons_of_mem _ ht)) (advance p turn) ?_
    unfold advance
    split
    · exact hp
    · exact hp
    · rename_i op resume hThread
      exact hp.snoc (.mk hThread (hAnswers turn List.mem_cons_self _ _))

end Coroutine
