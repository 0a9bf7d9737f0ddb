import Mathlib.Data.Rat.Cast.Order
import Mathlib.Logic.Function.Basic
import Mathlib.Tactic.Linarith

/-!
# The rate limiter

`acquire` computes its wait from the time `_last` of the last return and sets `_last` after it
has slept. Callers that sleep at the same time have computed their waits from the same `_last`.
The returns are spaced in every run in which no call returns while another one sleeps
(`returns_spaced`); where one does, the sleeper may return at the same time.
-/

namespace TradingAgent.Tooling

structure RateLimiter where
  perSecond : ℚ := 5
  deriving DecidableEq, Repr

/-- The clock, the field `_last`, the calls that sleep, each with the time from which its sleep
may be over, and the times of the returns so far. -/
structure Limited (ι : Type) where
  now : ℚ
  last : ℚ := 0
  asleep : ι → Option ℚ := fun _ => none
  returns : List ℚ := []

namespace Limited

variable {ι : Type} [DecidableEq ι]

/-- The call of `i` returns, when the clock shows `t`. -/
def returned (w : Limited ι) (i : ι) (t : ℚ) : Limited ι where
  now := t
  last := t
  asleep := Function.update w.asleep i none
  returns := w.returns ++ [t]

/-- `await asyncio.sleep(wait)`. -/
def sleeps (w : Limited ι) (i : ι) (wait : ℚ) : Limited ι :=
  { w with asleep := Function.update w.asleep i (some (w.now + wait)) }

end Limited

namespace RateLimiter

variable {ι : Type} [DecidableEq ι] (limiter : RateLimiter)

/-- `_last + 1.0 / per_second - now`. -/
def wait (w : Limited ι) : ℚ := w.last + 1 / limiter.perSecond - w.now

/-- What a caller does, and whether its call returns. -/
inductive Turn (ι : Type)
  | pass
  | sleeps (i : ι)
  | returns (i : ι)

/-- A step of the callers of `acquire`. The clock may go on at any time. -/
inductive Step (w : Limited ι) : Turn ι → Limited ι → Prop
  | pass {t : ℚ} (hLater : w.now ≤ t) : Step w .pass { w with now := t }
  /-- `acquire` is called and sleeps. -/
  | waits {i : ι} (hFree : w.asleep i = none) (hOn : ¬limiter.perSecond ≤ 0)
      (hWait : 0 < limiter.wait w) : Step w (.sleeps i) (w.sleeps i (limiter.wait w))
  /-- `acquire` is called and returns, `t` being the second time that it asks for. -/
  | passes {i : ι} {t : ℚ} (hFree : w.asleep i = none) (hOn : ¬limiter.perSecond ≤ 0)
      (hWait : ¬0 < limiter.wait w) (hLater : w.now ≤ t) : Step w (.returns i) (w.returned i t)
  /-- A call wakes up and returns. -/
  | wakes {i : ι} {due : ℚ} (hAsleep : w.asleep i = some due) (hDue : due ≤ w.now) :
    Step w (.returns i) (w.returned i w.now)
  /-- Without a limit `acquire` returns at once. -/
  | unlimited {i : ι} (hFree : w.asleep i = none) (hOff : limiter.perSecond ≤ 0) :
    Step w (.returns i) { w with returns := w.returns ++ [w.now] }

/-- Steps from `w₀`, all of which meet a condition. -/
inductive Run (allowed : Limited ι → Turn ι → Prop) (w₀ : Limited ι) : Limited ι → Prop
  | nil : Run allowed w₀ w₀
  | snoc {w w' : Limited ι} {turn : Turn ι} (h : Run allowed w₀ w) (hStep : limiter.Step w turn w')
      (hAllowed : allowed w turn) : Run allowed w₀ w'

/-- No call returns while another one sleeps. -/
def Undisturbed (w : Limited ι) : Turn ι → Prop
  | .returns i => ∀ j, j ≠ i → w.asleep j = none
  | _ => True

/-- Any two returns are apart. -/
def Spaced (returns : List ℚ) : Prop := returns.Pairwise fun a b => a + 1 / limiter.perSecond ≤ b

/-- What the steps keep: a call that sleeps has computed its wait from the present `_last`. -/
structure Paced (w : Limited ι) : Prop where
  spaced : limiter.Spaced w.returns
  last : ∀ t ∈ w.returns, t ≤ w.last
  due : ∀ i due, w.asleep i = some due → due = w.last + 1 / limiter.perSecond

variable {limiter} {w w' : Limited ι} {i : ι}

/-- The return comes late enough after the present `_last`. -/
theorem Paced.returned_late (hOn : 0 < limiter.perSecond) (h : limiter.Paced w)
    (hStep : limiter.Step w (.returns i) w') :
    ∃ t, w' = w.returned i t ∧ w.last + 1 / limiter.perSecond ≤ t := by
  cases hStep with
  | passes hFree _ hWait hLater =>
    refine ⟨_, rfl, ?_⟩
    unfold wait at hWait
    linarith
  | wakes hAsleep hDue =>
    refine ⟨_, rfl, ?_⟩
    rw [← h.due i _ hAsleep]
    exact hDue
  | unlimited hFree hOff => exact absurd hOn (not_lt.mpr hOff)

theorem Paced.returned (hOn : 0 < limiter.perSecond) (h : limiter.Paced w) {t : ℚ}
    (hLate : w.last + 1 / limiter.perSecond ≤ t) (hAlone : ∀ j, j ≠ i → w.asleep j = none) :
    limiter.Paced (w.returned i t) where
  spaced := by
    refine List.pairwise_append.mpr ⟨h.spaced, List.pairwise_singleton _ _, fun a ha b hb => ?_⟩
    rw [List.mem_singleton.mp hb]
    have hLast := h.last a ha
    linarith
  last := by
    intro a ha
    have hPeriod : 0 < 1 / limiter.perSecond := one_div_pos.mpr hOn
    rcases List.mem_append.mp ha with hEarlier | hNew
    · have hLast := h.last a hEarlier
      show a ≤ t
      linarith
    · exact (List.mem_singleton.mp hNew).le
  due := by
    intro j due hAsleep
    change Function.update w.asleep i none j = some due at hAsleep
    by_cases hSame : j = i
    · rw [hSame, Function.update_self] at hAsleep
      cases hAsleep
    · rw [Function.update_of_ne hSame, hAlone j hSame] at hAsleep
      cases hAsleep

theorem Paced.step (hOn : 0 < limiter.perSecond) (h : limiter.Paced w) {turn : Turn ι}
    (hStep : limiter.Step w turn w') (hAllowed : Undisturbed w turn) : limiter.Paced w' := by
  cases turn with
  | pass =>
    cases hStep with
    | pass hLater => exact ⟨h.spaced, h.last, h.due⟩
  | sleeps i =>
    cases hStep with
    | waits hFree _ hWait =>
      refine ⟨h.spaced, h.last, fun j due hAsleep => ?_⟩
      change Function.update w.asleep i _ j = some due at hAsleep
      by_cases hSame : j = i
      · rw [hSame, Function.update_self] at hAsleep
        rw [← Option.some.inj hAsleep, wait, add_sub_cancel]
        rfl
      · rw [Function.update_of_ne hSame] at hAsleep
        exact h.due j due hAsleep
  | returns i =>
    obtain ⟨t, rfl, hLate⟩ := h.returned_late hOn hStep
    exact h.returned hOn hLate hAllowed

theorem Run.paced (hOn : 0 < limiter.perSecond) {now : ℚ}
    (h : limiter.Run Undisturbed ({ now := now } : Limited ι) w) : limiter.Paced w := by
  induction h with
  | nil => exact ⟨.nil, fun _ ht => absurd ht List.not_mem_nil, fun _ _ hAsleep => by cases hAsleep⟩
  | snoc _ hStep hAllowed ih => exact ih.step hOn hStep hAllowed

/-- A call that sleeps while another one returns may return at the same time. -/
theorem Paced.disturbed (hOn : 0 < limiter.perSecond) (h : limiter.Paced w) {turn : Turn ι}
    (hStep : limiter.Step w turn w') (hNot : ¬Undisturbed w turn) :
    ∃ j w'', limiter.Step w' (.returns j) w'' ∧ ¬limiter.Spaced w''.returns := by
  cases turn with
  | pass => exact absurd trivial hNot
  | sleeps i => exact absurd trivial hNot
  | returns i =>
    obtain ⟨t, rfl, hLate⟩ := h.returned_late hOn hStep
    obtain ⟨j, hOther, hAsleep⟩ : ∃ j, j ≠ i ∧ w.asleep j ≠ none := by
      simpa [Undisturbed] using hNot
    obtain ⟨due, hDue⟩ := Option.ne_none_iff_exists'.mp hAsleep
    have hStill : (w.returned i t).asleep j = some due := by
      rw [← hDue]
      exact Function.update_of_ne hOther _ _
    refine ⟨j, _, .wakes hStill ?_, fun hSpaced => ?_⟩
    · rw [h.due j due hDue]
      exact hLate
    · have hPeriod : 0 < 1 / limiter.perSecond := one_div_pos.mpr hOn
      have hTwice := (List.pairwise_append.mp hSpaced).2.2 t
        (List.mem_append_right _ (List.mem_singleton_self t)) t (List.mem_singleton_self t)
      linarith

/-- **The returns are spaced** as long as no call returns while another one sleeps. -/
theorem returns_spaced (hOn : 0 < limiter.perSecond) {now : ℚ}
    (h : limiter.Run Undisturbed ({ now := now } : Limited ι) w) :
    limiter.Spaced w.returns ∧
      ∀ turn w', limiter.Step w turn w' → ¬Undisturbed w turn →
        ∃ j w'', limiter.Step w' (.returns j) w'' ∧ ¬limiter.Spaced w''.returns :=
  ⟨(h.paced hOn).spaced, fun _ _ hStep hNot => (h.paced hOn).disturbed hOn hStep hNot⟩

end RateLimiter

namespace Crowd

open RateLimiter

def limiter : RateLimiter := {}

theorem limiter_on : ¬limiter.perSecond ≤ 0 := by decide

def start : Limited ℕ where
  now := 0

/-- One caller after the other. -/
def first : Limited ℕ := { start.sleeps 0 (limiter.wait start) with now := 1 / 5 }

def second : Limited ℕ :=
  { (first.returned 0 (1 / 5)).sleeps 0 (limiter.wait (first.returned 0 (1 / 5))) with
    now := 2 / 5 }

theorem alone_first (j : ℕ) (hj : j ≠ 0) : first.asleep j = none := Function.update_of_ne hj _ _

theorem alone_second (j : ℕ) (hj : j ≠ 0) : second.asleep j = none := by
  refine (Function.update_of_ne hj _ _).trans ?_
  exact (Function.update_of_ne hj _ _).trans (alone_first j hj)

theorem run_second : limiter.Run Undisturbed start (second.returned 0 (2 / 5)) := by
  have hFirst : limiter.Run Undisturbed start first :=
    (Run.nil.snoc (.waits rfl limiter_on (by decide +kernel)) trivial).snoc
      (.pass (by decide +kernel)) trivial
  have hReturned : limiter.Run Undisturbed start (first.returned 0 (1 / 5)) :=
    hFirst.snoc (.wakes rfl (by decide +kernel)) alone_first
  have hSecond : limiter.Run Undisturbed start second :=
    (hReturned.snoc (.waits rfl limiter_on (by decide +kernel)) trivial).snoc
      (.pass (by decide +kernel)) trivial
  exact hSecond.snoc (.wakes rfl (by decide +kernel)) alone_second

theorem second_spaced : ∃ w : Limited ℕ, w.returns = [1 / 5, 2 / 5] ∧
    limiter.Spaced w.returns ∧
      ∀ turn w', limiter.Step w turn w' → ¬Undisturbed w turn →
        ∃ j w'', limiter.Step w' (.returns j) w'' ∧ ¬limiter.Spaced w''.returns :=
  ⟨second.returned 0 (2 / 5), rfl, returns_spaced (by decide) run_second⟩

/-- Three callers sleep at the same time. -/
def crowd : Limited ℕ :=
  { ((start.sleeps 0 (limiter.wait start)).sleeps 1 (limiter.wait start)).sleeps 2
    (limiter.wait start) with now := 1 / 5 }

theorem run_crowd : limiter.Run (fun _ _ => True) start
    (((crowd.returned 0 (1 / 5)).returned 1 (1 / 5)).returned 2 (1 / 5)) := by
  have hWait : 0 < limiter.wait start := by decide +kernel
  have hCrowd : limiter.Run (fun _ _ => True) start crowd :=
    (((Run.nil.snoc (.waits (i := 0) rfl limiter_on hWait) trivial).snoc
      (.waits (i := 1) rfl limiter_on hWait) trivial).snoc
      (.waits (i := 2) rfl limiter_on hWait) trivial).snoc (.pass (by decide +kernel)) trivial
  exact ((hCrowd.snoc (.wakes (i := 0) rfl (by decide +kernel)) trivial).snoc
    (.wakes (i := 1) rfl (by decide +kernel)) trivial).snoc
    (.wakes (i := 2) rfl (by decide +kernel)) trivial

/-- Also without the first return. -/
theorem not_always_spaced : ¬∀ (limiter : RateLimiter) (now : ℚ) (w : Limited ℕ),
    0 < limiter.perSecond → limiter.Run (fun _ _ => True) ({ now := now } : Limited ℕ) w →
      limiter.Spaced w.returns.tail := by
  intro hAlways
  have hSpaced := hAlways limiter 0 _ (by decide) run_crowd
  have hTwice := (List.pairwise_cons.mp hSpaced).1 (1 / 5) (List.mem_singleton_self _)
  exact absurd hTwice (by decide +kernel)

end Crowd

end TradingAgent.Tooling
