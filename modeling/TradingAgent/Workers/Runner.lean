import TradingAgent.Coroutine.Sequence
import TradingAgent.Tooling.Policy
import TradingAgent.Word.Records

/-!
# The improve-until-plateau loop

A round awaits the step and measures its metric; it is promoted if it exceeds the best so far, and
the round is stale otherwise. The loop ends when a stop is requested, when `max_rounds` rounds have
run, or at a plateau of `max_stale_rounds` stale rounds.

A metric is an entry of a linear order with a zero. The event `_stop` is set from outside, by the
signal handlers, while the loop awaits the step or waits between two rounds.
-/

namespace TradingAgent.Workers

open Coroutine Coro Shared Tooling

/-- The knobs that the loop reads. -/
structure LoopConfig where
  maxStaleRounds : ℤ := 3
  maxRounds : Option ℤ := none
  deriving DecidableEq, Repr

/-- The private fields of the loop. -/
structure Fields (Metric : Type) where
  best : Option Metric := none
  staleRounds : ℕ := 0
  roundN : ℕ := 0
  deriving DecidableEq, Repr

/-- The step, `_stop.is_set()`, and the wait for the event or the next round. -/
inductive Op
  | step
  | isSet
  | wait
  deriving DecidableEq, Repr

@[reducible] def Ret (Metric : Type) : Op → Type
  | .step => Metric
  | .isSet => Bool
  | .wait => Unit

variable {Metric : Type}

abbrev Call (Metric α : Type) := Shared (Fields Metric) Raised (Ret Metric) α

abbrev perform (op : Op) : Call Metric (Ret Metric op) := ask op

namespace ImproveUntilPlateau

section

variable [LinearOrder Metric]

/-- `_record`. -/
def record (metric : Metric) (fields : Fields Metric) : Fields Metric :=
  match fields.best with
  | none => { fields with best := some metric, staleRounds := 0 }
  | some previous =>
    if previous < metric then { fields with best := some metric, staleRounds := 0 }
    else { fields with staleRounds := fields.staleRounds + 1 }

variable [Zero Metric]

/-- `_run_round`. -/
def runRound : Call Metric Metric := do
  modify fun fields => { fields with roundN := fields.roundN + 1 }
  match ← (perform .step).attempt with
  | .ok metric => return metric
  | .error (.interrupt name) => raise (.interrupt name)
  | .error _ => do
    let fields ← get
    return fields.best.getD 0

omit [LinearOrder Metric] [Zero Metric] in
def maxRoundsReached (config : LoopConfig) (fields : Fields Metric) : Bool :=
  match config.maxRounds with
  | none => false
  | some limit => limit ≤ fields.roundN

/-- What the wait suppresses: `TimeoutError` and `CancelledError`. -/
def suppressed : Raised → Bool
  | .exception name => name = "TimeoutError"
  | .interrupt name => name = "CancelledError"
  | .domain _ => false

omit [LinearOrder Metric] [Zero Metric] in
/-- `_wait_until_next`. -/
def waitUntilNext : Call Metric Unit := do
  match ← (perform .wait).attempt with
  | .ok () => return ()
  | .error exc => if suppressed exc then return () else raise exc

/-- A round of `run_forever`; it returns the number of rounds when the loop is over. -/
def body (config : LoopConfig) : Call Metric (Option ℕ) := do
  let isSet ← perform .isSet
  let fields ← get
  if isSet || maxRoundsReached config fields then return some fields.roundN
  else
    let metric ← runRound
    modify (record metric)
    let fields ← get
    if config.maxStaleRounds ≤ fields.staleRounds then return some fields.roundN
    else
      waitUntilNext
      return none

def runForever (config : LoopConfig) : Loop (Fields Metric) Raised (Ret Metric) ℕ where
  first := body config
  body := body config

end

/-! ## What a round does -/

section

variable [LinearOrder Metric] [Zero Metric]

/-- The fields after a round. `none` is a step that raises an `Exception`. -/
def round (fields : Fields Metric) (outcome : Option Metric) : Fields Metric :=
  record (outcome.getD (fields.best.getD 0)) { fields with roundN := fields.roundN + 1 }

/-- The fields after some rounds. -/
def after (outcomes : List (Option Metric)) : Fields Metric := outcomes.foldl round {}

omit [Zero Metric] in
@[simp] theorem record_roundN (metric : Metric) (fields : Fields Metric) :
    (record metric fields).roundN = fields.roundN := by
  unfold record
  split
  · rfl
  · split_ifs
    · rfl
    · rfl

@[simp] theorem after_concat (outcomes : List (Option Metric)) (outcome : Option Metric) :
    after (outcomes ++ [outcome]) = round (after outcomes) outcome := by
  rw [after, List.foldl_append]
  rfl

@[simp] theorem round_roundN (fields : Fields Metric) (outcome : Option Metric) :
    (round fields outcome).roundN = fields.roundN + 1 := record_roundN _ _

end

end ImproveUntilPlateau

/-! ## The outside of the loop -/

/-- When a stop is requested: during the step of a round, or in the wait after it. -/
structure Stops where
  during : ℕ → Bool := fun _ => false
  waiting : ℕ → Bool := fun _ => false

/-- A stop is requested after the round has begun, and before the next one. -/
def Stops.requested (stops : Stops) (n : ℕ) : Bool := stops.during n || stops.waiting n

/-- How many steps have been awaited, and whether the event is set. -/
structure Outside where
  steps : ℕ := 0
  isSet : Bool := false
  deriving DecidableEq, Repr

/-- The outcome of the step of each round is given. A wait ends with the event, or by its
timeout. -/
def Outside.respond (outcome : ℕ → Option Metric) (stops : Stops) (w : Outside) :
    (op : Op) → Except Raised (Ret Metric op) × Outside
  | .step =>
    (match outcome (w.steps + 1) with
      | some metric => .ok metric
      | none => .error (.exception "RuntimeError"),
      { steps := w.steps + 1, isSet := w.isSet || stops.during (w.steps + 1) })
  | .isSet => (.ok w.isSet, w)
  | .wait =>
    let isSet := w.isSet || stops.waiting w.steps
    (if isSet then .ok () else .error (.exception "TimeoutError"), { w with isSet := isSet })

namespace ImproveUntilPlateau

variable [LinearOrder Metric] [Zero Metric] (config : LoopConfig) (outcome : ℕ → Option Metric)
  (stops : Stops)

/-- The loop has run, and this is how it has ended. -/
def Ended (out : Except Raised ℕ) (w : Fields Metric × Outside) : Prop :=
  LoopRuns (answered (Outside.respond outcome stops)) (runForever config) ({}, {})
    (runForever config).first out w

/-- What `body` does. -/
def turn (f : Fields Metric) (w : Outside) :
    Except Raised (Option ℕ) × (Fields Metric × Outside) :=
  if w.isSet || maxRoundsReached config f then (.ok (some f.roundN), f, w)
  else
    let f' := round f (outcome (w.steps + 1))
    let w' := (w.respond outcome stops .step).2
    if config.maxStaleRounds ≤ f'.staleRounds then (.ok (some f'.roundN), f', w')
    else (.ok none, f', (w'.respond outcome stops .wait).2)

omit [LinearOrder Metric] in
theorem drive_runRound (f : Fields Metric) (w : Outside) :
    drive (aloneAnswer (Outside.respond outcome stops)) (f, w) runRound =
      (.ok ((outcome (w.steps + 1)).getD (f.best.getD 0)), { f with roundN := f.roundN + 1 },
        (w.respond outcome stops .step).2) := by
  unfold runRound
  rw [drive_bind, drive_modify]
  dsimp only
  rw [drive_bind, drive_attempt, drive_ask]
  unfold Outside.respond
  cases outcome (w.steps + 1) with
  | none => rfl
  | some metric => rfl

omit [LinearOrder Metric] [Zero Metric] in
theorem drive_waitUntilNext (f : Fields Metric) (w : Outside) :
    drive (aloneAnswer (Outside.respond outcome stops)) (f, w) waitUntilNext =
      (.ok (), f, (w.respond outcome stops .wait).2) := by
  unfold waitUntilNext
  rw [drive_bind, drive_attempt, drive_ask]
  unfold Outside.respond
  cases w.isSet || stops.waiting w.steps with
  | false => rfl
  | true => rfl

theorem drive_body (f : Fields Metric) (w : Outside) :
    drive (aloneAnswer (Outside.respond outcome stops)) (f, w) (body config) =
      turn config outcome stops f w := by
  have hSet : drive (aloneAnswer (Outside.respond outcome stops)) (f, w) (perform .isSet) =
      (.ok w.isSet, f, w) := rfl
  unfold body turn
  rw [drive_bind, hSet]
  dsimp only
  rw [drive_bind, drive_get]
  dsimp only
  by_cases hOver : (w.isSet || maxRoundsReached config f) = true
  · rw [if_pos hOver, if_pos hOver]
    rfl
  · rw [if_neg hOver, if_neg hOver, drive_bind, drive_runRound]
    dsimp only
    rw [drive_bind, drive_modify]
    dsimp only
    rw [drive_bind, drive_get]
    show drive _ (round f (outcome (w.steps + 1)), _) (if config.maxStaleRounds ≤
      (round f (outcome (w.steps + 1))).staleRounds then _ else _) = _
    by_cases hFlat : config.maxStaleRounds ≤ (round f (outcome (w.steps + 1))).staleRounds
    · rw [if_pos hFlat, if_pos hFlat]
      rfl
    · rw [if_neg hFlat, if_neg hFlat, drive_bind, drive_waitUntilNext]
      rfl

end ImproveUntilPlateau

end TradingAgent.Workers
