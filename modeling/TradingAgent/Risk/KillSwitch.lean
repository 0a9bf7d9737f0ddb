import TradingAgent.Risk.Service
import TradingAgent.Trading.Interleaving

/-!
# The kill switch

Calls of `execute`, `kill_switch` and `set_profile` run interleaved over one store, with
the risk service as the risk gate. While the stored switch is on, a call of `execute` awaits
only its lookup and the switch (`execute_halted`): this is a contract of the coroutine with
its environment, and it is kept in every interleaving. `kill_switch_halts` applies it to the
steps between a write that turns the switch on and the next one that turns it off.
-/

namespace TradingAgent.Risk

open Coroutine Coro Trading

/-- The share of the equity that an order takes, as the risk gate computes it. -/
def share (command : PlaceOrderCommand) : ℚ :=
  if command.equity = 0 then 1 else command.quantity * command.price / command.equity

section Calls

variable [PyText]

/-- The order service with the risk service as its risk gate. -/
def orderService : PlaceOrderService :=
  { PlaceOrderService.ports with authorize := RiskServiceAdapter.authorize .ports }

/-- The calls that trade: a submission, a saved order, a changed position, an announced
order. -/
def trades : Op → Bool
  | .submitMarketOrder _ => true
  | .createOrder _ _ _ _ => true
  | .saveOrder _ => true
  | .savePosition _ => true
  | .publish (.orderStateChanged _) => true
  | _ => false

/-- What a call of `execute` may rely on while the switch is on: the switch is read as
active. `Stored` holds of the orders that a lookup of its id finds, `Raised` of what is
raised. -/
def Halted (clientOrderId : String) (Stored : TradeOrder → Prop) (Raised : Exn → Prop) :
    (op : Op) → Except Exn (Ret op) → Prop
  | .getByClientOrderId key, .ok found =>
    key = clientOrderId → ∀ order, found = some order → Stored order
  | .getKillSwitch, .ok state => state.active = true
  | _, .ok _ => True
  | _, .error e => Raised e

/-- How a call ends while the switch is on. -/
def Refused (Stored : TradeOrder → Prop) (Raised : Exn → Prop) :
    Except Exn (Result TradeOrder String) → Prop
  | .ok (.ok order) => Stored order
  | .ok (.err _) => True
  | .error e => Raised e

variable {clientOrderId : String} {Stored : TradeOrder → Prop} {Raised : Exn → Prop}

omit [PyText] in
/-- While the switch is on, `check_order` reads it and refuses. -/
theorem checkOrder_halted (symbol : String) (notional equity dailyLoss positionPct : ℚ) :
    Obeys (fun op => trades op = false) (Halted clientOrderId Stored Raised)
      (fun out => match out with
        | .ok decision => decision.approved = false
        | .error e => Raised e)
      (RiskService.ports.checkOrder symbol notional equity dailyLoss positionPct) := by
  unfold RiskService.checkOrder
  refine Obeys.bind (P := Halted clientOrderId Stored Raised .getKillSwitch)
    (Obeys.call rfl fun r hr => hr) (fun state hState => ?_) fun e hRaised => hRaised
  have hActive : state.active = true := hState
  rw [hActive]
  exact rfl

omit [PyText] in
theorem authorize_halted (symbol : String) (notional equity : ℚ) :
    Obeys (fun op => trades op = false) (Halted clientOrderId Stored Raised)
      (fun out => match out with
        | .ok answer => answer.1 = false
        | .error e => Raised e)
      (RiskServiceAdapter.authorize .ports symbol notional equity) := by
  unfold RiskServiceAdapter.authorize
  exact Obeys.bind (checkOrder_halted symbol notional equity 0 _)
    (fun decision hDecision => hDecision) fun e hRaised => hRaised

/-- While the switch is on, `execute` does not trade: it returns what its lookup found or
an error. -/
theorem execute_halted (c : Call) :
    Obeys (fun op => trades op = false) (Halted c.command.clientOrderId Stored Raised)
      (Refused Stored Raised) (orderService.execute c) := by
  unfold PlaceOrderService.execute
  refine Obeys.bind
    (P := Halted c.command.clientOrderId Stored Raised
      (.getByClientOrderId c.command.clientOrderId))
    (Obeys.call rfl fun r hr => hr) (fun existing hFound => ?_) fun e hRaised => hRaised
  cases existing with
  | some order => exact hFound rfl order rfl
  | none =>
    refine Obeys.bind (authorize_halted _ _ _) (fun answer hAnswer => ?_) fun e hRaised => hRaised
    obtain ⟨allowed, reason⟩ := answer
    obtain rfl : allowed = false := hAnswer
    exact trivial

/-! ## Interleaved calls -/

/-- A call: the `i`-th `execute`, the `j`-th `kill_switch` or the `k`-th `set_profile`. -/
inductive Job (ι κ μ : Type)
  | execute (i : ι)
  | killSwitch (j : κ)
  | setProfile (k : μ)
  deriving DecidableEq

variable {ι κ μ : Type}

@[reducible] def Job.Answer : Job ι κ μ → Type
  | .execute _ => Result TradeOrder String
  | .killSwitch _ => KillSwitchState
  | .setProfile _ => RiskProfile

abbrev JobConfig (ι κ μ : Type) := Config World Exn Ret (@Job.Answer ι κ μ)

abbrev JobLog (ι κ μ : Type) := Log World Exn Ret (@Job.Answer ι κ μ)

/-- All calls before their first step. -/
def start (calls : ι → Call) (toggles : κ → Bool × Option String) (profiles : μ → RiskProfile)
    (w : World) : JobConfig ι κ μ where
  state := w
  threads
    | .execute i => orderService.execute (calls i)
    | .killSwitch j => RiskService.ports.killSwitch (toggles j).1 (toggles j).2
    | .setProfile k => RiskService.ports.setProfile (profiles k)

omit [PyText] in
/-- The step stores a switch that is on or off. -/
def turns (active : Bool) (e : Event Exn Ret (Job ι κ μ)) : Bool :=
  match e with
  | ⟨_, .setKillSwitch state, .ok _⟩ => state.active = active
  | _ => false

section Run

variable [DecidableEq ι] [DecidableEq κ] [DecidableEq μ] {ext : Externals}
  {c c' d : JobConfig ι κ μ} {e : Event Exn Ret (Job ι κ μ)} {log : JobLog ι κ μ}

/-- The switch after a step: as before, or as the step turned it. -/
theorem switch_cases (hStep : Step (World.answer ext) c e c') :
    (c'.state.killSwitch = c.state.killSwitch ∧ ∀ active, ¬turns active e) ∨
      ∀ active, turns active e ↔ c'.state.killSwitch.active = active := by
  cases hStep with
  | @mk j op resume r w' hThread hAnswer =>
    by_cases hSet : ∃ state, op = .setKillSwitch state
    · obtain ⟨state, rfl⟩ := hSet
      rcases hAnswer with ⟨rfl, rfl⟩ | ⟨-, error, -, rfl, rfl⟩
      · exact .inr fun active => by simp [turns]
      · exact .inl ⟨rfl, fun active => by simp [turns]⟩
    · have hSame := World.answer_killSwitch hAnswer fun state hOp => hSet ⟨state, hOp⟩
      refine .inl ⟨hSame, fun active hTurns => ?_⟩
      unfold turns at hTurns
      split at hTurns
      · rename_i state _ hEvent
        cases hEvent
        exact hSet ⟨state, rfl⟩
      · cases hTurns

/-- A step that turns the switch on leaves it on. -/
theorem switch_turned (hOn : turns true e) (hStep : Step (World.answer ext) c e c') :
    c'.state.killSwitch.active = true := by
  rcases switch_cases hStep with ⟨-, hNever⟩ | hTurns
  · exact absurd hOn (hNever true)
  · exact (hTurns true).mp hOn

/-- A switch that is on stays on unless it is turned off. -/
theorem switch_step (hActive : c.state.killSwitch.active = true) (hOff : ¬turns false e)
    (hStep : Step (World.answer ext) c e c') : c'.state.killSwitch.active = true := by
  rcases switch_cases hStep with ⟨hSame, -⟩ | hTurns
  · rw [hSame, hActive]
  · by_contra hNot
    exact hOff ((hTurns false).mpr (Bool.not_eq_true _ ▸ hNot))

theorem switch_run (h : Run (World.answer ext) d log c)
    (hActive : d.state.killSwitch.active = true) (hOff : ∀ s ∈ log, ¬turns false s.2) :
    c.state.killSwitch.active = true ∧
      ∀ s ∈ log, s.1.state.killSwitch.active = true := by
  refine h.invariant_of_guard (G := fun _ _ e => ¬turns false e)
    (I := fun log c => c.state.killSwitch.active = true ∧
      ∀ s ∈ log, s.1.state.killSwitch.active = true)
    (fun before c e after hlog => hOff (c, e) (by simp [hlog])) ⟨hActive, by simp⟩ ?_
  rintro log c e c' ⟨hNow, hBefore⟩ hGuard hStep
  refine ⟨switch_step hNow hGuard hStep, fun s hs => ?_⟩
  rcases List.mem_append.mp hs with hs | hs
  · exact hBefore s hs
  · rw [List.mem_singleton.mp hs]
    exact hNow

/-- What the lookups of a call find in the steps of a log. -/
def Found (log : JobLog ι κ μ) (i : ι) (clientOrderId : String) (order : TradeOrder) : Prop :=
  ∃ s ∈ log, s.2.thread = .execute i ∧ s.1.state.getByClientOrderId clientOrderId = some order

/-- What a call is answered with in the steps of a log, when that is an exception. -/
def Failed (log : JobLog ι κ μ) (i : ι) (e : Exn) : Prop :=
  ∃ s ∈ log, s.2.thread = .execute i ∧ s.2.answer = .error e

/-- While the switch is on, the answers that a call receives are those it relies on. -/
theorem halted_answers {i : ι} {clientOrderId : String} (h : Run (World.answer ext) d log c)
    (hActive : ∀ s ∈ log, s.1.state.killSwitch.active = true) :
    ∀ s ∈ log, s.2.thread = .execute i →
      Halted clientOrderId (Found log i clientOrderId) (Failed log i) s.2.op s.2.answer := by
  rintro ⟨c₁, e⟩ hs hThread
  obtain ⟨before, after, hlog⟩ := List.append_of_mem hs
  obtain ⟨-, c₂, hStep, -⟩ := h.split hlog
  cases hStep with
  | @mk j op resume r w' hAwaits hAnswer =>
    dsimp only at hThread ⊢
    cases r with
    | error e => cases op <;> exact ⟨_, hs, hThread, rfl⟩
    | ok a =>
      rcases hAnswer with hAnswer | ⟨-, e, -, hError, -⟩
      · cases op with
        | getByClientOrderId key =>
          rintro rfl order hFound
          refine ⟨_, hs, hThread, ?_⟩
          rw [← hFound]
          exact (Except.ok.inj hAnswer.1).symm
        | getKillSwitch =>
          have hState : a = c₁.state.killSwitch := Except.ok.inj hAnswer.1
          change a.active = true
          rw [hState]
          exact hActive _ hs
        | _ => trivial
      · cases hError

end Run

end Calls

/-! ## A halted order -/

namespace Halt

local instance : PyText := asciiText

def call : Call where
  command :=
    { symbol := "BTC/USDT", side := .buy, quantity := 1, price := 100
      clientOrderId := "demo-1", equity := 10000 }
  id := ⟨"first"⟩
  now := 0

/-- One order, one `kill_switch(True)`, and one profile that allows leverage. -/
def waiting : JobConfig Unit Unit Unit :=
  start (fun _ => call) (fun _ => (true, some "drill"))
    (fun _ => { maxPositionPct := 100, allowLeverage := true }) {}

/-- The switch is turned on, the profile is set, and then the order is placed. -/
def ended : JobLog Unit Unit Unit × JobConfig Unit Unit Unit :=
  simulate waiting
    ([.killSwitch (), .setProfile (), .execute (), .execute (), .execute ()].map fun job =>
      (job, World.respond deskReplies))

/-- The step that turns the switch on. -/
def turned : JobConfig Unit Unit Unit × Event Exn Ret (Job Unit Unit Unit) :=
  (waiting, ⟨.killSwitch (), .setKillSwitch { active := true, reason := some "drill" }, .ok ()⟩)

theorem ended_run : Run (World.answer desk) waiting ([] ++ turned :: ended.1.tail) ended.2 :=
  run_desk waiting [.killSwitch (), .setProfile (), .execute (), .execute (), .execute ()]

end Halt

end TradingAgent.Risk
