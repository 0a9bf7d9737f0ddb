import TradingAgent.Risk.Refinement

/-!
# Nothing trades without an approval

`execute` trades only after its own lookup found no order, then read a kill switch that is
off, and then read a profile whose gates let the order through (`Cleared`). The audit of the
coroutine is over its own history (`clears_execute`), so that the order of the three reads is
kept whatever the other calls do in between. `trades_cleared` says this of every interleaving
over Redis, whatever the documents hold.
-/

namespace TradingAgent.Risk.RedisRiskProfileStore

open Coroutine Coro Trading

section Approvals

variable [PyText] {ι κ μ : Type} (documents : Documents)

omit [PyText] in
/-- The history has a lookup that found no order, then a switch that is off, and then a
profile that admits the order. -/
def Cleared (job : Job ι κ μ) (command : PlaceOrderCommand)
    (history : List (Event Exn Ret (Job ι κ μ))) : Prop :=
  ∃ switch profile : Option String,
    [⟨job, .getByClientOrderId command.clientOrderId, .ok none⟩,
      ⟨job, .redisGet killSwitchKey, .ok switch⟩,
      ⟨job, .redisGet profileKey, .ok profile⟩].Sublist history ∧
    (loaded documents.readKillSwitch {} switch).active = false ∧
    Admits (loaded documents.readProfile {} profile) 0 (share command)

/-- A trading call needs a cleared history. -/
def clearing (job : Job ι κ μ) (command : PlaceOrderCommand) :
    Audit (List (Event Exn Ret (Job ι κ μ))) Exn Ret :=
  .history job fun own op => trades op = true → Cleared documents job command own

variable {documents} {job : Job ι κ μ} {command : PlaceOrderCommand}
  {history : List (Event Exn Ret (Job ι κ μ))}

omit [PyText] in
/-- Once the history is cleared, everything is allowed. -/
theorem Cleared.clears {α : Type} (h : Cleared documents job command history) (m : Async α) :
    (clearing documents job command).Passes (fun _ _ => True) history m := by
  induction m generalizing history with
  | ret a => exact trivial
  | raise e => exact trivial
  | await op resume ih =>
    refine ⟨fun _ => h, fun r _ => ih r ?_⟩
    obtain ⟨switch, profile, hReads, hBoth⟩ := h
    exact ⟨switch, profile, hReads.trans (List.sublist_append_left _ _), hBoth⟩

omit [PyText] in
/-- What a getter of the store returns is what its call of Redis is read as. -/
theorem clears_get {M : Type} {name : String} (read : Option String → M) :
    (clearing documents job command).Passes
      (fun out own => ∀ model, out = .ok model →
        ∃ raw, own = history ++ [⟨job, .redisGet name, .ok raw⟩] ∧ model = read raw)
      history (do let raw ← perform (.redisGet name); return read raw) := by
  refine .bind (P := fun out own => ∀ raw, out = .ok raw →
      own = history ++ [⟨job, .redisGet name, .ok raw⟩])
    (.call (fun hTrades => absurd hTrades Bool.false_ne_true) ?_) ?_ fun e own _ model hOut => ?_
  · rintro _ - raw rfl
    rfl
  · rintro raw own hOwn model hOut
    cases hOut
    exact ⟨raw, hOwn raw rfl, rfl⟩
  · cases hOut

omit [PyText] in
/-- A posture that is not breached. -/
theorem clears_breachNotify (symbol : String) (positionPct dailyLoss : ℚ)
    (profile : RiskProfile) :
    (clearing documents job command).Passes
      (fun out own => ∀ breached, out = .ok breached → (∃ later, own = history ++ later) ∧
        (breached = false → profile.failedClosed = true ∨
          positionPct ≤ profile.maxPositionPct * (3 / 2) ∧
            dailyLoss ≤ profile.maxDailyLossPct * (3 / 2)))
      history ((service documents).breachNotify symbol positionPct dailyLoss profile) := by
  unfold RiskService.breachNotify
  split_ifs with hOver
  · refine .bind (P := fun _ own => ∃ later, own = history ++ later)
      (.call (fun hTrades => absurd hTrades Bool.false_ne_true) fun r _ => ⟨_, rfl⟩) ?_ ?_
    · rintro _ own hLater breached hOut
      cases hOut
      exact ⟨hLater, fun hClosed => .inl (by simpa using hClosed)⟩
    · rintro e own - breached hOut
      cases hOut
  · intro breached hOut
    cases hOut
    rw [not_or, not_lt, not_lt] at hOver
    exact ⟨⟨[], (List.append_nil _).symm⟩, fun _ => .inr hOver⟩

omit [PyText] in
/-- Once the switch is read, an approval follows a profile that admits the order. -/
theorem clears_checkProfile (symbol : String) (dailyLoss positionPct : ℚ) :
    (clearing documents job command).Passes
      (fun out own => ∀ decision, out = .ok decision → decision.approved = true →
        ∃ raw later, own = history ++ ⟨job, .redisGet profileKey, .ok raw⟩ :: later ∧
          Admits (loaded documents.readProfile {} raw) dailyLoss positionPct)
      history ((service documents).checkProfile symbol dailyLoss positionPct) := by
  unfold RiskService.checkProfile
  refine .bind (clears_get (loaded documents.readProfile {})) (fun profile own hRead => ?_)
    fun e own _ decision hOut => ?_
  · obtain ⟨raw, rfl, rfl⟩ := hRead profile rfl
    split_ifs with hLeverage hPosition hLoss
    · rintro _ ⟨⟩ ⟨⟩
    · rintro _ ⟨⟩ ⟨⟩
    · rintro _ ⟨⟩ ⟨⟩
    · refine .bind (clears_breachNotify symbol positionPct dailyLoss _)
        (fun breached own hOut => ?_)
        fun e own _ decision hOut => ?_
      · obtain ⟨⟨later, rfl⟩, hPosture⟩ := hOut breached rfl
        cases breached with
        | true => rintro _ ⟨⟩ ⟨⟩
        | false =>
          rintro _ ⟨⟩ -
          refine ⟨raw, later, List.append_assoc _ _ _, ?_, not_lt.mp hPosition, not_lt.mp hLoss,
            hPosture rfl⟩
          rw [not_and_or, not_lt] at hLeverage
          exact hLeverage.imp (by simp) id
      · cases hOut
  · cases hOut

omit [PyText] in
/-- An approval follows a switch that is off, and then a profile that admits the order. -/
theorem clears_checkOrder (symbol : String) (notional equity dailyLoss positionPct : ℚ) :
    (clearing documents job command).Passes
      (fun out own => ∀ decision, out = .ok decision → decision.approved = true →
        ∃ switch profile later,
          own = history ++ ⟨job, .redisGet killSwitchKey, .ok switch⟩ ::
            ⟨job, .redisGet profileKey, .ok profile⟩ :: later ∧
          (loaded documents.readKillSwitch {} switch).active = false ∧
          Admits (loaded documents.readProfile {} profile) dailyLoss positionPct)
      history ((service documents).checkOrder symbol notional equity dailyLoss positionPct) := by
  unfold RiskService.checkOrder
  refine .bind (clears_get (loaded documents.readKillSwitch {})) (fun state own hRead => ?_)
    fun e own _ decision hOut => ?_
  · obtain ⟨switch, rfl, rfl⟩ := hRead state rfl
    split_ifs with hActive
    · rintro _ ⟨⟩ ⟨⟩
    · refine (clears_checkProfile symbol dailyLoss positionPct).mono
        fun out own hApproved decision hOut hDecision => ?_
      obtain ⟨profile, later, rfl, hAdmits⟩ := hApproved decision hOut hDecision
      exact ⟨switch, profile, later, List.append_assoc _ _ _, (Bool.not_eq_true _).mp hActive,
        hAdmits⟩
  · cases hOut

omit [PyText] in
theorem clears_authorize (h : history =
      [⟨job, .getByClientOrderId command.clientOrderId, .ok none⟩]) :
    (clearing documents job command).Passes
      (fun out own => ∀ answer, out = .ok answer → answer.1 = true →
        Cleared documents job command own)
      history (RiskServiceAdapter.authorize (service documents) command.symbol
        (command.quantity * command.price) command.equity) := by
  subst h
  unfold RiskServiceAdapter.authorize
  refine .bind (clears_checkOrder _ _ _ _ _) (fun decision own hDecision => ?_)
    fun e own _ answer hOut => ?_
  · rintro _ ⟨⟩ hApproved
    obtain ⟨switch, profile, later, rfl, hOff, hAdmits⟩ := hDecision decision rfl hApproved
    exact ⟨switch, profile, List.sublist_append_left _ later, hOff, hAdmits⟩
  · cases hOut

/-- `execute` trades only once its history is cleared. -/
theorem clears_execute (c : Call) :
    (clearing documents job c.command).Passes (fun _ _ => True) []
      ((orderService documents).execute c) := by
  unfold PlaceOrderService.execute
  refine .bind (P := fun out own => ∀ found, out = .ok found →
      own = [⟨job, .getByClientOrderId c.command.clientOrderId, .ok found⟩])
    (.call (fun hTrades => absurd hTrades Bool.false_ne_true) ?_) (fun existing own hOwn => ?_)
    fun _ _ _ => trivial
  · rintro _ - found rfl
    rfl
  · cases existing with
    | some order => exact trivial
    | none =>
      refine .bind (clears_authorize (hOwn none rfl)) (fun answer own hAnswer => ?_)
        fun _ _ _ => trivial
      obtain ⟨allowed, reason⟩ := answer
      cases allowed with
      | false => exact trivial
      | true => exact (hAnswer _ rfl rfl).clears _

/-! ## Interleaved calls -/

variable [DecidableEq ι] [DecidableEq κ] [DecidableEq μ] {ext : Externals} {w : World}
  {calls : ι → Call} {toggles : κ → Bool × Option String} {profiles : μ → RiskProfile}
  {c c₀ : JobConfig ι κ μ} {log before after : JobLog ι κ μ}
  {s : JobConfig ι κ μ × Event Exn Ret (Job ι κ μ)}

/-- What a step reads is what the state held then. -/
theorem read_redis (h : Run (World.answer ext) c₀ log c) (hs : s ∈ log) {name : String}
    {raw : Option String} (hRead : s.2 = ⟨job, .redisGet name, .ok raw⟩) :
    s.1.state.redis name = raw := by
  obtain ⟨d, e⟩ := s
  obtain rfl : e = _ := hRead
  obtain ⟨before, after, rfl⟩ := List.append_of_mem hs
  obtain ⟨-, d', hStep, -⟩ := h.split rfl
  cases hStep with
  | mk hAwaits hAnswer =>
    rcases hAnswer with ⟨hRaw, -⟩ | ⟨-, e, -, hError, -⟩
    · exact (Except.ok.inj hRaw).symm
    · cases hError

theorem read_order (h : Run (World.answer ext) c₀ log c) (hs : s ∈ log) {clientOrderId : String}
    {found : Option TradeOrder}
    (hRead : s.2 = ⟨job, .getByClientOrderId clientOrderId, .ok found⟩) :
    s.1.state.getByClientOrderId clientOrderId = found := by
  obtain ⟨d, e⟩ := s
  obtain rfl : e = _ := hRead
  obtain ⟨before, after, rfl⟩ := List.append_of_mem hs
  obtain ⟨-, d', hStep, -⟩ := h.split rfl
  cases hStep with
  | mk hAwaits hAnswer =>
    rcases hAnswer with ⟨hRaw, -⟩ | ⟨-, e, -, hError, -⟩
    · exact (Except.ok.inj hRaw).symm
    · cases hError

/-- **Nothing trades without an approval.** In every interleaving of `execute`, `kill_switch`
and `set_profile` over Redis, whatever the documents hold: when a call of `execute` trades, it
has before looked its id up in a state without an order under it, then read the switch in a
state in which it is seen to be off, and then read the profile in a state in which the gates of
the profile seen admit the order. -/
theorem trades_cleared {i : ι}
    (h : Run (World.answer ext) (started documents calls toggles profiles w)
      (before ++ s :: after) c)
    (hThread : s.2.thread = .execute i) (hTrades : trades s.2.op = true) :
    ∃ looked switch profile, [looked, switch, profile].Sublist before ∧
      (∀ t ∈ [looked, switch, profile], t.2.thread = .execute i) ∧
      looked.1.state.getByClientOrderId (calls i).command.clientOrderId = none ∧
      (seenKillSwitch documents switch.1.state).active = false ∧
      Admits (seenProfile documents profile.1.state) 0 (share (calls i).command) := by
  have hClears : (clearing documents (.execute i : Job ι κ μ) (calls i).command).Passes
      (fun _ _ => True) [] ((started documents calls toggles profiles w).threads (.execute i)) :=
    clears_execute (calls i)
  obtain ⟨switch, profile, hReads, hOff, hAdmits⟩ : Cleared documents (.execute i)
      (calls i).command (Run.own (.execute i) before) :=
    h.audited_history hClears hThread hTrades
  obtain ⟨steps, hSteps, hMap⟩ := Run.exists_sublist_of_own hReads
  obtain ⟨looked, _, rfl, hLooked, hMap⟩ := List.map_eq_cons_iff.mp hMap
  obtain ⟨switched, _, rfl, hSwitched, hMap⟩ := List.map_eq_cons_iff.mp hMap
  obtain ⟨read, _, rfl, hRead, hMap⟩ := List.map_eq_cons_iff.mp hMap
  obtain rfl := List.map_eq_nil_iff.mp hMap
  have hMem : ∀ t ∈ [looked, switched, read], t ∈ before ++ s :: after := fun t ht =>
    List.mem_append_left _ (hSteps.subset ht)
  refine ⟨looked, switched, read, hSteps, ?_, read_order h (hMem _ (by simp)) hLooked, ?_, ?_⟩
  · simp [hLooked, hSwitched, hRead]
  · unfold seenKillSwitch
    rw [read_redis h (hMem _ (by simp)) hSwitched]
    exact hOff
  · unfold seenProfile
    rw [read_redis h (hMem _ (by simp)) hRead]
    exact hAdmits

end Approvals

/-! ## A cleared order -/

namespace Clearance

local instance : PyText := asciiText

/-- One order is placed, up to its submission. -/
def submitted : JobLog Unit Unit Unit × JobConfig Unit Unit Unit :=
  simulate Drill.waiting ((List.replicate 4 (.execute ())).map fun job =>
    (job, World.respond deskReplies))

theorem submitted_ne_nil : submitted.1 ≠ [] := by decide +kernel

theorem submitted_run : Run (World.answer desk) Drill.waiting
    (submitted.1.dropLast ++ submitted.1.getLast submitted_ne_nil :: []) submitted.2 := by
  rw [List.dropLast_concat_getLast]
  exact run_desk Drill.waiting (List.replicate 4 (.execute ()))

theorem submission_cleared : ∃ looked switch profile,
    [looked, switch, profile].Sublist submitted.1.dropLast ∧
      (seenKillSwitch Drill.documents switch.1.state).active = false ∧
      Admits (seenProfile Drill.documents profile.1.state) 0 (share Halt.call.command) := by
  obtain ⟨looked, switch, profile, hReads, -, -, hOff, hAdmits⟩ :=
    trades_cleared (i := ()) submitted_run (by decide +kernel) (by decide +kernel)
  exact ⟨looked, switch, profile, hReads, hOff, hAdmits⟩

end Clearance

end TradingAgent.Risk.RedisRiskProfileStore
