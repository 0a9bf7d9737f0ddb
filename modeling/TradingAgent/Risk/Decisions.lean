import TradingAgent.Risk.Service
import TradingAgent.World
import Mathlib.Algebra.Order.Field.Basic
import Mathlib.Tactic.Linarith

/-!
# What the risk service decides

`decided` is the decision of `check_order`, with the events that it publishes, for what the
store holds; `drive_checkOrder` says that the service computes it. `authorizes_exactly_iff`
says for which equities the risk gate approves exactly the orders within its limits, and
`breach_announced_iff` for which orders a breach of the posture is announced as it should be:
the guards before it refuse every breach, so that none ever is.
-/

namespace TradingAgent.Risk

open Coroutine Coro

/-! ## The decision -/

/-- The order is half as large again as a limit of the profile, or the loss is. -/
def Breach (profile : RiskProfile) (dailyLoss positionPct : ℚ) : Prop :=
  positionPct > profile.maxPositionPct * (3 / 2) ∨ dailyLoss > profile.maxDailyLossPct * (3 / 2)

instance (profile : RiskProfile) (dailyLoss positionPct : ℚ) :
    Decidable (Breach profile dailyLoss positionPct) :=
  inferInstanceAs (Decidable (_ ∨ _))

/-- The decision on an order of an admitted size, with the events published on the way. -/
def lossDecided (profile : RiskProfile) (symbol : String) (dailyLoss positionPct : ℚ) :
    RiskDecision × List DomainEvent :=
  if dailyLoss > profile.maxDailyLossPct then
    ({ approved := false, reason := "daily_loss_exceeded" }, [])
  else if Breach profile dailyLoss positionPct then
    (if profile.failedClosed then { approved := true, reason := "ok" }
      else { approved := false, reason := "posture_breach" },
      [.riskBreached { symbol := symbol, reason := "posture_breach" }])
  else ({ approved := true, reason := "ok" }, [])

/-- The decision once the switch is off. -/
def profileDecided (profile : RiskProfile) (symbol : String) (dailyLoss positionPct : ℚ) :
    RiskDecision × List DomainEvent :=
  if !profile.allowLeverage ∧ positionPct > 1 then
    ({ approved := false, reason := "leverage_disabled" }, [])
  else if positionPct > profile.maxPositionPct then
    ({ approved := false, reason := "max_position_exceeded" }, [])
  else lossDecided profile symbol dailyLoss positionPct

def decided (state : KillSwitchState) (profile : RiskProfile) (symbol : String)
    (dailyLoss positionPct : ℚ) : RiskDecision × List DomainEvent :=
  if state.active then
    ({ approved := false, reason := "kill_switch: " ++ reasonOr state.reason "active" }, [])
  else profileDecided profile symbol dailyLoss positionPct

/-- What the gates of a profile let through. -/
theorem profileDecided_approved (profile : RiskProfile) (symbol : String)
    (dailyLoss positionPct : ℚ) :
    (profileDecided profile symbol dailyLoss positionPct).1.approved = true ↔
      (profile.allowLeverage = true ∨ positionPct ≤ 1) ∧ positionPct ≤ profile.maxPositionPct ∧
        dailyLoss ≤ profile.maxDailyLossPct ∧
        (profile.failedClosed = true ∨ ¬Breach profile dailyLoss positionPct) := by
  have hLarge : ¬(!profile.allowLeverage ∧ positionPct > 1) ↔
      profile.allowLeverage = true ∨ positionPct ≤ 1 := by
    cases profile.allowLeverage with
    | true => simp
    | false => simp
  unfold profileDecided
  by_cases hLeverage : !profile.allowLeverage ∧ positionPct > 1
  · rw [if_pos hLeverage]
    exact iff_of_false Bool.false_ne_true fun h => hLarge.mpr h.1 hLeverage
  rw [if_neg hLeverage, and_iff_right (hLarge.mp hLeverage)]
  by_cases hPosition : positionPct > profile.maxPositionPct
  · rw [if_pos hPosition]
    exact iff_of_false Bool.false_ne_true fun h => h.1.not_gt hPosition
  rw [if_neg hPosition, and_iff_right (not_lt.mp hPosition), lossDecided]
  by_cases hLoss : dailyLoss > profile.maxDailyLossPct
  · rw [if_pos hLoss]
    exact iff_of_false Bool.false_ne_true fun h => h.1.not_gt hLoss
  rw [if_neg hLoss, and_iff_right (not_lt.mp hLoss)]
  by_cases hBreach : Breach profile dailyLoss positionPct
  · rw [if_pos hBreach]
    cases profile.failedClosed with
    | true => exact iff_of_true rfl (.inl rfl)
    | false =>
      exact iff_of_false Bool.false_ne_true fun h => h.elim Bool.false_ne_true (· hBreach)
  · rw [if_neg hBreach]
    exact iff_of_true rfl (.inr hBreach)

section Service

variable [PyText] (replies : World.Replies) (w : World) (store : RiskProfileStore)

/-- A breach is announced, and refused unless the profile is `failed_closed`. -/
theorem drive_breach (symbol : String) (dailyLoss positionPct : ℚ) (profile : RiskProfile) :
    drive (World.respond replies) w
        ((RiskService.withStore store).breachNotify symbol positionPct dailyLoss profile) =
      if Breach profile dailyLoss positionPct then
        (.ok !profile.failedClosed,
          w.publish (.riskBreached { symbol := symbol, reason := "posture_breach" }))
      else (.ok false, w) := by
  unfold RiskService.breachNotify
  by_cases hBreach : Breach profile dailyLoss positionPct
  · rw [if_pos hBreach]
    have hOver : positionPct > profile.maxPositionPct * (3 / 2) ∨
        dailyLoss > profile.maxDailyLossPct * (3 / 2) := hBreach
    rw [if_pos hOver]
    rfl
  · rw [if_neg hBreach]
    have hUnder : ¬(positionPct > profile.maxPositionPct * (3 / 2) ∨
        dailyLoss > profile.maxDailyLossPct * (3 / 2)) := hBreach
    rw [if_neg hUnder]
    rfl

variable {store}

/-- What is decided once the switch is off, over any store that can be read. -/
theorem drive_profileDecided {profile : RiskProfile}
    (hGet : drive (World.respond replies) w store.getProfile = (.ok profile, w))
    (symbol : String) (dailyLoss positionPct : ℚ) :
    drive (World.respond replies) w
        ((RiskService.withStore store).checkProfile symbol dailyLoss positionPct) =
      (.ok (profileDecided profile symbol dailyLoss positionPct).1,
        { w with published :=
            w.published ++ (profileDecided profile symbol dailyLoss positionPct).2 }) := by
  have hRead : drive (World.respond replies) w (RiskService.withStore store).store.getProfile =
      (.ok profile, w) := hGet
  have hSilent : { w with published := w.published ++ [] } = w := by rw [List.append_nil]
  unfold RiskService.checkProfile profileDecided
  rw [drive_bind, hRead]
  dsimp only
  by_cases hLeverage : !profile.allowLeverage ∧ positionPct > 1
  · rw [if_pos hLeverage, if_pos hLeverage, hSilent]
    rfl
  rw [if_neg hLeverage, if_neg hLeverage]
  by_cases hPosition : positionPct > profile.maxPositionPct
  · rw [if_pos hPosition, if_pos hPosition, hSilent]
    rfl
  rw [if_neg hPosition, if_neg hPosition, lossDecided]
  by_cases hLoss : dailyLoss > profile.maxDailyLossPct
  · rw [if_pos hLoss, if_pos hLoss, hSilent]
    rfl
  rw [if_neg hLoss, if_neg hLoss, drive_bind, drive_breach]
  by_cases hBreach : Breach profile dailyLoss positionPct
  · rw [if_pos hBreach, if_pos hBreach]
    cases profile.failedClosed with
    | false => rfl
    | true => rfl
  · rw [if_neg hBreach, if_neg hBreach, hSilent]
    rfl

/-- `check_order` decides on the stored switch and profile. -/
theorem drive_checkOrder (symbol : String) (notional equity dailyLoss positionPct : ℚ) :
    drive (World.respond replies) w
        (RiskService.ports.checkOrder symbol notional equity dailyLoss positionPct) =
      (.ok (decided w.killSwitch w.profile symbol dailyLoss positionPct).1,
        { w with published :=
            w.published ++ (decided w.killSwitch w.profile symbol dailyLoss positionPct).2 }) := by
  have hGet : drive (World.respond replies) w RiskService.ports.store.getKillSwitch =
      (.ok w.killSwitch, w) := drive_call _ _ _
  unfold RiskService.checkOrder decided
  rw [drive_bind, hGet]
  dsimp only
  by_cases hActive : w.killSwitch.active = true
  · rw [if_pos hActive, if_pos hActive, List.append_nil]
    rfl
  · rw [if_neg hActive, if_neg hActive]
    have hProfile : drive (World.respond replies) w RiskProfileStore.ports.getProfile =
        (.ok w.profile, w) := drive_call _ _ _
    exact drive_profileDecided replies w hProfile symbol dailyLoss positionPct

/-- The gate decides on the share of the equity and on no daily loss. -/
theorem drive_authorize (symbol : String) (notional equity : ℚ) :
    (drive (World.respond replies) w
        (RiskServiceAdapter.authorize .ports symbol notional equity)).1 =
      .ok ((decided w.killSwitch w.profile symbol 0
          (if equity = 0 then 1 else notional / equity)).1.approved,
        (decided w.killSwitch w.profile symbol 0
          (if equity = 0 then 1 else notional / equity)).1.reason) := by
  unfold RiskServiceAdapter.authorize
  rw [drive_bind, drive_checkOrder]
  rfl

end Service

/-! ## Limits that are not negative -/

section Limits

variable (state : KillSwitchState) {profile : RiskProfile} (symbol : String)
  {dailyLoss positionPct : ℚ}

/-- Within limits that are not negative there is no breach. -/
theorem not_breach (hPosition : 0 ≤ profile.maxPositionPct) (hLoss : 0 ≤ profile.maxDailyLossPct)
    (hSmall : positionPct ≤ profile.maxPositionPct)
    (hEven : dailyLoss ≤ profile.maxDailyLossPct) : ¬Breach profile dailyLoss positionPct := by
  rintro (hBreach | hBreach)
  · linarith
  · linarith

/-- The guards refuse every breach before it can be announced. -/
theorem decided_silent (hPosition : 0 ≤ profile.maxPositionPct)
    (hLoss : 0 ≤ profile.maxDailyLossPct) :
    (decided state profile symbol dailyLoss positionPct).2 = [] := by
  unfold decided profileDecided lossDecided
  split
  · rfl
  split
  · rfl
  split
  · rfl
  rename_i hSmall
  split
  · rfl
  rename_i hEven
  rw [if_neg (not_breach hPosition hLoss (not_lt.mp hSmall) (not_lt.mp hEven))]

theorem decided_approved (hPosition : 0 ≤ profile.maxPositionPct)
    (hLoss : 0 ≤ profile.maxDailyLossPct) :
    (decided state profile symbol dailyLoss positionPct).1.approved = true ↔
      state.active = false ∧ (profile.allowLeverage = true ∨ positionPct ≤ 1) ∧
        positionPct ≤ profile.maxPositionPct ∧ dailyLoss ≤ profile.maxDailyLossPct := by
  unfold decided
  cases state.active with
  | true => exact iff_of_false Bool.false_ne_true fun h => by cases h.1
  | false =>
    rw [if_neg Bool.false_ne_true, profileDecided_approved, and_iff_right rfl]
    constructor
    · exact fun ⟨hLeverage, hSmall, hEven, _⟩ => ⟨hLeverage, hSmall, hEven⟩
    · exact fun ⟨hLeverage, hSmall, hEven⟩ =>
        ⟨hLeverage, hSmall, hEven, .inr (not_breach hPosition hLoss hSmall hEven)⟩

end Limits

/-! ## The risk gate -/

section Gate

variable [PyText] (replies : World.Replies) (w : World) (symbol : String) {notional equity : ℚ}

/-- The gate approves the order. -/
def Authorizes (notional equity : ℚ) : Prop :=
  ∃ reason, (drive (World.respond replies) w
    (RiskServiceAdapter.authorize .ports symbol notional equity)).1 = .ok (true, reason)

/-- The order is within the limits of the account. -/
structure WithinLimits (notional equity : ℚ) : Prop where
  switch : w.killSwitch.active = false
  solvent : 0 < equity
  position : notional ≤ w.profile.maxPositionPct * equity
  leverage : w.profile.allowLeverage = true ∨ notional ≤ equity

theorem authorizes_iff (hPosition : 0 ≤ w.profile.maxPositionPct)
    (hLoss : 0 ≤ w.profile.maxDailyLossPct) :
    Authorizes replies w symbol notional equity ↔
      w.killSwitch.active = false ∧
        (w.profile.allowLeverage = true ∨ (if equity = 0 then 1 else notional / equity) ≤ 1) ∧
        (if equity = 0 then 1 else notional / equity) ≤ w.profile.maxPositionPct := by
  unfold Authorizes
  rw [drive_authorize]
  rw [← and_iff_left (a := _ ≤ w.profile.maxPositionPct) hLoss,
    ← decided_approved w.killSwitch symbol hPosition hLoss]
  constructor
  · rintro ⟨reason, hSame⟩
    exact congrArg Prod.fst (Except.ok.inj hSame)
  · intro hTrue
    exact ⟨_, by rw [hTrue]⟩

/-- With positive equity the gate is exact. -/
theorem authorizes_solvent_iff (hPosition : 0 ≤ w.profile.maxPositionPct)
    (hLoss : 0 ≤ w.profile.maxDailyLossPct) (hEquity : 0 < equity) :
    Authorizes replies w symbol notional equity ↔ WithinLimits w notional equity := by
  rw [authorizes_iff replies w symbol hPosition hLoss, if_neg hEquity.ne', div_le_one hEquity,
    div_le_iff₀ hEquity]
  constructor
  · rintro ⟨hActive, hLeverage, hShare⟩
    exact ⟨hActive, hEquity, hShare, hLeverage⟩
  · intro h
    exact ⟨h.switch, h.leverage, h.position⟩

/-- With negative equity the share of every order is negative, and within every limit. -/
theorem authorizes_insolvent_iff (hPosition : 0 ≤ w.profile.maxPositionPct)
    (hLoss : 0 ≤ w.profile.maxDailyLossPct) (hNotional : 0 < notional) (hEquity : equity < 0) :
    Authorizes replies w symbol notional equity ↔ w.killSwitch.active = false := by
  have hShare : notional / equity < 0 := div_neg_of_pos_of_neg hNotional hEquity
  rw [authorizes_iff replies w symbol hPosition hLoss, if_neg hEquity.ne]
  constructor
  · exact fun h => h.1
  · intro hActive
    exact ⟨hActive, .inr (by linarith), by linarith⟩

/-- With no equity the share of every order is taken to be one. -/
theorem authorizes_empty_iff (hPosition : 0 ≤ w.profile.maxPositionPct)
    (hLoss : 0 ≤ w.profile.maxDailyLossPct) :
    Authorizes replies w symbol notional 0 ↔
      w.killSwitch.active = false ∧ 1 ≤ w.profile.maxPositionPct := by
  rw [authorizes_iff replies w symbol hPosition hLoss, if_pos rfl]
  constructor
  · rintro ⟨hActive, -, hLarge⟩
    exact ⟨hActive, hLarge⟩
  · rintro ⟨hActive, hLarge⟩
    exact ⟨hActive, .inr le_rfl, hLarge⟩

/-- **The gate.** With limits that are not negative, the gate approves exactly the orders
within the limits, if and only if the equity is positive, the switch is on, or the equity is
zero and `max_position_pct` below one. A negative equity makes every share of it negative. -/
theorem authorizes_exactly_iff (hPosition : 0 ≤ w.profile.maxPositionPct)
    (hLoss : 0 ≤ w.profile.maxDailyLossPct) (hNotional : 0 < notional) :
    (Authorizes replies w symbol notional equity ↔ WithinLimits w notional equity) ↔
      0 < equity ∨ w.killSwitch.active = true ∨
        equity = 0 ∧ w.profile.maxPositionPct < 1 := by
  rcases lt_trichotomy equity 0 with hNegative | rfl | hPositive
  · have hNot : ¬WithinLimits w notional equity := fun h => h.solvent.not_gt hNegative
    rw [authorizes_insolvent_iff replies w symbol hPosition hLoss hNotional hNegative,
      iff_false_right hNot, Bool.not_eq_false, or_iff_right hNegative.not_gt]
    constructor
    · exact .inl
    · rintro (hOn | ⟨hZero, -⟩)
      · exact hOn
      · exact absurd hZero hNegative.ne
  · have hNot : ¬WithinLimits w notional 0 := fun h => h.solvent.false
    rw [authorizes_empty_iff replies w symbol hPosition hLoss, iff_false_right hNot, not_and_or,
      Bool.not_eq_false, not_le, or_iff_right (lt_irrefl 0), and_iff_right rfl]
  · exact iff_of_true (authorizes_solvent_iff replies w symbol hPosition hLoss hPositive)
      (.inl hPositive)

end Gate

/-! ## Breaches of the posture -/

/-- The breaches that events announce. -/
def breaches (events : List DomainEvent) : List RiskBreached :=
  events.filterMap fun event =>
    match event with
    | .riskBreached breached => some breached
    | _ => none

section Posture

variable [PyText] (replies : World.Replies) (w : World) (symbol : String)
  (notional equity dailyLoss positionPct : ℚ)

/-- A breach is announced once, for the symbol, and refused; and nothing else is announced
as one. -/
def BreachAnnounced : Prop :=
  ∃ decision published,
    drive (World.respond replies) w
        (RiskService.ports.checkOrder symbol notional equity dailyLoss positionPct) =
      (.ok decision, { w with published := w.published ++ published }) ∧
    (Breach w.profile dailyLoss positionPct →
      (∃ reason, breaches published = [{ symbol := symbol, reason := reason }]) ∧
        decision.approved = false) ∧
    (¬Breach w.profile dailyLoss positionPct → breaches published = [])

variable {replies w symbol notional equity dailyLoss positionPct} in
/-- No breach is announced. -/
theorem not_announced (hPosition : 0 ≤ w.profile.maxPositionPct)
    (hLoss : 0 ≤ w.profile.maxDailyLossPct)
    (hBreached : Breach w.profile dailyLoss positionPct) :
    ¬BreachAnnounced replies w symbol notional equity dailyLoss positionPct := by
  rintro ⟨decision, published, hRun, hAnnounced, -⟩
  obtain ⟨⟨reason, hOne⟩, -⟩ := hAnnounced hBreached
  rw [drive_checkOrder, decided_silent w.killSwitch symbol hPosition hLoss] at hRun
  have hPublished := congrArg (fun ended => ended.2.published) hRun
  rw [List.append_right_inj] at hPublished
  rw [← hPublished] at hOne
  cases hOne

/-- **Breaches.** With limits that are not negative, breaches of the posture are announced
and refused as they should be exactly for the orders that are none, whether `failed_closed`
is set or not: a breach is refused by the guards before it, and is not announced. -/
theorem breach_announced_iff (hPosition : 0 ≤ w.profile.maxPositionPct)
    (hLoss : 0 ≤ w.profile.maxDailyLossPct) :
    BreachAnnounced replies w symbol notional equity dailyLoss positionPct ↔
      positionPct ≤ w.profile.maxPositionPct * (3 / 2) ∧
        dailyLoss ≤ w.profile.maxDailyLossPct * (3 / 2) := by
  have hBreach : ¬Breach w.profile dailyLoss positionPct ↔
      positionPct ≤ w.profile.maxPositionPct * (3 / 2) ∧
        dailyLoss ≤ w.profile.maxDailyLossPct * (3 / 2) := by
    rw [Breach, not_or, not_lt, not_lt]
  rw [← hBreach]
  constructor
  · exact fun h hBreached => not_announced hPosition hLoss hBreached h
  · intro hNone
    have hDrive := drive_checkOrder replies w symbol notional equity dailyLoss positionPct
    rw [decided_silent w.killSwitch symbol hPosition hLoss] at hDrive
    exact ⟨_, _, hDrive, fun hBreached => absurd hBreached hNone, fun _ => rfl⟩

end Posture

/-! ## Orders against the default profile -/

namespace Unguarded

local instance : PyText := asciiText

def replies : World.Replies where
  gate _ _ _ := (true, "ok")
  gateway order := .ok order
  exchange := .ok .other

/-- The limits of the default profile. -/
theorem default_limits :
    0 ≤ ({} : World).profile.maxPositionPct ∧ 0 ≤ ({} : World).profile.maxDailyLossPct := by
  constructor
  · show (0 : ℚ) ≤ 10 / 100
    norm_num
  · show (0 : ℚ) ≤ 2 / 100
    norm_num

/-- An order of a million is approved at an equity of minus a thousand. -/
theorem insolvent_approved :
    ¬(Authorizes replies {} "BTC/USDT" 1000000 (-1000) ↔ WithinLimits {} 1000000 (-1000)) := by
  intro hExact
  have hApproved : Authorizes replies {} "BTC/USDT" 1000000 (-1000) :=
    (authorizes_insolvent_iff replies {} "BTC/USDT" default_limits.1 default_limits.2
      (by norm_num) (by norm_num)).mpr rfl
  have hSolvent := (hExact.mp hApproved).solvent
  norm_num at hSolvent

theorem solvent_exact :
    (Authorizes replies {} "BTC/USDT" 500 10000 ↔ WithinLimits {} 500 10000) ↔
      (0 : ℚ) < 10000 ∨ ({} : World).killSwitch.active = true ∨
        (10000 : ℚ) = 0 ∧ ({} : World).profile.maxPositionPct < 1 :=
  authorizes_exactly_iff replies {} "BTC/USDT" default_limits.1 default_limits.2 (by decide)

/-- A fifth of the equity is twice the limit, and nothing is announced. -/
theorem breach_unannounced :
    ¬BreachAnnounced replies {} "BTC/USDT" 2000 10000 0 (1 / 5) := by
  have hBreached : Breach ({} : World).profile 0 (1 / 5) := by
    left
    show (1 / 5 : ℚ) > 10 / 100 * (3 / 2)
    norm_num
  exact not_announced default_limits.1 default_limits.2 hBreached

theorem small_order_quiet :
    BreachAnnounced replies {} "BTC/USDT" 500 10000 0 (1 / 20) ↔
      (1 / 20 : ℚ) ≤ ({} : World).profile.maxPositionPct * (3 / 2) ∧
        (0 : ℚ) ≤ ({} : World).profile.maxDailyLossPct * (3 / 2) :=
  breach_announced_iff replies {} "BTC/USDT" 500 10000 0 (1 / 20) default_limits.1
    default_limits.2

end Unguarded

end TradingAgent.Risk
