import TradingAgent.Ports

/-!
# The risk service

`RiskService.checkOrder` asks the kill switch first, then checks the position and the daily
loss against the profile. `RiskServiceAdapter.authorize` is the risk gate of the trading
module over this service. The store of profile and kill switch is a port, as in the source.
-/

namespace TradingAgent.Risk

open Coroutine Coro

structure RiskProfileStore where
  getProfile : Async RiskProfile
  saveProfile : RiskProfile → Async Unit
  getKillSwitch : Async KillSwitchState
  setKillSwitch : KillSwitchState → Async Unit

/-- The store whose every method is a single awaited call. -/
def RiskProfileStore.ports : RiskProfileStore where
  getProfile := perform .getProfile
  saveProfile profile := perform (.saveProfile profile)
  getKillSwitch := perform .getKillSwitch
  setKillSwitch state := perform (.setKillSwitch state)

structure RiskService where
  store : RiskProfileStore
  publish : DomainEvent → Async Unit

/-- `reason or default`. -/
def reasonOr (reason : Option String) (default : String) : String :=
  match reason with
  | some text => if text = "" then default else text
  | none => default

namespace RiskService

variable (self : RiskService)

def getProfile : Async RiskProfile := self.store.getProfile

def setProfile (profile : RiskProfile) : Async RiskProfile := do
  self.store.saveProfile profile
  return profile

def breachNotify (symbol : String) (positionPct dailyLoss : ℚ) (profile : RiskProfile) :
    Async Bool := do
  if positionPct > profile.maxPositionPct * (3 / 2) ∨
      dailyLoss > profile.maxDailyLossPct * (3 / 2) then
    self.publish (.riskBreached { symbol := symbol, reason := "posture_breach" })
    return !profile.failedClosed
  else
    return false

/-- What `check_order` does once the kill switch is found to be off. -/
def checkProfile (symbol : String) (dailyLoss positionPct : ℚ) : Async RiskDecision := do
  let profile ← self.store.getProfile
  if !profile.allowLeverage ∧ positionPct > 1 then
    return { approved := false, reason := "leverage_disabled" }
  else if positionPct > profile.maxPositionPct then
    return { approved := false, reason := "max_position_exceeded" }
  else if dailyLoss > profile.maxDailyLossPct then
    return { approved := false, reason := "daily_loss_exceeded" }
  else
    let breached ← self.breachNotify symbol positionPct dailyLoss profile
    if breached then
      return { approved := false, reason := "posture_breach" }
    else
      return { approved := true, reason := "ok" }

def checkOrder (symbol : String) (_notional _equity dailyLoss positionPct : ℚ) :
    Async RiskDecision := do
  let state ← self.store.getKillSwitch
  if state.active then
    return { approved := false, reason := "kill_switch: " ++ reasonOr state.reason "active" }
  else
    self.checkProfile symbol dailyLoss positionPct

def killSwitch (active : Bool) (reason : Option String) : Async KillSwitchState := do
  let state : KillSwitchState := { active := active, reason := reason }
  self.store.setKillSwitch state
  if active then
    self.publish (.killSwitchTriggered { reason := reasonOr reason "manual" })
    return state
  else
    return state

/-- The service over plain ports. -/
def ports : RiskService where
  store := .ports
  publish event := perform (.publish event)

/-- The service over any store, with a plain bus. -/
def withStore (store : RiskProfileStore) : RiskService where
  store := store
  publish event := perform (.publish event)

end RiskService

/-- `RiskServiceAdapter.authorize`: the share of the equity that the order takes is checked,
and no daily loss. -/
def RiskServiceAdapter.authorize (service : RiskService) (symbol : String)
    (notional equity : ℚ) : Async (Bool × String) := do
  let positionPct := if equity = 0 then 1 else notional / equity
  let decision ← service.checkOrder symbol notional equity 0 positionPct
  return (decision.approved, decision.reason)

end TradingAgent.Risk
