import TradingAgent.Risk.Decisions

/-!
# The risk service over Redis

The Redis store keeps the profile and the kill switch as JSON documents. A key that is
missing and a document that is not valid are both read as the default. The service cannot
tell the two apart, so a kill switch that cannot be read is off: `refuses_all_iff` says that
over corrupt documents every order is refused only where the stored switch is a valid one
that is on.

The reading and writing of JSON is a parameter (`Documents`).
-/

namespace TradingAgent.Risk

open Coroutine Coro

/-- `model_validate_json` and `model_dump_json` of the two models; reading gives `none`
where validation fails. -/
structure Documents where
  readProfile : String → Option RiskProfile
  writeProfile : RiskProfile → String
  readKillSwitch : String → Option KillSwitchState
  writeKillSwitch : KillSwitchState → String

def profileKey : String := "risk:profile"

def killSwitchKey : String := "risk:kill_switch"

/-- What a stored value is read as. -/
def loaded {M : Type} (validate : String → Option M) (default : M) (raw : Option String) : M :=
  match raw with
  | none => default
  | some text =>
    match validate text with
    | some model => model
    | none => default

def RedisRiskProfileStore (documents : Documents) : RiskProfileStore where
  getProfile := do
    let raw ← perform (.redisGet profileKey)
    return loaded documents.readProfile {} raw
  saveProfile profile := perform (.redisSet profileKey (documents.writeProfile profile))
  getKillSwitch := do
    let raw ← perform (.redisGet killSwitchKey)
    return loaded documents.readKillSwitch {} raw
  setKillSwitch state := perform (.redisSet killSwitchKey (documents.writeKillSwitch state))

namespace RedisRiskProfileStore

/-- The service over the Redis store. -/
def service (documents : Documents) : RiskService where
  store := RedisRiskProfileStore documents
  publish event := perform (.publish event)

section Store

variable [PyText] (documents : Documents) (replies : World.Replies) (w : World)

/-- The order is approved. -/
def Approves (symbol : String) (notional equity dailyLoss positionPct : ℚ) : Prop :=
  ∃ decision : RiskDecision, decision.approved = true ∧
    (drive (World.respond replies) w
      ((service documents).checkOrder symbol notional equity dailyLoss positionPct)).1 =
      .ok decision

/-- A stored value is present and not a valid document. -/
def Corrupt : Prop :=
  (∃ raw, w.redis killSwitchKey = some raw ∧ documents.readKillSwitch raw = none) ∨
    ∃ raw, w.redis profileKey = some raw ∧ documents.readProfile raw = none

/-- The stored switch is a valid document that is on. -/
def SwitchedOn : Prop :=
  ∃ raw state, w.redis killSwitchKey = some raw ∧ documents.readKillSwitch raw = some state ∧
    state.active = true

/-- The kill switch that the service sees. -/
def seenKillSwitch : KillSwitchState :=
  loaded documents.readKillSwitch {} (w.redis killSwitchKey)

/-- The profile that the service sees. -/
def seenProfile : RiskProfile := loaded documents.readProfile {} (w.redis profileKey)

/-- The gates that a profile sets. -/
structure Admits (profile : RiskProfile) (dailyLoss positionPct : ℚ) : Prop where
  leverage : profile.allowLeverage = true ∨ positionPct ≤ 1
  position : positionPct ≤ profile.maxPositionPct
  loss : dailyLoss ≤ profile.maxDailyLossPct
  posture : profile.failedClosed = true ∨ positionPct ≤ profile.maxPositionPct * (3 / 2) ∧
    dailyLoss ≤ profile.maxDailyLossPct * (3 / 2)

theorem drive_getKillSwitch :
    drive (World.respond replies) w (service documents).store.getKillSwitch =
      (.ok (seenKillSwitch documents w), w) := rfl

theorem drive_getProfile :
    drive (World.respond replies) w (service documents).store.getProfile =
      (.ok (seenProfile documents w), w) := rfl

omit [PyText] in
theorem profileDecided_admits (profile : RiskProfile) (symbol : String)
    (dailyLoss positionPct : ℚ) :
    (profileDecided profile symbol dailyLoss positionPct).1.approved = true ↔
      Admits profile dailyLoss positionPct := by
  rw [profileDecided_approved, Breach, not_or, not_lt, not_lt]
  constructor
  · rintro ⟨hLeverage, hPosition, hLoss, hPosture⟩
    exact ⟨hLeverage, hPosition, hLoss, hPosture⟩
  · intro h
    exact ⟨h.leverage, h.position, h.loss, h.posture⟩

/-- The decision of `check_order` once the switch is off, over any store that can be read. -/
theorem drive_checkProfile {store : RiskProfileStore} {profile : RiskProfile}
    (hGet : drive (World.respond replies) w store.getProfile = (.ok profile, w))
    (symbol : String) (dailyLoss positionPct : ℚ) :
    ∃ (decision : RiskDecision) (published : List DomainEvent),
      (decision.approved = true ↔ Admits profile dailyLoss positionPct) ∧
        drive (World.respond replies) w
          ((RiskService.withStore store).checkProfile symbol dailyLoss positionPct) =
            (.ok decision, { w with published := published }) :=
  ⟨_, _, profileDecided_admits profile symbol dailyLoss positionPct,
    drive_profileDecided replies w hGet symbol dailyLoss positionPct⟩

/-- The gates of `check_order`, for what is seen of the store. -/
theorem approves_iff (symbol : String) (notional equity dailyLoss positionPct : ℚ) :
    Approves documents replies w symbol notional equity dailyLoss positionPct ↔
      (seenKillSwitch documents w).active = false ∧
        Admits (seenProfile documents w) dailyLoss positionPct := by
  unfold Approves RiskService.checkOrder
  rw [drive_bind, drive_getKillSwitch]
  dsimp only
  cases hActive : (seenKillSwitch documents w).active with
  | true => simp
  | false =>
    obtain ⟨decision, published, hDecision, hDrive⟩ := drive_checkProfile replies w
      (drive_getProfile documents replies w) symbol dailyLoss positionPct
    have hService : RiskService.withStore (service documents).store = service documents := rfl
    rw [hService] at hDrive
    rw [if_neg Bool.false_ne_true, hDrive, ← hDecision]
    constructor
    · rintro ⟨_, hApproved, hSame⟩
      obtain rfl := Except.ok.inj hSame
      exact ⟨rfl, hApproved⟩
    · rintro ⟨-, hApproved⟩
      exact ⟨decision, hApproved, rfl⟩

omit [PyText] in
/-- Every profile admits some order. -/
theorem exists_admits (profile : RiskProfile) :
    ∃ dailyLoss positionPct, Admits profile dailyLoss positionPct := by
  refine ⟨min profile.maxDailyLossPct (profile.maxDailyLossPct * (3 / 2)),
    min 1 (min profile.maxPositionPct (profile.maxPositionPct * (3 / 2))), ?_, ?_, ?_, ?_⟩
  · exact .inr (min_le_left _ _)
  · exact (min_le_right _ _).trans (min_le_left _ _)
  · exact min_le_left _ _
  · exact .inr ⟨(min_le_right _ _).trans (min_le_right _ _), min_le_right _ _⟩

omit [PyText] in
theorem seenKillSwitch_active :
    (seenKillSwitch documents w).active = true ↔ SwitchedOn documents w := by
  unfold seenKillSwitch SwitchedOn loaded
  cases hRaw : w.redis killSwitchKey with
  | none => simp
  | some raw =>
    cases hRead : documents.readKillSwitch raw with
    | none => simp [hRead]
    | some state => simp [hRead]

/-- The service refuses every order exactly when the stored switch is a valid one that is
on. -/
theorem refuses_all_iff :
    (∀ symbol notional equity dailyLoss positionPct,
        ¬Approves documents replies w symbol notional equity dailyLoss positionPct) ↔
      SwitchedOn documents w := by
  rw [← seenKillSwitch_active]
  constructor
  · intro hRefuses
    by_contra hOff
    obtain ⟨dailyLoss, positionPct, hAdmits⟩ := exists_admits (seenProfile documents w)
    refine hRefuses "" 0 0 dailyLoss positionPct ?_
    rw [approves_iff]
    exact ⟨(Bool.not_eq_true _).mp hOff, hAdmits⟩
  · intro hOn symbol notional equity dailyLoss positionPct hApproves
    have hOff := ((approves_iff documents replies w _ _ _ _ _).mp hApproves).1
    rw [hOn] at hOff
    cases hOff

/-- **Corrupt documents.** The service refuses every order over a corrupt store exactly
when the store is not corrupt or its switch is a valid one that is on. -/
theorem fails_closed_iff :
    (Corrupt documents w → ∀ symbol notional equity dailyLoss positionPct,
        ¬Approves documents replies w symbol notional equity dailyLoss positionPct) ↔
      (Corrupt documents w → SwitchedOn documents w) := by
  rw [refuses_all_iff]

end Store

/-! ## A kill switch that cannot be read -/

namespace Garbled

local instance : PyText := asciiText

/-- Documents of which none is valid. -/
def unreadable : Documents where
  readProfile _ := none
  writeProfile _ := ""
  readKillSwitch _ := none
  writeKillSwitch _ := ""

/-- The switch was turned on, and its document was cut off. -/
def garbled : World where
  redis := Function.update (fun _ => none) killSwitchKey (some "tru")

def replies : World.Replies where
  gate _ _ _ := (true, "ok")
  gateway order := .ok order
  exchange := .ok .other

theorem garbled_approves :
    Corrupt unreadable garbled ∧
      Approves unreadable replies garbled "BTC/USDT" 100 10000 0 (1 / 100) := by
  refine ⟨.inl ⟨"tru", by decide +kernel, rfl⟩, ?_⟩
  exact ⟨{ approved := true, reason := "ok" }, rfl, by decide +kernel⟩

end Garbled

end RedisRiskProfileStore

end TradingAgent.Risk
