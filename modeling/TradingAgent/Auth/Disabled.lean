import TradingAgent.Auth.ApiKeys
import TradingAgent.Auth.Tokens

/-!
# What a disabled user can still do

A credential belongs to a user when it names the user, when it was issued to the user, or
when a stored key of the user was made of it. Three of the four entry points read the flag
of the user before they accept. `lookup` does not read the user at all, so that a disabled
user is shut out except through API keys that nobody has revoked: `shutOut_iff`.
-/

namespace TradingAgent.Auth

open Coroutine Coro Table
open Trading (UUID)

inductive Credential (Token : Type)
  | password (username password : String)
  | accessToken (token : Token)
  | refreshToken (token : Token)
  | apiKey (raw : String)

section Disabled

variable [PasswordHasher] [LowerText] {Token : Type} [Jwt Token]

/-- The credentials of the user in a row: the username with any password, the tokens of a
pair that was issued to a record of the user, and the texts that the user's stored keys were
made of. -/
def Belongs (db : Database) (tokens : JwtTokenManager) (row : UserRow) : Credential Token → Prop
  | .password username _ => normalize username = row.username
  | .accessToken token => ∃ (grant : Grant) (refreshToken : Option Token),
      grant.tokens = tokens ∧ grant.user.id = row.id ∧
        token = (grant.pair refreshToken).accessToken
  | .refreshToken token => ∃ (grant : Grant) (refreshToken : Option Token),
      grant.tokens = tokens ∧ grant.user.id = row.id ∧
        token = (grant.pair refreshToken).refreshToken
  | .apiKey raw => ∃ key ∈ db.keys.rows, key.userId = row.id ∧ key.keyPrefix = keyPrefix raw ∧
      ∃ salt, key.hashedKey = PasswordHasher.hash salt raw

/-- At some time `refresh` or `resolve` accepts the token. -/
def AcceptedToken (db : Database) (auth : AuthService) (token : Token) : Prop :=
  (∃ now later jti pair,
      (drive Database.respond db (auth.refresh now later jti token)).1 = .ok (.ok pair)) ∨
    ∃ now user,
      (drive Database.respond db (CurrentUserService.resolve ⟨auth⟩ now token)).1 =
        .ok (.ok user)

/-- An entry point accepts the credential. -/
def Accepted (db : Database) (auth : AuthService) : Credential Token → Prop
  | .password username password => ∃ now jti, ∃ pair : TokenPair Token,
      (drive Database.respond db (auth.login now jti username password)).1 = .ok (.ok pair)
  | .accessToken token => AcceptedToken db auth token
  | .refreshToken token => AcceptedToken db auth token
  | .apiKey raw => ∃ key,
      (drive Database.respond db (ApiKeyService.lookup raw)).1 = .ok (some key)

omit [PasswordHasher] [LowerText] [Jwt Token] in
/-- The credential is an API key whose row is not revoked. -/
def LiveKey (db : Database) : Credential Token → Prop
  | .apiKey raw => ∃ row ∈ db.keys.rows, row.keyPrefix = keyPrefix raw ∧ row.revoked = 0
  | _ => False

variable {db : Database} {auth : AuthService} {row : UserRow}

omit [PasswordHasher] [LowerText] [Jwt Token] in
/-- Where a row is read and a disabled user is then refused, nobody with that row gets in. -/
theorem row_refused {α : Type} {read : Async (Option User)}
    {next : Option User → Async (Result α DomainError)}
    (hRead : drive Database.respond db read = (row.toDomain.map some, db))
    (hDisabled : row.disabled ≠ 0)
    (hNext : ∀ user, user.disabled = true → ∃ e, next (some user) = return .err e) (a : α) :
    (drive Database.respond db (read >>= next)).1 ≠ .ok (.ok a) := by
  intro hAccepted
  rw [drive_bind, hRead] at hAccepted
  cases hDomain : row.toDomain with
  | error e =>
    rw [hDomain] at hAccepted
    cases hAccepted
  | ok user =>
    have hFlag : user.disabled = true := (UserRow.toDomain_eq_ok hDomain).2.2.2.2.mpr hDisabled
    obtain ⟨e, hRefused⟩ := hNext user hFlag
    rw [hDomain] at hAccepted
    dsimp only [Except.map] at hAccepted
    rw [hRefused] at hAccepted
    cases hAccepted

theorem login_rejected (hRow : row ∈ db.users.rows) (hDisabled : row.disabled ≠ 0)
    {username password : String} (hName : normalize username = row.username) (now : Datetime)
    (jti : UUID) (pair : TokenPair Token) :
    (drive Database.respond db (auth.login now jti username password)).1 ≠ .ok (.ok pair) := by
  have hRead : drive Database.respond db (perform (.getByUsername (normalize username))) =
      (row.toDomain.map some, db) := by
    rw [drive_call, hName]
    exact Database.respond_getByUsername hRow
  refine row_refused hRead hDisabled (fun user hFlag => ?_) pair
  by_cases hVerify : PasswordHasher.verify password user.passwordHash = false
  · exact ⟨_, if_pos hVerify⟩
  · exact ⟨_, (if_neg hVerify).trans (if_pos hFlag)⟩

omit [PasswordHasher] [LowerText] in
/-- A token in which nobody reads another subject is rejected. -/
theorem token_rejected (hRow : row ∈ db.users.rows) (hDisabled : row.disabled ≠ 0)
    {token : Token}
    (hSubject : ∀ now expected claims, auth.tokens.verify now token expected = .ok claims →
      claims.subject = row.id.text) : ¬ AcceptedToken db auth token := by
  have hRead : ∀ claims : TokenClaims, claims.subject = row.id.text →
      drive Database.respond db (perform (.getById ⟨claims.subject⟩)) =
        (row.toDomain.map some, db) := by
    intro claims hClaims
    rw [drive_call, hClaims]
    exact Database.respond_getById hRow
  rintro (⟨now, later, jti, pair, hRefresh⟩ | ⟨now, other, hResolve⟩)
  · unfold AuthService.refresh at hRefresh
    cases hVerify : auth.tokens.verifyRefresh now token with
    | error e =>
      rw [hVerify] at hRefresh
      cases hRefresh
    | ok claims =>
      rw [hVerify] at hRefresh
      refine row_refused (hRead claims (hSubject _ _ _ hVerify)) hDisabled ?_ pair hRefresh
      exact fun user hFlag => ⟨_, if_pos hFlag⟩
  · unfold CurrentUserService.resolve AuthService.verifyAccess at hResolve
    cases hVerify : auth.tokens.verifyAccess now token with
    | error e =>
      rw [hVerify] at hResolve
      cases hResolve
    | ok claims =>
      rw [hVerify] at hResolve
      refine row_refused (hRead claims (hSubject _ _ _ hVerify)) hDisabled ?_ other hResolve
      exact fun user hFlag => ⟨_, if_pos hFlag⟩

omit [LowerText] [Jwt Token] in
/-- Whoever the user of a key is, its raw text is accepted exactly while its row is not
revoked. -/
theorem lookup_accepts_iff {raw : String} {key : ApiKeyRow} (hMem : key ∈ db.keys.rows)
    (hPrefix : key.keyPrefix = keyPrefix raw) {salt : List UInt8}
    (hHashed : key.hashedKey = PasswordHasher.hash salt raw) :
    (∃ found, (drive Database.respond db (ApiKeyService.lookup raw)).1 = .ok (some found)) ↔
      ∃ other ∈ db.keys.rows, other.keyPrefix = keyPrefix raw ∧ other.revoked = 0 := by
  rw [drive_lookup]
  constructor
  · rintro ⟨found, hFound⟩
    obtain ⟨other, hOther, hSame, hOpens, -⟩ := authenticated_eq_some.mp (Except.ok.inj hFound)
    exact ⟨other, hOther, hSame, hOpens.1⟩
  · rintro ⟨other, hOther, hSame, hLive⟩
    obtain rfl := List.inj_on_of_nodup_map db.keys.columns hOther hMem (hSame.trans hPrefix.symm)
    have hOpens : Database.Opens raw other := by
      refine ⟨hLive, ?_⟩
      rw [hHashed]
      exact PasswordHasher.verify_hash salt raw
    exact ⟨_, congrArg Except.ok (authenticated_eq_some.mpr ⟨other, hMem, hPrefix, hOpens, rfl⟩)⟩

/-- **Disabled users.** No entry point accepts a credential of a disabled user exactly when
it is not an API key that is still live. -/
theorem shutOut_iff (hRow : row ∈ db.users.rows) (hDisabled : row.disabled ≠ 0)
    {credential : Credential Token} (hBelongs : Belongs db auth.tokens row credential) :
    ¬ Accepted db auth credential ↔ ¬ LiveKey db credential := by
  cases credential with
  | password username password =>
    refine iff_of_true ?_ id
    rintro ⟨now, jti, pair, hLogin⟩
    exact login_rejected hRow hDisabled hBelongs now jti pair hLogin
  | accessToken token =>
    obtain ⟨grant, refreshToken, hTokens, hId, rfl⟩ := hBelongs
    refine iff_of_true (token_rejected hRow hDisabled fun now expected claims hVerify => ?_) id
    rw [← hTokens] at hVerify
    rw [← hId]
    exact JwtTokenManager.subject_of_verify_access hVerify
  | refreshToken token =>
    obtain ⟨grant, refreshToken, hTokens, hId, rfl⟩ := hBelongs
    refine iff_of_true (token_rejected hRow hDisabled fun now expected claims hVerify => ?_) id
    rw [← hTokens] at hVerify
    exact absurd hVerify JwtTokenManager.verify_refresh_ne_ok
  | apiKey raw =>
    obtain ⟨key, hMem, -, hPrefix, salt, hHashed⟩ := hBelongs
    exact not_congr (lookup_accepts_iff hMem hPrefix hHashed)

end Disabled

/-! ## A key that outlives its user -/

namespace Outlived

local instance : PasswordHasher := plainHasher

local instance : LowerText := plainLower

local instance : Jwt (Payload × String × String) := plainJwt

abbrev Plain : Type := Credential (Payload × String × String)

def service : AuthService where
  tokens := ⟨"secret-of-16-chars", 30, 7, "HS256"⟩

/-- Ada is disabled. -/
def adaRow : UserRow := { UserRow.ofUser ada with disabled := 1 }

/-- Her key was made before. -/
def botRow : ApiKeyRow where
  id := ⟨"k-1"⟩
  userId := ⟨"u-1"⟩
  keyPrefix := "bot"
  hashedKey := "bot_s1"
  createdAt := 1000
  revoked := 0

def closed : Database where
  users := { rows := [adaRow], keys := by decide, columns := by decide }
  keys := { rows := [botRow], keys := by decide, columns := by decide }

/-- The API key of the disabled user is accepted. -/
theorem ada_gets_in :
    adaRow ∈ closed.users.rows ∧ adaRow.disabled ≠ 0 ∧
      Belongs closed service.tokens adaRow (.apiKey "bot_s1" : Plain) ∧
      (drive Database.respond closed (ApiKeyService.lookup "bot_s1")).1 =
        .ok (some botRow.toDomain) ∧
      Accepted closed service (.apiKey "bot_s1" : Plain) := by
  have hLookup : (drive Database.respond closed (ApiKeyService.lookup "bot_s1")).1 =
      .ok (some botRow.toDomain) := by decide +kernel
  refine ⟨List.mem_singleton_self _, by decide,
    ⟨botRow, List.mem_singleton_self _, rfl, ?_, [], rfl⟩, hLookup, _, hLookup⟩
  decide +kernel

theorem ada_shutOut_iff :
    ¬ Accepted closed service (.password " ada" "x" : Plain) ↔
      ¬ LiveKey closed (.password " ada" "x" : Plain) := by
  have hStored : adaRow ∈ closed.users.rows := List.mem_singleton_self adaRow
  have hName : normalize " ada" = adaRow.username := by decide +kernel
  exact shutOut_iff hStored (by decide) hName

end Outlived

end TradingAgent.Auth
