import TradingAgent.Auth.Services

/-!
# The life of a token pair

A pair is issued to a user, its tokens are verified later, and the refresh token is exchanged
for a new pair. `RoundTrip` is what the three calls owe to each other. The access token keeps
its part of it. The refresh token is written without the `role` that the common reader wants,
so that no session is ever refreshed: `roundTrip_never`.
-/

namespace TradingAgent.Auth

open Coroutine Coro
open Trading (UUID)

section Pair

variable {Token : Type} [Jwt Token]

/-- A pair that was issued to a user. -/
structure Grant where
  tokens : JwtTokenManager
  issued : Datetime
  jti : UUID
  user : User

namespace Grant

variable (self : Grant)

def pair (refreshToken : Option Token) : TokenPair Token :=
  self.tokens.issue self.issued self.jti self.user refreshToken

/-- The times that stand in the two tokens as `exp`. -/
def accessExpiry : Datetime := microseconds (numericDate (self.tokens.accessExp self.issued))

def refreshExpiry : Datetime := microseconds (numericDate (self.tokens.refreshExp self.issued))

end Grant

/-- The tokens of a grant are read back at the time `now`, each by its own reader only, and
the refresh token of a stored and enabled user is exchanged for a new pair of the user. -/
structure RoundTrip (grant : Grant) (refreshToken : Option Token) (now : Datetime) : Prop where
  access : now < grant.accessExpiry → ∃ claims,
    grant.tokens.verifyAccess now (grant.pair refreshToken).accessToken = .ok claims ∧
      claims.subject = grant.user.id.text ∧ claims.role = grant.user.role
  accessOnly : now < grant.accessExpiry → ∃ e,
    grant.tokens.verifyRefresh now (grant.pair refreshToken).accessToken = .error e
  refresh : now < grant.refreshExpiry → ∃ claims,
    grant.tokens.verifyRefresh now (grant.pair refreshToken).refreshToken = .ok claims ∧
      claims.subject = grant.user.id.text
  refreshOnly : now < grant.refreshExpiry → ∃ e,
    grant.tokens.verifyAccess now (grant.pair refreshToken).refreshToken = .error e
  session : now < grant.refreshExpiry → ∀ (db : Database) (later : Datetime) (jti : UUID),
    db.userById grant.user.id = .ok (some grant.user) → grant.user.disabled = false →
      (drive Database.respond db (AuthService.refresh ⟨grant.tokens⟩ now later jti
        (grant.pair refreshToken).refreshToken)).1 =
        .ok (.ok (grant.tokens.issue later jti grant.user
          (some (grant.pair refreshToken).refreshToken)))

variable {grant : Grant} {refreshToken : Option Token} {now : Datetime}

/-- The part of the round trip that holds: access tokens are read by their reader only, and
refresh tokens are not read as access tokens. -/
theorem access_roundTrip (hIssued : grant.issued ≤ now) :
    (now < grant.accessExpiry →
      grant.tokens.verifyAccess now (grant.pair refreshToken).accessToken =
          .ok (grant.tokens.accessClaims grant.issued grant.user) ∧
        grant.tokens.verifyRefresh now (grant.pair refreshToken).accessToken =
          .error (.jwt "token_type_mismatch")) ∧
      (now < grant.refreshExpiry →
        grant.tokens.verifyAccess now (grant.pair refreshToken).refreshToken =
          .error (.jwt "token_type_mismatch")) := by
  refine ⟨fun hNow => ⟨?_, ?_⟩, fun hNow => ?_⟩
  · exact JwtTokenManager.verifyAccess_access hIssued hNow
  · exact JwtTokenManager.verifyRefresh_access hIssued hNow
  · exact JwtTokenManager.verifyAccess_refresh hIssued hNow

/-- A refresh token that has not expired is refused as malformed, whatever the tables hold. -/
theorem refresh_refused (hIssued : grant.issued ≤ now) (hNow : now < grant.refreshExpiry)
    (db : Database) (later : Datetime) (jti : UUID) :
    drive Database.respond db (AuthService.refresh ⟨grant.tokens⟩ now later jti
        (grant.pair refreshToken).refreshToken) =
      (.ok (.err (.jwt "token_claims_malformed")), db) := by
  have hRefused : grant.tokens.verifyRefresh now (grant.pair refreshToken).refreshToken =
      .error (.jwt "token_claims_malformed") :=
    JwtTokenManager.verifyRefresh_refresh hIssued hNow
  unfold AuthService.refresh
  dsimp only
  rw [hRefused]
  rfl

/-- **No refresh token comes back.** While a refresh token has not expired, the round trip of
its pair fails. -/
theorem roundTrip_never (hNow : now < grant.refreshExpiry) :
    ¬ RoundTrip grant refreshToken now := by
  intro h
  obtain ⟨claims, hRead, -⟩ := h.refresh hNow
  exact JwtTokenManager.verify_refresh_ne_ok hRead

end Pair

/-! ## A session that cannot be refreshed -/

/-- Tokens that are kept decoded, with their secret and algorithm. -/
@[reducible] def plainJwt : Jwt (Payload × String × String) where
  encode payload secret algorithm := (payload, secret, algorithm)
  decode token secret algorithm now :=
    if token.2 = (secret, algorithm) then token.1.checked now else .error .invalid
  decode_encode _ _ _ _ := if_pos rfl

namespace Session

local instance : Jwt (Payload × String × String) := plainJwt

/-- A viewer logs in at second 1000, with access for 30 minutes and refresh for 7 days. -/
def granted : Grant where
  tokens := ⟨"secret-of-16-chars", 30, 7, "HS256"⟩
  issued := microseconds 1000
  jti := ⟨"j-1"⟩
  user := { id := ⟨"u-1"⟩, username := "ada", passwordHash := "x" }

abbrev grantedPair : TokenPair (Payload × String × String) := granted.pair none

/-- One minute after the login the access token is accepted, and the refresh token is refused
by both readers. -/
theorem session_ends :
    granted.tokens.verifyAccess (microseconds 1060) grantedPair.accessToken =
        .ok ⟨"u-1", .viewer, "access", microseconds 2800⟩ ∧
      granted.tokens.verifyRefresh (microseconds 1060) grantedPair.refreshToken =
        .error (.jwt "token_claims_malformed") ∧
      ¬ RoundTrip granted (none : Option (Payload × String × String)) (microseconds 1060) := by
  have hRefused : granted.tokens.verifyRefresh (microseconds 1060) grantedPair.refreshToken =
      .error (.jwt "token_claims_malformed") := by decide +kernel
  refine ⟨by decide +kernel, hRefused, fun h => ?_⟩
  obtain ⟨claims, hRead, -⟩ := h.refresh (by decide)
  change granted.tokens.verifyRefresh (microseconds 1060) grantedPair.refreshToken = _ at hRead
  rw [hRefused] at hRead
  cases hRead

theorem granted_never :
    ¬ RoundTrip granted (none : Option (Payload × String × String)) (microseconds 1060) :=
  roundTrip_never (by decide)

end Session

end TradingAgent.Auth
