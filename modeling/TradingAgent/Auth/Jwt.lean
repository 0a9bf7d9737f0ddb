import TradingAgent.Auth.Entities

/-!
# The JWT token manager

`issue` writes an access token and a refresh token with different claims, and one `_verify`
reads both. It wants a `role`, which only the access token carries: `verifyAccess_access`
says that access tokens are read back, and `verifyRefresh_refresh` that refresh tokens of
every user are refused as malformed.

The encoding is a parameter (`Jwt`). Its law is that a token is decoded with the secret and
the algorithm that it was encoded with, from the time in `iat` until the time in `exp`.
-/

namespace TradingAgent.Auth

open Trading (UUID)

/-- The claims of a token. Times are in seconds since the epoch. -/
structure Payload where
  sub : Option String := none
  role : Option String := none
  type : Option String := none
  iat : Option ℤ := none
  exp : Option ℤ := none
  jti : Option String := none
  deriving DecidableEq, Repr

/-- `ExpiredSignatureError`, and the other kinds of `InvalidTokenError`. -/
inductive JwtError
  | expired
  | invalid
  deriving DecidableEq, Repr

def microseconds (seconds : ℤ) : Datetime := seconds * 1000000

/-- The seconds that `jwt.encode` writes for a time. -/
def numericDate (time : Datetime) : ℤ := time / 1000000

namespace Payload

/-- What `jwt.decode` checks of the claims: the token is not from the future, and it has not
expired. -/
def checked (payload : Payload) (now : Datetime) : Except JwtError Payload :=
  if payload.iat.any fun iat => now < microseconds iat then .error .invalid
  else if payload.exp.any fun exp => microseconds exp ≤ now then .error .expired
  else .ok payload

theorem checked_eq_ok {payload other : Payload} {now : Datetime}
    (h : payload.checked now = .ok other) : other = payload := by
  unfold checked at h
  split at h
  · cases h
  · split at h
    · cases h
    · exact (Except.ok.inj h).symm

/-- Within its times a payload passes. -/
theorem checked_of_within {payload : Payload} {now : Datetime} {iat exp : ℤ}
    (hIat : payload.iat = some iat) (hExp : payload.exp = some exp)
    (hIssued : microseconds iat ≤ now) (hNow : now < microseconds exp) :
    payload.checked now = .ok payload := by
  unfold checked
  rw [hIat, hExp, if_neg, if_neg]
  · simpa using hNow
  · simpa using hIssued

end Payload

/-- The tokens of PyJWT, with `jwt.encode` and `jwt.decode`. -/
class Jwt (Token : Type) where
  encode : Payload → (secret algorithm : String) → Token
  decode : Token → (secret algorithm : String) → (now : Datetime) → Except JwtError Payload
  decode_encode : ∀ payload secret algorithm now,
    decode (encode payload secret algorithm) secret algorithm now = payload.checked now

structure JwtTokenManager where
  secret : String
  accessTtlMin : ℤ
  refreshTtlDays : ℤ
  algorithm : String

namespace JwtTokenManager

variable (self : JwtTokenManager)

def accessExp (now : Datetime) : Datetime := now + self.accessTtlMin * 60 * 1000000

def refreshExp (now : Datetime) : Datetime := now + self.refreshTtlDays * 86400 * 1000000

/-- The claims of an access token. -/
def accessPayload (now : Datetime) (user : User) : Payload where
  sub := some user.id.text
  role := some user.role.value
  type := some "access"
  iat := some (numericDate now)
  exp := some (numericDate (self.accessExp now))

/-- The claims of a refresh token. -/
def refreshPayload (now : Datetime) (jti : UUID) (user : User) : Payload where
  sub := some user.id.text
  type := some "refresh"
  iat := some (numericDate now)
  exp := some (numericDate (self.refreshExp now))
  jti := some jti.text

section Tokens

variable {Token : Type} [Jwt Token]

def issue (now : Datetime) (jti : UUID) (user : User) (_refreshToken : Option Token) :
    TokenPair Token where
  accessToken := Jwt.encode (self.accessPayload now user) self.secret self.algorithm
  refreshToken := Jwt.encode (self.refreshPayload now jti user) self.secret self.algorithm
  expiresInSec := (self.accessExp now - now) / 1000000

/-- The claims that `TokenClaims` is made of; a claim that is missing and a role that is
unknown are malformed. -/
def tokenClaims (expected : String) (payload : Payload) : Option TokenClaims := do
  let sub ← payload.sub
  let role ← payload.role
  let role ← Role.ofValue role
  let exp ← payload.exp
  return { subject := sub, role := role, tokenType := expected, expiresAt := microseconds exp }

def verify (now : Datetime) (token : Token) (expected : String) : Except DomainError TokenClaims :=
  match Jwt.decode token self.secret self.algorithm now with
  | .error .expired => .error (.jwt "token_expired")
  | .error .invalid => .error (.jwt "token_invalid")
  | .ok payload =>
    if payload.type ≠ some expected then .error (.jwt "token_type_mismatch")
    else
      match tokenClaims expected payload with
      | some claims => .ok claims
      | none => .error (.jwt "token_claims_malformed")

def verifyAccess (now : Datetime) (token : Token) : Except DomainError TokenClaims :=
  self.verify now token "access"

def verifyRefresh (now : Datetime) (token : Token) : Except DomainError TokenClaims :=
  self.verify now token "refresh"

/-! ## What is read back -/

variable {self}

/-- A payload of the manager that passes the checks of its times is judged by its type and
its claims. -/
theorem verify_encode {payload : Payload} {now : Datetime} (expected : String)
    (hChecked : payload.checked now = .ok payload) :
    self.verify now (Jwt.encode payload self.secret self.algorithm : Token) expected =
      if payload.type ≠ some expected then .error (.jwt "token_type_mismatch")
      else
        match tokenClaims expected payload with
        | some claims => .ok claims
        | none => .error (.jwt "token_claims_malformed") := by
  unfold verify
  rw [Jwt.decode_encode, hChecked]

/-- At whatever time, only the claims of the payload are accepted. -/
theorem of_verify_encode {payload : Payload} {now : Datetime} {expected : String}
    {claims : TokenClaims}
    (h : self.verify now (Jwt.encode payload self.secret self.algorithm : Token) expected =
      .ok claims) :
    payload.type = some expected ∧ tokenClaims expected payload = some claims := by
  cases hChecked : payload.checked now with
  | error e =>
    unfold verify at h
    rw [Jwt.decode_encode, hChecked] at h
    cases e <;> cases h
  | ok other =>
    obtain rfl := Payload.checked_eq_ok hChecked
    rw [verify_encode expected hChecked] at h
    by_cases hType : other.type = some expected
    · rw [if_neg (by simpa using hType)] at h
      refine ⟨hType, ?_⟩
      split at h
      · rename_i found hFound
        rw [hFound, Except.ok.inj h]
      · cases h
    · rw [if_pos hType] at h
      cases h

theorem microseconds_numericDate_le (time : Datetime) : microseconds (numericDate time) ≤ time :=
  Int.ediv_mul_le time (by decide)

section Issued

variable {issued now : Datetime} {jti : UUID} {user : User} {refreshToken : Option Token}

theorem accessPayload_checked (hIssued : issued ≤ now)
    (hNow : now < microseconds (numericDate (self.accessExp issued))) :
    (self.accessPayload issued user).checked now = .ok (self.accessPayload issued user) :=
  Payload.checked_of_within rfl rfl ((microseconds_numericDate_le issued).trans hIssued) hNow

theorem refreshPayload_checked (hIssued : issued ≤ now)
    (hNow : now < microseconds (numericDate (self.refreshExp issued))) :
    (self.refreshPayload issued jti user).checked now =
      .ok (self.refreshPayload issued jti user) :=
  Payload.checked_of_within rfl rfl ((microseconds_numericDate_le issued).trans hIssued) hNow

/-- The claims that an access token is read as. -/
def accessClaims (self : JwtTokenManager) (issued : Datetime) (user : User) : TokenClaims where
  subject := user.id.text
  role := user.role
  tokenType := "access"
  expiresAt := microseconds (numericDate (self.accessExp issued))

theorem tokenClaims_accessPayload (expected : String) :
    tokenClaims expected (self.accessPayload issued user) =
      some { self.accessClaims issued user with tokenType := expected } := by
  unfold tokenClaims accessPayload
  simp only [Option.bind_eq_bind, Option.bind_some, Role.ofValue_value]
  rfl

/-- A refresh token has no role. -/
theorem tokenClaims_refreshPayload (expected : String) :
    tokenClaims expected (self.refreshPayload issued jti user) = none := rfl

theorem verifyAccess_access (hIssued : issued ≤ now)
    (hNow : now < microseconds (numericDate (self.accessExp issued))) :
    self.verifyAccess now (self.issue issued jti user refreshToken).accessToken =
      .ok (self.accessClaims issued user) := by
  unfold verifyAccess issue
  rw [verify_encode "access" (accessPayload_checked hIssued hNow), tokenClaims_accessPayload]
  rfl

theorem verifyRefresh_access (hIssued : issued ≤ now)
    (hNow : now < microseconds (numericDate (self.accessExp issued))) :
    self.verifyRefresh now (self.issue issued jti user refreshToken).accessToken =
      .error (.jwt "token_type_mismatch") := by
  unfold verifyRefresh issue
  rw [verify_encode "refresh" (accessPayload_checked hIssued hNow)]
  rfl

theorem verifyAccess_refresh (hIssued : issued ≤ now)
    (hNow : now < microseconds (numericDate (self.refreshExp issued))) :
    self.verifyAccess now (self.issue issued jti user refreshToken).refreshToken =
      .error (.jwt "token_type_mismatch") := by
  unfold verifyAccess issue
  rw [verify_encode "access" (refreshPayload_checked hIssued hNow)]
  rfl

/-- The refresh token passes the check of its type and is malformed. -/
theorem verifyRefresh_refresh (hIssued : issued ≤ now)
    (hNow : now < microseconds (numericDate (self.refreshExp issued))) :
    self.verifyRefresh now (self.issue issued jti user refreshToken).refreshToken =
      .error (.jwt "token_claims_malformed") := by
  unfold verifyRefresh issue
  rw [verify_encode "refresh" (refreshPayload_checked hIssued hNow), tokenClaims_refreshPayload]
  rfl

/-- Whoever accepts a token of the manager reads the id of its user. -/
theorem subject_of_verify_access {expected : String} {claims : TokenClaims}
    (h : self.verify now (self.issue issued jti user refreshToken).accessToken expected =
      .ok claims) : claims.subject = user.id.text := by
  obtain ⟨-, hClaims⟩ := of_verify_encode h
  rw [tokenClaims_accessPayload] at hClaims
  rw [← Option.some.inj hClaims]
  rfl

/-- Nobody accepts a refresh token. -/
theorem verify_refresh_ne_ok {expected : String} {claims : TokenClaims} :
    self.verify now (self.issue issued jti user refreshToken).refreshToken expected ≠
      .ok claims := by
  intro h
  obtain ⟨-, hClaims⟩ := of_verify_encode h
  cases hClaims

end Issued

end Tokens

end JwtTokenManager

end TradingAgent.Auth
