import TradingAgent.Auth.Jwt
import TradingAgent.Auth.Stores

/-!
# The auth services

The use cases over the two repositories. What a call reads from the clock and draws at
random (the times, the ids, the salt of a hash and the secret of a key) is given with the
call.

`drive_create` and `drive_lookup` say what the two calls of the API keys come to on the
tables.
-/

namespace TradingAgent.Auth

open Coroutine Coro Table
open Trading (UUID)

def minPasswordLen : ℕ := 8

/-- `username.strip().lower()`. -/
def normalize [LowerText] (username : String) : String := LowerText.lower (strip username)

structure AuthService where
  tokens : JwtTokenManager

namespace AuthService

variable (self : AuthService) {Token : Type} [Jwt Token]

def register [PasswordHasher] [LowerText] (userId : UUID) (salt : List UInt8)
    (username password : String) (role : Role) : Async (Result User DomainError) := do
  let username := normalize username
  if password.length < minPasswordLen then
    return .err { message := s!"password must be at least {minPasswordLen} characters" }
  else
    match ← perform (.getByUsername username) with
    | some _ => return .err (.auth "user_exists")
    | none => do
      let user := newUser userId username (PasswordHasher.hash salt password) role
      perform (.saveUser user)
      return .ok user

def login [PasswordHasher] [LowerText] (now : Datetime) (jti : UUID) (username password : String) :
    Async (Result (TokenPair Token) DomainError) := do
  let username := normalize username
  match ← perform (.getByUsername username) with
  | none => return .err (.auth "invalid_credentials")
  | some user =>
    if PasswordHasher.verify password user.passwordHash = false then
      return .err (.auth "invalid_credentials")
    else if user.disabled then return .err (.auth "user_disabled")
    else return .ok (self.tokens.issue now jti user none)

/-- The token is verified at `now`, and the new pair issued at `later`. -/
def refresh (now later : Datetime) (jti : UUID) (refreshToken : Token) :
    Async (Result (TokenPair Token) DomainError) :=
  match self.tokens.verifyRefresh now refreshToken with
  | .error e => return .err e
  | .ok claims => do
    match ← perform (.getById ⟨claims.subject⟩) with
    | none => return .err (.auth "user_disabled")
    | some user =>
      if user.disabled then return .err (.auth "user_disabled")
      else return .ok (self.tokens.issue later jti user (some refreshToken))

def verifyAccess (now : Datetime) (token : Token) : Result TokenClaims DomainError :=
  match self.tokens.verifyAccess now token with
  | .error e => .err e
  | .ok claims => .ok claims

end AuthService

structure CurrentUserService where
  auth : AuthService

def CurrentUserService.resolve {Token : Type} [Jwt Token] (self : CurrentUserService)
    (now : Datetime) (token : Token) : Async (Result User DomainError) :=
  match self.auth.verifyAccess now token with
  | .err e => return .err e
  | .ok claims => do
    match ← perform (.getById ⟨claims.subject⟩) with
    | none => return .err (.auth "user_disabled")
    | some user =>
      if user.disabled then return .err (.auth "user_disabled")
      else return .ok user

namespace ApiKeyService

variable [PasswordHasher]

/-- What a call of `create` reads from the clock and draws. -/
structure Draws where
  now : Datetime
  keyId : UUID
  secret : String
  salt : List UInt8
  deriving DecidableEq, Repr

section Create

variable [LowerText]

/-- The key that `create` makes. -/
def made (draws : Draws) (userId : UUID) (label : String) : ApiKey :=
  let raw := rawKey label draws.secret
  { id := draws.keyId
    userId := userId
    keyPrefix := keyPrefix raw
    hashedKey := PasswordHasher.hash draws.salt raw
    createdAt := draws.now }

def create (draws : Draws) (userId : UUID) (label : String) :
    Async (Result (ApiKey × String) DomainError) := do
  match ← perform (.getById userId) with
  | none => return .err (.auth "user_not_found")
  | some user => do
    let key := made draws user.id label
    perform (.saveKey key)
    return .ok (key, draws.secret)

end Create

omit [PasswordHasher] in
def list (userId : UUID) : Async (List ApiKey) := perform (.listByUser userId)

def lookup (raw : String) : Async (Option ApiKey) := do
  match ← perform (.findByPrefix (keyPrefix raw)) with
  | none => return none
  | some stored =>
    if stored.revoked then return none
    else if PasswordHasher.verify raw stored.hashedKey = false then return none
    else return some stored

omit [PasswordHasher] in
def revoke (keyId : UUID) : Async Unit := perform (.revoke keyId)

end ApiKeyService

/-! ## On the tables -/

namespace Database

/-- The stored user with the id. -/
def userById (db : Database) (userId : UUID) : Except Exn (Option User) :=
  foundUser (db.users.findKey userId)

/-- A stored user is read from its row. -/
theorem row_of_userById {db : Database} {userId : UUID} {user : User}
    (h : db.userById userId = .ok (some user)) :
    ∃ row ∈ db.users.rows, row.id = userId ∧ row.toDomain = .ok user := by
  unfold userById at h
  cases hRow : db.users.findKey userId with
  | none =>
    rw [hRow] at h
    cases h
  | some row =>
    rw [hRow] at h
    change row.toDomain.map some = .ok (some user) at h
    obtain ⟨hMem, hId⟩ := Unique.findKey_eq_some.mp hRow
    refine ⟨row, hMem, hId, ?_⟩
    cases hUser : row.toDomain with
    | error e =>
      rw [hUser] at h
      cases h
    | ok found =>
      rw [hUser] at h
      obtain rfl : found = user := by simpa [Except.map] using h
      rfl

theorem userById_id {db : Database} {userId : UUID} {user : User}
    (h : db.userById userId = .ok (some user)) : user.id = userId := by
  obtain ⟨row, -, hId, hUser⟩ := row_of_userById h
  exact (UserRow.toDomain_eq_ok hUser).1.trans hId

/-- A row whose key is the raw text. -/
def Opens [PasswordHasher] (raw : String) (row : ApiKeyRow) : Prop :=
  row.revoked = 0 ∧ PasswordHasher.verify raw row.hashedKey = true

instance [PasswordHasher] (raw : String) (row : ApiKeyRow) : Decidable (Opens raw row) :=
  inferInstanceAs (Decidable (_ ∧ _))

/-- The key that a raw text authenticates. -/
def authenticated [PasswordHasher] (db : Database) (raw : String) : Option ApiKey :=
  ((db.keys.findColumn (keyPrefix raw)).filter fun row => Opens raw row).map ApiKeyRow.toDomain

/-- The database with a further key, if that can be saved. -/
def saveKey (db : Database) (apiKey : ApiKey) : Except Exn Unit × Database :=
  respond db (.saveKey apiKey)

end Database

section Drive

variable [PasswordHasher] {db : Database}

theorem drive_lookup (raw : String) :
    drive Database.respond db (ApiKeyService.lookup raw) = (.ok (db.authenticated raw), db) := by
  unfold ApiKeyService.lookup Database.authenticated
  rw [drive_bind, drive_call, Database.respond]
  dsimp only
  cases db.keys.findColumn (keyPrefix raw) with
  | none => rfl
  | some row =>
    rw [Option.map_some, Option.filter_some]
    dsimp only
    by_cases hRevoked : row.revoked = 0
    · have hLive : row.toDomain.revoked = false := by simp [ApiKeyRow.toDomain, hRevoked]
      have hHashed : row.toDomain.hashedKey = row.hashedKey := rfl
      rw [hLive, hHashed, if_neg Bool.false_ne_true]
      cases hVerify : PasswordHasher.verify raw row.hashedKey with
      | false =>
        have hShut : ¬ Database.Opens raw row := fun h => by simp [h.2] at hVerify
        rw [if_pos rfl, if_neg (by simpa using hShut)]
        rfl
      | true =>
        have hOpen : Database.Opens raw row := ⟨hRevoked, hVerify⟩
        rw [if_neg (by decide), if_pos (by simpa using hOpen)]
        rfl
    · have hDead : row.toDomain.revoked = true := by simp [ApiKeyRow.toDomain, hRevoked]
      have hShut : ¬ Database.Opens raw row := fun h => hRevoked h.1
      rw [if_pos hDead, if_neg (by simpa using hShut)]
      rfl

/-- For an existing user `create` comes to one save. -/
theorem drive_create [LowerText] {userId : UUID} {user : User}
    (hUser : db.userById userId = .ok (some user)) (draws : ApiKeyService.Draws) (label : String) :
    drive Database.respond db (ApiKeyService.create draws userId label) =
      match db.saveKey (ApiKeyService.made draws userId label) with
      | (.ok _, db') => (.ok (.ok (ApiKeyService.made draws userId label, draws.secret)), db')
      | (.error e, db') => (.error e, db') := by
  unfold ApiKeyService.create
  have hId := Database.userById_id hUser
  have hGet : Database.respond db (.getById userId) = (.ok (some user), db) := by
    rw [← hUser]
    rfl
  rw [drive_bind, drive_call, hGet]
  dsimp only
  rw [drive_bind, drive_call, hId]
  unfold Database.saveKey
  cases Database.respond db (.saveKey (ApiKeyService.made draws userId label)) with
  | mk out db' => cases out <;> rfl

end Drive

end TradingAgent.Auth
