import TradingAgent.Auth.Services
import TradingAgent.Calendar.Formats

/-!
# The routes of the auth context

A route returns its response or raises an `HTTPException`. The bodies of requests come with
the bounds that their models have checked. Routes that need a user read the header
`Authorization` and resolve its token first.

`TokenPair` has slots and so no `__dict__`: a route that has a pair to hand out raises.
-/

namespace TradingAgent.Auth

open Coroutine Coro Calendar
open Trading (UUID)

/-- A raised `HTTPException`. -/
structure HttpException where
  statusCode : ℕ
  detail : String
  deriving DecidableEq, Repr

/-- What a route returns, or the `HTTPException` that it raises. -/
abbrev Answer (α : Type) := Except HttpException α

/-- `_or_http(result, status_override)`, and the value of a result that it lets through. -/
def orHttp {α : Type} (result : Result α DomainError) (statusOverride : Option ℕ) : Answer α :=
  match result with
  | .ok value => .ok value
  | .err error =>
    .error
      { statusCode := (statusOverride.filter (· ≠ 0)).getD (httpStatusFor error)
        detail := error.message }

/-! ## Schemas -/

/-- A text within the bounds of its field. -/
structure Bounded (least most : ℕ) where
  text : String
  least_le : least ≤ text.length
  le_most : text.length ≤ most

structure RegisterRequest where
  username : Bounded 3 64
  password : Bounded 8 256
  role : String := "viewer"

structure LoginRequest where
  username : String
  password : String

structure RefreshRequest where
  refreshToken : String

structure ApiKeyRequest where
  label : Bounded 1 64

structure TokenResponse where
  accessToken : String
  refreshToken : String
  tokenType : String := "bearer"
  expiresInSec : ℤ
  deriving DecidableEq, Repr

structure ApiKeyResponse where
  keyId : String
  keyPrefix : String
  createdAt : String
  deriving DecidableEq, Repr

structure ApiKeySecretResponse extends ApiKeyResponse where
  secret : String
  deriving DecidableEq, Repr

/-- `isoformat` of a time in UTC. -/
def isoformat (time : Datetime) : String :=
  let wall := wallOf time
  strftime daily wall ++ "T" ++
    strftime [.directive .hour, .literal ':', .directive .minute, .literal ':',
      .directive .second] wall ++
    (if wall.microsecond = 0 then "" else "." ++ String.ofList (pad 6 wall.microsecond)) ++ "+00:00"

def apiKeyResponse (key : ApiKey) : ApiKeyResponse where
  keyId := key.id.text
  keyPrefix := key.keyPrefix
  createdAt := isoformat key.createdAt

/-! ## The bearer -/

/-- `text.partition(" ")`, without the separator. -/
def partitionBlank (text : String) : String × String :=
  (String.ofList (text.toList.takeWhile (· ≠ ' ')),
    String.ofList ((text.toList.dropWhile (· ≠ ' ')).drop 1))

/-- The token of the header, if the header names one. -/
def bearerToken [LowerText] (authorization : Option String) : Option String :=
  let (scheme, token) := partitionBlank (authorization.getD "")
  if LowerText.lower scheme ≠ "bearer" ∨ token = "" then none else some token

section Routes

variable [PasswordHasher] [LowerText] [Jwt String] (auth : AuthService)

omit [PasswordHasher] in
def getCurrentUser (now : Datetime) (authorization : Option String) : Async (Answer User) :=
  match bearerToken authorization with
  | none => return .error { statusCode := 401, detail := "missing_token" }
  | some token => do
    match ← CurrentUserService.resolve ⟨auth⟩ now token with
    | .err error => return .error { statusCode := 401, detail := error.message }
    | .ok user => return .ok user

omit [PasswordHasher] [LowerText] [Jwt String] in
/-- `TokenResponse(**pair.__dict__)`. -/
def tokenResponse (_pair : TokenPair String) : Async (Answer TokenResponse) :=
  raise (.other "AttributeError")

/-- What a request to register reads from the clock and draws. -/
structure Enrolment where
  userId : UUID
  salt : List UInt8
  now : Datetime
  jti : UUID

/-- A role that one may give oneself. -/
def offeredRole (role : String) : Role :=
  if role = Role.viewer.value ∨ role = Role.analyst.value then (Role.ofValue role).getD .viewer
  else .viewer

def register (draws : Enrolment) (body : RegisterRequest) : Async (Answer TokenResponse) := do
  let result ← AuthService.register draws.userId draws.salt body.username.text
    body.password.text (offeredRole body.role)
  match orHttp result (some 400) with
  | .error e => return .error e
  | .ok _ => do
    let token ← auth.login draws.now draws.jti body.username.text body.password.text
    match orHttp token (some 401) with
    | .error e => return .error e
    | .ok pair => tokenResponse pair

def login (now : Datetime) (jti : UUID) (body : LoginRequest) : Async (Answer TokenResponse) := do
  let result ← auth.login now jti body.username body.password
  match orHttp result (some 401) with
  | .error e => return .error e
  | .ok pair => tokenResponse pair

omit [PasswordHasher] [LowerText] in
def refresh (now later : Datetime) (jti : UUID) (body : RefreshRequest) :
    Async (Answer TokenResponse) := do
  let result ← auth.refresh now later jti body.refreshToken
  match orHttp result (some 401) with
  | .error e => return .error e
  | .ok pair => tokenResponse pair

def createApiKey (draws : ApiKeyService.Draws) (now : Datetime) (authorization : Option String)
    (body : ApiKeyRequest) : Async (Answer ApiKeySecretResponse) := do
  match ← getCurrentUser auth now authorization with
  | .error e => return .error e
  | .ok user => do
    let result ← ApiKeyService.create draws user.id body.label.text
    match orHttp result none with
    | .error e => return .error e
    | .ok (key, secret) => return .ok { apiKeyResponse key with secret := secret }

omit [PasswordHasher] in
def listApiKeys (now : Datetime) (authorization : Option String) :
    Async (Answer (List ApiKeyResponse)) := do
  match ← getCurrentUser auth now authorization with
  | .error e => return .error e
  | .ok user => do
    let keys ← ApiKeyService.list user.id
    return .ok (keys.map apiKeyResponse)

/-! ## Requests -/

/-- A request, with what its route reads from the clock and draws. -/
inductive Request
  | register (draws : Enrolment) (body : RegisterRequest)
  | login (now : Datetime) (jti : UUID) (body : LoginRequest)
  | refresh (now later : Datetime) (jti : UUID) (body : RefreshRequest)
  | createApiKey (draws : ApiKeyService.Draws) (now : Datetime) (authorization : Option String)
      (body : ApiKeyRequest)
  | listApiKeys (now : Datetime) (authorization : Option String)

@[reducible] def Request.Response : Request → Type
  | .register _ _ => TokenResponse
  | .login _ _ _ => TokenResponse
  | .refresh _ _ _ _ => TokenResponse
  | .createApiKey _ _ _ _ => ApiKeySecretResponse
  | .listApiKeys _ _ => List ApiKeyResponse

def Request.handle : (request : Request) → Async (Answer request.Response)
  | .register draws body => Auth.register auth draws body
  | .login now jti body => Auth.login auth now jti body
  | .refresh now later jti body => Auth.refresh auth now later jti body
  | .createApiKey draws now authorization body =>
    Auth.createApiKey auth draws now authorization body
  | .listApiKeys now authorization => Auth.listApiKeys auth now authorization

end Routes

end TradingAgent.Auth
