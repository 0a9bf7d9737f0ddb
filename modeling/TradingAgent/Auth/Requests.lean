import TradingAgent.Auth.Routes
import TradingAgent.Coroutine.Pool
import TradingAgent.Word.Tally

/-!
# Interleaved requests

Any number of requests to the routes of the auth context run interleaved over one database,
whose calls may raise. `obeys_handle` says what a request awaits, for what it has been told:
a request to register saves one user, with a role that one may give oneself, and a request
for keys saves or lists keys of the user of its token, whom it has found enabled before.

So nobody becomes an admin, keys belong to the bearers that asked for them, and a bearer sees
its own keys only (`requests_authorized`). A registered user can log in from then on, and the
access token is the user's until it expires (`registered_logs_in`), although the route that
registered the user has answered with an error.
-/

namespace TradingAgent.Auth

open Coroutine Coro Table
open Trading (UUID)
open ApiKeyService (Draws made)

/-- The database answers a call, or the call raises and changes nothing. -/
def Database.answer : Environment Database Exn Ret := fun db op r db' =>
  (r, db') = db.respond op ∨ ∃ e, r = .error e ∧ db' = db

section Requests

variable [PasswordHasher] [LowerText] [Jwt String] (auth : AuthService)

/-! ## What a request awaits -/

/-- The user that a request to register saves. -/
def registered (draws : Enrolment) (body : RegisterRequest) : User :=
  newUser draws.userId (normalize body.username.text)
    (PasswordHasher.hash draws.salt body.password.text) (offeredRole body.role)

omit [PasswordHasher] in
/-- The header has an access token of the user, who is enabled. -/
structure Bearer (now : Datetime) (authorization : Option String) (user : User) : Prop where
  token : ∃ token claims, bearerToken authorization = some token ∧
    auth.tokens.verifyAccess now token = .ok claims ∧ user.id = ⟨claims.subject⟩
  enabled : user.disabled = false

/-- The calls of a request that has found these users. -/
def Allowed (Found : User → Prop) : Request → Op → Prop
  | .register draws body, .saveUser user => user = registered draws body
  | .createApiKey draws now authorization body, .saveKey key => ∃ user, Found user ∧
      Bearer auth now authorization user ∧ key = made draws user.id body.label.text
  | .listApiKeys now authorization, .listByUser userId => ∃ user, Found user ∧
      Bearer auth now authorization user ∧ userId = user.id
  | _, .getByUsername _ => True
  | _, .getById _ => True
  | _, _ => False

omit [PasswordHasher] [LowerText] [Jwt String] in
/-- What a request is told: the users that it finds, and the keys of a user. -/
def Told (Found : User → Prop) (Listed : UUID → List ApiKey → Prop) :
    (op : Op) → Except Exn (Ret op) → Prop
  | .getById userId, .ok (some user) => user.id = userId ∧ Found user
  | .listByUser userId, .ok keys => Listed userId keys
  | _, _ => True

/-- What a request may return. -/
def Responds (Found : User → Prop) (Listed : UUID → List ApiKey → Prop) :
    (request : Request) → Except Exn (Answer request.Response) → Prop
  | .createApiKey draws now authorization body, .ok (.ok response) => ∃ user, Found user ∧
      Bearer auth now authorization user ∧
        response = { apiKeyResponse (made draws user.id body.label.text) with
          secret := draws.secret }
  | .listApiKeys now authorization, .ok (.ok response) => ∃ user keys, Found user ∧
      Bearer auth now authorization user ∧ Listed user.id keys ∧
        response = keys.map apiKeyResponse
  | .register _ _, .ok (.ok _) => False
  | .login _ _ _, .ok (.ok _) => False
  | .refresh _ _ _ _, .ok (.ok _) => False
  | _, _ => True

section Contracts

variable {auth} {Found : User → Prop} {Listed : UUID → List ApiKey → Prop} {may : Op → Prop}

omit [PasswordHasher] in
/-- A route that needs a user finds the user of the token, enabled. -/
theorem obeys_getCurrentUser (hMay : ∀ userId, may (.getById userId)) (now : Datetime)
    (authorization : Option String) :
    Obeys may (Told Found Listed)
      (fun out => ∀ user, out = .ok (.ok user) → Found user ∧ Bearer auth now authorization user)
      (getCurrentUser auth now authorization) := by
  unfold getCurrentUser
  cases hToken : bearerToken authorization with
  | none =>
    intro user hUser
    cases hUser
  | some token =>
    refine Obeys.bind (P := fun out => ∀ user, out = .ok (.ok user) →
      Found user ∧ Bearer auth now authorization user) ?_ ?_ fun e _ user hUser => by cases hUser
    · unfold CurrentUserService.resolve AuthService.verifyAccess
      cases hVerify : auth.tokens.verifyAccess now token with
      | error e =>
        intro user hUser
        cases hUser
      | ok claims =>
        refine Obeys.bind (P := Told Found Listed (.getById ⟨claims.subject⟩))
          (.call (hMay _) fun r hr => hr) (fun found hFound => ?_)
          fun e _ user hUser => by cases hUser
        cases found with
        | none =>
          intro user hUser
          cases hUser
        | some user =>
          dsimp only
          split
          · intro other hOther
            cases hOther
          · next hEnabled =>
            intro other hOther
            cases hOther
            exact ⟨hFound.2, ⟨token, claims, hToken, hVerify, hFound.1⟩, by simpa using hEnabled⟩
    · intro result hResult
      cases result with
      | err error =>
        intro user hUser
        cases hUser
      | ok user =>
        intro other hOther
        cases hOther
        exact hResult user rfl

omit [PasswordHasher] [LowerText] [Jwt String] in
/-- A route that hands out a pair does not return. -/
theorem obeys_tokens {m : Async (Result (TokenPair String) DomainError)}
    {post : Except Exn (Answer TokenResponse) → Prop}
    (h : Obeys may (Told Found Listed) (fun _ => True) m)
    (hPost : ∀ out, (∀ response, out ≠ .ok (.ok response)) → post out) :
    Obeys may (Told Found Listed) post
      (m >>= fun result =>
        match orHttp result (some 401) with
        | .error e => ret (.error e)
        | .ok pair => tokenResponse pair) := by
  refine Obeys.bind h (fun result _ => ?_) fun e _ => hPost _ fun response hOut => by cases hOut
  cases result with
  | err error =>
    refine hPost _ fun response hOut => ?_
    cases hOut
  | ok pair =>
    refine hPost _ fun response hOut => ?_
    cases hOut

theorem obeys_login {now : Datetime} {jti : UUID} {username password : String}
    (hMay : ∀ name, may (.getByUsername name)) :
    Obeys may (Told Found Listed) (fun _ => True)
      (auth.login now jti username password : Async (Result (TokenPair String) DomainError)) := by
  refine Obeys.bind (P := fun _ => True) (.call (hMay _) fun _ _ => trivial)
    (fun found _ => ?_) fun _ _ => trivial
  cases found with
  | none => exact trivial
  | some user =>
    dsimp only
    split
    · exact trivial
    · split
      · exact trivial
      · exact trivial

omit [PasswordHasher] [LowerText] in
theorem obeys_refresh {now later : Datetime} {jti : UUID} {token : String}
    (hMay : ∀ userId, may (.getById userId)) :
    Obeys may (Told Found Listed) (fun _ => True)
      (auth.refresh now later jti token : Async (Result (TokenPair String) DomainError)) := by
  unfold AuthService.refresh
  cases auth.tokens.verifyRefresh now token with
  | error e => exact trivial
  | ok claims =>
    refine Obeys.bind (P := fun _ => True) (.call (hMay _) fun _ _ => trivial)
      (fun found _ => ?_) fun _ _ => trivial
    cases found with
    | none => exact trivial
    | some user =>
      dsimp only
      split
      · exact trivial
      · exact trivial

omit [Jwt String] in
theorem obeys_register {draws : Enrolment} {body : RegisterRequest}
    (hMay : ∀ name, may (.getByUsername name)) (hSave : may (.saveUser (registered draws body))) :
    Obeys may (Told Found Listed) (fun _ => True)
      (AuthService.register draws.userId draws.salt body.username.text body.password.text
        (offeredRole body.role)) := by
  have hLong : ¬body.password.text.length < minPasswordLen :=
    not_lt.mpr body.password.least_le
  unfold AuthService.register
  rw [if_neg hLong]
  refine Obeys.bind (P := fun _ => True) (.call (hMay _) fun _ _ => trivial)
    (fun found _ => ?_) fun _ _ => trivial
  cases found with
  | some user => exact trivial
  | none =>
    exact Obeys.bind (P := fun _ => True) (.call hSave fun _ _ => trivial)
      (fun _ _ => trivial) fun _ _ => trivial

theorem obeys_createApiKey {draws : Draws} {now : Datetime} {authorization : Option String}
    {body : ApiKeyRequest} :
    Obeys (Allowed auth Found (.createApiKey draws now authorization body)) (Told Found Listed)
      (Responds auth Found Listed (.createApiKey draws now authorization body))
      (createApiKey auth draws now authorization body) := by
  refine Obeys.bind (obeys_getCurrentUser (fun _ => trivial) now authorization)
    (fun answer hAnswer => ?_) fun _ _ => trivial
  cases answer with
  | error e => exact trivial
  | ok user =>
    obtain ⟨hFound, hBearer⟩ := hAnswer user rfl
    -- The key is made for the user that is read again under the id of the first.
    refine Obeys.bind (P := fun out => ∀ key secret, out = .ok (.ok (key, secret)) →
      key = made draws user.id body.label.text ∧ secret = draws.secret) ?_ ?_ fun _ _ => trivial
    · refine Obeys.bind (P := Told Found Listed (.getById user.id)) (.call trivial fun r hr => hr)
        (fun again hAgain => ?_) fun e _ key secret hOut => by cases hOut
      cases again with
      | none =>
        intro key secret hOut
        cases hOut
      | some other =>
        obtain ⟨hId, -⟩ : other.id = user.id ∧ Found other := hAgain
        refine Obeys.bind (P := fun _ => True)
          (.call ⟨user, hFound, hBearer, ?_⟩ fun _ _ => trivial)
          (fun _ _ key secret hOut => ?_) fun e _ key secret hOut => by cases hOut
        · rw [hId]
        · cases hOut
          exact ⟨by rw [hId], rfl⟩
    · intro result hResult
      cases result with
      | err error => exact trivial
      | ok value =>
        obtain ⟨key, secret⟩ := value
        obtain ⟨rfl, rfl⟩ := hResult key secret rfl
        exact ⟨user, hFound, hBearer, rfl⟩

theorem obeys_listApiKeys {now : Datetime} {authorization : Option String} :
    Obeys (Allowed auth Found (.listApiKeys now authorization)) (Told Found Listed)
      (Responds auth Found Listed (.listApiKeys now authorization))
      (listApiKeys auth now authorization) := by
  refine Obeys.bind (obeys_getCurrentUser (fun _ => trivial) now authorization)
    (fun answer hAnswer => ?_) fun _ _ => trivial
  cases answer with
  | error e => exact trivial
  | ok user =>
    obtain ⟨hFound, hBearer⟩ := hAnswer user rfl
    refine Obeys.bind (P := Told Found Listed (.listByUser user.id))
      (.call ⟨user, hFound, hBearer, rfl⟩ fun r hr => hr) (fun keys hKeys => ?_) fun _ _ => trivial
    exact ⟨user, keys, hFound, hBearer, hKeys, rfl⟩

/-- A request may always fail. -/
theorem unanswered (request : Request)
    (out : Except Exn (Answer request.Response)) (h : ∀ response, out ≠ .ok (.ok response)) :
    Responds auth Found Listed request out := by
  cases out with
  | error e => cases request <;> exact trivial
  | ok answer =>
    cases answer with
    | error e => cases request <;> exact trivial
    | ok response => exact absurd rfl (h response)

/-- What each request awaits and returns. -/
theorem obeys_handle (request : Request) :
    Obeys (Allowed auth Found request) (Told Found Listed) (Responds auth Found Listed request)
      (request.handle auth) := by
  cases request with
  | register draws body =>
    refine Obeys.bind (obeys_register (fun _ => trivial) rfl) (fun result _ => ?_)
      fun _ _ => trivial
    cases result with
    | err error => exact trivial
    | ok user =>
      exact obeys_tokens (obeys_login fun _ => trivial) (unanswered (.register draws body))
  | login now jti body =>
    exact obeys_tokens (obeys_login fun _ => trivial) (unanswered (.login now jti body))
  | refresh now later jti body =>
    exact obeys_tokens (obeys_refresh fun _ => trivial) (unanswered (.refresh now later jti body))
  | createApiKey draws now authorization body => exact obeys_createApiKey
  | listApiKeys now authorization => exact obeys_listApiKeys

end Contracts

/-! ## Runs -/

section Runs

variable {auth} {ι : Type} {requests : ι → Request}

abbrev RequestConfig (requests : ι → Request) :=
  Config Database Exn Ret fun i => Answer (requests i).Response

abbrev RequestLog (requests : ι → Request) :=
  Log Database Exn Ret fun i => Answer (requests i).Response

def received (auth : AuthService) (requests : ι → Request) (db : Database) :
    RequestConfig requests where
  state := db
  threads i := (requests i).handle auth

omit [PasswordHasher] [LowerText] [Jwt String] in
/-- In a step of its own, the request has found the stored user. -/
def Found (log : RequestLog requests) (i : ι) (user : User) : Prop :=
  ∃ s ∈ log, s.2.thread = i ∧ s.1.state.userById user.id = .ok (some user)

omit [PasswordHasher] [LowerText] [Jwt String] in
/-- In a step of its own, the request has read the stored keys of the user. -/
def Listed (log : RequestLog requests) (i : ι) (userId : UUID) (keys : List ApiKey) : Prop :=
  ∃ s ∈ log, s.2.thread = i ∧
    keys = (s.1.state.keys.rows.filter fun row => row.userId = userId).map ApiKeyRow.toDomain

variable [DecidableEq ι] {db db' : Database} {log : RequestLog requests}
  {c c₀ : RequestConfig requests} {i : ι} {op : Op} {r : Except Exn (Ret op)}

omit [PasswordHasher] [LowerText] [Jwt String] in
/-- What a request is told is what it finds in its steps. -/
theorem told (h : Run Database.answer c₀ log c) :
    ∀ s ∈ log, s.2.thread = i → Told (Found log i) (Listed log i) s.2.op s.2.answer := by
  rintro ⟨d, e⟩ hs hThread
  obtain ⟨before, after, hLog⟩ := List.append_of_mem hs
  obtain ⟨-, d', hStep, -⟩ := h.split hLog
  cases hStep with
  | @mk j op resume r s' _ hAnswer =>
    cases op with
    | getById userId =>
      cases r with
      | error e => exact trivial
      | ok found =>
        cases found with
        | none => exact trivial
        | some user =>
          rcases hAnswer with hDone | ⟨e, hRaised, -⟩
          · have hUser : d.state.userById userId = .ok (some user) := (Prod.mk.inj hDone).1.symm
            have hId := Database.userById_id hUser
            refine ⟨hId, _, hs, hThread, ?_⟩
            rw [hId]
            exact hUser
          · cases hRaised
    | listByUser userId =>
      cases r with
      | error e => exact trivial
      | ok keys =>
        rcases hAnswer with hDone | ⟨e, hRaised, -⟩
        · exact ⟨_, hs, hThread, Except.ok.inj (Prod.mk.inj hDone).1⟩
        · cases hRaised
    | _ => cases r <;> exact trivial

/-- Every request of a run awaits what it may, and returns what it may. -/
theorem request_run (h : Run Database.answer (received auth requests db) log c) (i : ι) :
    (∀ s ∈ log, s.2.thread = i → Allowed auth (Found log i) (requests i) s.2.op) ∧
      ∀ answer, c.threads i = ret answer →
        Responds auth (Found log i) (Listed log i) (requests i) (.ok answer) := by
  obtain ⟨hMay, hEnds⟩ := h.obeys (obeys_handle (requests i)) (told h)
  refine ⟨hMay, fun answer hAnswer => ?_⟩
  rw [hAnswer] at hEnds
  exact hEnds

/-! ### The tables -/

omit [PasswordHasher] [LowerText] [Jwt String] in
theorem respond_saveUser (db : Database) (user : User) :
    (∃ users : UserTable, db.respond (.saveUser user) = (.ok (), { db with users := users }) ∧
      users.rows = db.users.rows ++ [.ofUser user]) ∨
        ∃ e, db.respond (.saveUser user) = (.error e, db) := by
  unfold Database.respond
  dsimp only
  cases hSave : save db.users (.ofUser user) (UserRow.ofUser user).Fits with
  | ok users => exact .inl ⟨users, rfl, (save_eq_ok.mp hSave).2.2⟩
  | error e => exact .inr ⟨e, rfl⟩

omit [PasswordHasher] [LowerText] [Jwt String] in
theorem respond_saveKey (db : Database) (key : ApiKey) :
    (∃ keys : KeyTable, db.respond (.saveKey key) = (.ok (), { db with keys := keys }) ∧
      keys.rows = db.keys.rows ++ [.ofKey key]) ∨
        ∃ e, db.respond (.saveKey key) = (.error e, db) := by
  unfold Database.respond
  dsimp only
  cases hSave : save db.keys (.ofKey key) (ApiKeyRow.ofKey key).Fits with
  | ok keys => exact .inl ⟨keys, rfl, (save_eq_ok.mp hSave).2.2⟩
  | error e => exact .inr ⟨e, rfl⟩

omit [PasswordHasher] [LowerText] [Jwt String] in
/-- Only a save of a user changes the users, and only by a new row. -/
theorem users_answer (h : Database.answer db op r db') :
    db'.users.rows = db.users.rows ∨
      ∃ row, (∃ user, op = .saveUser user ∧ row = .ofUser user) ∧
        db'.users.rows = db.users.rows ++ [row] := by
  rcases h with hDone | ⟨e, -, rfl⟩
  · cases op with
    | saveUser user =>
      rcases respond_saveUser db user with ⟨users, hSaved, hRows⟩ | ⟨e, hRaised⟩
      · rw [hSaved] at hDone
        cases hDone
        exact .inr ⟨_, ⟨user, rfl, rfl⟩, hRows⟩
      · rw [hRaised] at hDone
        cases hDone
        exact .inl rfl
    | saveKey key =>
      rcases respond_saveKey db key with ⟨keys, hSaved, -⟩ | ⟨e, hRaised⟩
      · rw [hSaved] at hDone
        cases hDone
        exact .inl rfl
      · rw [hRaised] at hDone
        cases hDone
        exact .inl rfl
    | _ =>
      cases hDone
      exact .inl rfl
  · exact .inl rfl

omit [PasswordHasher] [LowerText] [Jwt String] in
/-- Unless a key is revoked, only a save of a key changes the keys, and only by a new row. -/
theorem keys_answer (h : Database.answer db op r db') (hKept : ∀ keyId, op ≠ .revoke keyId) :
    db'.keys.rows = db.keys.rows ∨
      ∃ row, (∃ key, op = .saveKey key ∧ row = .ofKey key) ∧
        db'.keys.rows = db.keys.rows ++ [row] := by
  rcases h with hDone | ⟨e, -, rfl⟩
  · cases op with
    | saveUser user =>
      rcases respond_saveUser db user with ⟨users, hSaved, -⟩ | ⟨e, hRaised⟩
      · rw [hSaved] at hDone
        cases hDone
        exact .inl rfl
      · rw [hRaised] at hDone
        cases hDone
        exact .inl rfl
    | saveKey key =>
      rcases respond_saveKey db key with ⟨keys, hSaved, hRows⟩ | ⟨e, hRaised⟩
      · rw [hSaved] at hDone
        cases hDone
        exact .inr ⟨_, ⟨key, rfl, rfl⟩, hRows⟩
      · rw [hRaised] at hDone
        cases hDone
        exact .inl rfl
    | revoke keyId => exact absurd rfl (hKept keyId)
    | _ =>
      cases hDone
      exact .inl rfl
  · exact .inl rfl

/-- No request revokes a key. -/
theorem never_revoked (h : Run Database.answer (received auth requests db) log c) :
    ∀ s ∈ log, ∀ keyId, s.2.op ≠ .revoke keyId := by
  intro s hs keyId hRevoke
  have hAllowed := (request_run h s.2.thread).1 s hs rfl
  rw [hRevoke] at hAllowed
  cases hRequest : requests s.2.thread <;> rw [hRequest] at hAllowed <;> exact hAllowed

omit [PasswordHasher] [LowerText] [Jwt String] in
/-- Nobody gives oneself the role of an admin. -/
theorem offeredRole_ne_admin (role : String) : offeredRole role ≠ .admin := by
  unfold offeredRole
  split
  · next hOffered =>
    rcases hOffered with rfl | rfl
    · rw [Role.ofValue_value]
      decide
    · rw [Role.ofValue_value]
      decide
  · decide

/-- **Authorized requests.** However requests interleave, and whichever calls of the database
raise: the stored users stay as they are, and each further user is the one of a request to
register, is enabled and is no admin; the stored keys stay as they are, and each further key
is one that a request has made for the user of its token, whom it has found enabled; and a
response lists keys of the user of its token only, while no route returns tokens. -/
theorem requests_authorized (h : Run Database.answer (received auth requests db) log c) :
    (∃ users, c.state.users.rows = db.users.rows ++ users ∧ ∀ row ∈ users,
        ∃ i draws body, requests i = .register draws body ∧
          row = .ofUser (registered draws body) ∧ row.role ≠ Role.admin.value ∧
          row.disabled = 0) ∧
      (∃ keys, c.state.keys.rows = db.keys.rows ++ keys ∧ ∀ row ∈ keys,
        ∃ i draws now authorization body user,
          requests i = .createApiKey draws now authorization body ∧ Found log i user ∧
            Bearer auth now authorization user ∧
            row = .ofKey (made draws user.id body.label.text)) ∧
      ∀ i answer, c.threads i = ret answer →
        Responds auth (Found log i) (Listed log i) (requests i) (.ok answer) := by
  refine ⟨?_, ?_, fun i => (request_run h i).2⟩
  · obtain ⟨users, hRows, hAdded⟩ := h.appended (fun db => db.users.rows)
      (fun op row => ∃ user, op = .saveUser user ∧ row = .ofUser user)
      fun s _ s' hAnswer => users_answer hAnswer
    refine ⟨users, hRows, fun row hRow => ?_⟩
    obtain ⟨s, hs, user, hOp, rfl⟩ := hAdded row hRow
    have hAllowed := (request_run h s.2.thread).1 s hs rfl
    rw [hOp] at hAllowed
    cases hRequest : requests s.2.thread with
    | register draws body =>
      rw [hRequest] at hAllowed
      obtain rfl : user = registered draws body := hAllowed
      refine ⟨_, draws, body, hRequest, rfl, fun hAdmin => ?_, rfl⟩
      have hRole : Role.ofValue (offeredRole body.role).value = Role.ofValue Role.admin.value :=
        congrArg _ hAdmin
      rw [Role.ofValue_value, Role.ofValue_value] at hRole
      exact offeredRole_ne_admin body.role (Option.some.inj hRole)
    | _ =>
      rw [hRequest] at hAllowed
      exact absurd hAllowed id
  · obtain ⟨keys, hRows, hAdded⟩ := h.appended (fun db => db.keys.rows)
      (fun op row => ∃ key, op = .saveKey key ∧ row = .ofKey key)
      fun s hs s' hAnswer => keys_answer hAnswer (never_revoked h s hs)
    refine ⟨keys, hRows, fun row hRow => ?_⟩
    obtain ⟨s, hs, key, hOp, rfl⟩ := hAdded row hRow
    have hAllowed := (request_run h s.2.thread).1 s hs rfl
    rw [hOp] at hAllowed
    cases hRequest : requests s.2.thread with
    | createApiKey draws now authorization body =>
      rw [hRequest] at hAllowed
      obtain ⟨user, hFound, hBearer, rfl⟩ := hAllowed
      exact ⟨_, draws, now, authorization, body, user, hRequest, hFound, hBearer, rfl⟩
    | _ =>
      rw [hRequest] at hAllowed
      exact absurd hAllowed id

omit [PasswordHasher] [LowerText] [Jwt String] in
theorem toDomain_ofUser (user : User) : (UserRow.ofUser user).toDomain = .ok user := by
  obtain ⟨id, username, passwordHash, role, disabled⟩ := user
  cases disabled <;> simp [UserRow.toDomain, UserRow.ofUser]

omit [PasswordHasher] [LowerText] [Jwt String] in
/-- A user who was saved stays stored. -/
theorem saved_stored (h : Run Database.answer c₀ log c) {d : RequestConfig requests} {user : User}
    (hSaved : (d, ⟨i, .saveUser user, .ok ()⟩) ∈ log) : .ofUser user ∈ c.state.users.rows := by
  obtain ⟨before, after, rfl⟩ := List.append_of_mem hSaved
  rw [← List.singleton_append, ← List.append_assoc] at h
  obtain ⟨d', hUntil, hAfter⟩ := h.suffix
  obtain ⟨-, hStep⟩ := Run.concat_iff.mp hUntil
  obtain ⟨later, hRows, -⟩ := hAfter.appended (fun db => db.users.rows)
    (fun op row => ∃ user, op = .saveUser user ∧ row = .ofUser user)
    fun s _ s' hAnswer => users_answer hAnswer
  rw [hRows]
  refine List.mem_append_left _ ?_
  cases hStep with
  | mk hThread hAnswer =>
    rcases hAnswer with hDone | ⟨e, hRaised, -⟩
    · rcases respond_saveUser d.state user with ⟨users, hAnswer, hAdded⟩ | ⟨e, hRaised⟩
      · rw [hAnswer] at hDone
        cases hDone
        rw [hAdded]
        exact List.mem_append_right _ (List.mem_singleton_self _)
      · rw [hRaised] at hDone
        cases hDone
    · cases hRaised

/-- **Registered users.** Once a request to register has saved its user, whatever other
requests do: the name, in any spelling of it, and the password log in, and until it expires
the access token speaks for the user. -/
theorem registered_logs_in (h : Run Database.answer (received auth requests db) log c)
    {d : RequestConfig requests} {user : User} {draws : Enrolment} {body : RegisterRequest}
    (hRequest : requests i = .register draws body)
    (hSaved : (d, ⟨i, .saveUser user, .ok ()⟩) ∈ log) {username : String}
    (hName : normalize username = normalize body.username.text) (now : Datetime) (jti : UUID) :
    drive Database.respond c.state (auth.login now jti username body.password.text) =
        (.ok (.ok (auth.tokens.issue now jti user none : TokenPair String)), c.state) ∧
      ∀ later authorization, now ≤ later →
        later < microseconds (numericDate (auth.tokens.accessExp now)) →
        bearerToken authorization =
            some (auth.tokens.issue now jti user none : TokenPair String).accessToken →
          drive Database.respond c.state (getCurrentUser auth later authorization) =
            (.ok (.ok user), c.state) := by
  have hAllowed := (request_run h i).1 _ hSaved rfl
  rw [hRequest] at hAllowed
  obtain rfl : user = registered draws body := hAllowed
  have hStored := saved_stored h hSaved
  constructor
  · have hRead : Database.respond c.state (.getByUsername (normalize username)) =
        (.ok (some (registered draws body)), c.state) := by
      have hRow := Database.respond_getByUsername hStored
      rw [toDomain_ofUser] at hRow
      rw [hName]
      exact hRow
    have hVerify : PasswordHasher.verify body.password.text
        (registered draws body).passwordHash = true := PasswordHasher.verify_hash _ _
    unfold AuthService.login
    rw [drive_bind, drive_call, hRead]
    dsimp only
    rw [hVerify]
    rfl
  · intro later authorization hIssued hNow hToken
    have hAccepted : auth.tokens.verifyAccess later
        (auth.tokens.issue now jti (registered draws body) none : TokenPair String).accessToken =
          .ok (auth.tokens.accessClaims now (registered draws body)) :=
      JwtTokenManager.verifyAccess_access hIssued hNow
    have hRead : Database.respond c.state (.getById (registered draws body).id) =
        (.ok (some (registered draws body)), c.state) := by
      have hRow := Database.respond_getById hStored
      rw [toDomain_ofUser] at hRow
      exact hRow
    unfold getCurrentUser
    rw [hToken]
    dsimp only
    unfold CurrentUserService.resolve AuthService.verifyAccess
    rw [hAccepted]
    dsimp only
    rw [drive_bind, drive_bind, drive_call]
    have hSubject : (⟨(auth.tokens.accessClaims now (registered draws body)).subject⟩ : UUID) =
        (registered draws body).id := rfl
    rw [hSubject, hRead]
    rfl

end Runs

omit [PasswordHasher] [Jwt String] in
/-- A header of a scheme, a blank and a token. -/
theorem bearerToken_header {scheme token : String} (hScheme : LowerText.lower scheme = "bearer")
    (hBlank : ' ' ∉ scheme.toList) (hToken : token ≠ "") :
    bearerToken (some (scheme ++ " " ++ token)) = some token := by
  have hKept : ∀ c ∈ scheme.toList, decide (c ≠ ' ') = true := by
    rintro c hc
    refine decide_eq_true ?_
    rintro rfl
    exact hBlank hc
  have hParts : partitionBlank (scheme ++ " " ++ token) = (scheme, token) := by
    have hText : (scheme ++ " " ++ token).toList = scheme.toList ++ ' ' :: token.toList := by
      simp
    unfold partitionBlank
    rw [hText, List.takeWhile_append_of_pos hKept, List.dropWhile_append_of_pos hKept,
      List.takeWhile_cons_of_neg (by decide), List.dropWhile_cons_of_neg (by decide),
      List.append_nil, List.drop_one, List.tail_cons, String.ofList_toList, String.ofList_toList]
  unfold bearerToken
  rw [Option.getD_some, hParts]
  dsimp only
  rw [if_neg (by simp [hScheme, hToken])]

end Requests

/-! ## A user who registers -/

namespace Enrolled

local instance : PasswordHasher := plainHasher

local instance : LowerText := plainLower

local instance encodableText : Encodable String := Tally.encodableString

local instance : Encodable Payload :=
  Encodable.ofLeftInverse
    (fun payload =>
      (payload.sub, payload.role, payload.type, payload.iat, payload.exp, payload.jti))
    (fun fields => ⟨fields.1, fields.2.1, fields.2.2.1, fields.2.2.2.1, fields.2.2.2.2.1,
      fields.2.2.2.2.2⟩) fun _ => rfl

/-- A token is the tally of its payload, secret and algorithm. -/
local instance : Jwt String where
  encode payload secret algorithm := Tally.write (payload, secret, algorithm)
  decode token secret algorithm now :=
    match (Tally.read token : Option (Payload × String × String)) with
    | some (payload, written) =>
      if written = (secret, algorithm) then payload.checked now else .error .invalid
    | none => .error .invalid
  decode_encode payload secret algorithm now := by
    rw [Tally.read_write]
    exact if_pos rfl

def service : AuthService where
  tokens := ⟨"secret-of-16-chars", 30, 7, "HS256"⟩

def draws : Enrolment where
  userId := ⟨"u-1"⟩
  salt := []
  now := 0
  jti := ⟨"j-1"⟩

def body : RegisterRequest where
  username := ⟨"ada", by decide, by decide⟩
  password := ⟨"lovelace", by decide, by decide⟩
  role := "admin"

/-- Ada registers. -/
def ended : RequestLog (fun _ : Unit => Request.register draws body) ×
    RequestConfig (fun _ : Unit => Request.register draws body) :=
  simulate (received service (fun _ => .register draws body) {})
    (List.replicate 3 ((), Database.respond))

theorem ended_run : Run Database.answer
    (received service (fun _ : Unit => .register draws body) {}) ended.1 ended.2 :=
  run_simulate fun turn hTurn s op => by
    rw [List.eq_of_mem_replicate hTurn]
    exact .inl rfl

/-- She asks for the role of an admin and does not get it. -/
theorem ada_authorized : ¬∃ row ∈ ended.2.state.users.rows, row.role = Role.admin.value := by
  obtain ⟨users, hRows, hUsers⟩ := (requests_authorized ended_run).1
  rintro ⟨row, hRow, hAdmin⟩
  rw [hRows] at hRow
  obtain ⟨-, -, -, -, -, hRole, -⟩ := hUsers row hRow
  exact hRole hAdmin

/-- With a blank after her name she is logged in, and a minute later the token is hers. -/
theorem ada_logs_in :
    drive Database.respond ended.2.state (service.login 0 ⟨"j-2"⟩ "ada " "lovelace") =
        (.ok (.ok (service.tokens.issue 0 ⟨"j-2"⟩ (registered draws body) none :
          TokenPair String)), ended.2.state) ∧
      drive Database.respond ended.2.state
          (getCurrentUser service 60000000 (some ("bearer" ++ " " ++
            (service.tokens.issue 0 ⟨"j-2"⟩ (registered draws body) none :
              TokenPair String).accessToken))) =
        (.ok (.ok (registered draws body)), ended.2.state) := by
  have hSaved : ∃ d, (d, ⟨(), .saveUser (registered draws body), .ok ()⟩) ∈ ended.1 :=
    ⟨_, List.mem_cons_of_mem _ List.mem_cons_self⟩
  obtain ⟨d, hMem⟩ := hSaved
  have hName : normalize "ada " = normalize body.username.text := by decide +kernel
  have hBoth := registered_logs_in ended_run rfl hMem hName 0 ⟨"j-2"⟩
  refine ⟨hBoth.1, hBoth.2 60000000 _ (by decide) (by decide) ?_⟩
  exact bearerToken_header rfl (by decide) (Tally.write_ne_empty _)

end Enrolled

end TradingAgent.Auth
