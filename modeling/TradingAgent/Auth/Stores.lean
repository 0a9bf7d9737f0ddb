import TradingAgent.Auth.Entities
import TradingAgent.Coroutine.Runs
import TradingAgent.Table.Columns
import TradingAgent.Table.Unique

/-!
# The Postgres repositories of the auth context

The services await the calls of two repositories. Each call opens a session, does its work
in one transaction and closes it, so that it is one operation. `Database` holds the two
tables, and `Database.respond` answers a call.

A row is refused when a column does not keep its value, and when it repeats the id or the
unique column of a stored row. The columns of the hashes have no bound. A column cuts spaces off
the end of a long text only, and the services save no text that ends in a space.
-/

namespace TradingAgent.Auth

open Coroutine Table
open Trading (UUID)

inductive Op
  | getByUsername (username : String)
  | getById (userId : UUID)
  | saveUser (user : User)
  | saveKey (apiKey : ApiKey)
  | findByPrefix (keyPrefix : String)
  | revoke (keyId : UUID)
  | listByUser (userId : UUID)

@[reducible] def Ret : Op → Type
  | .getByUsername _ => Option User
  | .getById _ => Option User
  | .saveUser _ => Unit
  | .saveKey _ => Unit
  | .findByPrefix _ => Option ApiKey
  | .revoke _ => Unit
  | .listByUser _ => List ApiKey

abbrev Async (α : Type) := Coro Exn Ret α

abbrev perform (op : Op) : Async (Ret op) := Coro.call op

/-! ## Rows -/

/-- A column `Integer` takes the number. -/
def FitsInteger (n : ℤ) : Prop := -2 ^ 31 ≤ n ∧ n < 2 ^ 31

instance (n : ℤ) : Decidable (FitsInteger n) := inferInstanceAs (Decidable (_ ∧ _))

structure UserRow where
  id : UUID
  username : String
  passwordHash : String
  role : String
  disabled : ℤ
  deriving DecidableEq, Repr

structure ApiKeyRow where
  id : UUID
  userId : UUID
  keyPrefix : String
  hashedKey : String
  createdAt : ℤ
  revoked : ℤ
  deriving DecidableEq, Repr

namespace UserRow

def ofUser (user : User) : UserRow where
  id := user.id
  username := user.username
  passwordHash := user.passwordHash
  role := user.role.value
  disabled := user.disabled.toInt

def toDomain (row : UserRow) : Except Exn User :=
  match Role.ofValue row.role with
  | none => .error (.valueError row.role)
  | some role =>
    .ok
      { id := row.id
        username := row.username
        passwordHash := row.passwordHash
        role := role
        disabled := row.disabled ≠ 0 }

def Fits (row : UserRow) : Prop := Text 64 row.username ∧ Text 16 row.role

instance (row : UserRow) : Decidable row.Fits := inferInstanceAs (Decidable (_ ∧ _))

theorem toDomain_eq_ok {row : UserRow} {user : User} (h : row.toDomain = .ok user) :
    user.id = row.id ∧ user.username = row.username ∧ user.passwordHash = row.passwordHash ∧
      user.role.value = row.role ∧ (user.disabled = true ↔ row.disabled ≠ 0) := by
  unfold toDomain at h
  cases hRole : Role.ofValue row.role with
  | none =>
    rw [hRole] at h
    cases h
  | some role =>
    rw [hRole] at h
    obtain rfl := Except.ok.inj h
    have hValue := List.find?_some hRole
    exact ⟨rfl, rfl, rfl, of_decide_eq_true hValue, decide_eq_true_iff⟩

end UserRow

namespace ApiKeyRow

/-- `int(api_key.created_at.timestamp())` and `int(api_key.revoked)`. -/
def ofKey (apiKey : ApiKey) : ApiKeyRow where
  id := apiKey.id
  userId := apiKey.userId
  keyPrefix := apiKey.keyPrefix
  hashedKey := apiKey.hashedKey
  createdAt := Int.tdiv apiKey.createdAt 1000000
  revoked := apiKey.revoked.toInt

def toDomain (row : ApiKeyRow) : ApiKey where
  id := row.id
  userId := row.userId
  keyPrefix := row.keyPrefix
  hashedKey := row.hashedKey
  createdAt := row.createdAt * 1000000
  revoked := row.revoked ≠ 0

def Fits (row : ApiKeyRow) : Prop := Text 64 row.keyPrefix ∧ FitsInteger row.createdAt

instance (row : ApiKeyRow) : Decidable row.Fits := inferInstanceAs (Decidable (_ ∧ _))

/-- What `revoke` does to a row. -/
def revoke (keyId : UUID) (row : ApiKeyRow) : ApiKeyRow :=
  if row.id = keyId then { row with revoked := 1 } else row

@[simp] theorem revoke_id (keyId : UUID) (row : ApiKeyRow) : (row.revoke keyId).id = row.id := by
  unfold revoke
  split <;> rfl

@[simp] theorem revoke_keyPrefix (keyId : UUID) (row : ApiKeyRow) :
    (row.revoke keyId).keyPrefix = row.keyPrefix := by
  unfold revoke
  split <;> rfl

end ApiKeyRow

/-! ## The database -/

abbrev UserTable := Unique UserRow.id UserRow.username

abbrev KeyTable := Unique ApiKeyRow.id ApiKeyRow.keyPrefix

structure Database where
  users : UserTable := .empty
  keys : KeyTable := .empty

section Save

variable {Row Key Column : Type} {key : Row → Key} {column : Row → Column} [DecidableEq Key]
  [DecidableEq Column]

/-- Add a row and commit. -/
def save (t : Unique key column) (row : Row) (fits : Prop) [Decidable fits] :
    Except Exn (Unique key column) :=
  if fits then
    match t.insert row with
    | some t' => .ok t'
    | none => .error (.other "IntegrityError")
  else .error (.other "DBAPIError")

/-- A row is saved exactly when it fits and repeats no unique value. -/
theorem save_eq_ok {t t' : Unique key column} {row : Row} {fits : Prop} [Decidable fits] :
    save t row fits = .ok t' ↔
      fits ∧ (key row ∉ t.rows.map key ∧ column row ∉ t.rows.map column) ∧
        t'.rows = t.rows ++ [row] := by
  rw [← Unique.insert_eq_some]
  unfold save
  by_cases hFits : fits
  · rw [if_pos hFits]
    cases t.insert row <;> simp [hFits]
  · rw [if_neg hFits]
    simp [hFits]

theorem save_eq_error {t : Unique key column} {row : Row} {fits : Prop} [Decidable fits] {e : Exn}
    (h : save t row fits = .error e) :
    ¬ (fits ∧ key row ∉ t.rows.map key ∧ column row ∉ t.rows.map column) := by
  rintro ⟨hFits, hKey, hColumn⟩
  unfold save at h
  rw [if_pos hFits] at h
  cases hInsert : t.insert row with
  | some t' =>
    rw [hInsert] at h
    cases h
  | none =>
    rcases Unique.insert_eq_none.mp hInsert with hTaken | hTaken
    · exact hKey hTaken
    · exact hColumn hTaken

end Save

namespace Database

def foundUser : Option UserRow → Except Exn (Option User)
  | none => .ok none
  | some row => row.toDomain.map some

def respond (db : Database) : (op : Op) → Except Exn (Ret op) × Database
  | .getByUsername username => (foundUser (db.users.findColumn username), db)
  | .getById userId => (foundUser (db.users.findKey userId), db)
  | .saveUser user =>
    match save db.users (.ofUser user) (UserRow.ofUser user).Fits with
    | .ok users => (.ok (), { db with users := users })
    | .error e => (.error e, db)
  | .saveKey apiKey =>
    match save db.keys (.ofKey apiKey) (ApiKeyRow.ofKey apiKey).Fits with
    | .ok keys => (.ok (), { db with keys := keys })
    | .error e => (.error e, db)
  | .findByPrefix keyPrefix => (.ok ((db.keys.findColumn keyPrefix).map ApiKeyRow.toDomain), db)
  | .revoke keyId =>
    let keys := db.keys.modify (ApiKeyRow.revoke keyId) (ApiKeyRow.revoke_id keyId)
      (ApiKeyRow.revoke_keyPrefix keyId)
    (.ok (), { db with keys := keys })
  | .listByUser userId =>
    (.ok ((db.keys.rows.filter fun row => row.userId = userId).map ApiKeyRow.toDomain), db)

/-- A stored row is the one that is read by its name, and by its id. -/
theorem respond_getByUsername {db : Database} {row : UserRow} (hRow : row ∈ db.users.rows) :
    respond db (.getByUsername row.username) = (row.toDomain.map some, db) := by
  have hFound : db.users.findColumn row.username = some row :=
    Unique.findColumn_eq_some.mpr ⟨hRow, rfl⟩
  change (foundUser (db.users.findColumn row.username), db) = _
  rw [hFound]
  rfl

theorem respond_getById {db : Database} {row : UserRow} (hRow : row ∈ db.users.rows) :
    respond db (.getById row.id) = (row.toDomain.map some, db) := by
  have hFound : db.users.findKey row.id = some row := Unique.findKey_eq_some.mpr ⟨hRow, rfl⟩
  change (foundUser (db.users.findKey row.id), db) = _
  rw [hFound]
  rfl

end Database

end TradingAgent.Auth
