import TradingAgent.Auth.Services
import TradingAgent.Coroutine.Sequence

/-!
# API keys

Keys are created and revoked, and raw credentials are looked up. A credential is found by
its prefix, which is cut from the label of the key. `create_cases` says what a create does to
the key table, and `authenticated_eq_some` what a lookup finds in it.

Where a key is made in an empty table, the credential of the two values that `create` hands
out opens the key exactly when the label has no underscore: `authenticates_iff`.
-/

namespace TradingAgent.Auth

open Coroutine Coro Table Sequence
open Trading (UUID)
open ApiKeyService (Draws made)

/-- The stored form of a key: its time is cut to seconds. -/
def ApiKey.stored (key : ApiKey) : ApiKey := (ApiKeyRow.ofKey key).toDomain

/-- A call that changes the key table. -/
inductive Call
  | create (draws : Draws) (userId : UUID) (label : String)
  | revoke (keyId : UUID)

section Calls

variable [PasswordHasher] {db db' : Database}

/-! ## Lookups -/

theorem authenticated_eq_some {raw : String} {key : ApiKey} :
    db.authenticated raw = some key ↔
      ∃ row ∈ db.keys.rows, row.keyPrefix = keyPrefix raw ∧ Database.Opens raw row ∧
        row.toDomain = key := by
  unfold Database.authenticated
  rw [Option.map_eq_some_iff]
  constructor
  · rintro ⟨row, hRow, hKey⟩
    rw [Option.filter_eq_some_iff] at hRow
    obtain ⟨hMem, hPrefix⟩ := Unique.findColumn_eq_some.mp hRow.1
    exact ⟨row, hMem, hPrefix, of_decide_eq_true hRow.2, hKey⟩
  · rintro ⟨row, hMem, hPrefix, hOpens, hKey⟩
    refine ⟨row, ?_, hKey⟩
    rw [Option.filter_eq_some_iff]
    exact ⟨Unique.findColumn_eq_some.mpr ⟨hMem, hPrefix⟩, decide_eq_true hOpens⟩

theorem authenticated_eq_none {raw : String} :
    db.authenticated raw = none ↔
      ∀ row ∈ db.keys.rows, row.keyPrefix = keyPrefix raw → ¬ Database.Opens raw row := by
  constructor
  · intro hNone row hMem hPrefix hOpens
    have hSome := authenticated_eq_some.mpr ⟨row, hMem, hPrefix, hOpens, rfl⟩
    rw [hNone] at hSome
    cases hSome
  · intro hShut
    cases hFound : db.authenticated raw with
    | none => rfl
    | some key =>
      obtain ⟨row, hMem, hPrefix, hOpens, -⟩ := authenticated_eq_some.mp hFound
      exact absurd hOpens (hShut row hMem hPrefix)

/-! ## One call -/

variable [LowerText]

def Call.run : Call → Async Unit
  | .create draws userId label => do
    let _ ← ApiKeyService.create draws userId label
    return ()
  | .revoke keyId => ApiKeyService.revoke keyId

def Call.step (db : Database) (call : Call) : Except Exn Unit × Database :=
  drive Database.respond db call.run

/-- The call of `create` returns the key that it makes. -/
def Creates (db : Database) (draws : Draws) (userId : UUID) (label : String) : Prop :=
  (drive Database.respond db (ApiKeyService.create draws userId label)).1 =
    .ok (.ok (made draws userId label, draws.secret))

theorem revoke_rows (keyId : UUID) :
    (Call.step db (.revoke keyId)).2.keys.rows = db.keys.rows.map (ApiKeyRow.revoke keyId) := rfl

/-- The table takes the row. -/
def Takes (db : Database) (row : ApiKeyRow) : Prop :=
  row.Fits ∧ row.id ∉ db.keys.rows.map ApiKeyRow.id ∧
    row.keyPrefix ∉ db.keys.rows.map ApiKeyRow.keyPrefix

/-- The row of the key that `create` makes. -/
def madeRow (draws : Draws) (userId : UUID) (label : String) : ApiKeyRow :=
  .ofKey (made draws userId label)

/-- A create for an existing user adds its row or changes nothing. -/
theorem create_cases {userId : UUID} {user : User} (hUser : db.userById userId = .ok (some user))
    (draws : Draws) (label : String) :
    (Creates db draws userId label ∧ Takes db (madeRow draws userId label) ∧
        (Call.step db (.create draws userId label)).2.users = db.users ∧
        (Call.step db (.create draws userId label)).2.keys.rows =
          db.keys.rows ++ [madeRow draws userId label]) ∨
      ((∀ out, (drive Database.respond db (ApiKeyService.create draws userId label)).1 ≠ .ok out) ∧
        ¬ Takes db (madeRow draws userId label) ∧
        (Call.step db (.create draws userId label)).2 = db) := by
  have hCreate := drive_create hUser draws label
  unfold Creates Call.step Call.run
  rw [drive_bind, hCreate]
  unfold Database.saveKey
  rw [Database.respond]
  cases hSave : save db.keys (madeRow draws userId label) (madeRow draws userId label).Fits with
  | ok keys =>
    obtain ⟨hFits, hNew, hRows⟩ := save_eq_ok.mp hSave
    unfold madeRow at hSave
    rw [hSave]
    exact Or.inl ⟨rfl, ⟨hFits, hNew⟩, rfl, hRows⟩
  | error e =>
    have hRefused : ¬ Takes db (madeRow draws userId label) := save_eq_error hSave
    unfold madeRow at hSave
    rw [hSave]
    refine Or.inr ⟨?_, hRefused, rfl⟩
    intro out h
    cases h

theorem creates_iff {userId : UUID} {user : User} (hUser : db.userById userId = .ok (some user))
    {draws : Draws} {label : String} :
    Creates db draws userId label ↔ Takes db (madeRow draws userId label) := by
  rcases create_cases hUser draws label with ⟨hCreates, hTakes, -⟩ | ⟨hRefused, hFull, -⟩
  · exact iff_of_true hCreates hTakes
  · exact iff_of_false (hRefused _) hFull

theorem made_keyPrefix (draws : Draws) (userId : UUID) {label : String}
    (hLabel : '_' ∉ label.toList) : (made draws userId label).keyPrefix = slug label :=
  keyPrefix_rawKey_iff.mpr hLabel

/-! ## One key -/

/-- The credential of the prefix and the secret opens the key until the key is revoked, and
no other text opens anything. -/
structure Authenticates (db : Database) (key : ApiKey) (secret : String) : Prop where
  own : ∀ revoked : List UUID,
    (drive Database.respond (final Call.step db (revoked.map .revoke))
      (ApiKeyService.lookup (joined key.keyPrefix secret))).1 =
        .ok (if key.id ∈ revoked then none else some key.stored)
  other : ∀ (revoked : List UUID) (raw : String), raw ≠ joined key.keyPrefix secret →
    (drive Database.respond (final Call.step db (revoked.map .revoke))
      (ApiKeyService.lookup raw)).1 = .ok none

/-- What revocations do to a row. -/
def revokedRow (revoked : List UUID) (row : ApiKeyRow) : ApiKeyRow :=
  if row.id ∈ revoked then { row with revoked := 1 } else row

omit [PasswordHasher] [LowerText] in
theorem revokedRow_revoke (keyId : UUID) (rest : List UUID) (row : ApiKeyRow) :
    revokedRow rest (row.revoke keyId) = revokedRow (keyId :: rest) row := by
  unfold revokedRow
  rw [ApiKeyRow.revoke_id]
  unfold ApiKeyRow.revoke
  by_cases hSame : row.id = keyId
  · rw [if_pos hSame, if_pos (List.mem_cons.mpr (Or.inl hSame))]
    split <;> rfl
  · rw [if_neg hSame]
    simp only [List.mem_cons, hSame, false_or]

theorem revoked_rows (revoked : List UUID) :
    (final Call.step db (revoked.map .revoke)).keys.rows =
      db.keys.rows.map (revokedRow revoked) := by
  induction revoked generalizing db with
  | nil => exact (List.map_id'' (fun row => if_neg List.not_mem_nil) _).symm
  | cons keyId rest ih =>
    rw [List.map_cons, final_cons, ih, revoke_rows, List.map_map]
    congr 1
    funext row
    exact revokedRow_revoke keyId rest row

omit [LowerText] in
/-- In a table with one row, only that row opens. -/
theorem authenticated_single {row : ApiKeyRow} (hRows : db.keys.rows = [row]) (raw : String) :
    db.authenticated raw =
      if row.keyPrefix = keyPrefix raw ∧ Database.Opens raw row then some row.toDomain
      else none := by
  by_cases h : row.keyPrefix = keyPrefix raw ∧ Database.Opens raw row
  · rw [if_pos h]
    refine authenticated_eq_some.mpr ⟨row, ?_, h.1, h.2, rfl⟩
    rw [hRows]
    exact List.mem_singleton_self row
  · rw [if_neg h]
    refine authenticated_eq_none.mpr fun other hMem hPrefix hOpens => ?_
    rw [hRows] at hMem
    obtain rfl := List.mem_singleton.mp hMem
    exact h ⟨hPrefix, hOpens⟩

/-- The row of a made key opens for its raw text until it is revoked. -/
theorem opens_made (hExact : PasswordHasher.Exact) {revoked : List UUID} {draws : Draws}
    {userId : UUID} {label raw : String} :
    Database.Opens raw (revokedRow revoked (madeRow draws userId label)) ↔
      draws.keyId ∉ revoked ∧ raw = rawKey label draws.secret := by
  have hId : (madeRow draws userId label).id = draws.keyId := rfl
  unfold revokedRow Database.Opens
  rw [hId]
  by_cases hRevoked : draws.keyId ∈ revoked
  · rw [if_pos hRevoked]
    refine iff_of_false ?_ fun h => h.1 hRevoked
    rintro ⟨hLive, -⟩
    exact absurd (show (1 : ℤ) = 0 from hLive) (by decide)
  · rw [if_neg hRevoked]
    constructor
    · rintro ⟨-, hVerify⟩
      exact ⟨hRevoked, hExact draws.salt raw (rawKey label draws.secret) hVerify⟩
    · rintro ⟨-, rfl⟩
      exact ⟨rfl, PasswordHasher.verify_hash draws.salt (rawKey label draws.secret)⟩

/-- What a lookup returns once a key was made in an empty table. -/
theorem lookup_made (hExact : PasswordHasher.Exact) {draws : Draws} {userId : UUID}
    {label : String} (hRows : db.keys.rows = [madeRow draws userId label]) (revoked : List UUID)
    (raw : String) :
    (drive Database.respond (final Call.step db (revoked.map .revoke))
      (ApiKeyService.lookup raw)).1 =
        .ok (if draws.keyId ∉ revoked ∧ raw = rawKey label draws.secret then
          some (made draws userId label).stored else none) := by
  have hRow : (final Call.step db (revoked.map .revoke)).keys.rows =
      [revokedRow revoked (madeRow draws userId label)] := by
    rw [revoked_rows, hRows]
    rfl
  rw [drive_lookup, authenticated_single hRow]
  by_cases hOpens : draws.keyId ∉ revoked ∧ raw = rawKey label draws.secret
  · obtain ⟨hLive, rfl⟩ := hOpens
    have hSame : revokedRow revoked (madeRow draws userId label) = madeRow draws userId label :=
      if_neg hLive
    have hFound : (revokedRow revoked (madeRow draws userId label)).keyPrefix =
          keyPrefix (rawKey label draws.secret) ∧
        Database.Opens (rawKey label draws.secret)
          (revokedRow revoked (madeRow draws userId label)) := by
      refine ⟨?_, (opens_made hExact).mpr ⟨hLive, rfl⟩⟩
      rw [hSame]
      rfl
    rw [if_pos hFound, hSame, if_pos ⟨hLive, rfl⟩]
    rfl
  · rw [if_neg hOpens, if_neg]
    rintro ⟨-, h⟩
    exact hOpens ((opens_made hExact).mp h)

theorem authenticates_made (hExact : PasswordHasher.Exact) {draws : Draws} {userId : UUID}
    {label : String} (hRows : db.keys.rows = [madeRow draws userId label]) :
    Authenticates db (made draws userId label) draws.secret ↔ '_' ∉ label.toList := by
  have hLookup := lookup_made hExact hRows
  constructor
  · intro h
    -- the credential opens the key at once, so that it is the raw text
    have hOwn := (hLookup [] _).symm.trans (h.own [])
    rw [if_neg List.not_mem_nil] at hOwn
    split at hOwn
    · rename_i hRaw
      exact keyPrefix_rawKey_iff.mp (joined_injective hRaw.2)
    · simp at hOwn
  · intro hLabel
    have hRaw : joined (made draws userId label).keyPrefix draws.secret =
        rawKey label draws.secret := by
      rw [made_keyPrefix _ _ hLabel]
      rfl
    constructor
    · intro revoked
      rw [hLookup, hRaw]
      by_cases hRevoked : draws.keyId ∈ revoked
      · rw [if_neg (fun h => h.1 hRevoked)]
        exact congrArg Except.ok (if_pos hRevoked).symm
      · rw [if_pos ⟨hRevoked, rfl⟩]
        exact congrArg Except.ok (if_neg hRevoked).symm
    · intro revoked raw hOther
      rw [hRaw] at hOther
      rw [hLookup, if_neg (fun h => hOther h.2)]

/-- **An issued key authenticates.** Where `create` returns a key into an empty table, the
credential that is made of its prefix and its secret is the credential of the key exactly
when the label has no underscore. -/
theorem authenticates_iff (hExact : PasswordHasher.Exact) {userId : UUID} {user : User}
    (hUser : db.userById userId = .ok (some user)) (hEmpty : db.keys.rows = [])
    {draws : Draws} {label : String} {key : ApiKey} {secret : String}
    (hCreate : drive Database.respond db (ApiKeyService.create draws userId label) =
      (.ok (.ok (key, secret)), db')) :
    Authenticates db' key secret ↔ '_' ∉ label.toList := by
  have hStep : (Call.step db (.create draws userId label)).2 = db' := by
    unfold Call.step Call.run
    rw [drive_bind, hCreate]
    rfl
  rcases create_cases hUser draws label with ⟨hCreates, -, -, hRows⟩ | ⟨hRefused, -, -⟩
  · unfold Creates at hCreates
    rw [hCreate] at hCreates
    obtain ⟨rfl, rfl⟩ : key = made draws userId label ∧ secret = draws.secret := by
      simpa using hCreates
    rw [hStep, hEmpty, List.nil_append] at hRows
    exact authenticates_made hExact hRows
  · exact absurd (congrArg Prod.fst hCreate) (hRefused _)

end Calls

/-! ## A label with an underscore -/

def ada : User where
  id := ⟨"u-1"⟩
  username := "ada"
  passwordHash := "x"

def bob : User where
  id := ⟨"u-2"⟩
  username := "bob"
  passwordHash := "y"

/-- Two users, and no keys. -/
def household : Database where
  users :=
    { rows := [.ofUser ada, .ofUser bob]
      keys := by decide
      columns := by decide }

namespace Underscore

local instance : PasswordHasher := plainHasher

local instance : LowerText := plainLower

def draws : Draws where
  now := 1000000000
  keyId := ⟨"k-1"⟩
  secret := "s3c-r3t"
  salt := []

/-- Ada's key, and the database after its create. -/
def issued (label : String) : ApiKey := made draws ada.id label

def after (label : String) : Database :=
  (drive Database.respond household (ApiKeyService.create draws ada.id label)).2

/-- Ada labels her key `my_bot`. What she is handed is `my` and the secret, and the two do
not authenticate. The raw text that was hashed does. -/
theorem my_bot_shut :
    drive Database.respond household (ApiKeyService.create draws ada.id "my_bot") =
        (.ok (.ok (issued "my_bot", "s3c-r3t")), after "my_bot") ∧
      joined (issued "my_bot").keyPrefix "s3c-r3t" = "my_s3c-r3t" ∧
      (drive Database.respond (after "my_bot") (ApiKeyService.lookup "my_s3c-r3t")).1 =
        .ok none ∧
      (drive Database.respond (after "my_bot") (ApiKeyService.lookup "my_bot_s3c-r3t")).1 =
        .ok (some (issued "my_bot").stored) ∧
      ¬ Authenticates (after "my_bot") (issued "my_bot") "s3c-r3t" := by
  have hJoined : joined (issued "my_bot").keyPrefix "s3c-r3t" = "my_s3c-r3t" := by decide +kernel
  have hShut : (drive Database.respond (after "my_bot")
      (ApiKeyService.lookup "my_s3c-r3t")).1 = .ok none := by decide +kernel
  refine ⟨Prod.ext (by decide +kernel) rfl, hJoined, hShut, by decide +kernel, fun h => ?_⟩
  have hOwn := h.own []
  rw [hJoined] at hOwn
  exact absurd (hShut.symm.trans hOwn) (by simp)

theorem plain_authenticates :
    Authenticates (after "my-bot") (issued "my-bot") "s3c-r3t" ↔ '_' ∉ "my-bot".toList := by
  have hAda : household.userById ada.id = .ok (some ada) := rfl
  have hCreate : drive Database.respond household
      (ApiKeyService.create draws ada.id "my-bot") =
        (.ok (.ok (issued "my-bot", "s3c-r3t")), after "my-bot") :=
    Prod.ext (by decide +kernel) rfl
  exact authenticates_iff (fun _ _ _ h => of_decide_eq_true h) hAda rfl hCreate

end Underscore

end TradingAgent.Auth
