import TradingAgent.Auth.ApiKeys

/-!
# API keys of several owners

A sequence of creates and revocations by any users, over one key table. The prefix of a key
is the slug of its label, whoever made it, and a revoked row keeps its prefix.

`undisturbed_iff` says that every create succeeds and every credential opens its own key
until it is revoked exactly when the slugs of the creates are pairwise distinct, are not yet
prefixes of stored keys, and fit their column. So a label that one user has taken is lost
for all others.
-/

namespace TradingAgent.Auth

open Coroutine Coro Table Sequence
open Trading (UUID)
open ApiKeyService (Draws made)

namespace Database

def prefixes (db : Database) : List String := db.keys.rows.map ApiKeyRow.keyPrefix

def keyIds (db : Database) : List UUID := db.keys.rows.map ApiKeyRow.id

end Database

namespace Call

def keyId? : Call → Option UUID
  | .create draws _ _ => some draws.keyId
  | .revoke _ => none

variable [LowerText]

def slug? : Call → Option String
  | .create _ _ label => some (slug label)
  | .revoke _ => none

/-- The columns take the row of the key. -/
def Fits : Call → Prop
  | .create draws _ label => Text 64 (slug label) ∧ FitsInteger (Int.tdiv draws.now 1000000)
  | .revoke _ => True

omit [LowerText] in
/-- A create is called for an existing user, with a label that has no underscore. -/
def Ready (db : Database) : Call → Prop
  | .create _ userId label =>
    (∃ user, db.userById userId = .ok (some user)) ∧ '_' ∉ label.toList
  | .revoke _ => True

end Call

def keyIds (history : List Call) : List UUID := history.filterMap Call.keyId?

/-- The ids that the creates draw are new. -/
structure FreshIds (db : Database) (history : List Call) : Prop where
  distinct : (keyIds history).Nodup
  unused : ∀ keyId ∈ keyIds history, keyId ∉ db.keyIds

section Owners

variable [LowerText]

def slugs (history : List Call) : List String := history.filterMap Call.slug?

/-- Nobody uses a label whose slug is taken, or one that does not fit. -/
structure Apart (db : Database) (history : List Call) : Prop where
  distinct : (slugs history).Nodup
  unused : ∀ text ∈ slugs history, text ∉ db.prefixes
  fits : ∀ call ∈ history, call.Fits

variable [PasswordHasher]

/-- Every create of the sequence succeeds, and from then on its credential opens its key
until the key is revoked. -/
structure Undisturbed (db : Database) (history : List Call) : Prop where
  creates : ∀ before draws userId label after,
    history = before ++ .create draws userId label :: after →
      Creates (final Call.step db before) draws userId label
  resolves : ∀ before draws userId label later after,
    history = before ++ .create draws userId label :: (later ++ after) →
      .revoke draws.keyId ∉ later →
        (drive Database.respond
          (final Call.step db (before ++ .create draws userId label :: later))
          (ApiKeyService.lookup (rawKey label draws.secret))).1 =
            .ok (some (made draws userId label).stored)

/-! ## What a call does to the table -/

variable {db db' : Database} {history : List Call}

omit [LowerText] [PasswordHasher] in
theorem Call.Ready.of_users {call : Call} (h : call.Ready db) (hUsers : db'.users = db.users) :
    call.Ready db' := by
  cases call with
  | revoke keyId => trivial
  | create draws userId label =>
    obtain ⟨⟨user, hUser⟩, hLabel⟩ := h
    refine ⟨⟨user, ?_⟩, hLabel⟩
    unfold Database.userById
    rw [hUsers]
    exact hUser

theorem revoke_prefixes (keyId : UUID) :
    (Call.step db (.revoke keyId)).2.prefixes = db.prefixes :=
  map_kept (ApiKeyRow.revoke_keyPrefix keyId)

theorem revoke_keyIds (keyId : UUID) : (Call.step db (.revoke keyId)).2.keyIds = db.keyIds :=
  map_kept (ApiKeyRow.revoke_id keyId)

omit [LowerText] [PasswordHasher] in
theorem prefixes_append {row : ApiKeyRow} (hRows : db'.keys.rows = db.keys.rows ++ [row]) :
    db'.prefixes = db.prefixes ++ [row.keyPrefix] := by
  unfold Database.prefixes
  rw [hRows, List.map_append, List.map_singleton]

omit [LowerText] [PasswordHasher] in
theorem keyIds_append {row : ApiKeyRow} (hRows : db'.keys.rows = db.keys.rows ++ [row]) :
    db'.keyIds = db.keyIds ++ [row.id] := by
  unfold Database.keyIds
  rw [hRows, List.map_append, List.map_singleton]

/-- A row stays in the table as it is until it is revoked. -/
theorem mem_step {call : Call} (hReady : call.Ready db) {row : ApiKeyRow}
    (hMem : row ∈ db.keys.rows) (hOther : call ≠ .revoke row.id) :
    row ∈ (call.step db).2.keys.rows := by
  cases call with
  | revoke keyId =>
    have hId : row.id ≠ keyId := by
      rintro rfl
      exact hOther rfl
    rw [revoke_rows]
    exact List.mem_map.mpr ⟨row, hMem, if_neg hId⟩
  | create draws userId label =>
    obtain ⟨⟨user, hUser⟩, -⟩ := hReady
    rcases create_cases hUser draws label with ⟨-, -, -, hRows⟩ | ⟨-, -, hSame⟩
    · rw [hRows]
      exact List.mem_append_left _ hMem
    · rw [hSame]
      exact hMem

theorem users_step {call : Call} (hReady : call.Ready db) : (call.step db).2.users = db.users := by
  cases call with
  | revoke keyId => rfl
  | create draws userId label =>
    obtain ⟨⟨user, hUser⟩, -⟩ := hReady
    rcases create_cases hUser draws label with ⟨-, -, hUsers, -⟩ | ⟨-, -, hSame⟩
    · exact hUsers
    · rw [hSame]

/-! ## What a sequence does to the table -/

/-- The table holds what it held, and the keys of all the creates. -/
structure Grown (db : Database) (before : List Call) (db' : Database) : Prop where
  users : db'.users = db.users
  prefixes : db'.prefixes = db.prefixes ++ slugs before
  keyIds : db'.keyIds = db.keyIds ++ keyIds before

/-- A create is taken exactly when its call fits, and its id and its slug are new. -/
theorem takes_iff {draws : Draws} {userId : UUID} {label : String} (hLabel : '_' ∉ label.toList) :
    Takes db (madeRow draws userId label) ↔
      (Call.create draws userId label).Fits ∧ draws.keyId ∉ db.keyIds ∧
        slug label ∉ db.prefixes := by
  have hPrefix : (madeRow draws userId label).keyPrefix = slug label :=
    made_keyPrefix draws userId hLabel
  unfold Takes ApiKeyRow.Fits
  rw [hPrefix]
  rfl

theorem grown_step {before : List Call} (hGrown : Grown db before db') {call : Call}
    (hReady : call.Ready db) (hTaken : ∀ draws userId label, call = .create draws userId label →
      Takes db' (madeRow draws userId label)) : Grown db (before ++ [call]) (call.step db').2 := by
  have hReady' := hReady.of_users hGrown.users
  have hUsers := (users_step hReady').trans hGrown.users
  cases call with
  | revoke keyId =>
    refine ⟨hUsers, ?_, ?_⟩
    · rw [revoke_prefixes, hGrown.prefixes]
      simp [slugs, Call.slug?]
    · rw [revoke_keyIds, hGrown.keyIds]
      simp [keyIds, Call.keyId?]
  | create draws userId label =>
    obtain ⟨⟨user, hUser⟩, hLabel⟩ := hReady'
    have hTakes := hTaken draws userId label rfl
    have hPrefix : (madeRow draws userId label).keyPrefix = slug label :=
      made_keyPrefix draws userId hLabel
    rcases create_cases hUser draws label with ⟨-, -, -, hRows⟩ | ⟨-, hFull, -⟩
    · have hId : (madeRow draws userId label).id = draws.keyId := rfl
      refine ⟨hUsers, ?_, ?_⟩
      · rw [prefixes_append hRows, hGrown.prefixes, hPrefix]
        simp [slugs, Call.slug?]
      · rw [keyIds_append hRows, hGrown.keyIds, hId]
        simp [keyIds, Call.keyId?]
    · exact absurd hTakes hFull

theorem users_final (hReady : ∀ call ∈ history, call.Ready db) :
    (final Call.step db history).users = db.users := by
  refine final_induction (I := fun _ (db' : Database) => db'.users = db.users) rfl ?_
  intro before call after hSplit hUsers
  have hReady' := (hReady call (by simp [hSplit])).of_users hUsers
  exact (users_step hReady').trans hUsers

/-- Where every create is taken, the table grows by the keys of all the creates. -/
theorem grown_final (hReady : ∀ call ∈ history, call.Ready db)
    (hTaken : ∀ before draws userId label after,
      history = before ++ .create draws userId label :: after →
        Grown db before (final Call.step db before) →
          Takes (final Call.step db before) (madeRow draws userId label)) :
    Grown db history (final Call.step db history) := by
  refine final_induction (I := Grown db) ⟨rfl, by simp [slugs], by simp [keyIds]⟩ ?_
  intro before call after hSplit hGrown
  refine grown_step hGrown (hReady call (by simp [hSplit])) ?_
  rintro draws userId label rfl
  exact hTaken before draws userId label after hSplit hGrown

/-- A credential opens its key from the create on until the key is revoked. -/
theorem resolves_after {draws : Draws} {userId : UUID} {label : String} {later : List Call}
    (hReady : (Call.create draws userId label).Ready db) (hLater : ∀ call ∈ later, call.Ready db)
    (hCreates : Creates db draws userId label) (hLive : .revoke draws.keyId ∉ later) :
    (drive Database.respond (final Call.step db (.create draws userId label :: later))
      (ApiKeyService.lookup (rawKey label draws.secret))).1 =
        .ok (some (made draws userId label).stored) := by
  obtain ⟨⟨user, hUser⟩, -⟩ := id hReady
  have hStart : madeRow draws userId label ∈
      (Call.step db (.create draws userId label)).2.keys.rows := by
    rcases create_cases hUser draws label with ⟨-, -, -, hRows⟩ | ⟨hRefused, -⟩
    · rw [hRows]
      exact List.mem_append_right _ (List.mem_singleton_self _)
    · exact absurd hCreates (hRefused _)
  have hKept : (final Call.step db (.create draws userId label :: later)).users = db.users ∧
      madeRow draws userId label ∈
        (final Call.step db (.create draws userId label :: later)).keys.rows := by
    rw [final_cons]
    refine final_induction (I := fun _ (db' : Database) => db'.users = db.users ∧
      madeRow draws userId label ∈ db'.keys.rows) ⟨users_step hReady, hStart⟩ ?_
    rintro before call after hSplit ⟨hUsers, hMem⟩
    have hCall : call ∈ later := by simp [hSplit]
    have hReady' := (hLater call hCall).of_users hUsers
    refine ⟨(users_step hReady').trans hUsers, mem_step hReady' hMem ?_⟩
    rintro rfl
    exact hLive hCall
  rw [drive_lookup]
  refine congrArg Except.ok (authenticated_eq_some.mpr ⟨_, hKept.2, rfl, ⟨rfl, ?_⟩, rfl⟩)
  exact PasswordHasher.verify_hash draws.salt (rawKey label draws.secret)

/-! ## Exactly the sequences with distinct slugs -/

omit [LowerText] [PasswordHasher] in
/-- What is drawn once, and is not among the used values, is new when it is drawn. -/
theorem not_mem_before {α : Type} {used drawn before after : List α} {a : α}
    (hSplit : drawn = before ++ a :: after) (hDistinct : drawn.Nodup)
    (hUnused : ∀ b ∈ drawn, b ∉ used) : a ∉ used ++ before := by
  intro hMem
  rw [hSplit] at hDistinct
  rcases List.mem_append.mp hMem with hUsed | hBefore
  · exact hUnused a (by simp [hSplit]) hUsed
  · exact (List.nodup_append.mp hDistinct).2.2 a hBefore a List.mem_cons_self rfl

/-- In a sequence that keeps the slugs apart, a create finds its id and its slug unused. -/
theorem takes_of_apart (hReady : ∀ call ∈ history, call.Ready db) (hFresh : FreshIds db history)
    (hApart : Apart db history) {before : List Call} {draws : Draws} {userId : UUID}
    {label : String} {after : List Call}
    (hSplit : history = before ++ .create draws userId label :: after)
    (hGrown : Grown db before db') : Takes db' (madeRow draws userId label) := by
  have hCall : .create draws userId label ∈ history := by simp [hSplit]
  have hSlugs : slugs history = slugs before ++ slug label :: slugs after := by
    rw [hSplit]
    simp [slugs, Call.slug?]
  have hIds : keyIds history = keyIds before ++ draws.keyId :: keyIds after := by
    rw [hSplit]
    simp [keyIds, Call.keyId?]
  rw [takes_iff (hReady _ hCall).2, hGrown.keyIds, hGrown.prefixes]
  refine ⟨hApart.fits _ hCall, ?_, ?_⟩
  · exact not_mem_before hIds hFresh.distinct hFresh.unused
  · exact not_mem_before hSlugs hApart.distinct hApart.unused

/-- So every beginning of it adds the keys of all its creates. -/
theorem grown_before (hReady : ∀ call ∈ history, call.Ready db) (hFresh : FreshIds db history)
    (hApart : Apart db history) {before after : List Call} (hSplit : history = before ++ after) :
    Grown db before (final Call.step db before) := by
  refine grown_final (fun call hCall => hReady call ?_) ?_
  · rw [hSplit]
    exact List.mem_append_left _ hCall
  · intro earlier draws userId label between hBefore hGrown
    have hWhole : history = earlier ++ .create draws userId label :: (between ++ after) := by
      simp [hSplit, hBefore]
    exact takes_of_apart hReady hFresh hApart hWhole hGrown

/-- Where every create succeeds, the slugs were apart: the table keeps all of them. -/
theorem apart_of_creates (hReady : ∀ call ∈ history, call.Ready db)
    (hCreates : ∀ before draws userId label after,
      history = before ++ .create draws userId label :: after →
        Creates (final Call.step db before) draws userId label) : Apart db history := by
  have hTakes : ∀ before draws userId label after,
      history = before ++ .create draws userId label :: after →
        Takes (final Call.step db before) (madeRow draws userId label) := by
    intro before draws userId label after hSplit
    have hUsers : (final Call.step db before).users = db.users :=
      users_final fun call hBefore => hReady call (by simp [hSplit, hBefore])
    have hCall : .create draws userId label ∈ history := by simp [hSplit]
    obtain ⟨⟨user, hUser⟩, -⟩ := (hReady _ hCall).of_users hUsers
    exact (creates_iff hUser).mp (hCreates before draws userId label after hSplit)
  have hGrown := grown_final hReady fun before draws userId label after hSplit _ =>
    hTakes before draws userId label after hSplit
  have hNodup : (db.prefixes ++ slugs history).Nodup := by
    rw [← hGrown.prefixes]
    exact (final Call.step db history).keys.columns
  obtain ⟨-, hDistinct, hApart⟩ := List.nodup_append.mp hNodup
  refine ⟨hDistinct, fun text hSlug hStored => hApart text hStored text hSlug rfl, ?_⟩
  intro call hCall
  cases call with
  | revoke keyId => trivial
  | create draws userId label =>
    obtain ⟨before, after, hSplit⟩ := List.append_of_mem hCall
    exact ((takes_iff (hReady _ hCall).2).mp (hTakes _ _ _ _ _ hSplit)).1

/-- **Keys of different owners.** Over any creates and revocations by existing users with
labels free of underscores, every create succeeds and every credential opens its own key
until it is revoked, exactly when the slugs of the creates are distinct, unused, and fit. -/
theorem undisturbed_iff (hReady : ∀ call ∈ history, call.Ready db)
    (hFresh : FreshIds db history) : Undisturbed db history ↔ Apart db history := by
  constructor
  · intro h
    exact apart_of_creates hReady h.creates
  · intro hApart
    have hCreates : ∀ before draws userId label after,
        history = before ++ .create draws userId label :: after →
          Creates (final Call.step db before) draws userId label := by
      intro before draws userId label after hSplit
      have hGrown := grown_before hReady hFresh hApart hSplit
      have hCall : .create draws userId label ∈ history := by simp [hSplit]
      obtain ⟨⟨user, hUser⟩, -⟩ := (hReady _ hCall).of_users hGrown.users
      exact (creates_iff hUser).mpr (takes_of_apart hReady hFresh hApart hSplit hGrown)
    refine ⟨hCreates, ?_⟩
    intro before draws userId label later after hSplit hLive
    have hGrown := grown_before hReady hFresh hApart hSplit
    rw [final_append]
    refine resolves_after ?_ ?_ (hCreates _ _ _ _ _ hSplit) hLive
    · exact (hReady _ (by simp [hSplit])).of_users hGrown.users
    · intro call hCall
      exact (hReady call (by simp [hSplit, hCall])).of_users hGrown.users

end Owners

/-! ## Two users with one label -/

namespace Neighbours

local instance : PasswordHasher := plainHasher

local instance : LowerText := plainLower

def adaDraws : Draws where
  now := 1000000000
  keyId := ⟨"k-1"⟩
  secret := "s1"
  salt := []

def bobDraws : Draws where
  now := 2000000000
  keyId := ⟨"k-2"⟩
  secret := "s2"
  salt := []

/-- Ada makes a key and revokes it; then Bob makes one with a label. -/
def history (label : String) : List Call :=
  [.create adaDraws ada.id "default", .revoke ⟨"k-1"⟩, .create bobDraws bob.id label]

/-- The label that Ada has used, and given up, is lost for Bob: his create raises. -/
theorem bob_disturbed :
    (drive Database.respond
        (final Call.step household [.create adaDraws ada.id "default", .revoke ⟨"k-1"⟩])
        (ApiKeyService.create bobDraws bob.id "default")).1 = .error (.other "IntegrityError") ∧
      ¬ Undisturbed household (history "default") := by
  have hRaised : (drive Database.respond
      (final Call.step household [.create adaDraws ada.id "default", .revoke ⟨"k-1"⟩])
      (ApiKeyService.create bobDraws bob.id "default")).1 = .error (.other "IntegrityError") := by
    decide +kernel
  refine ⟨hRaised, fun h => ?_⟩
  have hBob := h.creates [.create adaDraws ada.id "default", .revoke ⟨"k-1"⟩] bobDraws bob.id
    "default" [] rfl
  unfold Creates at hBob
  rw [hRaised] at hBob
  cases hBob

theorem bob_undisturbed_iff :
    Undisturbed household (history "bobs") ↔ Apart household (history "bobs") := by
  refine undisturbed_iff ?_ ⟨by decide, by decide⟩
  intro call hCall
  simp only [history, List.mem_cons, List.not_mem_nil, or_false] at hCall
  rcases hCall with rfl | rfl | rfl
  · exact ⟨⟨ada, rfl⟩, by decide⟩
  · trivial
  · exact ⟨⟨bob, rfl⟩, by decide⟩

end Neighbours

end TradingAgent.Auth
