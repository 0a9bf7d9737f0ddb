import TradingAgent.Auth.Services
import TradingAgent.Coroutine.Pool

/-!
# Concurrent registrations

Any number of calls of `register` run interleaved over one user table. A call looks its name up,
and saves a user if the name is free. Between the two awaited operations others may do the same.
Then the unique column admits one of the users, and the other calls raise what the store raises,
instead of returning `user_exists`.

A name is decided cleanly exactly if no call looks it up while another call is about to save it, and
if the column takes it (`decided_iff`).
-/

namespace TradingAgent.Auth

open Coroutine Coro Table
open Trading (UUID)

namespace Database

def names (db : Database) : List String := db.users.rows.map UserRow.username

def userIds (db : Database) : List UUID := db.users.rows.map UserRow.id

/-- Every stored row is read as a user. -/
def Readable (db : Database) : Prop := ∀ row ∈ db.users.rows, ∃ user, row.toDomain = .ok user

end Database

/-- A call of `register`, with the id and the salt that it draws. -/
structure Registration where
  userId : UUID
  salt : List UInt8 := []
  username : String
  password : String
  role : Role := .viewer
  deriving DecidableEq, Repr

namespace Registration

/-- How far a call has come. -/
inductive Phase
  | asking
  | saving
  | created
  | refused
  | raised (e : Exn)
  deriving DecidableEq, Repr

open Phase

variable [PasswordHasher] [LowerText] (r : Registration)

omit [PasswordHasher] in
/-- The normalized name. -/
def name : String := normalize r.username

/-- The user that the call makes. -/
def user : User := newUser r.userId r.name (PasswordHasher.hash r.salt r.password) r.role

def start : Async (Result User DomainError) :=
  AuthService.register r.userId r.salt r.username r.password r.role

/-- What is left of a call. -/
def rest : Phase → Async (Result User DomainError)
  | asking => r.start
  | saving => do
    perform (.saveUser r.user)
    return .ok r.user
  | created => ret (.ok r.user)
  | refused => ret (.err (.auth "user_exists"))
  | raised e => raise e

/-- What a step of a call does: a lookup, or a save. -/
inductive Turn (db : Database) : Phase → Phase → Database → Prop
  | taken (hTaken : r.name ∈ db.names) : Turn db asking refused db
  | free (hFree : r.name ∉ db.names) : Turn db asking saving db
  | created {db' : Database} (hFits : Text 64 r.name) (hId : r.userId ∉ db.userIds)
      (hFree : r.name ∉ db.names) (hRows : db'.users.rows = db.users.rows ++ [.ofUser r.user]) :
      Turn db saving created db'
  | raised (e : Exn)
      (hRefused : ¬(Text 64 r.name ∧ r.userId ∉ db.userIds ∧ r.name ∉ db.names)) :
      Turn db saving (raised e) db

variable {r} {db db' : Database}

/-- The password is long enough. -/
def Long (r : Registration) : Prop := minPasswordLen ≤ r.password.length

instance (r : Registration) : Decidable r.Long := inferInstanceAs (Decidable (_ ≤ _))

/-- Where the answers of the two operations lead. -/
def looked : Except Exn (Option User) → Phase
  | .ok (some _) => refused
  | .ok none => saving
  | .error e => raised e

def saved : Except Exn Unit → Phase
  | .ok () => created
  | .error e => raised e

theorem rest_asking (hLong : r.Long) :
    r.rest asking = await (Op.getByUsername r.name) fun found => r.rest (looked found) := by
  show AuthService.register r.userId r.salt r.username r.password r.role = _
  unfold AuthService.register
  rw [if_neg (not_lt.mpr hLong)]
  refine congrArg (await (Op.getByUsername r.name)) (funext fun found => ?_)
  cases found with
  | error e => rfl
  | ok stored =>
    cases stored with
    | none => rfl
    | some user => rfl

theorem rest_saving :
    r.rest saving = await (Op.saveUser r.user) fun answer => r.rest (saved answer) := by
  refine congrArg (await (Op.saveUser r.user)) (funext fun answer => ?_)
  cases answer with
  | error e => rfl
  | ok u => rfl

theorem pending_saving : (r.rest saving).pending = some (.saveUser r.user) := by
  rw [rest_saving]
  rfl

theorem pending_asking (hLong : r.Long) :
    (r.rest asking).pending = some (.getByUsername r.name) := by
  rw [rest_asking hLong]
  rfl

theorem phase_of_pending (hLong : r.Long) {q : Phase} {op : Op}
    (h : (r.rest q).pending = some op) :
    q = asking ∧ op = .getByUsername r.name ∨ q = saving ∧ op = .saveUser r.user := by
  cases q with
  | asking =>
    rw [pending_asking hLong] at h
    exact .inl ⟨rfl, (Option.some.inj h).symm⟩
  | saving =>
    rw [pending_saving] at h
    exact .inr ⟨rfl, (Option.some.inj h).symm⟩
  | created => cases h
  | refused => cases h
  | raised e => cases h

section Append

variable (hRows : db'.users.rows = db.users.rows ++ [.ofUser r.user])

include hRows

theorem names_append : db'.names = db.names ++ [r.name] := by
  unfold Database.names
  rw [hRows, List.map_append]
  rfl

theorem userIds_append : db'.userIds = db.userIds ++ [r.userId] := by
  unfold Database.userIds
  rw [hRows, List.map_append]
  rfl

theorem readable_append (h : db.Readable) : db'.Readable := by
  intro row hRow
  rw [hRows] at hRow
  rcases List.mem_append.mp hRow with hRow | hRow
  · exact h row hRow
  · rw [List.mem_singleton.mp hRow]
    refine ⟨r.user, ?_⟩
    simp [UserRow.toDomain, UserRow.ofUser, user, newUser]

end Append

/-- A lookup says whether the name is taken. -/
theorem turn_looked (hReadable : db.Readable) :
    Turn r db asking (looked (db.respond (.getByUsername r.name)).1) db := by
  have hAnswer : (db.respond (.getByUsername r.name)).1 =
      Database.foundUser (db.users.findColumn r.name) := rfl
  rw [hAnswer]
  cases hFound : db.users.findColumn r.name with
  | none =>
    refine .free fun hTaken => ?_
    obtain ⟨row, hRow, hName⟩ := List.mem_map.mp hTaken
    rw [Unique.findColumn_eq_some.mpr ⟨hRow, hName⟩] at hFound
    cases hFound
  | some row =>
    obtain ⟨hRow, hName⟩ := Unique.findColumn_eq_some.mp hFound
    obtain ⟨user, hUser⟩ := hReadable row hRow
    have hLooked : looked (Database.foundUser (some row)) = refused := by
      show looked (row.toDomain.map some) = refused
      rw [hUser]
      rfl
    rw [hLooked]
    exact .taken (List.mem_map.mpr ⟨row, hRow, hName⟩)

/-- A save adds the row, or raises. -/
theorem turn_saved :
    Turn r db saving (saved (db.respond (.saveUser r.user)).1)
      (db.respond (.saveUser r.user)).2 := by
  have hRole : Text 16 r.role.value := by
    cases r.role <;> decide
  cases hSave : save db.users (.ofUser r.user) (UserRow.ofUser r.user).Fits with
  | ok users =>
    have hAnswer : db.respond (.saveUser r.user) = (.ok (), { db with users := users }) := by
      unfold Database.respond
      dsimp only
      rw [hSave]
    obtain ⟨hFits, ⟨hId, hFree⟩, hRows⟩ := save_eq_ok.mp hSave
    rw [hAnswer]
    exact .created hFits.1 hId hFree hRows
  | error e =>
    have hAnswer : db.respond (.saveUser r.user) = (.error e, db) := by
      unfold Database.respond
      dsimp only
      rw [hSave]
    rw [hAnswer]
    refine .raised e fun ⟨hFits, hId, hFree⟩ => ?_
    exact save_eq_error hSave ⟨⟨hFits, hRole⟩, hId, hFree⟩

/-- The call has found its name free. -/
def Phase.Ahead : Phase → Prop
  | saving | created | raised _ => True
  | asking | refused => False

theorem Turn.ahead {q q' : Phase} (hTurn : Turn r db q q' db') (hAhead : q.Ahead) : q'.Ahead := by
  cases hTurn with
  | taken => exact absurd hAhead id
  | free => exact absurd hAhead id
  | created => trivial
  | raised => trivial

end Registration

/-! ## All calls together -/

namespace Registrations

open Registration Registration.Phase

variable {ι : Type} [DecidableEq ι] [PasswordHasher] [LowerText] {calls : ι → Registration}

/-- The user table, and what is left of each call. -/
abbrev AuthConfig (ι : Type) := Config Database Exn Ret fun _ : ι => Result User DomainError

abbrev AuthLog (ι : Type) := Log Database Exn Ret fun _ : ι => Result User DomainError

def Phased (calls : ι → Registration) (p : ι → Phase) (c : AuthConfig ι) : Prop :=
  ∀ i, c.threads i = (calls i).rest (p i)

/-- A step takes one call into its next phase. -/
theorem step_turn {p : ι → Phase} {c c' : AuthConfig ι} {e : Event Exn Ret ι}
    (hLong : ∀ i, (calls i).Long) (hPhased : Phased calls p c) (hReadable : c.state.Readable)
    (hStep : Step (answered Database.respond) c e c') :
    (c.threads e.thread).pending = some e.op ∧
      ∃ q, Turn (calls e.thread) c.state (p e.thread) q c'.state ∧
        Phased calls (Function.update p e.thread q) c' := by
  cases hStep with
  | @mk i op resume r s' hThread hAnswer =>
    refine ⟨by rw [hThread]; rfl, ?_⟩
    have hOthers {q : Phase} (hRest : resume r = (calls i).rest q) :
        Phased calls (Function.update p i q)
          ⟨s', Function.update c.threads i (resume r)⟩ := by
      intro j
      have hThreads : c.threads = fun k => (calls k).rest (p k) := funext hPhased
      rw [Function.apply_update fun k => (calls k).rest, ← hThreads, hRest]
    have hRest := (hPhased i).symm.trans hThread
    have hPending : ((calls i).rest (p i)).pending = some op := by
      rw [hRest]
      rfl
    rcases phase_of_pending (hLong i) hPending with ⟨hPhase, rfl⟩ | ⟨hPhase, rfl⟩
    · rw [hPhase, rest_asking (hLong i)] at hRest
      cases hRest
      obtain ⟨rfl, rfl⟩ := Prod.mk.inj hAnswer
      rw [hPhase]
      exact ⟨_, turn_looked hReadable, hOthers rfl⟩
    · rw [hPhase, rest_saving] at hRest
      cases hRest
      obtain ⟨rfl, rfl⟩ := Prod.mk.inj hAnswer
      rw [hPhase]
      exact ⟨_, turn_saved, hOthers rfl⟩

/-! ### What the phases say about the table -/

/-- The table holds the users of `db` and those of the calls that have created one. -/
structure Registered (db : Database) (calls : ι → Registration) (p : ι → Phase) (s : Database) :
    Prop where
  readable : s.Readable
  names : ∀ text, text ∈ s.names ↔ text ∈ db.names ∨ ∃ i, p i = created ∧ (calls i).name = text
  ids : ∀ id, id ∈ s.userIds ↔ id ∈ db.userIds ∨ ∃ i, p i = created ∧ (calls i).userId = id
  new : ∀ i, (p i).Ahead → (calls i).name ∉ db.names
  fits : ∀ i, p i = created → Text 64 (calls i).name
  one : ∀ i j, p i = created → p j = created → (calls i).name = (calls j).name → i = j
  taken : ∀ i, p i = refused → (calls i).name ∈ s.names

namespace Registered

variable {db s s' : Database} {p : ι → Phase}

omit [PasswordHasher] in
/-- A turn that creates no user. -/
theorem kept (h : Registered db calls p s) {k : ι} {q : Phase} (hOld : p k ≠ created)
    (hNew : q ≠ created) (hAhead : q.Ahead → (calls k).name ∉ db.names)
    (hTaken : q = refused → (calls k).name ∈ s.names) :
    Registered db calls (Function.update p k q) s := by
  have hCreated (i : ι) : Function.update p k q i = created ↔ p i = created :=
    update_eq_iff_of_ne hOld hNew i
  have hAheads : ∀ i, (Function.update p k q i).Ahead → (calls i).name ∉ db.names := by
    rw [Function.forall_update_iff p fun i q => q.Ahead → (calls i).name ∉ db.names]
    exact ⟨hAhead, fun i _ => h.new i⟩
  have hTakens : ∀ i, Function.update p k q i = refused → (calls i).name ∈ s.names := by
    rw [Function.forall_update_iff p fun i q => q = refused → (calls i).name ∈ s.names]
    exact ⟨hTaken, fun i _ => h.taken i⟩
  refine ⟨h.readable, ?_, ?_, hAheads, ?_, ?_, hTakens⟩
  · simpa only [hCreated] using h.names
  · simpa only [hCreated] using h.ids
  · simpa only [hCreated] using h.fits
  · simpa only [hCreated] using h.one

/-- A turn that creates a user. -/
theorem grown (h : Registered db calls p s) {k : ι} (hSaving : p k = saving)
    (hFits : Text 64 (calls k).name) (hFree : (calls k).name ∉ s.names)
    (hRows : s'.users.rows = s.users.rows ++ [.ofUser (calls k).user]) :
    Registered db calls (Function.update p k created) s' := by
  have hCreated (i : ι) : Function.update p k created i = created ↔ i = k ∨ p i = created :=
    update_eq_new_iff
  have hNames := names_append hRows
  have hIds := userIds_append hRows
  have hAdded {B : Type} (f : ι → B) (b : B) :
      (∃ i, Function.update p k created i = created ∧ f i = b) ↔
        (∃ i, p i = created ∧ f i = b) ∨ b = f k := by
    simp only [hCreated, or_and_right, exists_or, exists_eq_left]
    rw [or_comm, eq_comm (a := f k)]
  have hFirst : ∀ i, p i = created → (calls i).name ≠ (calls k).name := fun i hi hSame =>
    hFree ((h.names _).mpr (.inr ⟨i, hi, hSame⟩))
  have hAheads : ∀ i, (Function.update p k created i).Ahead → (calls i).name ∉ db.names := by
    rw [Function.forall_update_iff p fun i q => q.Ahead → (calls i).name ∉ db.names]
    exact ⟨fun _ => h.new k (by rw [hSaving]; trivial), fun i _ => h.new i⟩
  refine ⟨readable_append hRows h.readable, fun text => ?_, fun id => ?_, hAheads, fun i hi => ?_,
    fun i j hi hj hSame => ?_, fun i hi => ?_⟩
  · rw [hNames, List.mem_append, h.names, List.mem_singleton, hAdded, or_assoc]
  · rw [hIds, List.mem_append, h.ids, List.mem_singleton, hAdded, or_assoc]
  · rcases (hCreated i).mp hi with hNew | hOld
    · rw [hNew]
      exact hFits
    · exact h.fits i hOld
  · rcases (hCreated i).mp hi with hiNew | hiOld
    · rcases (hCreated j).mp hj with hjNew | hjOld
      · exact hiNew.trans hjNew.symm
      · rw [hiNew] at hSame
        exact absurd hSame.symm (hFirst j hjOld)
    · rcases (hCreated j).mp hj with hjNew | hjOld
      · rw [hjNew] at hSame
        exact absurd hSame (hFirst i hiOld)
      · exact h.one i j hiOld hjOld hSame
  · have hOld : p i = refused := (eq_of_update_eq hi (by simp)).2
    rw [hNames]
    exact List.mem_append_left _ (h.taken i hOld)

theorem turn (h : Registered db calls p s) {k : ι} {q : Phase}
    (hTurn : Turn (calls k) s (p k) q s') :
    Registered db calls (Function.update p k q) s' := by
  generalize hOld : p k = old at hTurn
  cases hTurn with
  | taken hTaken =>
    refine h.kept (by simp [hOld]) (by simp) (fun hAhead => absurd hAhead id) fun _ => hTaken
  | free hFree =>
    refine h.kept (by simp [hOld]) (by simp) (fun _ hTaken => hFree ?_) (by simp)
    exact (h.names _).mpr (.inl hTaken)
  | created hFits hId hFree hRows => exact h.grown hOld hFits hFree hRows
  | raised e hRefused =>
    exact h.kept (by simp [hOld]) (by simp) (fun _ => h.new k (by rw [hOld]; trivial)) (by simp)

end Registered

omit [DecidableEq ι] [PasswordHasher] in
theorem registered_start {db : Database} (hReadable : db.Readable) :
    Registered db calls (fun _ => asking) db where
  readable := hReadable
  names text := by simp
  ids id := by simp
  new i hi := absurd hi id
  fits i hi := by cases hi
  one i j hi := by cases hi
  taken i hi := by cases hi

/-- In every run the calls go from phase to phase, and one that has found its name free stays
ahead. -/
theorem registered_run {db : Database} {p₀ : ι → Phase} {c₀ c : AuthConfig ι} {log : AuthLog ι}
    (hLong : ∀ i, (calls i).Long) (hPhased : Phased calls p₀ c₀)
    (hStart : Registered db calls p₀ c₀.state) (hRun : Run (answered Database.respond) c₀ log c) :
    ∃ p, Phased calls p c ∧ Registered db calls p c.state ∧
      ∀ i, (p₀ i).Ahead → (p i).Ahead := by
  refine hRun.invariant (I := fun _ c => ∃ p, Phased calls p c ∧ Registered db calls p c.state ∧
    ∀ i, (p₀ i).Ahead → (p i).Ahead) ⟨p₀, hPhased, hStart, fun _ => id⟩ ?_
  rintro log d e d' ⟨p, hBefore, hRegistered, hAhead⟩ hStep
  obtain ⟨-, q, hTurn, hAfter⟩ := step_turn hLong hBefore hRegistered.readable hStep
  refine ⟨_, hAfter, hRegistered.turn hTurn, ?_⟩
  rw [Function.forall_update_iff p fun i q => (p₀ i).Ahead → q.Ahead]
  exact ⟨fun hi => hTurn.ahead (hAhead _ hi), fun i _ => hAhead i⟩

/-! ## Overlapping calls -/

/-- The lookup of a name that another call has found free, and is about to save. -/
def Overlaps (d : AuthConfig ι) (e : Event Exn Ret ι) : Prop :=
  ∃ j user, j ≠ e.thread ∧ (d.threads j).pending = some (.saveUser user) ∧
    e.op = .getByUsername user.username

def Apart (log : AuthLog ι) : Prop := ∀ s ∈ log, ¬Overlaps s.1 s.2

/-- Each name has one call at most that is about to save it, and is free until then. -/
structure Calm (calls : ι → Registration) (p : ι → Phase) (s : Database) : Prop where
  unraised : ∀ i e, p i ≠ raised e
  free : ∀ i, p i = saving → (calls i).name ∉ s.names
  alone : ∀ i j, p i = saving → p j = saving → (calls i).name = (calls j).name → i = j

omit [DecidableEq ι] in
/-- A call that looks its name up apart from the others finds nobody about to save it. -/
theorem nobody_saving {p : ι → Phase} {d : AuthConfig ι} {e : Event Exn Ret ι}
    (hPhased : Phased calls p d) (hLong : ∀ i, (calls i).Long)
    (hPending : (d.threads e.thread).pending = some e.op) (hApart : ¬Overlaps d e)
    (hAsking : p e.thread = asking) {j : ι} (hSaving : p j = saving) :
    (calls j).name ≠ (calls e.thread).name := by
  intro hSame
  refine hApart ⟨j, (calls j).user, ?_, ?_, ?_⟩
  · rintro rfl
    rw [hAsking] at hSaving
    cases hSaving
  · rw [hPhased j, hSaving]
    exact pending_saving
  · rw [hPhased, hAsking, pending_asking (hLong _)] at hPending
    show e.op = .getByUsername (calls j).name
    rw [hSame]
    exact (Option.some.inj hPending).symm

namespace Calm

variable {db s s' : Database} {p : ι → Phase} {k : ι} {q : Phase}

omit [PasswordHasher] in
theorem unraised_update (h : Calm calls p s) (hReturned : ∀ e, q ≠ raised e) :
    ∀ i e, Function.update p k q i ≠ raised e := by
  rw [Function.forall_update_iff p fun _ q => ∀ e, q ≠ raised e]
  exact ⟨hReturned, fun i _ => h.unraised i⟩

omit [PasswordHasher] in
/-- A call finds its name free, and nobody about to save it. -/
theorem looked (h : Calm calls p s) (hFree : (calls k).name ∉ s.names)
    (hNobody : ∀ j, p j = saving → (calls j).name ≠ (calls k).name) :
    Calm calls (Function.update p k saving) s := by
  have hSaving {i : ι} (hi : Function.update p k saving i = saving) : i = k ∨ p i = saving :=
    update_eq_new_iff.mp hi
  refine ⟨h.unraised_update (by simp), fun i hi => ?_, fun i j hi hj hSame => ?_⟩
  · rcases hSaving hi with rfl | hi
    · exact hFree
    · exact h.free i hi
  · rcases hSaving hi with hi | hi
    · rcases hSaving hj with hj | hj
      · exact hi.trans hj.symm
      · rw [hi] at hSame
        exact absurd hSame.symm (hNobody j hj)
    · rcases hSaving hj with hj | hj
      · rw [hj] at hSame
        exact absurd hSame (hNobody i hi)
      · exact h.alone i j hi hj hSame

omit [PasswordHasher] in
/-- A call saves a name that no other call is about to save. -/
theorem saved (h : Calm calls p s) (hOld : p k = saving)
    (hNames : s'.names = s.names ++ [(calls k).name]) :
    Calm calls (Function.update p k created) s' := by
  have hSaving {i : ι} (hi : Function.update p k created i = saving) : i ≠ k ∧ p i = saving :=
    eq_of_update_eq hi (by simp)
  refine ⟨h.unraised_update (by simp), fun i hi hTaken => ?_, fun i j hi hj =>
    h.alone i j (hSaving hi).2 (hSaving hj).2⟩
  obtain ⟨hik, hi⟩ := hSaving hi
  rw [hNames, List.mem_append] at hTaken
  rcases hTaken with hTaken | hTaken
  · exact h.free i hi hTaken
  · exact hik (h.alone i k hi hOld (List.mem_singleton.mp hTaken))

/-- A turn keeps the calm, if nobody is about to save a name that is looked up. -/
theorem turn (h : Calm calls p s) (hRegistered : Registered db calls p s)
    (hInjective : Function.Injective fun i => (calls i).userId)
    (hFresh : ∀ i, (calls i).userId ∉ db.userIds)
    (hFits : ∀ i, (calls i).name ∉ db.names → Text 64 (calls i).name)
    (hNobody : p k = asking → ∀ j, p j = saving → (calls j).name ≠ (calls k).name)
    (hTurn : Turn (calls k) s (p k) q s') : Calm calls (Function.update p k q) s' := by
  generalize hOld : p k = old at hTurn hNobody
  cases hTurn with
  | taken hTaken =>
    have hSaving {i : ι} (hi : Function.update p k refused i = saving) : p i = saving :=
      (eq_of_update_eq hi (by simp)).2
    exact ⟨h.unraised_update (by simp), fun i hi => h.free i (hSaving hi), fun i j hi hj =>
      h.alone i j (hSaving hi) (hSaving hj)⟩
  | free hFree => exact h.looked hFree (hNobody rfl)
  | created hFit hId hFree hRows => exact h.saved hOld (names_append hRows)
  | raised e hRefused =>
    -- the name fits and is free, and the id is new
    refine absurd ⟨?_, ?_, ?_⟩ hRefused
    · exact hFits k (hRegistered.new k (by rw [hOld]; trivial))
    · intro hTaken
      rcases (hRegistered.ids _).mp hTaken with hStored | ⟨i, hi, hSame⟩
      · exact hFresh k hStored
      · rw [hInjective hSame, hOld] at hi
        cases hi
    · exact h.free k hOld

end Calm

/-! ## Exactly the runs without an overlap -/

/-- The calls have long passwords, and draw new ids. -/
structure Ready (db : Database) (calls : ι → Registration) : Prop where
  readable : db.Readable
  long : ∀ i, (calls i).Long
  injective : Function.Injective fun i => (calls i).userId
  fresh : ∀ i, (calls i).userId ∉ db.userIds

def opened (db : Database) (calls : ι → Registration) : AuthConfig ι where
  state := db
  threads i := (calls i).start

def Succeeds (calls : ι → Registration) (c : AuthConfig ι) (i : ι) : Prop :=
  c.threads i = ret (.ok (calls i).user)

/-- Users have distinct names, one of the calls for a new name succeeds, and the others find that
the user exists. -/
structure Decided (db : Database) (calls : ι → Registration) (c : AuthConfig ι) : Prop where
  unique : c.state.names.Nodup
  one : ∀ i, (calls i).name ∉ db.names →
    ∃! j, (calls j).name = (calls i).name ∧ Succeeds calls c j
  others : ∀ i, (calls i).name ∉ db.names ∧ Succeeds calls c i ∨
    c.threads i = ret (.err (.auth "user_exists"))

section Runs

variable {db : Database} {c : AuthConfig ι} {log : AuthLog ι}

omit [DecidableEq ι] in
theorem opened_phased : Phased calls (fun _ => asking) (opened db calls) := fun _ => rfl

theorem registered_opened (hReady : Ready db calls)
    (hRun : Run (answered Database.respond) (opened db calls) log c) :
    ∃ p, Phased calls p c ∧ Registered db calls p c.state := by
  obtain ⟨p, hPhased, hRegistered, -⟩ :=
    registered_run hReady.long opened_phased (registered_start hReady.readable) hRun
  exact ⟨p, hPhased, hRegistered⟩

theorem calm_run (hReady : Ready db calls)
    (hFits : ∀ i, (calls i).name ∉ db.names → Text 64 (calls i).name)
    (hRun : Run (answered Database.respond) (opened db calls) log c) (hApart : Apart log) :
    ∃ p, Phased calls p c ∧ Registered db calls p c.state ∧ Calm calls p c.state := by
  refine hRun.invariant_of_guard (I := fun _ c => ∃ p, Phased calls p c ∧
    Registered db calls p c.state ∧ Calm calls p c.state) (G := fun _ d e => ¬Overlaps d e) ?_ ?_ ?_
  · rintro before d e after rfl
    exact hApart (d, e) (by simp)
  · refine ⟨fun _ => asking, opened_phased, registered_start hReady.readable, ?_⟩
    exact ⟨by simp, by simp, by simp⟩
  · rintro log d e d' ⟨p, hPhased, hRegistered, hCalm⟩ hNone hStep
    obtain ⟨hPending, q, hTurn, hAfter⟩ :=
      step_turn hReady.long hPhased hRegistered.readable hStep
    refine ⟨_, hAfter, hRegistered.turn hTurn, ?_⟩
    refine hCalm.turn hRegistered hReady.injective hReady.fresh hFits ?_ hTurn
    intro hAsking j hSaving
    exact nobody_saving hPhased hReady.long hPending hNone hAsking hSaving

omit [DecidableEq ι] in
/-- A call that awaits nothing has ended. -/
theorem ended_of_pending {p : ι → Phase} (hLong : ∀ i, (calls i).Long) (hPhased : Phased calls p c)
    {i : ι} (hEnded : (c.threads i).pending = none) :
    p i = created ∨ p i = refused ∨ ∃ e, p i = raised e := by
  rw [hPhased i] at hEnded
  cases hPhase : p i with
  | asking =>
    rw [hPhase, pending_asking (hLong i)] at hEnded
    cases hEnded
  | saving =>
    rw [hPhase, pending_saving] at hEnded
    cases hEnded
  | created => exact .inl rfl
  | refused => exact .inr (.inl rfl)
  | raised e => exact .inr (.inr ⟨e, rfl⟩)

omit [DecidableEq ι] in
theorem succeeds_iff {p : ι → Phase} (hLong : ∀ i, (calls i).Long) (hPhased : Phased calls p c)
    {i : ι} (hEnded : (c.threads i).pending = none) : Succeeds calls c i ↔ p i = created := by
  unfold Succeeds
  rw [hPhased i]
  rcases ended_of_pending hLong hPhased hEnded with hPhase | hPhase | ⟨e, hPhase⟩
  · simp [hPhase, rest]
  · simp [hPhase, rest]
  · simp [hPhase, rest]

omit [DecidableEq ι] in
theorem decided_of_calm {p : ι → Phase} (hReady : Ready db calls) (hPhased : Phased calls p c)
    (hRegistered : Registered db calls p c.state) (hCalm : Calm calls p c.state)
    (hEnded : ∀ i, (c.threads i).pending = none) : Decided db calls c := by
  have hSucceeds (i : ι) : Succeeds calls c i ↔ p i = created :=
    succeeds_iff hReady.long hPhased (hEnded i)
  refine ⟨c.state.users.columns, fun i hNew => ?_, fun i => ?_⟩
  · have hOne : ∃ j, p j = created ∧ (calls j).name = (calls i).name := by
      rcases ended_of_pending hReady.long hPhased (hEnded i) with hi | hi | ⟨e, hi⟩
      · exact ⟨i, hi, rfl⟩
      · exact ((hRegistered.names _).mp (hRegistered.taken i hi)).resolve_left hNew
      · exact absurd hi (hCalm.unraised i e)
    obtain ⟨j, hj, hSame⟩ := hOne
    refine ⟨j, ⟨hSame, (hSucceeds j).mpr hj⟩, fun k hk => ?_⟩
    exact hRegistered.one k j ((hSucceeds k).mp hk.2) hj (hk.1.trans hSame.symm)
  · rcases ended_of_pending hReady.long hPhased (hEnded i) with hi | hi | ⟨e, hi⟩
    · exact .inl ⟨hRegistered.new i (by rw [hi]; trivial), (hSucceeds i).mpr hi⟩
    · refine .inr ?_
      rw [hPhased i, hi]
      rfl
    · exact absurd hi (hCalm.unraised i e)

omit [DecidableEq ι] in
/-- Where the calls are decided, a call that has found its name free has created its user. -/
theorem created_of_ahead {p : ι → Phase} (hReady : Ready db calls) (hPhased : Phased calls p c)
    (hEnded : ∀ i, (c.threads i).pending = none) (hDecided : Decided db calls c) {i : ι}
    (hAhead : (p i).Ahead) : p i = created := by
  rcases hDecided.others i with ⟨-, hi⟩ | hi
  · exact (succeeds_iff hReady.long hPhased (hEnded i)).mp hi
  · rw [hPhased i] at hi
    rcases ended_of_pending hReady.long hPhased (hEnded i) with hPhase | hPhase | ⟨e, hPhase⟩
    · exact hPhase
    · rw [hPhase] at hAhead
      exact absurd hAhead id
    · rw [hPhase] at hi
      cases hi

/-- After the lookup of a name that a call is about to save, another call is ahead with it. -/
theorem rival_ahead {p : ι → Phase} {s s' : Database} (hRegistered : Registered db calls p s)
    {j k : ι} {q : Phase} (hSaving : p j = saving) (hAsking : p k = asking)
    (hSame : (calls j).name = (calls k).name) (hTurn : Turn (calls k) s (p k) q s') :
    ∃ i, i ≠ j ∧ (calls i).name = (calls j).name ∧ (Function.update p k q i).Ahead := by
  have hkj : k ≠ j := by
    rintro rfl
    rw [hAsking] at hSaving
    cases hSaving
  rw [hAsking] at hTurn
  cases hTurn with
  | taken hTaken =>
    have hNew : (calls j).name ∉ db.names := hRegistered.new j (by rw [hSaving]; trivial)
    rw [← hSame] at hTaken
    obtain ⟨i, hi, hName⟩ := ((hRegistered.names _).mp hTaken).resolve_left hNew
    refine ⟨i, ?_, hName, ?_⟩
    · rintro rfl
      rw [hSaving] at hi
      cases hi
    · have hik : i ≠ k := by
        rintro rfl
        rw [hAsking] at hi
        cases hi
      rw [Function.update_of_ne hik, hi]
      trivial
  | free hFree =>
    refine ⟨k, hkj, hSame.symm, ?_⟩
    rw [Function.update_self]
    trivial

/-- Where the calls are decided, none has looked up a name that another was about to save. -/
theorem apart_of_decided (hReady : Ready db calls)
    (hRun : Run (answered Database.respond) (opened db calls) log c)
    (hEnded : ∀ i, (c.threads i).pending = none) (hDecided : Decided db calls c) : Apart log := by
  rintro ⟨d, e⟩ hMem ⟨j, user, hOther, hPending, hLookup⟩
  dsimp only at hOther hPending hLookup
  obtain ⟨before, after, rfl⟩ := List.append_of_mem hMem
  rw [← List.singleton_append, ← List.append_assoc] at hRun
  obtain ⟨d', hUntil, hAfter⟩ := hRun.suffix
  obtain ⟨hBefore, hStep⟩ := Run.concat_iff.mp hUntil
  obtain ⟨p, hPhased, hRegistered⟩ := registered_opened hReady hBefore
  obtain ⟨hAsks, q, hTurn, hPhased'⟩ :=
    step_turn hReady.long hPhased hRegistered.readable hStep
  obtain ⟨p', hLast, hFinal, hAhead⟩ :=
    registered_run hReady.long hPhased' (hRegistered.turn hTurn) hAfter
  have hCreated {i : ι} (hi : (Function.update p e.thread q i).Ahead) : p' i = created :=
    created_of_ahead hReady hLast hEnded hDecided (hAhead i hi)
  -- `j` is about to save the name that the thread of `e` looks up
  rw [hPhased j] at hPending
  rcases phase_of_pending (hReady.long j) hPending with ⟨-, hOp⟩ | ⟨hSaving, hOp⟩
  · cases hOp
  obtain rfl := Op.saveUser.inj hOp
  rw [hPhased, hLookup] at hAsks
  rcases phase_of_pending (hReady.long _) hAsks with ⟨hAsking, hOp⟩ | ⟨-, hOp⟩
  · have hSame : (calls j).name = (calls e.thread).name := Op.getByUsername.inj hOp
    obtain ⟨i, hij, hName, hRival⟩ := rival_ahead hRegistered hSaving hAsking hSame hTurn
    have hj : p' j = created := by
      refine hCreated ?_
      rw [Function.update_of_ne hOther, hSaving]
      trivial
    exact hij (hFinal.one i j (hCreated hRival) hj hName)
  · cases hOp

theorem fits_of_decided (hReady : Ready db calls)
    (hRun : Run (answered Database.respond) (opened db calls) log c)
    (hEnded : ∀ i, (c.threads i).pending = none) (hDecided : Decided db calls c) {i : ι}
    (hNew : (calls i).name ∉ db.names) : Text 64 (calls i).name := by
  obtain ⟨p, hPhased, hRegistered⟩ := registered_opened hReady hRun
  obtain ⟨j, ⟨hSame, hSucceeds⟩, -⟩ := hDecided.one i hNew
  rw [← hSame]
  exact hRegistered.fits j ((succeeds_iff hReady.long hPhased (hEnded j)).mp hSucceeds)

/-- **Concurrent registration.** When all calls have ended, they are decided exactly if none has
looked up a name that another was about to save, and the column takes every new name. -/
theorem decided_iff (hReady : Ready db calls)
    (hRun : Run (answered Database.respond) (opened db calls) log c)
    (hEnded : ∀ i, (c.threads i).pending = none) :
    Decided db calls c ↔
      Apart log ∧ ∀ i, (calls i).name ∉ db.names → Text 64 (calls i).name := by
  constructor
  · intro hDecided
    exact ⟨apart_of_decided hReady hRun hEnded hDecided, fun i hNew =>
      fits_of_decided hReady hRun hEnded hDecided hNew⟩
  · rintro ⟨hApart, hFits⟩
    obtain ⟨p, hPhased, hRegistered, hCalm⟩ := calm_run hReady hFits hRun hApart
    exact decided_of_calm hReady hPhased hRegistered hCalm hEnded

end Runs

end Registrations

/-! ## Two registrations of one name -/

namespace Twins

local instance : PasswordHasher := plainHasher

local instance : LowerText := plainLower

open Registrations

/-- The same name in two spellings. -/
def twins (first : Bool) : Registration where
  userId := if first then ⟨"u-1"⟩ else ⟨"u-2"⟩
  username := if first then "ada " else " ada"
  password := "password"

def entered (schedule : List Bool) : AuthLog Bool × AuthConfig Bool :=
  simulate (opened {} twins) (schedule.map fun i => (i, Database.respond))

theorem entered_run (schedule : List Bool) :
    Run (answered Database.respond) (opened {} twins) (entered schedule).1
      (entered schedule).2 := by
  refine run_simulate fun turn hTurn db op => ?_
  obtain ⟨i, -, rfl⟩ := List.mem_map.mp hTurn
  rfl

theorem twins_ready : Ready {} twins where
  readable row hRow := by cases hRow
  long := by decide +kernel
  injective := by
    intro a b
    revert a b
    decide
  fresh i h := by cases h

def raisedBy : Async (Result User DomainError) → Option Exn
  | raise e => some e
  | _ => none

/-- Both look the name up before either saves it. -/
def race : List Bool := [true, false, true, false]

def inTurn : List Bool := [true, true, false]

/-- The second save raises out of `register`. -/
theorem twin_raises :
    ∃ log c, Run (answered Database.respond) (opened {} twins) log c ∧
      (∀ i, (c.threads i).pending = none) ∧
      raisedBy (c.threads false) = some (.other "IntegrityError") ∧ ¬Decided {} twins c := by
  have hRaised : raisedBy ((entered race).2.threads false) = some (.other "IntegrityError") := by
    decide +kernel
  refine ⟨_, _, entered_run race, fun i => ?_, hRaised, fun hDecided => ?_⟩
  · rw [← Option.isNone_iff_eq_none]
    revert i
    decide +kernel
  · rcases hDecided.others false with ⟨-, hSucceeds⟩ | hRefused
    · rw [hSucceeds] at hRaised
      cases hRaised
    · rw [hRefused] at hRaised
      cases hRaised

theorem twins_decided :
    Decided {} twins (entered inTurn).2 ↔
      Registrations.Apart (entered inTurn).1 ∧
        ∀ i, (twins i).name ∉ Database.names {} → Text 64 (twins i).name := by
  refine decided_iff twins_ready (entered_run inTurn) fun i => ?_
  rw [← Option.isNone_iff_eq_none]
  revert i
  decide +kernel

end Twins

end TradingAgent.Auth
