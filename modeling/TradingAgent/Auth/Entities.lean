import TradingAgent.Core.Taxonomy
import TradingAgent.Trading.Order

/-!
# Users, API keys and tokens

The entities of the auth context, the text of an API key, and the port of the password
hasher.

The text of an API key is `slug_secret`, where `slug` is derived from the label. What stands
before the first underscore is its prefix, by which the stored key is found: it is the slug
exactly when the label has no underscore (`keyPrefix_rawKey_iff`).
-/

namespace TradingAgent.Auth

open Trading (UUID)

inductive Role
  | viewer
  | analyst
  | admin
  deriving DecidableEq, Repr

namespace Role

def value : Role → String
  | viewer => "viewer"
  | analyst => "analyst"
  | admin => "admin"

/-- `Role(value)`; `none` where that raises `ValueError`. -/
def ofValue (text : String) : Option Role :=
  [viewer, analyst, admin].find? fun role => role.value = text

@[simp] theorem ofValue_value (role : Role) : ofValue role.value = some role := by
  cases role <;> decide

end Role

structure User where
  id : UUID
  username : String
  passwordHash : String
  role : Role := .viewer
  disabled : Bool := false
  deriving DecidableEq, Repr

structure ApiKey where
  id : UUID
  userId : UUID
  keyPrefix : String
  hashedKey : String
  createdAt : Datetime
  revoked : Bool := false
  deriving DecidableEq, Repr

structure TokenPair (Token : Type) where
  accessToken : Token
  refreshToken : Token
  expiresInSec : ℤ
  tokenType : String := "bearer"
  deriving DecidableEq, Repr

/-- The subject is kept as the text that the token carries. -/
structure TokenClaims where
  subject : String
  role : Role
  tokenType : String
  expiresAt : Datetime
  deriving DecidableEq, Repr

def newUser (id : UUID) (username passwordHash : String) (role : Role) : User where
  id := id
  username := username
  passwordHash := passwordHash
  role := role

/-- The port of the password hasher. `hash` draws a salt; what it makes of a text is
accepted for that text. -/
class PasswordHasher where
  hash : (salt : List UInt8) → (password : String) → String
  verify : (password hashed : String) → Bool
  verify_hash : ∀ salt password, verify password (hash salt password) = true

/-- Only the hashed text is accepted. -/
def PasswordHasher.Exact [PasswordHasher] : Prop :=
  ∀ salt password other, verify password (hash salt other) = true → password = other

/-- `str.lower`. No letter has an underscore as its lower case, and the underscore has no
other case. -/
class LowerText where
  lower : String → String
  mem_lower : ∀ s, '_' ∈ (lower s).toList ↔ '_' ∈ s.toList

/-! ## The text of an API key -/

/-- `raw.split("_")[0]`. -/
def keyPrefix (raw : String) : String := String.ofList (raw.toList.takeWhile (· ≠ '_'))

/-- `text.replace(' ', '-')`. -/
def hyphenate (text : String) : String :=
  String.ofList (text.toList.map fun c => if c = ' ' then '-' else c)

/-- `f"{text}_{secret}"`. -/
def joined (text secret : String) : String := text ++ "_" ++ secret

section Slug

variable [LowerText]

/-- `label.lower().replace(' ', '-')`. -/
def slug (label : String) : String := hyphenate (LowerText.lower label)

def rawKey (label secret : String) : String := joined (slug label) secret

theorem mem_slug {label : String} : '_' ∈ (slug label).toList ↔ '_' ∈ label.toList := by
  rw [← LowerText.mem_lower label]
  unfold slug hyphenate
  generalize (LowerText.lower label).toList = cs
  rw [String.toList_ofList, List.mem_map]
  constructor
  · rintro ⟨c, hMem, hChar⟩
    by_cases hSpace : c = ' '
    · rw [if_pos hSpace] at hChar
      exact absurd hChar (by decide)
    · rw [if_neg hSpace] at hChar
      rwa [← hChar]
  · intro hMem
    exact ⟨'_', hMem, if_neg (by decide)⟩

end Slug

theorem toList_joined (text secret : String) :
    (joined text secret).toList = text.toList ++ '_' :: secret.toList := by
  simp [joined]

theorem underscore_not_mem_keyPrefix (raw : String) : '_' ∉ (keyPrefix raw).toList := by
  unfold keyPrefix
  rw [String.toList_ofList]
  intro hMem
  simpa using List.mem_takeWhile_imp hMem

/-- The prefix of a joined text is its first part, if that has no underscore. -/
theorem keyPrefix_joined {text : String} (secret : String) (h : '_' ∉ text.toList) :
    keyPrefix (joined text secret) = text := by
  have hKept : ∀ c ∈ text.toList, decide (c ≠ '_') = true := by
    intro c hMem
    apply decide_eq_true
    rintro rfl
    exact h hMem
  unfold keyPrefix
  rw [toList_joined, List.takeWhile_append_of_pos hKept, List.takeWhile_cons_of_neg (by decide),
    List.append_nil, String.ofList_toList]

theorem joined_injective {text other secret : String}
    (h : joined text secret = joined other secret) : text = other := by
  have hLists := congrArg String.toList h
  rw [toList_joined, toList_joined] at hLists
  exact String.toList_inj.mp (List.append_cancel_right hLists)

/-- The prefix of an API key is its slug exactly when the label has no underscore. -/
theorem keyPrefix_rawKey_iff [LowerText] {label secret : String} :
    keyPrefix (rawKey label secret) = slug label ↔ '_' ∉ label.toList := by
  rw [← mem_slug]
  constructor
  · intro h
    rw [← h]
    exact underscore_not_mem_keyPrefix _
  · exact keyPrefix_joined secret

/-! ## Plain instances -/

/-- Hashes that are the text itself. -/
@[reducible] def plainHasher : PasswordHasher where
  hash _ password := password
  verify password hashed := decide (password = hashed)
  verify_hash _ _ := decide_eq_true rfl

/-- Texts without capitals. -/
@[reducible] def plainLower : LowerText where
  lower s := s
  mem_lower _ := Iff.rfl

end TradingAgent.Auth
