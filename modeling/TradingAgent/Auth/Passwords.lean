import TradingAgent.Auth.Entities
import TradingAgent.Core.Bytes
import TradingAgent.Marketdata.Payloads

/-!
# The PBKDF2 password hasher

A stored text has four fields between dollars: a name, the number of iterations, and the salt and
the digest in hexadecimal. `verify` splits the text and decodes the two last fields in a `try`
block, and reads the iterations only after it. So a text that gets past the block but has no
positive number of iterations makes `verify` raise, and on every other text it is exact
(`exact_iff`). On what `hash` makes it does not raise, and it accepts the passwords of the same
digest (`verify_hash`): this is the law of the port (`port`).
-/

namespace TradingAgent.Auth

open Marketdata (IntText)

/-- The digest of `hashlib.pbkdf2_hmac("sha256", …)`. -/
class Pbkdf2 where
  digest : (password salt : Bytes) → (iterations : ℤ) → Bytes

namespace Pbkdf2PasswordHasher

def iterations : ℕ := 390000

/-- `int("390000")`. -/
class ReadsIterations [IntText] : Prop where
  int_iterations : IntText.int (toString iterations) = some (iterations : ℤ)

/-- `password.encode()`. -/
def encode (password : String) : Bytes := password.toUTF8.toList

/-- `text.split("$")`. -/
def split (text : String) : List String := (text.toList.splitOn '$').map String.ofList

section

variable [Pbkdf2]

/-- `hashlib.pbkdf2_hmac`. -/
def pbkdf2Hmac (password salt : Bytes) (iterations : ℤ) : Except Exn Bytes :=
  if iterations < 1 then .error (.valueError "iteration value must be greater than 0.")
  else .ok (Pbkdf2.digest password salt iterations)

def hash (salt : Bytes) (password : String) : Except Exn String := do
  let digest ← pbkdf2Hmac (encode password) salt iterations
  return "pbkdf2_sha256" ++ "$" ++ toString iterations ++ "$" ++ String.ofList salt.hex ++ "$" ++
    String.ofList digest.hex

/-- The `try` block: the number of iterations as it is written, the salt and the digest. -/
def parse (hashed : String) : Option (String × Bytes × Bytes) :=
  match split hashed with
  | [_, iterations, saltHex, digestHex] => do
    let salt ← fromhex saltHex.toList
    let expected ← fromhex digestHex.toList
    return (iterations, salt, expected)
  | _ => none

variable [IntText]

/-- `int(text)`. -/
def int (text : String) : Except Exn ℤ :=
  match IntText.int text with
  | some n => .ok n
  | none => .error (.valueError "invalid literal for int() with base 10")

def verify (password hashed : String) : Except Exn Bool :=
  match parse hashed with
  | none => .ok false
  | some (iterations, salt, expected) => do
    let digest ← pbkdf2Hmac (encode password) salt (← int iterations)
    return digest = expected

/-! ## The accepted texts -/

/-- Four fields, of which the second is a positive integer and the others are hexadecimal, the last
one of the digest of the password. -/
def Matches (password hashed : String) : Prop :=
  ∃ name count saltHex digestHex, split hashed = [name, count, saltHex, digestHex] ∧
    ∃ n salt, IntText.int count = some n ∧ 0 < n ∧ fromhex saltHex.toList = some salt ∧
      fromhex digestHex.toList = some (Pbkdf2.digest (encode password) salt n)

/-- `verify` returns, and accepts exactly the texts of the password. -/
def Exact (password hashed : String) : Prop :=
  ∃ accepted, verify password hashed = .ok accepted ∧ (accepted = true ↔ Matches password hashed)

omit [Pbkdf2] in
/-- A text that gets past the `try` block has a positive number of iterations. -/
def Counted (hashed : String) : Prop :=
  ∀ name count saltHex digestHex, split hashed = [name, count, saltHex, digestHex] →
    (fromhex saltHex.toList).isSome → (fromhex digestHex.toList).isSome →
      ∃ n, IntText.int count = some n ∧ 0 < n

omit [Pbkdf2] [IntText] in
theorem parse_eq_some_iff {hashed count : String} {salt expected : Bytes} :
    parse hashed = some (count, salt, expected) ↔
      ∃ name saltHex digestHex, split hashed = [name, count, saltHex, digestHex] ∧
        fromhex saltHex.toList = some salt ∧ fromhex digestHex.toList = some expected := by
  unfold parse
  constructor
  · intro hParse
    split at hParse
    · next name count' saltHex digestHex hSplit =>
      obtain ⟨salt', hSalt, hRest⟩ := Option.bind_eq_some_iff.mp hParse
      obtain ⟨expected', hExpected, hFields⟩ := Option.bind_eq_some_iff.mp hRest
      cases hFields
      exact ⟨name, saltHex, digestHex, hSplit, hSalt, hExpected⟩
    · cases hParse
  · rintro ⟨name, saltHex, digestHex, hSplit, hSalt, hExpected⟩
    rw [hSplit]
    dsimp only
    rw [hSalt, hExpected]
    rfl

variable {hashed count : String} {salt expected : Bytes}

/-- With a positive number of iterations the digests are compared. -/
theorem verify_counted (password : String) (hParse : parse hashed = some (count, salt, expected))
    {n : ℤ} (hInt : IntText.int count = some n) (hPositive : 0 < n) :
    verify password hashed =
      .ok (decide (Pbkdf2.digest (encode password) salt n = expected)) := by
  have hDigest : pbkdf2Hmac (encode password) salt n =
      .ok (Pbkdf2.digest (encode password) salt n) := if_neg (by omega)
  unfold verify int
  rw [hParse]
  dsimp only
  rw [hInt]
  show (pbkdf2Hmac (encode password) salt n >>= _) = _
  rw [hDigest]
  rfl

/-- Any other number of iterations makes `int` or `pbkdf2_hmac` raise. -/
theorem verify_uncounted (password : String)
    (hParse : parse hashed = some (count, salt, expected))
    (hNone : ¬∃ n, IntText.int count = some n ∧ 0 < n) :
    ∃ message, verify password hashed = .error (.valueError message) := by
  unfold verify int
  rw [hParse]
  dsimp only
  cases hInt : IntText.int count with
  | none => exact ⟨_, rfl⟩
  | some n =>
    have hRaises : pbkdf2Hmac (encode password) salt n =
        .error (.valueError "iteration value must be greater than 0.") :=
      if_pos (not_le.mp fun hPositive => hNone ⟨n, hInt, hPositive⟩)
    refine ⟨"iteration value must be greater than 0.", ?_⟩
    show (pbkdf2Hmac (encode password) salt n >>= _) = _
    rw [hRaises]
    rfl

/-- A text of the password gets past the `try` block. -/
theorem matches_iff_of_parse (password : String)
    (hParse : parse hashed = some (count, salt, expected)) :
    Matches password hashed ↔ ∃ n, IntText.int count = some n ∧ 0 < n ∧
      expected = Pbkdf2.digest (encode password) salt n := by
  obtain ⟨name, saltHex, digestHex, hSplit, hSalt, hExpected⟩ := parse_eq_some_iff.mp hParse
  constructor
  · rintro ⟨name', count', saltHex', digestHex', hSplit', n, salt', hInt, hPositive, hSalt',
      hDigest⟩
    rw [hSplit] at hSplit'
    cases hSplit'
    rw [hSalt] at hSalt'
    cases hSalt'
    rw [hExpected] at hDigest
    exact ⟨n, hInt, hPositive, Option.some.inj hDigest⟩
  · rintro ⟨n, hInt, hPositive, rfl⟩
    exact ⟨name, count, saltHex, digestHex, hSplit, n, salt, hInt, hPositive, hSalt, hExpected⟩

omit [Pbkdf2] in
theorem counted_iff_of_parse (hParse : parse hashed = some (count, salt, expected)) :
    Counted hashed ↔ ∃ n, IntText.int count = some n ∧ 0 < n := by
  obtain ⟨name, saltHex, digestHex, hSplit, hSalt, hExpected⟩ := parse_eq_some_iff.mp hParse
  constructor
  · intro hCounted
    refine hCounted name count saltHex digestHex hSplit ?_ ?_
    · rw [hSalt]
      rfl
    · rw [hExpected]
      rfl
  · intro hInt name' count' saltHex' digestHex' hSplit' _ _
    rw [hSplit] at hSplit'
    cases hSplit'
    exact hInt

/-- Every other text is refused in the `try` block. -/
theorem exact_of_parse_none (password : String) (hParse : parse hashed = none) :
    Exact password hashed ∧ Counted hashed := by
  constructor
  · refine ⟨false, ?_, iff_of_false Bool.false_ne_true ?_⟩
    · unfold verify
      rw [hParse]
    · rintro ⟨name, count, saltHex, digestHex, hSplit, n, salt, -, -, hSalt, hDigest⟩
      have hSome := parse_eq_some_iff.mpr ⟨name, saltHex, digestHex, hSplit, hSalt, hDigest⟩
      rw [hParse] at hSome
      cases hSome
  · intro name count saltHex digestHex hSplit hSalt hDigest
    obtain ⟨salt, hSalt⟩ := Option.isSome_iff_exists.mp hSalt
    obtain ⟨expected, hExpected⟩ := Option.isSome_iff_exists.mp hDigest
    have hSome := parse_eq_some_iff.mpr ⟨name, saltHex, digestHex, hSplit, hSalt, hExpected⟩
    rw [hParse] at hSome
    cases hSome

theorem exact_of_parse_some (password : String)
    (hParse : parse hashed = some (count, salt, expected)) :
    Exact password hashed ↔ Counted hashed := by
  rw [counted_iff_of_parse hParse]
  unfold Exact
  rw [matches_iff_of_parse password hParse]
  constructor
  · rintro ⟨accepted, hVerify, -⟩
    by_contra hNone
    obtain ⟨message, hRaises⟩ := verify_uncounted password hParse hNone
    rw [hRaises] at hVerify
    cases hVerify
  · rintro ⟨n, hInt, hPositive⟩
    refine ⟨_, verify_counted password hParse hInt hPositive, ?_⟩
    rw [decide_eq_true_eq, hInt]
    constructor
    · rintro rfl
      exact ⟨n, rfl, hPositive, rfl⟩
    · rintro ⟨n', hSame, -, hDigest⟩
      cases hSame
      exact hDigest.symm

/-! ## The texts that `hash` makes -/

omit [Pbkdf2] [IntText] in
/-- No field of the text has a dollar. -/
theorem split_joined (salt digest : Bytes) :
    split ("pbkdf2_sha256" ++ "$" ++ toString iterations ++ "$" ++ String.ofList salt.hex ++ "$" ++
      String.ofList digest.hex) =
      ["pbkdf2_sha256", toString iterations, String.ofList salt.hex, String.ofList digest.hex] := by
  have hName : '$' ∉ "pbkdf2_sha256".toList := by decide
  have hCount : '$' ∉ (toString iterations).toList := by decide
  have hJoined : ("pbkdf2_sha256" ++ "$" ++ toString iterations ++ "$" ++ String.ofList salt.hex ++
      "$" ++ String.ofList digest.hex).toList =
      "pbkdf2_sha256".toList ++ '$' :: ((toString iterations).toList ++ '$' ::
        (salt.hex ++ '$' :: digest.hex)) := by
    simp [String.toList_append]
  unfold split
  rw [hJoined, List.splitOn_append_cons_self_of_not_mem hName,
    List.splitOn_append_cons_self_of_not_mem hCount,
    List.splitOn_append_cons_self_of_not_mem (dollar_notMem_hex salt),
    List.splitOn_eq_singleton (dollar_notMem_hex digest)]
  rfl

theorem verify_hash [ReadsIterations] (salt : Bytes) (password other : String) :
    ∃ stored, hash salt password = .ok stored ∧
      verify other stored = .ok (Pbkdf2.digest (encode other) salt iterations =
        Pbkdf2.digest (encode password) salt iterations) := by
  refine ⟨_, rfl, ?_⟩
  have hParse := parse_eq_some_iff.mpr ⟨_, _, _, split_joined salt
    (Pbkdf2.digest (encode password) salt iterations), by rw [String.toList_ofList, fromhex_hex],
    by rw [String.toList_ofList, fromhex_hex]⟩
  exact verify_counted other hParse ReadsIterations.int_iterations (by decide)

/-- The adapter as the port of the services. The port has no outcome for a text on which `verify`
raises. -/
@[reducible] def port [ReadsIterations] : PasswordHasher where
  hash salt password := (hash salt password).toOption.getD ""
  verify password hashed := (verify password hashed).toOption.getD false
  verify_hash salt password := by
    obtain ⟨stored, hHash, hVerify⟩ := verify_hash salt password password
    rw [hHash]
    dsimp only [Except.toOption, Option.getD_some]
    rw [hVerify, decide_eq_true rfl]
    rfl

/-- **Where verification is total and exact.** -/
theorem exact_iff [ReadsIterations] (password : String) :
    (∀ hashed, Exact password hashed ↔ Counted hashed) ∧
      ∀ salt, ∃ stored, hash salt password = .ok stored ∧ verify password stored = .ok true := by
  refine ⟨fun hashed => ?_, fun salt => ?_⟩
  · cases hParse : parse hashed with
    | none =>
      obtain ⟨hExact, hCounted⟩ := exact_of_parse_none password hParse
      exact iff_of_true hExact hCounted
    | some fields => exact exact_of_parse_some password hParse
  · obtain ⟨stored, hHash, hVerify⟩ := verify_hash salt password password
    rw [decide_eq_true rfl] at hVerify
    exact ⟨stored, hHash, hVerify⟩

end

end Pbkdf2PasswordHasher

namespace Uncounted

open Pbkdf2PasswordHasher

local instance : Pbkdf2 where
  digest password salt _ := salt ++ password

local instance : IntText where
  int s := (digitsAscii s.toList).map Nat.cast

local instance : ReadsIterations where
  int_iterations := by decide +kernel

/-- The two last fields are empty, and the second is no number. -/
def stored : String := "a$b$$"

theorem verify_raises : ¬Exact "password" stored ∧ verify "password" stored =
    .error (.valueError "invalid literal for int() with base 10") := by
  have hRaises : verify "password" stored =
      .error (.valueError "invalid literal for int() with base 10") := by decide +kernel
  refine ⟨?_, hRaises⟩
  rintro ⟨accepted, hVerify, -⟩
  rw [hRaises] at hVerify
  cases hVerify

theorem password_exact : (Exact "password" stored ↔ Counted stored) ∧
    ∃ hashed, hash [1, 2] "password" = .ok hashed ∧ verify "password" hashed = .ok true :=
  ⟨(exact_iff "password").1 stored, (exact_iff "password").2 [1, 2]⟩

end Uncounted

end TradingAgent.Auth
