import LoongNvr.Auth.UserStore
import LoongNvr.Support.Base64

/-!
# Auth — JwtHelper

Signed tokens, `base64url(header).base64url(payload).base64url(signature)`.  A `std::string` that
is part of a token is its bytes.  The signature function and the JSON library's text form are
parameters; `none` stands for an exception.

* `generateToken`, `verifyToken`: the two calls.
* `base64UrlDecode_encode`: decoding gives back what was encoded.
* `verifyToken_generateToken`: an issued token is accepted until it expires, with the claims it
  was issued for.
-/

namespace LoongNvr.Auth
open Support

/-- The bytes of a text in ASCII. -/
def ascii (s : String) : List UInt8 := s.toList.map fun c => UInt8.ofNat c.toNat

/-! ### Base64url -/

def kTable : List UInt8 := ascii "ABCDEFGHIJKLMNOPQRSTUVWXYZabcdefghijklmnopqrstuvwxyz0123456789-_"

def base64UrlEncode (input : List UInt8) : List UInt8 :=
  Base64.encode (fun n => kTable.getD n 0) input

/-- From base64url to base64. -/
def toBase64 (ch : UInt8) : UInt8 := if ch = 45 then 43 else if ch = 95 then 47 else ch

/-- `kDecodeTable`: `A`–`Z`, `a`–`z`, `0`–`9`, `+` and `/` by value, the padding as 0 and any other
byte as 255. -/
def kDecodeTable (ch : UInt8) : ℕ :=
  if 65 ≤ ch ∧ ch ≤ 90 then ch.toNat - 65
  else if 97 ≤ ch ∧ ch ≤ 122 then ch.toNat - 71
  else if 48 ≤ ch ∧ ch ≤ 57 then ch.toNat + 4
  else if ch = 43 then 62
  else if ch = 47 then 63
  else if ch = 61 then 0
  else 255

def base64UrlDecode (input : List UInt8) : List UInt8 :=
  Base64.decode kDecodeTable 61 (Base64.pad 61 (input.map toBase64))

/-- **Round trip** of the token's parts. -/
theorem base64UrlDecode_encode (input : List UInt8) :
    base64UrlDecode (base64UrlEncode input) = input := by
  have hvalue : ∀ n < 64, kDecodeTable (toBase64 (kTable.getD n 0)) = n := by
    rw [kTable, ascii, String.toList_ofList]
    decide +kernel
  have hpad : ∀ n < 64, toBase64 (kTable.getD n 0) ≠ 61 := by
    rw [kTable, ascii, String.toList_ofList]
    decide +kernel
  rw [base64UrlDecode, base64UrlEncode, Base64.map_encode]
  exact Base64.decode_pad_encode hvalue hpad rfl input

/-! ### Tokens -/

/-- Claims extracted from a token. -/
structure JwtClaims where
  userId : ℤ := 0
  username : String := ""
  role : UserRole := .viewer
  issuedAt : ℤ := 0
  expiresAt : ℤ := 0
  deriving DecidableEq, Repr

/-- The text form of the JSON library.  `dump` throws on a string that is not UTF-8. -/
structure JsonText where
  dump : Json → Option (List UInt8)
  parse : List UInt8 → Option Json

structure JwtHelper where
  secret : List UInt8
  expirySeconds : ℤ := 86400

/-- The dot between the parts. -/
def dot : UInt8 := 46

def header : Json := .obj [("alg", .str "HS256"), ("typ", .str "JWT")]

/-- What a token says of its user.  An object keeps its members in the order of their names. -/
def payload (user : UserInfo) (now expiresAt : ℤ) : Json :=
  .obj [("exp", .num expiresAt), ("iat", .num now), ("rol", .str (userRoleToString user.role)),
    ("sub", .num user.id), ("usr", .str user.username)]

/-- The text before the first dot and the text after it. -/
def splitAtDot (s : List UInt8) : Option (List UInt8 × List UInt8) :=
  match s.dropWhile (· ≠ dot) with
  | [] => none
  | _ :: rest => some (s.takeWhile (· ≠ dot), rest)

namespace JwtHelper

variable (hmac : List UInt8 → List UInt8 → List UInt8) (json : JsonText)

def sign (jwt : JwtHelper) (data : List UInt8) : List UInt8 := hmac jwt.secret data

def generateToken (jwt : JwtHelper) (user : UserInfo) (now : ℤ) : Option (List UInt8) := do
  let headerB64 := base64UrlEncode (← json.dump header)
  let payloadB64 := base64UrlEncode (← json.dump (payload user now (now + jwt.expirySeconds)))
  let data := headerB64 ++ dot :: payloadB64
  let signature := base64UrlEncode (jwt.sign hmac data)
  return data ++ dot :: signature

def verifyToken (jwt : JwtHelper) (token : List UInt8) (now : ℤ) : Option JwtClaims := do
  let (headerB64, rest) ← splitAtDot token
  let (payloadB64, signatureB64) ← splitAtDot rest
  let data := headerB64 ++ dot :: payloadB64
  if signatureB64 ≠ base64UrlEncode (jwt.sign hmac data) then none
  let payload ← json.parse (base64UrlDecode payloadB64)
  let userId ← payload.value Json.getInt "sub" 0
  let username ← payload.value Json.getStr "usr" ""
  let role ← payload.value Json.getStr "rol" "viewer"
  let issuedAt ← payload.value Json.getInt "iat" 0
  let expiresAt ← payload.value Json.getInt "exp" 0
  if expiresAt < now then none
  return { userId, username, role := parseUserRole role, issuedAt, expiresAt }

end JwtHelper

/-- The claims a token is issued with. -/
def issuedClaims (user : UserInfo) (now expiresAt : ℤ) : JwtClaims where
  userId := user.id
  username := user.username
  role := user.role
  issuedAt := now
  expiresAt := expiresAt

/-! ### Round trip -/

theorem splitAtDot_append {s rest : List UInt8} (h : dot ∉ s) :
    splitAtDot (s ++ dot :: rest) = some (s, rest) := by
  have hall : ∀ x ∈ s, decide (x ≠ dot) = true := fun x hx =>
    decide_eq_true fun e => h (e ▸ hx)
  have hdrop : (s ++ dot :: rest).dropWhile (· ≠ dot) = dot :: rest := by
    rw [List.dropWhile_append_of_pos hall]
    simp
  have htake : (s ++ dot :: rest).takeWhile (· ≠ dot) = s := by
    rw [List.takeWhile_append_of_pos hall]
    simp
  rw [splitAtDot, hdrop, htake]

/-- What stands in the alphabet's place of a token's character. -/
theorem mem_base64UrlEncode {input : List UInt8} {ch : UInt8} (h : ch ∈ base64UrlEncode input) :
    ch ∈ kTable := by
  obtain ⟨n, hn, rfl⟩ := Base64.mem_encode h
  have hlength : kTable.length = 64 := by
    rw [kTable, ascii, String.toList_ofList]
    rfl
  rw [List.getD_eq_getElem _ _ (hlength ▸ hn)]
  exact List.getElem_mem _

theorem dot_notMem_base64UrlEncode (input : List UInt8) : dot ∉ base64UrlEncode input := by
  have hdot : dot ∉ kTable := by
    rw [kTable, ascii, String.toList_ofList]
    decide
  exact fun h => hdot (mem_base64UrlEncode h)

namespace JwtHelper

variable {hmac : List UInt8 → List UInt8 → List UInt8} {json : JsonText}

/-- The parts of an issued token. -/
theorem generateToken_eq_some {jwt : JwtHelper} {user : UserInfo} {now : ℤ} {token : List UInt8}
    (h : jwt.generateToken hmac json user now = some token) :
    ∃ headerText payloadText,
      json.dump (payload user now (now + jwt.expirySeconds)) = some payloadText ∧
      token = base64UrlEncode headerText ++ dot :: (base64UrlEncode payloadText ++ dot ::
        base64UrlEncode (jwt.sign hmac
          (base64UrlEncode headerText ++ dot :: base64UrlEncode payloadText))) := by
  simp only [generateToken, Option.bind_eq_bind, Option.bind_eq_some_iff, pure,
    Option.some.injEq] at h
  obtain ⟨headerText, -, payloadText, hpayload, rfl⟩ := h
  exact ⟨headerText, payloadText, hpayload, by simp⟩

/-- **An issued token** is accepted until it expires, with the claims it was issued for. -/
theorem verifyToken_generateToken {jwt : JwtHelper} {user : UserInfo} {issued : ℤ}
    {token : List UInt8} (h : jwt.generateToken hmac json user issued = some token)
    (hjson : ∀ text, json.dump (payload user issued (issued + jwt.expirySeconds)) = some text →
      json.parse text = some (payload user issued (issued + jwt.expirySeconds))) (now : ℤ) :
    jwt.verifyToken hmac json token now =
      if issued + jwt.expirySeconds < now then none
      else some (issuedClaims user issued (issued + jwt.expirySeconds)) := by
  obtain ⟨headerText, payloadText, hpayload, rfl⟩ := generateToken_eq_some h
  simp only [verifyToken, splitAtDot_append (dot_notMem_base64UrlEncode _),
    base64UrlDecode_encode, hjson _ hpayload, Option.bind_eq_bind, Option.bind_some]
  generalize issued + jwt.expirySeconds = expiresAt
  simp [payload, Json.value, List.lookup_cons, issuedClaims, Json.getStr]

end JwtHelper

end LoongNvr.Auth
