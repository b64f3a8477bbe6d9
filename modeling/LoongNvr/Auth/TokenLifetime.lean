import LoongNvr.Auth.JwtHelper
import LoongNvr.Core.Types

/-!
# Auth — TokenLifetime

How long a token is accepted, and which texts are accepted at all.  The expiry time of a token is a
sum of two 64-bit numbers.

* `tokensHold_iff`: tokens verify to what was issued for as long as was asked, and only what is
  signed is accepted, exactly where the sum does not overflow.
* `verifyToken_signed`: an accepted text is signed, whatever else it says.
-/

namespace LoongNvr.Auth
open LoongNvr.Core Support

namespace JwtHelper

/-- The helper whose tokens of the time `now` expire when `now + expiry_seconds_` says, wrapped. -/
def wrapped (jwt : JwtHelper) (now : ℤ) : JwtHelper :=
  { jwt with expirySeconds := toInt64 (now + jwt.expirySeconds) - now }

/-- `GenerateToken` with the sum in 64 bits. -/
def generateToken64 (hmac : List UInt8 → List UInt8 → List UInt8) (json : JsonText)
    (jwt : JwtHelper) (user : UserInfo) (now : ℤ) : Option (List UInt8) :=
  (jwt.wrapped now).generateToken hmac json user now

end JwtHelper

section Lifetime

variable (hmac : List UInt8 → List UInt8 → List UInt8) (json : JsonText) (jwt : JwtHelper)

/-- The token verifies to the user up to the time that was asked for, and not later. -/
def VerifiesInTime (user : UserInfo) (issued : ℤ) (token : List UInt8) : Prop :=
  ∀ now, (now ≤ issued + jwt.expirySeconds → ∃ claims,
      jwt.verifyToken hmac json token now = some claims ∧
        claims.userId = user.id ∧ claims.username = user.username ∧ claims.role = user.role) ∧
    (issued + jwt.expirySeconds < now → jwt.verifyToken hmac json token now = none)

/-- Only a text that ends with the signature of what stands before it is accepted. -/
def OnlySigned : Prop :=
  ∀ token now claims, jwt.verifyToken hmac json token now = some claims →
    ∃ headerB64 payloadB64, dot ∉ headerB64 ∧ dot ∉ payloadB64 ∧
      token = headerB64 ++ dot :: (payloadB64 ++ dot ::
        base64UrlEncode (jwt.sign hmac (headerB64 ++ dot :: payloadB64)))

/-- Tokens verify to what was issued, and only those. -/
def TokensHold (user : UserInfo) (issued : ℤ) (token : List UInt8) : Prop :=
  VerifiesInTime hmac json jwt user issued token ∧ OnlySigned hmac json jwt ∧
    ∀ input, base64UrlDecode (base64UrlEncode input) = input

end Lifetime

/-! ### What is accepted -/

theorem splitAtDot_cons (x : UInt8) (s : List UInt8) :
    splitAtDot (x :: s) =
      if x = dot then some ([], s)
      else (splitAtDot s).map fun parts => (x :: parts.1, parts.2) := by
  by_cases e : x = dot
  · simp [splitAtDot, e]
  · simp only [splitAtDot, List.dropWhile_cons, List.takeWhile_cons, ne_eq, e, not_false_eq_true,
      decide_true, if_true, if_false]
    cases s.dropWhile (fun x => decide (x ≠ dot)) <;> rfl

/-- A text is split at its first dot. -/
theorem splitAtDot_eq_some {s front rest : List UInt8} (h : splitAtDot s = some (front, rest)) :
    s = front ++ dot :: rest ∧ dot ∉ front := by
  induction s generalizing front with
  | nil => cases h
  | cons x s ih =>
      rw [splitAtDot_cons] at h
      split at h
      case isTrue e =>
        cases h
        exact ⟨by rw [e, List.nil_append], List.not_mem_nil⟩
      case isFalse e =>
        obtain ⟨⟨front', rest'⟩, hsplit, hparts⟩ := Option.map_eq_some_iff.mp h
        cases hparts
        obtain ⟨hs, hdot⟩ := ih hsplit
        refine ⟨by rw [hs, List.cons_append], fun hmem => ?_⟩
        rcases List.mem_cons.mp hmem with hx | hmem
        · exact e hx.symm
        · exact hdot hmem

variable {hmac : List UInt8 → List UInt8 → List UInt8} {json : JsonText} {jwt : JwtHelper}

/-- **An accepted text** is signed. -/
theorem verifyToken_signed (hmac : List UInt8 → List UInt8 → List UInt8) (json : JsonText)
    (jwt : JwtHelper) : OnlySigned hmac json jwt := by
  intro token now claims h
  simp only [JwtHelper.verifyToken, Option.bind_eq_bind, Option.bind_eq_some_iff] at h
  obtain ⟨⟨headerB64, rest⟩, hheader, ⟨payloadB64, signatureB64⟩, hpayload, h⟩ := h
  obtain ⟨htoken, hdot⟩ := splitAtDot_eq_some hheader
  obtain ⟨hrest, hdot'⟩ := splitAtDot_eq_some hpayload
  refine ⟨headerB64, payloadB64, hdot, hdot', ?_⟩
  by_cases hsigned : signatureB64 = base64UrlEncode (jwt.sign hmac (headerB64 ++ dot :: payloadB64))
  · dsimp only at hrest
    rw [htoken, hrest, hsigned]
  · simp [hsigned] at h

/-! ### How long -/

/-- A wrapped sum is less than it should be. -/
theorem toInt64_lt {a b : ℤ} (ha : IsInt64 a) (hb : IsInt64 b)
    (h : 9223372036854775808 ≤ a + b) : toInt64 (a + b) < a := by
  obtain ⟨-, ha⟩ := ha
  obtain ⟨-, hb⟩ := hb
  rw [toInt64, Int.bmod]
  omega

/-- The JSON library reads back the payload of the user's token, if it can write it. -/
def ReadsPayload (json : JsonText) (jwt : JwtHelper) (user : UserInfo) (issued : ℤ) : Prop :=
  ∀ text,
    json.dump (payload user issued (toInt64 (issued + jwt.expirySeconds))) = some text →
      json.parse text = some (payload user issued (toInt64 (issued + jwt.expirySeconds)))

variable {user : UserInfo} {issued : ℤ} {token : List UInt8}

/-- An issued token is accepted up to the time it carries. -/
theorem verifyToken_generateToken64 (h : jwt.generateToken64 hmac json user issued = some token)
    (hjson : ReadsPayload json jwt user issued) (now : ℤ) :
    jwt.verifyToken hmac json token now =
      if toInt64 (issued + jwt.expirySeconds) < now then none
      else some (issuedClaims user issued (toInt64 (issued + jwt.expirySeconds))) := by
  have hsum : issued + (jwt.wrapped issued).expirySeconds =
      toInt64 (issued + jwt.expirySeconds) := by
    simp only [JwtHelper.wrapped]
    omega
  -- what `VerifyToken` says depends on the secret, not on the lifetime
  have hwrapped := JwtHelper.verifyToken_generateToken h (hsum ▸ hjson) now
  rw [hsum] at hwrapped
  exact hwrapped

theorem not_verifiesInTime (h : jwt.generateToken64 hmac json user issued = some token)
    (hjson : ReadsPayload json jwt user issued) (hexpiry : 0 ≤ jwt.expirySeconds)
    (hexpiry' : IsInt64 jwt.expirySeconds) (hissued : IsInt64 issued)
    (hover : 9223372036854775808 ≤ issued + jwt.expirySeconds) :
    ¬ VerifiesInTime hmac json jwt user issued token := by
  intro hhold
  obtain ⟨claims, hclaims, -⟩ := (hhold issued).1 (by omega)
  rw [verifyToken_generateToken64 h hjson, if_pos (toInt64_lt hissued hexpiry' hover)] at hclaims
  cases hclaims

theorem verifiesInTime_of_lt (h : jwt.generateToken64 hmac json user issued = some token)
    (hjson : ReadsPayload json jwt user issued) (hexpiry : 0 ≤ jwt.expirySeconds)
    (hissued : IsInt64 issued) (hfits : issued + jwt.expirySeconds < 9223372036854775808) :
    VerifiesInTime hmac json jwt user issued token := by
  have hexact : toInt64 (issued + jwt.expirySeconds) = issued + jwt.expirySeconds :=
    toInt64_of_isInt64 ⟨Int.le_trans hissued.1 (by omega), hfits⟩
  intro now
  rw [verifyToken_generateToken64 h hjson, hexact]
  refine ⟨fun hnow => ?_, fun hnow => if_pos hnow⟩
  refine ⟨issuedClaims user issued (issued + jwt.expirySeconds), ?_, rfl, rfl, rfl⟩
  exact if_neg (not_lt.mpr hnow)

/-- **Tokens verify to what was issued, and only those**, exactly where the time they expire fits
64 bits. -/
theorem tokensHold_iff (hexpiry : 0 ≤ jwt.expirySeconds) (hexpiry' : IsInt64 jwt.expirySeconds)
    (hissued : IsInt64 issued) (h : jwt.generateToken64 hmac json user issued = some token)
    (hjson : ReadsPayload json jwt user issued) :
    TokensHold hmac json jwt user issued token ↔
      issued + jwt.expirySeconds < 9223372036854775808 := by
  constructor
  · intro hhold
    by_contra hover
    exact not_verifiesInTime h hjson hexpiry hexpiry' hissued (not_lt.mp hover) hhold.1
  · intro hfits
    exact ⟨verifiesInTime_of_lt h hjson hexpiry hissued hfits, verifyToken_signed hmac json jwt,
      base64UrlDecode_encode⟩

def carol : UserInfo where
  id := 7
  username := "carol"
  role := .operator

/-- The JSON library on the header and on the payload of a token of carol's. -/
def carolJson (expiresAt : ℤ) (digits : String) : JsonText where
  dump j :=
    if j.contains "alg" then some (ascii "\x7b\"alg\":\"HS256\",\"typ\":\"JWT\"\x7d")
    else some (ascii ("\x7b\"exp\":" ++ digits ++ ",\"iat\":1700000000,\"rol\":\"operator\"," ++
      "\"sub\":7,\"usr\":\"carol\"\x7d"))
  parse _ := some (payload carol 1700000000 expiresAt)

/-- Tokens that are to last an hour. -/
def hourJwt : JwtHelper where
  secret := ascii "loong-ainvr-default-secret-change-me"
  expirySeconds := 3600

/-- The signature of her token. -/
def hourSignature : List UInt8 :=
  [136, 16, 90, 214, 121, 111, 167, 109, 134, 209, 161, 207, 81, 10, 20, 133, 95, 200, 36, 30,
    27, 61, 58, 183, 249, 124, 119, 66, 214, 10, 22, 53]

theorem tokensHold_hour : ∃ token,
    hourJwt.generateToken64 (fun _ _ => hourSignature) (carolJson 1700003600 "1700003600") carol
      1700000000 = some token ∧
    TokensHold (fun _ _ => hourSignature) (carolJson 1700003600 "1700003600") hourJwt carol
      1700000000 token :=
  ⟨_, rfl, (tokensHold_iff (by decide) (by decide) (by decide) rfl fun _ _ => rfl).mpr (by decide)⟩

/-- Tokens that are to last for ever. -/
def endlessJwt : JwtHelper where
  secret := ascii "loong-ainvr-default-secret-change-me"
  expirySeconds := 9223372036854775807

/-- The signature of carol's token. -/
def endlessSignature : List UInt8 :=
  [155, 4, 79, 228, 84, 96, 95, 128, 113, 198, 31, 181, 230, 94, 168, 136, 175, 41, 104, 13, 3,
    67, 251, 67, 232, 156, 128, 87, 74, 52, 30, 98]

/-- They are refused as soon as they are issued. -/
theorem tokensHold_refuted : ∃ token,
    endlessJwt.generateToken64 (fun _ _ => endlessSignature)
      (carolJson (-9223372035154775809) "-9223372035154775809") carol 1700000000 = some token ∧
    ¬ TokensHold (fun _ _ => endlessSignature)
      (carolJson (-9223372035154775809) "-9223372035154775809") endlessJwt carol 1700000000
      token :=
  ⟨_, rfl, fun h => not_verifiesInTime rfl (fun _ _ => rfl) (by decide) (by decide) (by decide)
    (by decide) h.1⟩

end LoongNvr.Auth
