import LoongNvr.Auth.JwtHelper

/-!
# Auth — AuthMiddleware

Who a request comes from and what the role in its token allows.

* `requiresAuth`, `hasPermission`: the public paths and the table of permissions.
* `extractBearerToken_request`: the token of a request that carries one.
* `acceptedClaims_eq_some_iff`: a token is accepted when it verifies and its user exists and is
  enabled.
-/

namespace LoongNvr.Auth
open Support

/-- `path.find(start) == 0` -/
def startsWith (path start : String) : Bool := start.toList.isPrefixOf path.toList

def hasPermission (role : UserRole) (method path : String) : Bool :=
  if role = .admin then true
  else if path = "/api/auth/profile" ∨ path = "/api/auth/password" then true
  else if startsWith path "/api/users" then false
  else if startsWith path "/api/system/" then role = .operator || method = "GET"
  else if startsWith path "/live/" then true
  else if startsWith path "/api/onvif/" then role = .operator || method = "GET"
  else if path = "/api/events" ∨ path = "/api/recordings" then method = "GET"
  else if startsWith path "/api/channels" then role = .operator || method = "GET"
  else false

def requiresAuth (path : String) : Bool :=
  if path = "/api/auth/login" then false
  else if path = "/api/health" then false
  else if path = "/metrics" then false
  else if startsWith path "/live/" then true
  else startsWith path "/api/"

/-! ### The token of a request -/

/-- What follows the first occurrence. -/
def findAfter (needle : List UInt8) : List UInt8 → Option (List UInt8)
  | [] => if needle.isEmpty then some [] else none
  | ch :: s =>
      if needle.isPrefixOf (ch :: s) then some ((ch :: s).drop needle.length)
      else findAfter needle s

/-- What precedes the first occurrence, or everything. -/
def upTo (needle : List UInt8) : List UInt8 → List UInt8
  | [] => []
  | ch :: s => if needle.isPrefixOf (ch :: s) then [] else ch :: upTo needle s

/-- The bearer token of raw request headers, empty if there is none. -/
def extractBearerToken (rawRequest : List UInt8) : List UInt8 :=
  match (findAfter (ascii "Authorization:") rawRequest).or
      (findAfter (ascii "authorization:") rawRequest) with
  | none => []
  | some rest =>
      let value := (upTo (ascii "\r\n") rest).dropWhile (· = 32)
      if (ascii "Bearer ").isPrefixOf value then value.drop (ascii "Bearer ").length else []

structure AuthContext where
  authenticated : Bool := false
  claims : JwtClaims := {}
  deriving DecidableEq, Repr

/-- The middleware, with the user store as it is at the moment. -/
structure AuthMiddleware where
  jwt : JwtHelper
  userStore : UserStore

variable (hmac : List UInt8 → List UInt8 → List UInt8) (json : JsonText)

/-- The claims of a token that verifies, of a user that exists and is enabled. -/
def AuthMiddleware.acceptedClaims (auth : AuthMiddleware) (token : List UInt8) (now : ℤ) :
    Option JwtClaims := do
  let claims ← auth.jwt.verifyToken hmac json token now
  let user ← auth.userStore.getUser claims.userId
  if user.enabled then some claims else none

def AuthMiddleware.authenticate (auth : AuthMiddleware) (rawRequest : List UInt8) (now : ℤ) :
    AuthContext :=
  let token := extractBearerToken rawRequest
  if token.isEmpty then {}
  else
    match auth.acceptedClaims hmac json token now with
    | none => {}
    | some claims => { authenticated := true, claims := claims }

/-- The headers `CheckAuth` builds around the authorization it found. -/
def rawRequest (authHeader : List UInt8) : List UInt8 :=
  ascii "GET / HTTP/1.1\r\nAuthorization: " ++ authHeader ++ ascii "\r\n\r\n"

def bearer (token : List UInt8) : List UInt8 := ascii "Bearer " ++ token

/-- The carriage return that ends a header. -/
def cr : UInt8 := 13

theorem upTo_of_notMem (rest : List UInt8) {s : List UInt8} (h : cr ∉ s) :
    upTo (ascii "\r\n") (s ++ ascii "\r\n\r\n" ++ rest) = s := by
  induction s with
  | nil => rfl
  | cons ch s ih =>
      have hch : cr ≠ ch := fun e => h (e ▸ List.mem_cons_self)
      have hs : cr ∉ s := fun hmem => h (List.mem_cons_of_mem _ hmem)
      have hprefix : (ascii "\r\n").isPrefixOf (ch :: (s ++ ascii "\r\n\r\n" ++ rest)) = false := by
        show (cr == ch && _) = false
        rw [beq_eq_false_iff_ne.mpr hch, Bool.false_and]
      rw [List.cons_append, List.cons_append, upTo, if_neg (ne_true_of_eq_false hprefix),
        ih hs]

/-- The token a request carries is found. -/
theorem extractBearerToken_request {token : List UInt8} (h : cr ∉ token) :
    extractBearerToken (rawRequest (bearer token)) = token := by
  have hfind : findAfter (ascii "Authorization:") (rawRequest (bearer token)) =
      some (ascii " Bearer " ++ token ++ ascii "\r\n\r\n") := by
    rfl
  have hcr : cr ∉ ascii " Bearer " ++ token := by
    intro hmem
    rcases List.mem_append.mp hmem with hmem | hmem
    · exact absurd hmem (by decide)
    · exact h hmem
  have hup : upTo (ascii "\r\n") (ascii " Bearer " ++ token ++ ascii "\r\n\r\n") =
      ascii " Bearer " ++ token := by
    simpa using upTo_of_notMem [] hcr
  have hdrop : (ascii " Bearer " ++ token).dropWhile (· = 32) = ascii "Bearer " ++ token := rfl
  have hprefix : (ascii "Bearer ").isPrefixOf (ascii "Bearer " ++ token) = true := rfl
  simp only [extractBearerToken, hfind, Option.some_or, hup, hdrop, hprefix, if_true,
    List.drop_left]

variable {hmac json}

theorem AuthMiddleware.acceptedClaims_eq_some_iff {auth : AuthMiddleware} {token : List UInt8}
    {now : ℤ} {claims : JwtClaims} :
    auth.acceptedClaims hmac json token now = some claims ↔
      auth.jwt.verifyToken hmac json token now = some claims ∧
        ∃ user, auth.userStore.getUser claims.userId = some user ∧ user.enabled = true := by
  simp only [acceptedClaims, Option.bind_eq_bind, Option.bind_eq_some_iff]
  constructor
  · rintro ⟨claims', hverify, user, huser, haccept⟩
    split at haccept
    · obtain rfl := Option.some.inj haccept
      exact ⟨hverify, user, huser, ‹_›⟩
    · exact absurd haccept (by simp)
  · rintro ⟨hverify, user, huser, henabled⟩
    exact ⟨claims, hverify, user, huser, if_pos henabled⟩

/-- **A request with a token** is authenticated exactly when its token is accepted, and then under
the token's claims. -/
theorem AuthMiddleware.authenticate_request {auth : AuthMiddleware} {token : List UInt8}
    (hempty : token ≠ []) (hcr : cr ∉ token) (now : ℤ) :
    auth.authenticate hmac json (rawRequest (bearer token)) now =
      match auth.acceptedClaims hmac json token now with
      | none => {}
      | some claims => { authenticated := true, claims := claims } := by
  have hisEmpty : ¬ token.isEmpty = true := by simpa using hempty
  rw [authenticate, extractBearerToken_request hcr, if_neg hisEmpty]

end LoongNvr.Auth
