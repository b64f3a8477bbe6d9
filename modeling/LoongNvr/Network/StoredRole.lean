import LoongNvr.Auth.AuthMiddleware

/-!
# Network — StoredRole

`HttpServer::CheckAuth`, and whose role it goes by.  A token carries the role its user had when it
was issued; the store is asked whether the user still exists and is enabled.

* `checkAuth`: the check, with the status and text it refuses a request with.
* `checkAuth_issued`: what it says to an issued token.
* `checkAuth_issuedRole`: a request that gets through has the permission of the role its user had
  in the store when the token was issued, and its user exists and is enabled now.
* `checkAuth_storedRole_refuted`: the role in the store now may have no such permission.
-/

namespace LoongNvr.Network
open Support LoongNvr.Auth

/-- What `CheckAuth` reads of a request.  A header or parameter that is not there is empty. -/
structure Request where
  method : String
  path : String
  header : String → List UInt8
  param : String → List UInt8

/-- The authorization of a request: the header, or else the `token` parameter. -/
def Request.authHeader (req : Request) : List UInt8 :=
  let header := req.header "Authorization"
  let header := if header.isEmpty then req.header "authorization" else header
  if header.isEmpty then
    let token := req.param "token"
    if token.isEmpty then header else bearer token
  else header

variable (hmac : List UInt8 → List UInt8 → List UInt8) (json : JsonText)

/-- The context of a request that is let through, or status and text of the refusal. -/
def checkAuth (authMiddleware : Option AuthMiddleware) (req : Request) (now : ℤ) :
    Except (ℕ × String) AuthContext :=
  match authMiddleware with
  | none => .ok { authenticated := true }
  | some auth =>
      if !requiresAuth req.path then .ok { authenticated := true }
      else
        let ctx := auth.authenticate hmac json (rawRequest req.authHeader) now
        if !ctx.authenticated then .error (401, "unauthorized")
        else if !hasPermission ctx.claims.role req.method req.path then .error (403, "forbidden")
        else .ok ctx

/-- The JSON library reads back the payload of the user's token, if it can write it. -/
def PayloadRoundTrips (user : UserInfo) (issued expiresAt : ℤ) : Prop :=
  ∀ text, json.dump (payload user issued expiresAt) = some text →
    json.parse text = some (payload user issued expiresAt)

variable {hmac json} {jwt : JwtHelper} {user : UserInfo} {issued : ℤ} {token : List UInt8}

theorem mem_token (h : jwt.generateToken hmac json user issued = some token) {ch : UInt8}
    (hch : ch ∈ token) : ch ∈ dot :: kTable := by
  obtain ⟨headerText, payloadText, -, rfl⟩ := JwtHelper.generateToken_eq_some h
  simp only [List.mem_append, List.mem_cons] at hch ⊢
  rcases hch with hch | rfl | hch | rfl | hch
  · exact .inr (mem_base64UrlEncode hch)
  · exact .inl rfl
  · exact .inr (mem_base64UrlEncode hch)
  · exact .inl rfl
  · exact .inr (mem_base64UrlEncode hch)

/-- **An issued token** gets a request through exactly while it has not expired, its user exists
and is enabled, and the role it was issued for has the permission. -/
theorem checkAuth_issued (h : jwt.generateToken hmac json user issued = some token)
    (hjson : PayloadRoundTrips json user issued (issued + jwt.expirySeconds)) {req : Request}
    (hpath : requiresAuth req.path = true) (htoken : req.authHeader = bearer token)
    (store : UserStore) (now : ℤ) :
    (∃ ctx, checkAuth hmac json (some { jwt := jwt, userStore := store }) req now = .ok ctx) ↔
      now ≤ issued + jwt.expirySeconds ∧
        (∃ stored, store.getUser user.id = some stored ∧ stored.enabled = true) ∧
        hasPermission user.role req.method req.path = true := by
  have hempty : token ≠ [] := by
    obtain ⟨headerText, payloadText, -, rfl⟩ := JwtHelper.generateToken_eq_some h
    simp
  have hcr : cr ∉ token := fun hch => absurd (mem_token h hch) (by decide)
  -- the claims of a token that verifies are those it was issued with
  have haccepted : ∀ claims, AuthMiddleware.acceptedClaims hmac json
      { jwt := jwt, userStore := store } token now = some claims ↔
        now ≤ issued + jwt.expirySeconds ∧
          claims = issuedClaims user issued (issued + jwt.expirySeconds) ∧
          ∃ stored, store.getUser user.id = some stored ∧ stored.enabled = true := by
    intro claims
    rw [AuthMiddleware.acceptedClaims_eq_some_iff, JwtHelper.verifyToken_generateToken h hjson]
    constructor
    · rintro ⟨hverify, hstored⟩
      split at hverify
      · exact absurd hverify (by simp)
      · obtain rfl := Option.some.inj hverify
        exact ⟨not_lt.mp ‹_›, rfl, hstored⟩
    · rintro ⟨hnow, rfl, hstored⟩
      exact ⟨if_neg (not_lt.mpr hnow), hstored⟩
  simp only [checkAuth, hpath, htoken, AuthMiddleware.authenticate_request hempty hcr,
    Bool.not_true, Bool.false_eq_true, if_false]
  cases hclaims : AuthMiddleware.acceptedClaims hmac json { jwt := jwt, userStore := store } token
      now with
  | none =>
      refine iff_of_false (by simp) ?_
      rintro ⟨hnow, hstored, -⟩
      have := (haccepted _).mpr ⟨hnow, rfl, hstored⟩
      exact absurd (hclaims.symm.trans this) (by simp)
  | some claims =>
      obtain ⟨hnow, rfl, hstored⟩ := (haccepted claims).mp hclaims
      by_cases hpermission : hasPermission user.role req.method req.path = true
      · simp [issuedClaims, hpermission, hnow, hstored]
      · simp [issuedClaims, hpermission]

/-- **Authorisation follows the role at the time of issue.**  A token is issued after the calls
`before` for the user as the store has it, and used after the calls `after`. -/
theorem checkAuth_issuedRole (sha256 : List UInt8 → List UInt8) (store : UserStore)
    (before after : List UserOp) (req : Request) (now : ℤ)
    (huser : (before.foldl (UserStore.step sha256) store).getUser user.id = some user)
    (h : jwt.generateToken hmac json user issued = some token)
    (hjson : PayloadRoundTrips json user issued (issued + jwt.expirySeconds))
    (hpath : requiresAuth req.path = true) (htoken : req.authHeader = bearer token)
    {ctx : AuthContext}
    (hctx : checkAuth hmac json (some
      { jwt := jwt, userStore := (before ++ after).foldl (UserStore.step sha256) store }) req now =
        .ok ctx) :
    (∃ stored, ((before ++ after).foldl (UserStore.step sha256) store).getUser user.id =
        some stored ∧ stored.enabled = true) ∧
      ∃ atIssue, (before.foldl (UserStore.step sha256) store).getUser user.id = some atIssue ∧
        hasPermission atIssue.role req.method req.path = true := by
  obtain ⟨-, hstored, hpermission⟩ := (checkAuth_issued h hjson hpath htoken _ now).mp ⟨ctx, hctx⟩
  exact ⟨hstored, user, huser, hpermission⟩

/-! ### An operator made a viewer -/

def bob : UserInfo where
  id := 1
  username := "bob"
  displayName := "Bob"
  role := .operator
  createdAt := 1699999000
  updatedAt := 1699999000

/-- A store with the operator's account. -/
def bobStore : UserStore where
  users := Table.empty.insert
    { username := "bob"
      password := "675e2fe21f3ff475f9a75e91c97e11d9045d2796c279c4f47479773da395f4d9"
      salt := "0f0e0d0c0b0a09080706050403020100"
      displayName := "Bob"
      role := "operator"
      createdAt := 1699999000
      updatedAt := 1699999000 }

def bobDemoted : List UserOp := [.updateUser 1 "Bob" .viewer true 1700000060 true]

def bobJwt : JwtHelper where
  secret := ascii "loong-ainvr-default-secret-change-me"

/-- The JSON library on the header and the payload of the operator's token. -/
def bobJson : JsonText where
  dump j :=
    if j.contains "alg" then some (ascii "\x7b\"alg\":\"HS256\",\"typ\":\"JWT\"\x7d")
    else some (ascii ("\x7b\"exp\":1700086400,\"iat\":1700000000,\"rol\":\"operator\"," ++
      "\"sub\":1,\"usr\":\"bob\"\x7d"))
  parse _ := some (payload bob 1700000000 1700086400)

/-- The signature of the operator's token. -/
def bobSignature : List UInt8 :=
  [12, 208, 61, 88, 40, 71, 21, 119, 99, 85, 37, 175, 59, 51, 108, 140,
    134, 132, 156, 38, 93, 78, 245, 140, 227, 76, 213, 9, 100, 62, 106, 229]

def bobToken : List UInt8 :=
  (bobJwt.generateToken (fun _ _ => bobSignature) bobJson bob 1700000000).getD []

/-- A request to create a channel, with the operator's token. -/
def createChannelRequest : Request where
  method := "POST"
  path := "/api/channels"
  header name := if name = "Authorization" then bearer bobToken else []
  param _ := []

theorem bobToken_issued :
    bobJwt.generateToken (fun _ _ => bobSignature) bobJson bob 1700000000 = some bobToken := rfl

theorem bobPayload_roundTrips :
    PayloadRoundTrips bobJson bob 1700000000 (1700000000 + bobJwt.expirySeconds) :=
  fun _ _ => rfl

theorem bob_demoted :
    (bobDemoted.foldl (UserStore.step fun _ => []) bobStore).getUser 1 =
      some { bob with role := .viewer, updatedAt := 1700000060 } := by
  decide

theorem bob_getsThrough : ∃ ctx, checkAuth (fun _ _ => bobSignature) bobJson (some
    { jwt := bobJwt, userStore := bobDemoted.foldl (UserStore.step fun _ => []) bobStore })
    createChannelRequest 1700000100 = .ok ctx := by
  have hpermission : hasPermission bob.role "POST" "/api/channels" = true := by decide
  refine (checkAuth_issued bobToken_issued bobPayload_roundTrips (by decide) rfl _ _).mpr ?_
  exact ⟨by decide, ⟨_, bob_demoted, rfl⟩, hpermission⟩

/-- The demoted operator still gets through where a viewer has no permission. -/
theorem checkAuth_storedRole_refuted :
    (∃ ctx, checkAuth (fun _ _ => bobSignature) bobJson (some
      { jwt := bobJwt, userStore := bobDemoted.foldl (UserStore.step fun _ => []) bobStore })
      createChannelRequest 1700000100 = .ok ctx) ∧
    createChannelRequest.authHeader = bearer bobToken ∧
    bobJwt.generateToken (fun _ _ => bobSignature) bobJson bob 1700000000 = some bobToken ∧
    bobStore.getUser 1 = some bob ∧ requiresAuth createChannelRequest.path = true ∧
    ∀ stored, (bobDemoted.foldl (UserStore.step fun _ => []) bobStore).getUser 1 = some stored →
      hasPermission stored.role createChannelRequest.method createChannelRequest.path = false := by
  refine ⟨bob_getsThrough, rfl, bobToken_issued, by decide, by decide, fun stored h => ?_⟩
  obtain rfl := Option.some.inj (bob_demoted.symm.trans h)
  decide

/-- The same request, and the role the token was issued for. -/
theorem checkAuth_issuedRole_bob :
    (∃ stored, (([] ++ bobDemoted).foldl (UserStore.step fun _ => []) bobStore).getUser 1 =
      some stored ∧ stored.enabled = true) ∧
    ∃ atIssue, (([] : List UserOp).foldl (UserStore.step fun _ => []) bobStore).getUser 1 =
      some atIssue ∧ hasPermission atIssue.role "POST" "/api/channels" = true := by
  obtain ⟨ctx, hctx⟩ := bob_getsThrough
  exact checkAuth_issuedRole (fun _ => []) bobStore [] bobDemoted createChannelRequest 1700000100
    (by decide) bobToken_issued bobPayload_roundTrips (by decide) rfl hctx

end LoongNvr.Network
