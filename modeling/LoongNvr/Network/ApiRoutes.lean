import LoongNvr.Network.StoredRole

/-!
# Network — ApiRoutes

The table of routes, and which requests get past the checks of its handlers.  A handler starts with
`CheckAuth`, which goes by the method and the path and knows nothing of the table; then some look at
the role themselves.

* `routes`: the table, in the order of `Register`.
* `Settled`: a text a path begins with says as much about a permission as the path.
* `answer_iff`: a route answers a request exactly if it is public, or the token of the request is
  accepted and its role may use the route.
-/

namespace LoongNvr.Network
open Support LoongNvr.Auth

namespace ApiRoutes

/-! ### Patterns -/

/-- `\\d`, `\\w` and `.` -/
inductive CharClass
  | digit
  | word
  | any
  deriving DecidableEq

def CharClass.has : CharClass → Char → Bool
  | digit, ch => ch.isDigit
  | word, ch => ch.isAlphanum || ch == '_'
  | any, ch => ch != '\n' && ch != '\r'

/-- A piece of a pattern: some text, or characters of a class, at least one. -/
inductive Piece
  | text (s : String)
  | many (chars : CharClass)
  deriving DecidableEq

/-- `std::regex_match` -/
def regexMatch : List Piece → List Char → Bool
  | [], cs => cs.isEmpty
  | .text s :: pieces, cs =>
      s.toList.isPrefixOf cs && regexMatch pieces (cs.drop s.toList.length)
  | .many chars :: pieces, cs =>
      (List.range cs.length).any fun n =>
        (cs.take (n + 1)).all chars.has && regexMatch pieces (cs.drop (n + 1))

/-! ### The table -/

/-- What a handler asks of the role behind `CheckAuth`. -/
inductive RoleCheck
  | unchecked
  | adminOnly
  | notViewer
  deriving DecidableEq

/-- The text it refuses a role with. -/
def RoleCheck.refusal : RoleCheck → UserRole → Option String
  | unchecked, _ => none
  | adminOnly, role => if role ≠ .admin then some "admin only" else none
  | notViewer, role => if role = .viewer then some "forbidden" else none

/-- An entry of the table, for requests of its method. -/
structure Route where
  method : String
  pattern : List Piece
  checksAuth : Bool := true
  requires : RoleCheck := .unchecked
  deriving DecidableEq

def routes : List Route :=
  [ { method := "POST", pattern := [.text "/api/auth/login"], checksAuth := false },
    { method := "GET", pattern := [.text "/api/auth/profile"] },
    { method := "PUT", pattern := [.text "/api/auth/password"] },
    { method := "GET", pattern := [.text "/api/users"] },
    { method := "POST", pattern := [.text "/api/users"] },
    { method := "PUT", pattern := [.text "/api/users/", .many .digit] },
    { method := "DELETE", pattern := [.text "/api/users/", .many .digit] },
    { method := "GET", pattern := [.text "/api/channels"] },
    { method := "POST", pattern := [.text "/api/channels"] },
    { method := "POST", pattern := [.text "/api/channels/", .many .digit, .text "/start"] },
    { method := "POST", pattern := [.text "/api/channels/", .many .digit, .text "/stop"] },
    { method := "GET", pattern := [.text "/api/channels/", .many .digit] },
    { method := "PUT", pattern := [.text "/api/channels/", .many .digit] },
    { method := "DELETE", pattern := [.text "/api/channels/", .many .digit] },
    { method := "GET", pattern := [.text "/api/channels/", .many .digit, .text "/overlay"] },
    { method := "PUT", pattern := [.text "/api/channels/", .many .digit, .text "/overlay"] },
    { method := "GET", pattern := [.text "/api/recordings"] },
    { method := "GET", pattern := [.text "/api/events"] },
    { method := "GET", pattern := [.text "/api/recordings/timeline"] },
    { method := "GET", pattern := [.text "/api/events/search"] },
    { method := "GET", pattern := [.text "/api/system/status"] },
    { method := "PUT", pattern := [.text "/api/system/storage"], requires := .notViewer },
    { method := "GET", pattern := [.text "/api/system/config"], requires := .adminOnly },
    { method := "PUT", pattern := [.text "/api/system/config"], requires := .adminOnly },
    { method := "GET", pattern := [.text "/api/recordings/playback"] },
    { method := "GET", pattern := [.text "/api/recordings/download"] },
    { method := "GET", pattern := [.text "/live/ch", .many .digit, .text ".flv"] },
    { method := "GET", pattern := [.text "/live/ch", .many .digit, .text "/index.m3u8"] },
    { method := "GET"
      pattern := [.text "/live/ch", .many .digit, .text "/", .many .digit, .text ".ts"] },
    { method := "GET", pattern := [.text "/api/onvif/discover"] },
    { method := "GET", pattern := [.text "/api/onvif/device/", .many .any] },
    { method := "POST", pattern := [.text "/api/onvif/device/", .many .any, .text "/ptz"] },
    { method := "GET", pattern := [.text "/api/system/notifications"] },
    { method := "PUT", pattern := [.text "/api/system/notifications"], requires := .adminOnly },
    { method := "POST", pattern := [.text "/api/system/notifications/test"] },
    { method := "GET", pattern := [.text "/api/system/notifications/history"] },
    { method := "GET", pattern := [.text "/api/rules"] },
    { method := "POST", pattern := [.text "/api/rules"] },
    { method := "GET", pattern := [.text "/api/rules/", .many .digit] },
    { method := "PUT", pattern := [.text "/api/rules/", .many .digit] },
    { method := "DELETE", pattern := [.text "/api/rules/", .many .digit] },
    { method := "GET", pattern := [.text "/api/rules/events"] },
    { method := "GET", pattern := [.text "/api/analytics/plates"] },
    { method := "GET", pattern := [.text "/api/analytics/faces"] },
    { method := "POST", pattern := [.text "/api/analytics/faces/search"] },
    { method := "GET", pattern := [.text "/api/analytics/summary"] },
    { method := "GET", pattern := [.text "/api/analytics/trends"] },
    { method := "GET", pattern := [.text "/api/analytics/heatmap"] },
    { method := "GET", pattern := [.text "/api/analytics/peak-hours"] },
    { method := "GET", pattern := [.text "/api/analytics/counting"] },
    { method := "GET", pattern := [.text "/api/health"], checksAuth := false },
    { method := "GET", pattern := [.text "/metrics"], checksAuth := false },
    { method := "POST", pattern := [.text "/api/webrtc/offer"] },
    { method := "POST", pattern := [.text "/api/webrtc/ice"] },
    { method := "DELETE", pattern := [.text "/api/webrtc/", .many .word] },
    { method := "GET", pattern := [.text "/api/backup/config"] },
    { method := "PUT", pattern := [.text "/api/backup/config"], requires := .adminOnly },
    { method := "GET", pattern := [.text "/api/backup/status"] },
    { method := "POST", pattern := [.text "/api/backup/test"] },
    { method := "POST", pattern := [.text "/api/backup/trigger"], requires := .adminOnly },
    { method := "GET", pattern := [.text "/api/mqtt/config"] },
    { method := "PUT", pattern := [.text "/api/mqtt/config"], requires := .adminOnly },
    { method := "POST", pattern := [.text "/api/mqtt/test"] },
    { method := "GET", pattern := [.text "/api/plugins"] },
    { method := "POST", pattern := [.text "/api/plugins/upload"], requires := .adminOnly },
    { method := "GET", pattern := [.text "/api/alarms/rules"] },
    { method := "POST", pattern := [.text "/api/alarms/rules"] },
    { method := "PUT", pattern := [.text "/api/alarms/rules/", .many .digit] },
    { method := "DELETE", pattern := [.text "/api/alarms/rules/", .many .digit] },
    { method := "GET", pattern := [.text "/api/alarms"] },
    { method := "POST", pattern := [.text "/api/alarms/", .many .digit, .text "/acknowledge"] },
    { method := "POST", pattern := [.text "/api/alarms/acknowledge-all"] } ]

namespace Route

def serves (route : Route) (req : Request) : Bool :=
  route.method == req.method && regexMatch route.pattern req.path.toList

/-- What a handler does before its own work: the context it goes on with, or status and text of its
refusal. -/
def answer (hmac : List UInt8 → List UInt8 → List UInt8) (json : JsonText) (route : Route)
    (authMiddleware : Option AuthMiddleware) (req : Request) (now : ℤ) :
    Except (ℕ × String) AuthContext :=
  if !route.checksAuth then .ok {}
  else
    match checkAuth hmac json authMiddleware req now with
    | .error refusal => .error refusal
    | .ok ctx =>
        match route.requires.refusal ctx.claims.role with
        | some text => .error (403, text)
        | none => .ok ctx

end Route

/-! ### Who may use which route -/

/-- The routes that ask nobody for a token. -/
def publicRoutes : List (String × List Piece) :=
  [ ("POST", [.text "/api/auth/login"]), ("GET", [.text "/api/health"]),
    ("GET", [.text "/metrics"]) ]

/-- The routes of every user: pictures, what there is to see, and the own account. -/
def viewerRoutes : List (String × List Piece) :=
  [ ("GET", [.text "/api/auth/profile"]),
    ("PUT", [.text "/api/auth/password"]),
    ("GET", [.text "/api/channels"]),
    ("GET", [.text "/api/channels/", .many .digit]),
    ("GET", [.text "/api/channels/", .many .digit, .text "/overlay"]),
    ("GET", [.text "/api/recordings"]),
    ("GET", [.text "/api/events"]),
    ("GET", [.text "/api/system/status"]),
    ("GET", [.text "/live/ch", .many .digit, .text ".flv"]),
    ("GET", [.text "/live/ch", .many .digit, .text "/index.m3u8"]),
    ("GET", [.text "/live/ch", .many .digit, .text "/", .many .digit, .text ".ts"]),
    ("GET", [.text "/api/onvif/discover"]),
    ("GET", [.text "/api/onvif/device/", .many .any]),
    ("GET", [.text "/api/system/notifications"]),
    ("GET", [.text "/api/system/notifications/history"]) ]

/-- The routes an operator has beyond these. -/
def operatorRoutes : List (String × List Piece) :=
  [ ("POST", [.text "/api/channels"]),
    ("POST", [.text "/api/channels/", .many .digit, .text "/start"]),
    ("POST", [.text "/api/channels/", .many .digit, .text "/stop"]),
    ("PUT", [.text "/api/channels/", .many .digit]),
    ("DELETE", [.text "/api/channels/", .many .digit]),
    ("PUT", [.text "/api/channels/", .many .digit, .text "/overlay"]),
    ("PUT", [.text "/api/system/storage"]),
    ("POST", [.text "/api/onvif/device/", .many .any, .text "/ptz"]),
    ("POST", [.text "/api/system/notifications/test"]) ]

namespace Route

def key (route : Route) : String × List Piece := (route.method, route.pattern)

def Public (route : Route) : Prop := route.key ∈ publicRoutes

/-- Every route is an administrator's. -/
def Allows (route : Route) : UserRole → Prop
  | .admin => True
  | .operator => route.key ∈ viewerRoutes ∨ route.key ∈ operatorRoutes
  | .viewer => route.key ∈ viewerRoutes

instance (route : Route) : Decidable route.Public := inferInstanceAs (Decidable (_ ∈ _))

instance (route : Route) : (role : UserRole) → Decidable (route.Allows role)
  | .admin => inferInstanceAs (Decidable True)
  | .operator => inferInstanceAs (Decidable (_ ∨ _))
  | .viewer => inferInstanceAs (Decidable (_ ∈ _))

/-- The text its paths begin with. -/
def head (route : Route) : String :=
  match route.pattern with
  | .text s :: _ => s
  | _ => ""

end Route

/-! ### Permissions by the beginning of a path -/

/-- The paths that the checks compare a path with. -/
def wholePaths : List String :=
  [ "/api/auth/profile", "/api/auth/password", "/api/events", "/api/recordings", "/api/auth/login",
    "/api/health", "/metrics" ]

/-- The beginnings that they look for. -/
def pathStarts : List String :=
  ["/api/users", "/api/system/", "/live/", "/api/onvif/", "/api/channels", "/api/"]

/-- What a path is compared with does not go on behind this beginning of it. -/
def Settled (head : String) : Prop :=
  (∀ text ∈ wholePaths, startsWith text head = false) ∧
    ∀ text ∈ pathStarts, startsWith text head = true → startsWith head text = true

instance (head : String) : Decidable (Settled head) := inferInstanceAs (Decidable (_ ∧ _))

theorem startsWith_iff {path start : String} :
    startsWith path start = true ↔ start.toList <+: path.toList := List.isPrefixOf_iff_prefix

section Heads

variable {path head text : String} {role : UserRole} {method : String}

theorem startsWith_of_head (hpath : startsWith path head = true)
    (h : startsWith text head = true → startsWith head text = true) :
    startsWith path text = startsWith head text := by
  rw [Bool.eq_iff_iff, startsWith_iff, startsWith_iff]
  rw [startsWith_iff] at hpath
  constructor
  · intro htext
    rcases List.prefix_or_prefix_of_prefix hpath htext with hhead | hhead
    · exact startsWith_iff.mp (h (startsWith_iff.mpr hhead))
    · exact hhead
  · exact fun htext => htext.trans hpath

theorem eq_iff_of_head (hpath : startsWith path head = true)
    (h : startsWith text head = false) : path = text ↔ head = text := by
  refine iff_of_false ?_ ?_
  · rintro rfl
    rw [hpath] at h
    cases h
  · rintro rfl
    rw [startsWith_iff.mpr List.prefix_rfl] at h
    cases h

theorem Settled.whole (h : Settled head) (hpath : startsWith path head = true) :
    ∀ text ∈ wholePaths, (path = text) = (head = text) :=
  fun text htext => propext (eq_iff_of_head hpath (h.1 text htext))

theorem Settled.starts (h : Settled head) (hpath : startsWith path head = true) :
    ∀ text ∈ pathStarts, startsWith path text = startsWith head text :=
  fun text htext => startsWith_of_head hpath (h.2 text htext)

/-- **A permission for a path** is that for a beginning of it behind which nothing is compared. -/
theorem hasPermission_of_head (hpath : startsWith path head = true) (h : Settled head) :
    hasPermission role method path = hasPermission role method head := by
  have hwhole := h.whole hpath
  have hstart := h.starts hpath
  simp only [wholePaths, pathStarts, List.forall_mem_cons] at hwhole hstart
  simp only [hasPermission, hwhole, hstart]

theorem requiresAuth_of_head (hpath : startsWith path head = true) (h : Settled head) :
    requiresAuth path = requiresAuth head := by
  have hwhole := h.whole hpath
  have hstart := h.starts hpath
  simp only [wholePaths, pathStarts, List.forall_mem_cons] at hwhole hstart
  simp only [requiresAuth, hwhole, hstart]

end Heads

/-! ### Requests of the table -/

/-- Every pattern begins with a text, which is all of it or is settled. -/
theorem routes_heads : ∀ route ∈ routes, route.pattern = [.text route.head] ∨
    route.pattern.head? = some (.text route.head) ∧ Settled route.head := by
  decide +kernel

/-- Only the public routes are not checked, and the check lets no path of another pass. -/
theorem routes_checks : ∀ route ∈ routes, (route.checksAuth = false ↔ route.Public) ∧
    (route.checksAuth = true → requiresAuth route.head = true) := by
  decide +kernel

/-- The permission and the handler's own look at the role together. -/
theorem routes_roles : ∀ route ∈ routes, route.checksAuth = true →
    ∀ role ∈ [UserRole.admin, .operator, .viewer],
      (hasPermission role route.method route.head = true ∧ route.requires.refusal role = none ↔
        route.Allows role) := by
  decide +kernel

theorem regexMatch_text {s : String} {pieces : List Piece} {cs : List Char}
    (h : regexMatch (.text s :: pieces) cs = true) :
    s.toList <+: cs ∧ (pieces = [] → cs = s.toList) := by
  obtain ⟨hstarts, hrest⟩ := Bool.and_eq_true_iff.mp h
  obtain ⟨rest, rfl⟩ := List.isPrefixOf_iff_prefix.mp hstarts
  refine ⟨List.prefix_append _ _, ?_⟩
  rintro rfl
  rw [List.drop_left, regexMatch, List.isEmpty_iff] at hrest
  rw [hrest, List.append_nil]

namespace Route

variable {route : Route} {req : Request} {hmac : List UInt8 → List UInt8 → List UInt8}
  {json : JsonText} {auth : AuthMiddleware} {now : ℤ}

/-- The path of a request is treated as the beginning of its route's paths. -/
theorem of_serves (hroute : route ∈ routes) (h : route.serves req = true) :
    requiresAuth req.path = requiresAuth route.head ∧
      ∀ role, hasPermission role req.method req.path =
        hasPermission role route.method route.head := by
  obtain ⟨hmethod, hmatch⟩ := Bool.and_eq_true_iff.mp h
  have hmethod : req.method = route.method := (beq_iff_eq.mp hmethod).symm
  rw [hmethod]
  rcases routes_heads route hroute with hpattern | ⟨hpattern, hsettled⟩
  · rw [hpattern] at hmatch
    have hpath : req.path = route.head := String.toList_injective ((regexMatch_text hmatch).2 rfl)
    rw [hpath]
    exact ⟨rfl, fun _ => rfl⟩
  · obtain ⟨pieces, hpieces⟩ := List.head?_eq_some_iff.mp hpattern
    rw [hpieces] at hmatch
    have hpath : startsWith req.path route.head = true :=
      startsWith_iff.mpr (regexMatch_text hmatch).1
    exact ⟨requiresAuth_of_head hpath hsettled, fun _ => hasPermission_of_head hpath hsettled⟩

/-- A handler behind `CheckAuth` goes on if the token is accepted, its role has the permission and
the handler does not refuse the role. -/
theorem answer_checked (hchecked : route.checksAuth = true) (hauth : requiresAuth req.path = true)
    {ctx : AuthContext}
    (hctx : auth.authenticate hmac json (rawRequest req.authHeader) now = ctx) :
    (∃ ctx', route.answer hmac json (some auth) req now = .ok ctx') ↔
      ctx.authenticated = true ∧ hasPermission ctx.claims.role req.method req.path = true ∧
        route.requires.refusal ctx.claims.role = none := by
  simp only [answer, checkAuth, hchecked, hauth, hctx, Bool.not_true, Bool.false_eq_true, if_false]
  cases hauthenticated : ctx.authenticated with
  | false => simp
  | true =>
      cases hpermission : hasPermission ctx.claims.role req.method req.path with
      | false => simp
      | true => cases hrefusal : route.requires.refusal ctx.claims.role <;> simp [hrefusal]

/-- **Who gets through to which handler.**  A route answers a request exactly if it is public, or
the token of the request is accepted and its role may use the route. -/
theorem answer_iff (hroute : route ∈ routes) (hserves : route.serves req = true)
    (auth : AuthMiddleware) (now : ℤ) :
    let ctx := auth.authenticate hmac json (rawRequest req.authHeader) now
    (∃ ctx', route.answer hmac json (some auth) req now = .ok ctx') ↔
      route.Public ∨ ctx.authenticated = true ∧ route.Allows ctx.claims.role := by
  intro ctx
  obtain ⟨hchecks, hrequires⟩ := routes_checks route hroute
  obtain ⟨hauth, hpermission⟩ := of_serves hroute hserves
  by_cases hpublic : route.Public
  · have hunchecked : route.checksAuth = false := hchecks.mpr hpublic
    exact iff_of_true ⟨{}, by rw [answer, hunchecked]; rfl⟩ (.inl hpublic)
  · have hchecked : route.checksAuth = true := by
      by_contra h
      exact hpublic (hchecks.mp (Bool.not_eq_true _ |>.mp h))
    have hallows := routes_roles route hroute hchecked ctx.claims.role
      (by cases ctx.claims.role <;> decide)
    rw [or_iff_right hpublic, answer_checked hchecked (hauth.trans (hrequires hchecked)) rfl,
      hpermission, hallows]

/-- The route of the request to create a channel. -/
def createChannel : Route where
  method := "POST"
  pattern := [.text "/api/channels"]

def bobAuth : AuthMiddleware where
  jwt := bobJwt
  userStore := bobStore

def bobContext : AuthContext :=
  bobAuth.authenticate (fun _ _ => bobSignature) bobJson
    (rawRequest createChannelRequest.authHeader) 1700000100

/-- Whether it answers the operator. -/
theorem answer_iff_createChannel :
    (∃ ctx', createChannel.answer (fun _ _ => bobSignature) bobJson (some bobAuth)
        createChannelRequest 1700000100 = .ok ctx') ↔
      createChannel.Public ∨
        bobContext.authenticated = true ∧ createChannel.Allows bobContext.claims.role :=
  answer_iff (by decide +kernel) (by decide +kernel) bobAuth 1700000100

end Route

end ApiRoutes

end LoongNvr.Network
