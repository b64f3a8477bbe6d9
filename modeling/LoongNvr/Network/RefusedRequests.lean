import LoongNvr.Network.SettingsHandlers
import LoongNvr.Network.UserHandlers

/-!
# Network — requests that are refused

Whether a refused request leaves everything as it was and an accepted one does all it asks for:
`HandleUpdateUser` and `HandleUpdateNotificationConfig`.  The second writes the mail settings before
it reads the webhook's.

* `notificationRequestKept_iff`: when it is so for a request about the notifications.
* `requestKept_iff`: when it is so for a request of either kind.
-/

namespace LoongNvr.Network
open LoongNvr.Auth LoongNvr.Notification Support

/-! ### Settings as asked -/

/-- The mail settings by their names in a body. -/
def smtpShown (smtp : SmtpConfig) : List (String × Json) :=
  [("enabled", .bool smtp.enabled), ("host", charsJson smtp.host), ("port", .num smtp.port),
    ("use_tls", .bool smtp.useTls), ("username", charsJson smtp.username),
    ("password", charsJson smtp.password), ("from_address", charsJson smtp.fromAddress),
    ("from_name", charsJson smtp.fromName),
    ("to_addresses", .arr (smtp.toAddresses.map charsJson))]

/-- The webhook settings by their names in a body. -/
def webhookShown (webhook : WebhookConfig) : List (String × Json) :=
  [("enabled", .bool webhook.enabled), ("url", .str webhook.url), ("secret", .str webhook.secret),
    ("content_type", .str webhook.contentType), ("timeout_sec", cIntJson webhook.timeoutSec),
    ("retry_count", cIntJson webhook.retryCount)]

/-- Each setting that the body names has the value it gives there. -/
def AsAsked (shown : List (String × Json)) (j : Json) : Prop :=
  ∀ setting ∈ shown, ∀ v ∈ j.member setting.1, v = setting.2

/-- The member is not there or an integer that fits an `int`. -/
def FitsInt (key : String) (j : Json) : Prop := ∀ v ∈ j.member key, ∃ n : CInt, v = cIntJson n

/-- The mail settings of a body are of the right kinds. -/
def PlainSmtp (s : Json) : Prop :=
  FitsInt "port" s ∧ ∀ v ∈ s.member "to_addresses", ∃ items, v = .arr items

/-- The webhook settings of a body are of the right kinds. -/
def PlainWebhook (w : Json) : Prop := FitsInt "timeout_sec" w ∧ FitsInt "retry_count" w

theorem getChars_eq_some {v : Json} {cs : List Char} : getChars v = some cs ↔ v = charsJson cs := by
  rw [getChars, charsJson, Option.map_eq_some_iff]
  constructor
  · rintro ⟨s, hs, rfl⟩
    rw [getStr_eq_some.mp hs, String.ofList_toList]
  · rintro rfl
    exact ⟨_, rfl, String.toList_ofList⟩

/-- What an array was read from. -/
theorem mapM_getChars_eq_some {items : List Json} {addresses : List (List Char)}
    (h : items.mapM getChars = some addresses) : items = addresses.map charsJson := by
  induction items generalizing addresses with
  | nil =>
      obtain rfl := Option.some.inj h
      rfl
  | cons item items ih =>
      rw [List.mapM_cons] at h
      simp only [Option.bind_eq_bind, Option.bind_eq_some_iff, Option.pure_def,
        Option.some.injEq] at h
      obtain ⟨address, hitem, rest, hrest, rfl⟩ := h
      rw [List.map_cons, ← getChars_eq_some.mp hitem, ← ih hrest]

/-- A number that is read is the value given exactly where that is an integer that fits. -/
theorem int_asAsked_iff {key : String} {default n : CInt} {j : Json}
    (h : j.value Json.getCInt key default = some n) :
    (∀ v ∈ j.member key, v = cIntJson n) ↔ FitsInt key j := by
  refine forall₂_congr fun v hv => ⟨fun hsame => ⟨n, hsame⟩, ?_⟩
  rintro ⟨n', rfl⟩
  have hread := value_member h hv
  rw [cIntJson, Json.getCInt_val] at hread
  rw [Option.some.inj hread]

theorem addresses_asAsked_iff {s : Json} {addresses : List (List Char)}
    (h : readToAddresses s = some addresses) :
    (∀ v ∈ s.member "to_addresses", v = .arr (addresses.map charsJson)) ↔
      ∀ v ∈ s.member "to_addresses", ∃ items, v = .arr items := by
  refine forall₂_congr fun v hv => ⟨fun hsame => ⟨_, hsame⟩, ?_⟩
  rintro ⟨items, rfl⟩
  rw [readToAddresses, Option.mem_def.mp hv] at h
  rw [← mapM_getChars_eq_some h]
  rfl

theorem str_asAsked {key default a : String} {j : Json}
    (h : j.value Json.getStr key default = some a) : ∀ v ∈ j.member key, v = .str a :=
  fun _ hv => getStr_eq_some.mp (value_member h hv)

theorem bool_asAsked {key : String} {default a : Bool} {j : Json}
    (h : j.value Json.getBool key default = some a) : ∀ v ∈ j.member key, v = .bool a :=
  fun _ hv => getBool_eq_some.mp (value_member h hv)

theorem chars_asAsked {key : String} {default a : List Char} {j : Json}
    (h : j.value getChars key default = some a) : ∀ v ∈ j.member key, v = charsJson a :=
  fun _ hv => getChars_eq_some.mp (value_member h hv)

/-- **The webhook settings read** are those of the body where they are of the right kinds. -/
theorem readWebhook_asAsked_iff {w : Json} {webhook : WebhookConfig}
    (h : readWebhook w = some webhook) : AsAsked (webhookShown webhook) w ↔ PlainWebhook w := by
  simp only [readWebhook, Option.bind_eq_bind, Option.bind_eq_some_iff, Option.pure_def,
    Option.some.injEq] at h
  obtain ⟨_, henabled, _, hurl, _, hsecret, _, htype, _, htimeout, _, hretry, rfl⟩ := h
  simp only [AsAsked, webhookShown, List.forall_mem_cons, int_asAsked_iff htimeout,
    int_asAsked_iff hretry]
  have hrest := And.intro (bool_asAsked henabled)
    (And.intro (str_asAsked hurl) (And.intro (str_asAsked hsecret) (str_asAsked htype)))
  constructor
  · rintro ⟨-, -, -, -, hfits, hfits', -⟩
    exact ⟨hfits, hfits'⟩
  · rintro ⟨hfits, hfits'⟩
    exact ⟨hrest.1, hrest.2.1, hrest.2.2.1, hrest.2.2.2, hfits, hfits', by simp⟩

/-- **The mail settings read** are those of the body where they are of the right kinds. -/
theorem readSmtp_asAsked_iff {s : Json} {smtp : SmtpSettings} (h : readSmtp s = some smtp) :
    AsAsked (smtpShown smtp.val) s ↔ PlainSmtp s := by
  simp only [readSmtp, Option.bind_eq_bind, Option.bind_eq_some_iff, Option.pure_def,
    Option.some.injEq] at h
  obtain ⟨_, hport, _, henabled, _, hhost, _, htls, _, husername, _, hpassword, _, hfrom, _, hname,
    _, haddresses, rfl⟩ := h
  have hportIff := int_asAsked_iff hport
  simp only [cIntJson] at hportIff
  simp only [AsAsked, smtpShown, List.forall_mem_cons, hportIff, addresses_asAsked_iff haddresses]
  constructor
  · rintro ⟨-, -, hfits, -, -, -, -, -, harray, -⟩
    exact ⟨hfits, harray⟩
  · rintro ⟨hfits, harray⟩
    exact ⟨bool_asAsked henabled, chars_asAsked hhost, hfits, bool_asAsked htls,
      chars_asAsked husername, chars_asAsked hpassword, chars_asAsked hfrom, chars_asAsked hname,
      harray, by simp⟩

/-! ### Requests about the notifications -/

/-- A request to change the notification settings. -/
structure NotificationRequest where
  role : UserRole
  body : Option Json

def NotificationRequest.handle (r : NotificationRequest) (m : NotificationManager) :
    NotificationManager × ℕ :=
  handleUpdateNotificationConfig r.role r.body m

/-- A refused request changes nothing, and after an accepted one the settings are as asked. -/
def NotificationRequestKept (r : NotificationRequest) (m : NotificationManager) : Prop :=
  (400 ≤ (r.handle m).2 ∧ (r.handle m).2 < 500 → (r.handle m).1 = m) ∧
    ((r.handle m).2 = 200 → ∀ j ∈ r.body,
      (∀ s ∈ j.member "smtp", AsAsked (smtpShown (r.handle m).1.smtp.val) s) ∧
        ∀ w ∈ j.member "webhook", AsAsked (webhookShown (r.handle m).1.webhook) w)

/-- What a body must be that an administrator sends: where a section is refused, the mail settings
are refused too or are those there are; else the settings are of the right kinds. -/
structure NotificationBodySound (j : Json) (m : NotificationManager) : Prop where
  refused : (∃ w ∈ j.member "webhook", readWebhook w = none) →
    ∀ s ∈ j.member "smtp", readSmtp s = none ∨ readSmtp s = some m.smtp
  accepted : (∀ s ∈ j.member "smtp", readSmtp s ≠ none) →
    (∀ w ∈ j.member "webhook", readWebhook w ≠ none) →
    (∀ s ∈ j.member "smtp", PlainSmtp s) ∧ ∀ w ∈ j.member "webhook", PlainWebhook w

theorem updateSmtp_eq_none {j : Json} {m : NotificationManager} (h : updateSmtp j m = none) :
    ∃ s ∈ j.member "smtp", readSmtp s = none := by
  unfold updateSmtp at h
  split at h
  · cases h
  · next s hs => exact ⟨s, hs, Option.map_eq_none_iff.mp h⟩

/-- What the block for the mail settings leaves. -/
theorem updateSmtp_eq_some {j : Json} {m m' : NotificationManager} (h : updateSmtp j m = some m') :
    m' = { m with smtp := m'.smtp } ∧ (∀ s ∈ j.member "smtp", readSmtp s = some m'.smtp) ∧
      (j.member "smtp" = none → m'.smtp = m.smtp) := by
  unfold updateSmtp at h
  split at h
  · next hnone =>
      obtain rfl := Option.some.inj h
      refine ⟨rfl, fun s hs => ?_, fun _ => rfl⟩
      rw [hnone] at hs
      cases hs
  · next s hs =>
      obtain ⟨smtp, hread, rfl⟩ := Option.map_eq_some_iff.mp h
      refine ⟨rfl, fun s' hs' => ?_, fun hnone => ?_⟩
      · rw [Option.some.inj (hs.symm.trans hs')] at hread
        exact hread
      · rw [hs] at hnone
        cases hnone

theorem updateWebhook_eq_none {j : Json} {m : NotificationManager} (h : updateWebhook j m = none) :
    ∃ w ∈ j.member "webhook", readWebhook w = none := by
  unfold updateWebhook at h
  split at h
  · cases h
  · next w hw => exact ⟨w, hw, Option.map_eq_none_iff.mp h⟩

/-- What the block for the webhook settings leaves. -/
theorem updateWebhook_eq_some {j : Json} {m m' : NotificationManager}
    (h : updateWebhook j m = some m') :
    m'.smtp = m.smtp ∧ ∀ w ∈ j.member "webhook", readWebhook w = some m'.webhook := by
  unfold updateWebhook at h
  split at h
  · next hnone =>
      obtain rfl := Option.some.inj h
      refine ⟨rfl, fun w hw => ?_⟩
      rw [hnone] at hw
      cases hw
  · next w hw =>
      obtain ⟨webhook, hread, rfl⟩ := Option.map_eq_some_iff.mp h
      refine ⟨rfl, fun w' hw' => ?_⟩
      rw [Option.some.inj (hw.symm.trans hw')] at hread
      exact hread

/-- A request whose handler leaves all as it was and does not answer 200. -/
theorem NotificationRequestKept.of_refused {r : NotificationRequest} {m : NotificationManager}
    (status : ℕ) (hstatus : status ≠ 200) (h : r.handle m = (m, status)) :
    NotificationRequestKept r m := by
  rw [NotificationRequestKept, h]
  exact ⟨fun _ => rfl, fun h => absurd h hstatus⟩

section
variable {r : NotificationRequest} {m m₁ m₂ : NotificationManager} {j : Json}

/-- The webhook settings are refused when the mail settings have been changed. -/
theorem notificationRequestKept_halfway (hrole : r.role = .admin) (hbody : r.body = some j)
    (hsmtp : updateSmtp j m = some m₁) (hwebhook : updateWebhook j m₁ = none) :
    NotificationRequestKept r m ↔ NotificationBodySound j m := by
  obtain ⟨hfirst, hread, hleft⟩ := updateSmtp_eq_some hsmtp
  obtain ⟨w, hw, hnone⟩ := updateWebhook_eq_none hwebhook
  have hhandle : r.handle m = (m₁, 400) := by
    simp [NotificationRequest.handle, handleUpdateNotificationConfig, hrole, hbody, hsmtp, hwebhook]
  rw [NotificationRequestKept, hhandle]
  constructor
  · rintro ⟨hsame, -⟩
    refine ⟨fun _ s hs => .inr ?_, fun _ haccepted => absurd hnone (haccepted w hw)⟩
    have hsame : m₁ = m := hsame ⟨by simp, by simp⟩
    rw [hread s hs, hsame]
  · intro hsound
    refine ⟨fun _ => ?_, fun h => absurd h (by simp)⟩
    have hsame : m₁.smtp = m.smtp := by
      cases hs : j.member "smtp" with
      | none => exact hleft hs
      | some s =>
          have hreads := hread s hs
          rcases hsound.refused ⟨w, hw, hnone⟩ s hs with h | h
          · rw [h] at hreads
            cases hreads
          · exact Option.some.inj (hreads.symm.trans h)
    rw [hfirst, hsame]

theorem notificationRequestKept_accepted (hrole : r.role = .admin) (hbody : r.body = some j)
    (hsmtp : updateSmtp j m = some m₁) (hwebhook : updateWebhook j m₁ = some m₂) :
    NotificationRequestKept r m ↔ NotificationBodySound j m := by
  obtain ⟨-, hread, -⟩ := updateSmtp_eq_some hsmtp
  obtain ⟨hsame, hreadWebhook⟩ := updateWebhook_eq_some hwebhook
  have hhandle : r.handle m = (m₂, 200) := by
    simp [NotificationRequest.handle, handleUpdateNotificationConfig, hrole, hbody, hsmtp, hwebhook]
  have hasked : NotificationRequestKept r m ↔
      (∀ s ∈ j.member "smtp", PlainSmtp s) ∧ ∀ w ∈ j.member "webhook", PlainWebhook w := by
    rw [NotificationRequestKept, hhandle, hbody]
    simp only [Option.mem_def, Option.some.injEq, forall_eq', forall_true_left]
    refine (and_iff_right fun h => absurd h.1 (by simp)).trans (and_congr ?_ ?_)
    · exact forall₂_congr fun s hs => readSmtp_asAsked_iff (hsame ▸ hread s hs)
    · exact forall₂_congr fun w hw => readWebhook_asAsked_iff (hreadWebhook w hw)
  rw [hasked]
  constructor
  · intro hplain
    refine ⟨?_, fun _ _ => hplain⟩
    rintro ⟨w, hw, hnone⟩
    rw [hreadWebhook w hw] at hnone
    cases hnone
  · intro hsound
    refine hsound.accepted (fun s hs hnone => ?_) fun w hw hnone => ?_
    · rw [hread s hs] at hnone
      cases hnone
    · rw [hreadWebhook w hw] at hnone
      cases hnone

end

/-- **A request about the notifications is refused with nothing changed, or carried out whole**,
exactly where it is no administrator's or its body is sound. -/
theorem notificationRequestKept_iff (r : NotificationRequest) (m : NotificationManager) :
    NotificationRequestKept r m ↔
      (r.role = .admin → ∀ j ∈ r.body, NotificationBodySound j m) := by
  by_cases hrole : r.role = .admin
  · rw [imp_iff_right hrole]
    cases hbody : r.body with
    | none =>
        refine iff_of_true (.of_refused 400 (by decide) ?_) fun j hj => by cases hj
        simp [NotificationRequest.handle, handleUpdateNotificationConfig, hrole, hbody]
    | some j =>
        simp only [Option.mem_def, Option.some.injEq, forall_eq']
        cases hsmtp : updateSmtp j m with
        | none =>
            -- the mail settings are refused, before anything is changed
            obtain ⟨s, hs, hnone⟩ := updateSmtp_eq_none hsmtp
            refine iff_of_true (.of_refused 400 (by decide) ?_) ⟨fun _ s' hs' => ?_, ?_⟩
            · simp [NotificationRequest.handle, handleUpdateNotificationConfig, hrole, hbody, hsmtp]
            · rw [← Option.some.inj (hs.symm.trans hs')]
              exact .inl hnone
            · intro haccepted
              exact absurd hnone (haccepted s hs)
        | some m₁ =>
            cases hwebhook : updateWebhook j m₁ with
            | none => exact notificationRequestKept_halfway hrole hbody hsmtp hwebhook
            | some m₂ => exact notificationRequestKept_accepted hrole hbody hsmtp hwebhook
  · refine iff_of_true (.of_refused 403 (by decide) ?_) fun h => absurd h hrole
    simp [NotificationRequest.handle, handleUpdateNotificationConfig, hrole]

/-! ### Requests of either kind -/

/-- What the two handlers change. -/
structure Stores where
  users : UserStore := {}
  notifications : NotificationManager := {}

/-- A request to one of the two handlers. -/
inductive UpdateRequest
  | updateUser (r : UserRequest) (run : UserUpdateRun)
  | updateNotificationConfig (r : NotificationRequest)

/-- What a request leaves, and the status of its answer. -/
def handleRequest (sha256 : List UInt8 → List UInt8) (s : Stores) : UpdateRequest → Stores × ℕ
  | .updateUser r run =>
      ({ s with users := (handleUpdateUser sha256 run r s.users).1 },
        (handleUpdateUser sha256 run r s.users).2)
  | .updateNotificationConfig r =>
      ({ s with notifications := (r.handle s.notifications).1 }, (r.handle s.notifications).2)

/-- The user and the settings are as the request asks. -/
def DoneAsAsked (sha256 : List UInt8 → List UInt8) (s : Stores) : UpdateRequest → Prop
  | .updateUser r _ => ∀ userId ∈ r.userId, ∀ j ∈ r.body, ∃ row,
      s.users.users.find userId = some row ∧ UserAsAsked sha256 j row
  | .updateNotificationConfig r => ∀ j ∈ r.body,
      (∀ mail ∈ j.member "smtp", AsAsked (smtpShown s.notifications.smtp.val) mail) ∧
        ∀ w ∈ j.member "webhook", AsAsked (webhookShown s.notifications.webhook) w

/-- A request that is refused changes nothing, and one that is accepted is carried out whole. -/
def RequestKept (sha256 : List UInt8 → List UInt8) (s : Stores) (r : UpdateRequest) : Prop :=
  (400 ≤ (handleRequest sha256 s r).2 ∧ (handleRequest sha256 s r).2 < 500 →
      (handleRequest sha256 s r).1 = s) ∧
    ((handleRequest sha256 s r).2 = 200 → DoneAsAsked sha256 (handleRequest sha256 s r).1 r)

/-- What a request must be, as far as it gets. -/
def RequestSound (sha256 : List UInt8 → List UInt8) (s : Stores) : UpdateRequest → Prop
  | .updateUser r run => ∀ userId j row fields, Reached r s.users userId j row fields →
      run.updateDone = true → UserRequestSound sha256 run j row fields
  | .updateNotificationConfig r =>
      r.role = .admin → ∀ j ∈ r.body, NotificationBodySound j s.notifications

/-- **A request is refused with nothing changed, or carried out whole**, exactly where it is
sound. -/
theorem requestKept_iff (sha256 : List UInt8 → List UInt8) (s : Stores) (r : UpdateRequest) :
    RequestKept sha256 s r ↔ RequestSound sha256 s r := by
  cases r with
  | updateUser r run =>
      rw [RequestSound, ← userRequestKept_iff]
      refine and_congr (imp_congr_right fun _ => ?_) Iff.rfl
      exact ⟨congrArg Stores.users, fun h => congrArg (Stores.mk · s.notifications) h⟩
  | updateNotificationConfig r =>
      rw [RequestSound, ← notificationRequestKept_iff]
      refine and_congr (imp_congr_right fun _ => ?_) Iff.rfl
      exact ⟨congrArg Stores.notifications, fun h => congrArg (Stores.mk s.users) h⟩

/-- A store with the user 1. -/
def oneUser : Stores where
  users := { users := Table.empty.insert {
    username := "guard"
    password := ""
    salt := ""
    createdAt := 0
    updatedAt := 0 } }

/-- The user 1 is made an administrator, with a password of one character: the answer is 400, and
the user is an administrator. -/
theorem requestKept_refuted :
    ¬ RequestKept id oneUser (.updateUser
      { userId := some 1, body := some (.obj [("role", .str "admin"), ("password", .str "x")]) }
      { now := 10, later := 10, salt := "" }) := by
  intro h
  have hsame := congrArg (fun s => (s.users.users.find 1).map (·.role))
    (h.1 ⟨by decide, by decide⟩)
  exact absurd hsame (by decide)

end LoongNvr.Network
