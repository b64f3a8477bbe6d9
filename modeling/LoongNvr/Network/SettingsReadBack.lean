import LoongNvr.Network.SettingsHandlers

/-!
# Network — settings saved as they were read

Whether sending a settings answer back changes nothing.  The answers leave the secrets out, and so
the provider's number and the channels of the backup; the update sets to its default what a body
leaves out.  The answer with the running configuration has `***` in the place of its secrets, and
that is merged into it like anything else.

* `update_notificationConfig`, `update_mqttConfig`, `update_backupConfig`: what a settings answer
  sent back leaves.
* `update_config_iff`: when sections of the running configuration sent back change nothing.
* `savesAsRead_iff`: saving changes nothing exactly where there are no secrets and the backup has
  its default provider and no channels.
-/

namespace LoongNvr.Network
open LoongNvr.Auth LoongNvr.Core LoongNvr.Notification Support
open Std (ExtTreeMap)

/-! ### Settings answers sent back -/

theorem getChars_charsJson (cs : List Char) : getChars (charsJson cs) = some cs := by
  simp [getChars, charsJson, Json.getStr]

theorem getCInt_cIntJson (n : CInt) : (cIntJson n).getCInt = some n := Json.getCInt_val n

theorem readSmtp_answer (m : NotificationManager) :
    (getNotificationConfig m).member "smtp" >>= readSmtp =
      some ⟨{ m.smtp.val with password := [] }, m.smtp.property⟩ := by
  have hport : Json.getCInt (.num m.smtp.val.port) = some ⟨m.smtp.val.port, m.smtp.property⟩ :=
    Json.getCInt_val ⟨m.smtp.val.port, m.smtp.property⟩
  have haddresses : (m.smtp.val.toAddresses.map charsJson).mapM getChars =
      some m.smtp.val.toAddresses := Json.getList_map getChars_charsJson m.smtp.val.toAddresses
  simp [getNotificationConfig, Json.member, readSmtp, readToAddresses, Json.value, Json.items,
    List.lookup_cons, Json.getBool, getChars_charsJson, hport, haddresses]

theorem readWebhook_answer (m : NotificationManager) :
    (getNotificationConfig m).member "webhook" >>= readWebhook =
      some { m.webhook with secret := "" } := by
  simp [getNotificationConfig, Json.member, readWebhook, Json.value, List.lookup_cons,
    getCInt_cIntJson, Json.getBool, Json.getStr]

/-- **The answer of the notification settings sent back** takes the two secrets away. -/
theorem update_notificationConfig (m : NotificationManager) :
    handleUpdateNotificationConfig .admin (some (getNotificationConfig m)) m =
      ({ m with
        smtp := ⟨{ m.smtp.val with password := [] }, m.smtp.property⟩
        webhook := { m.webhook with secret := "" } }, 200) := by
  obtain ⟨s, hsmtp, hreadSmtp⟩ := Option.bind_eq_some_iff.mp (readSmtp_answer m)
  obtain ⟨w, hwebhook, hreadWebhook⟩ := Option.bind_eq_some_iff.mp (readWebhook_answer m)
  simp [handleUpdateNotificationConfig, updateSmtp, updateWebhook, hsmtp, hreadSmtp, hwebhook,
    hreadWebhook]

/-- **The answer of the MQTT settings sent back** takes the password away. -/
theorem update_mqttConfig (m : NotificationManager) :
    handleUpdateMqttConfig .admin (some (getMqttConfig m)) m =
      ({ m with mqtt := { m.mqtt with password := "" } }, 200) := by
  have hread : readMqtt (getMqttConfig m) = some { m.mqtt with password := "" } := by
    simp [getMqttConfig, readMqtt, Json.value, List.lookup_cons, getCInt_cIntJson, Json.getBool,
      Json.getStr]
  simp [handleUpdateMqttConfig, hread]

/-- **The answer of the backup settings sent back** takes the keys and the channels away, and the
provider becomes the default one. -/
theorem update_backupConfig (b : BackupSettings) :
    handleUpdateBackupConfig .admin (some (getBackupConfig b)) b =
      ({ config := { b.config with provider := .s3, accessKey := "", secretKey := "" }
         policy := { b.policy with channelIds := [] } }, 200) := by
  have hconfig : readCloudConfig (getBackupConfig b) =
      some { b.config with provider := .s3, accessKey := "", secretKey := "" } := by
    simp [getBackupConfig, readCloudConfig, Json.value, List.lookup_cons, Json.getBool, Json.getStr]
  have hpolicy : readPolicy (getBackupConfig b) = some { b.policy with channelIds := [] } := by
    simp [getBackupConfig, readPolicy, Json.value, List.lookup_cons, getCInt_cIntJson]
  simp [handleUpdateBackupConfig, hconfig, hpolicy]

/-! ### Sections of the running configuration sent back -/

/-- Some sections of an answer with the running configuration, none of which is immutable. -/
def SectionsOf (answer : Document Json) (sections : ExtTreeMap String Json) : Prop :=
  ∀ key value, sections[key]? = some value →
    answer.member key = some value ∧ key ∉ immutableSections

/-- Merging an object into an object succeeds. -/
theorem merge_object (sections members : ExtTreeMap String Json) :
    ∃ merged, (Document.object sections).merge (.object members) = some (.object merged) := by
  rw [Document.merge]
  generalize (Document.object sections).items = items
  induction items generalizing members with
  | nil => exact ⟨members, rfl⟩
  | cons item items ih => exact ih (members.insert item.1 item.2)

theorem object_of_member {cfg : Document Json} {key : String} {value : Json}
    (h : cfg.member key = some value) : ∃ members, cfg = .object members := by
  cases cfg with
  | object members => exact ⟨members, rfl⟩
  | null | array | primitive => cases h

theorem member_changeSection (key other : String) (f : Json → Json) (cfg : Document Json) :
    (changeSection key f cfg).member other =
      if other = key then (cfg.member key).map f else cfg.member other := by
  cases hmember : cfg.member key with
  | none =>
      simp only [changeSection, hmember, Option.map_none]
      split
      · next h => rw [h, hmember]
      · rfl
  | some j =>
      obtain ⟨members, rfl⟩ := object_of_member hmember
      simp only [changeSection, hmember]
      exact Document.member_set rfl

/-- What of the running configuration the answer has, outside the immutable sections. -/
theorem member_getConfig (m : HotReloadManager Json) {key : String}
    (h : key ∉ immutableSections) :
    (getConfig m).member key = if key = "notifications" then
        (m.currentConfig.member "notifications").map maskNotifications
      else m.currentConfig.member key := by
  have hauth : key ≠ "auth" := fun e => h (e ▸ by decide)
  rw [getConfig, member_changeSection, member_changeSection, member_changeSection,
    if_neg hauth, if_neg (by decide : "notifications" ≠ "auth")]

/-- **A merge changes nothing** where each section is there with that value already. -/
theorem merge_eq_self_iff {cfg : Document Json} {sections : ExtTreeMap String Json}
    (h : ∀ key value, sections[key]? = some value → (cfg.member key).isSome) :
    ∃ merged, (Document.object sections).merge cfg = some merged ∧
      (merged = cfg ↔
        ∀ key value, sections[key]? = some value → cfg.member key = some value) := by
  by_cases hempty : ∃ key : String, ∃ value, sections[key]? = some value
  · obtain ⟨key, value, hvalue⟩ := hempty
    obtain ⟨members, rfl⟩ := object_of_member (Option.eq_some_of_isSome (h key value hvalue))
    obtain ⟨merged, hmerge⟩ := merge_object sections members
    have hmember : ∀ key : String, merged[key]? = (sections[key]?).or members[key]? := by
      intro key
      have h := Document.member_merge hmerge key
      rwa [Document.lookup_items_object] at h
    refine ⟨_, hmerge, ?_⟩
    rw [Document.object.injEq]
    constructor
    · rintro rfl key value hvalue
      rw [Document.member, hmember key, hvalue, Option.some_or]
    · intro hsame
      refine ExtTreeMap.ext_getElem? fun key => ?_
      rw [hmember key]
      cases hsection : sections[key]? with
      | none => rfl
      | some value => exact (hsame key value hsection).symm
  · -- nothing is merged
    have hitems : (Document.object sections).items = [] := by
      refine List.eq_nil_iff_forall_not_mem.mpr fun item hitem => hempty ⟨item.1, item.2, ?_⟩
      exact ExtTreeMap.mem_toList_iff_getElem?_eq_some.mp hitem
    refine ⟨cfg, by rw [Document.merge, hitems]; rfl, iff_of_true rfl fun key value hvalue => ?_⟩
    exact absurd ⟨key, value, hvalue⟩ hempty

/-- The secrets of the section are not there, or what the answer puts in their place. -/
def Unmasked (notif : Json) : Prop :=
  (∀ smtp ∈ notif.member "smtp", ∀ password ∈ smtp.member "password", password = .str "***") ∧
    ∀ webhook ∈ notif.member "webhook", ∀ secret ∈ webhook.member "secret", secret = .str "***"

theorem mask_eq_self_iff (key : String) (j : Json) :
    mask key j = j ↔ ∀ value ∈ j.member key, value = .str "***" := by
  constructor
  · intro h value hvalue
    have hmember := Json.member_changeMember key key (fun _ => .str "***") j
    rw [← mask, h, if_pos rfl, hvalue] at hmember
    exact Option.some.inj hmember
  · intro h
    exact Json.changeMember_eq_self fun value hvalue => (h value hvalue).symm

theorem maskNotifications_eq_self_iff (notif : Json) :
    maskNotifications notif = notif ↔ Unmasked notif := by
  constructor
  · intro h
    have hmember : ∀ key, (maskNotifications notif).member key = notif.member key :=
      fun key => congrArg _ h
    simp only [maskNotifications, Json.member_changeMember] at hmember
    constructor
    · intro smtp hsmtp
      have hsame := hmember "smtp"
      rw [if_neg (by decide), if_pos rfl, hsmtp] at hsame
      exact (mask_eq_self_iff _ _).mp (Option.some.inj hsame)
    · intro webhook hwebhook
      have hsame := hmember "webhook"
      rw [if_pos rfl, if_neg (by decide), hwebhook] at hsame
      exact (mask_eq_self_iff _ _).mp (Option.some.inj hsame)
  · rintro ⟨hsmtp, hwebhook⟩
    have hfirst : notif.changeMember "smtp" (mask "password") = notif :=
      Json.changeMember_eq_self fun smtp h => (mask_eq_self_iff _ _).mpr (hsmtp smtp h)
    rw [maskNotifications, hfirst]
    exact Json.changeMember_eq_self fun webhook h => (mask_eq_self_iff _ _).mpr (hwebhook webhook h)

/-- The configuration after a patch is the merged one. -/
theorem currentConfig_applyPatch {m : HotReloadManager Json} {patch merged : Document Json}
    (h : patch.merge m.currentConfig = some merged) :
    ∃ m', HotReloadManager.applyPatch .null patch m = some m' ∧ m'.currentConfig = merged := by
  rw [HotReloadManager.applyPatch, HotReloadManager.mergePatch, h]
  refine ⟨_, rfl, (HotReloadManager.foldl_give _ _).1.trans ?_⟩
  exact HotReloadManager.loadFromFile_currentConfig _

section
variable {m : HotReloadManager Json} {sections : ExtTreeMap String Json}

/-- A section sent back is the running one, the notifications with their secrets masked. -/
theorem SectionsOf.shown (h : SectionsOf (getConfig m) sections) {key : String} {value : Json}
    (hvalue : sections[key]? = some value) :
    (if key = "notifications" then
      (m.currentConfig.member "notifications").map maskNotifications
      else m.currentConfig.member key) = some value := by
  obtain ⟨hmember, hnot⟩ := h key value hvalue
  rwa [member_getConfig m hnot] at hmember

theorem SectionsOf.isSome (h : SectionsOf (getConfig m) sections) (key : String) (value : Json)
    (hvalue : sections[key]? = some value) : (m.currentConfig.member key).isSome := by
  have hshown := h.shown hvalue
  split at hshown
  · next hkey =>
      obtain ⟨notif, hnotif, -⟩ := Option.map_eq_some_iff.mp hshown
      rw [hkey, hnotif, Option.isSome_some]
  · rw [hshown, Option.isSome_some]

/-- The sections are the running ones unless a secret among them is masked. -/
theorem SectionsOf.same_iff (h : SectionsOf (getConfig m) sections) :
    (∀ key value, sections[key]? = some value → m.currentConfig.member key = some value) ↔
      ("notifications" ∈ sections →
        ∀ notif ∈ m.currentConfig.member "notifications", Unmasked notif) := by
  constructor
  · intro hsame hthere notif hnotif
    obtain ⟨value, hvalue⟩ := Option.isSome_iff_exists.mp
      (ExtTreeMap.isSome_getElem?_iff_mem.mpr hthere)
    have hmasked := h.shown hvalue
    rw [if_pos rfl, hnotif, Option.map_some] at hmasked
    rw [← maskNotifications_eq_self_iff]
    rw [← Option.some.injEq, hmasked, ← hsame _ value hvalue, hnotif]
  · intro hunmasked key value hvalue
    have hmasked := h.shown hvalue
    split at hmasked
    · next hkey =>
        subst hkey
        obtain ⟨notif, hnotif, hmasked⟩ := Option.map_eq_some_iff.mp hmasked
        have hthere : "notifications" ∈ sections :=
          ExtTreeMap.isSome_getElem?_iff_mem.mp (hvalue ▸ rfl)
        have hsame := (maskNotifications_eq_self_iff notif).mpr (hunmasked hthere notif hnotif)
        rw [hnotif, ← hmasked, hsame]
    · exact hmasked

end

/-- **Sections sent back** change nothing but for a masked secret. -/
theorem update_config_iff (m : HotReloadManager Json) {sections : ExtTreeMap String Json}
    (hsections : SectionsOf (getConfig m) sections) :
    (handleUpdateConfig .admin (some (.object sections)) m).1.currentConfig = m.currentConfig ↔
      ("notifications" ∈ sections →
        ∀ notif ∈ m.currentConfig.member "notifications", Unmasked notif) := by
  have hmutable : immutableSections.any (Document.contains · (.object sections)) = false := by
    rw [List.any_eq_false]
    intro key hkey hcontains
    obtain ⟨value, hvalue⟩ := Option.isSome_iff_exists.mp hcontains
    exact (hsections key value hvalue).2 hkey
  obtain ⟨merged, hmerge, hsame⟩ := merge_eq_self_iff hsections.isSome
  obtain ⟨m', happly, hconfig⟩ := currentConfig_applyPatch hmerge
  have hafter : (handleUpdateConfig .admin (some (.object sections)) m).1.currentConfig =
      merged := by
    simp [handleUpdateConfig, hmutable, happly, hconfig]
  rw [hafter, hsame]
  exact hsections.same_iff

/-! ### Saving what was read -/

/-- The settings that are read and saved. -/
structure Settings where
  notifications : NotificationManager := {}
  backup : BackupSettings := {}
  running : HotReloadManager Json

/-- Each answer sent back leaves all the settings as they were; of the running configuration some
sections are sent. -/
def SavesAsRead (s : Settings) (sections : ExtTreeMap String Json) : Prop :=
  (handleUpdateNotificationConfig .admin (some (getNotificationConfig s.notifications))
      s.notifications).1 = s.notifications ∧
    (handleUpdateMqttConfig .admin (some (getMqttConfig s.notifications))
      s.notifications).1 = s.notifications ∧
    (handleUpdateBackupConfig .admin (some (getBackupConfig s.backup)) s.backup).1 = s.backup ∧
    (handleUpdateConfig .admin (some (.object sections)) s.running).1.currentConfig =
      s.running.currentConfig

/-- The notifications have no secrets, and the backup neither keys nor a provider or channels of
its own. -/
structure NothingLeftOut (s : Settings) : Prop where
  smtp : s.notifications.smtp.val.password = []
  webhook : s.notifications.webhook.secret = ""
  mqtt : s.notifications.mqtt.password = ""
  accessKey : s.backup.config.accessKey = ""
  secretKey : s.backup.config.secretKey = ""
  provider : s.backup.config.provider = .s3
  channelIds : s.backup.policy.channelIds = []

theorem savesNotifications_iff (m : NotificationManager) :
    (handleUpdateNotificationConfig .admin (some (getNotificationConfig m)) m).1 = m ↔
      m.smtp.val.password = [] ∧ m.webhook.secret = "" := by
  rw [update_notificationConfig]
  obtain ⟨⟨smtp, hport⟩, webhook, mqtt⟩ := m
  cases smtp
  cases webhook
  simp [eq_comm]

theorem savesMqtt_iff (m : NotificationManager) :
    (handleUpdateMqttConfig .admin (some (getMqttConfig m)) m).1 = m ↔ m.mqtt.password = "" := by
  rw [update_mqttConfig]
  obtain ⟨smtp, webhook, mqtt⟩ := m
  cases mqtt
  simp [eq_comm]

theorem savesBackup_iff (b : BackupSettings) :
    (handleUpdateBackupConfig .admin (some (getBackupConfig b)) b).1 = b ↔
      b.config.provider = .s3 ∧ b.config.accessKey = "" ∧ b.config.secretKey = "" ∧
        b.policy.channelIds = [] := by
  rw [update_backupConfig]
  obtain ⟨config, policy⟩ := b
  cases config
  cases policy
  simp [eq_comm, and_assoc]

/-- **Saving what was read changes nothing** exactly where the answers leave nothing out and what
is sent back of the running configuration has no masked secret. -/
theorem savesAsRead_iff (s : Settings) {sections : ExtTreeMap String Json}
    (hsections : SectionsOf (getConfig s.running) sections) :
    SavesAsRead s sections ↔ NothingLeftOut s ∧
      ("notifications" ∈ sections →
        ∀ notif ∈ s.running.currentConfig.member "notifications", Unmasked notif) := by
  rw [SavesAsRead, savesNotifications_iff, savesMqtt_iff, savesBackup_iff,
    update_config_iff _ hsections]
  constructor
  · rintro ⟨⟨hsmtp, hwebhook⟩, hmqtt, ⟨hprovider, haccess, hsecret, hchannels⟩, hrunning⟩
    exact ⟨⟨hsmtp, hwebhook, hmqtt, haccess, hsecret, hprovider, hchannels⟩, hrunning⟩
  · rintro ⟨⟨hsmtp, hwebhook, hmqtt, haccess, hsecret, hprovider, hchannels⟩, hrunning⟩
    exact ⟨⟨hsmtp, hwebhook⟩, hmqtt, ⟨hprovider, haccess, hsecret, hchannels⟩, hrunning⟩

/-- A notifications section with a mail server and a webhook, neither of which needs a secret. -/
def notificationsJson : Json :=
  .obj [("smtp", .obj [("host", .str "mail.local"), ("port", .num 2525)]),
    ("webhook", .obj [("url", .str "http://hooks.local/alarm")])]

def notificationsSection : ExtTreeMap String Json :=
  ExtTreeMap.insert ∅ "notifications" notificationsJson

theorem notificationsSection_eq {key : String} {value : Json}
    (h : notificationsSection[key]? = some value) :
    key = "notifications" ∧ value = notificationsJson := by
  rw [notificationsSection, ExtTreeMap.getElem?_insert] at h
  split at h
  · next hkey =>
      exact ⟨(Std.LawfulEqCmp.compare_eq_iff_eq.mp hkey).symm, (Option.some.inj h).symm⟩
  · rw [ExtTreeMap.getElem?_empty] at h
    cases h

theorem unmasked_notificationsJson : Unmasked notificationsJson := by
  constructor
  · rintro smtp hsmtp password hpassword
    obtain rfl := Option.some.inj hsmtp
    cases hpassword
  · rintro webhook hwebhook secret hsecret
    obtain rfl := Option.some.inj hwebhook
    cases hsecret

/-- Settings of a site of its own, none of which needs a secret. -/
def siteSettings : Settings where
  notifications :=
    { smtp := ⟨{ enabled := true, host := "mail.local".toList, port := 2525
                 fromAddress := "nvr@site.local".toList
                 toAddresses := ["guard@site.local".toList, "night@site.local".toList] },
        by decide⟩
      webhook := { enabled := true, url := "http://hooks.local/alarm" }
      mqtt := { enabled := true, brokerHost := "mqtt.local", brokerPort := 8883 } }
  backup :=
    { config := { enabled := true, endpoint := "store.local", bucket := "site" }
      policy := { mode := 1, retentionDays := 7, uploadIntervalSec := 60 } }
  running := .start .null (.object notificationsSection) none []

theorem member_siteSettings :
    siteSettings.running.currentConfig.member "notifications" = some notificationsJson :=
  ExtTreeMap.getElem?_insert_self

theorem sectionsOf_siteSettings :
    SectionsOf (getConfig siteSettings.running) notificationsSection := by
  intro key value hvalue
  obtain ⟨rfl, rfl⟩ := notificationsSection_eq hvalue
  have hmutable : "notifications" ∉ immutableSections := by decide
  refine ⟨?_, hmutable⟩
  rw [member_getConfig _ hmutable, if_pos rfl, member_siteSettings, Option.map_some,
    (maskNotifications_eq_self_iff _).mpr unmasked_notificationsJson]

/-- Settings without secrets are saved as they were read, the notifications section with them. -/
theorem savesAsRead_site : SavesAsRead siteSettings notificationsSection :=
  (savesAsRead_iff siteSettings sectionsOf_siteSettings).mpr
    ⟨⟨rfl, rfl, rfl, rfl, rfl, rfl, rfl⟩, fun _ notif hnotif => by
      obtain rfl := Option.some.inj (member_siteSettings.symm.trans hnotif)
      exact unmasked_notificationsJson⟩

/-- A configuration of one section. -/
def recordingSection : ExtTreeMap String Json := ExtTreeMap.insert ∅ "recording" (.obj [])

/-- Settings as they are when nothing was ever saved. -/
def freshSettings : Settings where
  running := .start .null (.object recordingSection) none []

/-- Settings with a password for the mail server: saved as they were read, they have none. -/
theorem savesAsRead_refuted :
    ¬ SavesAsRead { freshSettings with
      notifications.smtp := ⟨{ password := "hunter2".toList }, by decide⟩ } recordingSection := by
  intro h
  exact absurd ((savesNotifications_iff _).mp h.1).1 (by decide)

end LoongNvr.Network
