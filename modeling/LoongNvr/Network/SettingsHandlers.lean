import LoongNvr.Auth.UserStore
import LoongNvr.Core.HotReloadManager
import LoongNvr.Notification.SmtpChannel
import LoongNvr.Support.Json

/-!
# Network — the handlers of the settings

The settings of the notifications (mail, webhook, MQTT), of the cloud backup and of the running
configuration, each with a handler that answers with them and a handler that replaces them by what
a request's body has.  A body names the settings one by one; one it does not name is set to its
default.

The services are set, and a body is what the parser makes of its bytes (`none` where it refuses
them).  Of an answer only its status is kept, and of a client its role.

* `readSmtp`, `readWebhook`, `readMqtt`, `readCloudConfig`, `readPolicy`: the settings a body
  names, or `none` where a value throws.
* `handleUpdateNotificationConfig` and the other handlers: what they leave and the status.
-/

namespace LoongNvr.Network
open LoongNvr.Auth LoongNvr.Core LoongNvr.Notification Support

/-! ### The settings -/

/-- Settings of the mail channel; the port is an `int`. -/
abbrev SmtpSettings := { smtp : SmtpConfig // -2147483648 ≤ smtp.port ∧ smtp.port < 2147483648 }

/-- The port that `SmtpConfig` begins with. -/
theorem smtpPort_initial :
    -2147483648 ≤ ({} : SmtpConfig).port ∧ ({} : SmtpConfig).port < 2147483648 := by
  decide

/-- Webhook configuration for HTTP POST notifications. -/
structure WebhookConfig where
  enabled : Bool := false
  url : String := ""
  secret : String := ""
  contentType : String := "application/json"
  timeoutSec : CInt := 10
  retryCount : CInt := 2
  deriving DecidableEq

/-- MQTT connection and publishing configuration. -/
structure MqttConfig where
  enabled : Bool := false
  brokerHost : String := "localhost"
  brokerPort : CInt := 1883
  clientId : String := "loong-nvr"
  username : String := ""
  password : String := ""
  useTls : Bool := false
  eventTopic : String := "loong/events"
  statusTopic : String := "loong/status"
  commandTopic : String := "loong/commands"
  qos : CInt := 1
  keepaliveSec : CInt := 60
  deriving DecidableEq

/-- The settings `NotificationManager` holds. -/
structure NotificationManager where
  smtp : SmtpSettings := ⟨{}, smtpPort_initial⟩
  webhook : WebhookConfig := {}
  mqtt : MqttConfig := {}

inductive CloudProvider
  | s3
  | none
  deriving DecidableEq

/-- Cloud storage connection configuration. -/
structure CloudConfig where
  enabled : Bool := false
  provider : CloudProvider := .s3
  endpoint : String := ""
  region : String := "us-east-1"
  bucket : String := ""
  accessKey : String := ""
  secretKey : String := ""
  useSsl : Bool := true
  keyPrefix : String := "loong-nvr/"
  deriving DecidableEq

/-- What to back up and how long to keep it; the mode is the number of an enumerator. -/
structure BackupPolicy where
  mode : CInt := 0
  retentionDays : CInt := 30
  uploadIntervalSec : CInt := 300
  channelIds : List CInt := []
  deriving DecidableEq

/-- The settings `CloudBackupService` holds. -/
structure BackupSettings where
  config : CloudConfig := {}
  policy : BackupPolicy := {}
  deriving DecidableEq

/-! ### Notifications -/

def charsJson (cs : List Char) : Json := .str (String.ofList cs)

def cIntJson (n : CInt) : Json := .num n.val

/-- `HandleGetNotificationConfig` -/
def getNotificationConfig (m : NotificationManager) : Json :=
  .obj [
    ("smtp", .obj [
      ("enabled", .bool m.smtp.val.enabled),
      ("host", charsJson m.smtp.val.host),
      ("port", .num m.smtp.val.port),
      ("use_tls", .bool m.smtp.val.useTls),
      ("username", charsJson m.smtp.val.username),
      ("from_address", charsJson m.smtp.val.fromAddress),
      ("from_name", charsJson m.smtp.val.fromName),
      ("to_addresses", .arr (m.smtp.val.toAddresses.map charsJson))]),
    ("webhook", .obj [
      ("enabled", .bool m.webhook.enabled),
      ("url", .str m.webhook.url),
      ("content_type", .str m.webhook.contentType),
      ("timeout_sec", cIntJson m.webhook.timeoutSec),
      ("retry_count", cIntJson m.webhook.retryCount)])]

/-- `j.get<std::string>()`, as its characters. -/
def getChars (j : Json) : Option (List Char) := j.getStr.map String.toList

/-- The loop over `s["to_addresses"]`, if there is one. -/
def readToAddresses (s : Json) : Option (List (List Char)) :=
  match s.member "to_addresses" with
  | none => some []
  | some addresses => addresses.items.mapM getChars

/-- The mail settings of a body. -/
def readSmtp (s : Json) : Option SmtpSettings := do
  let port ← s.value Json.getCInt "port" 587
  let smtp : SmtpConfig := {
    enabled := ← s.value Json.getBool "enabled" false
    host := ← s.value getChars "host" []
    port := port.val
    useTls := ← s.value Json.getBool "use_tls" true
    username := ← s.value getChars "username" []
    password := ← s.value getChars "password" []
    fromAddress := ← s.value getChars "from_address" []
    fromName := ← s.value getChars "from_name" "Loong AI NVR".toList
    toAddresses := ← readToAddresses s }
  return ⟨{ smtp with port := port.val }, port.property⟩

/-- The webhook settings of a body. -/
def readWebhook (w : Json) : Option WebhookConfig := do
  return {
    enabled := ← w.value Json.getBool "enabled" false
    url := ← w.value Json.getStr "url" ""
    secret := ← w.value Json.getStr "secret" ""
    contentType := ← w.value Json.getStr "content_type" "application/json"
    timeoutSec := ← w.value Json.getCInt "timeout_sec" 10
    retryCount := ← w.value Json.getCInt "retry_count" 2 }

/-- The block under `if (j.contains("smtp"))`. -/
def updateSmtp (j : Json) (m : NotificationManager) : Option NotificationManager :=
  match j.member "smtp" with
  | none => some m
  | some s => (readSmtp s).map fun smtp => { m with smtp := smtp }

/-- The block under `if (j.contains("webhook"))`. -/
def updateWebhook (j : Json) (m : NotificationManager) : Option NotificationManager :=
  match j.member "webhook" with
  | none => some m
  | some w => (readWebhook w).map fun webhook => { m with webhook := webhook }

/-- `HandleUpdateNotificationConfig`: a throw in the second block leaves what the first did. -/
def handleUpdateNotificationConfig (role : UserRole) (body : Option Json)
    (m : NotificationManager) : NotificationManager × ℕ :=
  if role ≠ .admin then (m, 403)
  else
    match body with
    | none => (m, 400)
    | some j =>
        match updateSmtp j m with
        | none => (m, 400)
        | some m =>
            match updateWebhook j m with
            | none => (m, 400)
            | some m => (m, 200)

/-! ### MQTT -/

/-- `HandleGetMqttConfig` -/
def getMqttConfig (m : NotificationManager) : Json :=
  .obj [
    ("enabled", .bool m.mqtt.enabled),
    ("broker_host", .str m.mqtt.brokerHost),
    ("broker_port", cIntJson m.mqtt.brokerPort),
    ("client_id", .str m.mqtt.clientId),
    ("username", .str m.mqtt.username),
    ("use_tls", .bool m.mqtt.useTls),
    ("event_topic", .str m.mqtt.eventTopic),
    ("status_topic", .str m.mqtt.statusTopic),
    ("command_topic", .str m.mqtt.commandTopic),
    ("qos", cIntJson m.mqtt.qos),
    ("keepalive_sec", cIntJson m.mqtt.keepaliveSec)]

/-- The MQTT settings of a body. -/
def readMqtt (j : Json) : Option MqttConfig := do
  return {
    enabled := ← j.value Json.getBool "enabled" false
    brokerHost := ← j.value Json.getStr "broker_host" "localhost"
    brokerPort := ← j.value Json.getCInt "broker_port" 1883
    clientId := ← j.value Json.getStr "client_id" "loong-nvr"
    username := ← j.value Json.getStr "username" ""
    password := ← j.value Json.getStr "password" ""
    useTls := ← j.value Json.getBool "use_tls" false
    eventTopic := ← j.value Json.getStr "event_topic" "loong/events"
    statusTopic := ← j.value Json.getStr "status_topic" "loong/status"
    commandTopic := ← j.value Json.getStr "command_topic" "loong/commands"
    qos := ← j.value Json.getCInt "qos" 1
    keepaliveSec := ← j.value Json.getCInt "keepalive_sec" 60 }

/-- `HandleUpdateMqttConfig`; the server answers 500 for a throw. -/
def handleUpdateMqttConfig (role : UserRole) (body : Option Json) (m : NotificationManager) :
    NotificationManager × ℕ :=
  if role ≠ .admin then (m, 403)
  else
    match body with
    | none => (m, 400)
    | some j =>
        match readMqtt j with
        | none => (m, 500)
        | some mqtt => ({ m with mqtt := mqtt }, 200)

/-! ### Cloud backup -/

/-- `HandleGetBackupConfig` -/
def getBackupConfig (b : BackupSettings) : Json :=
  .obj [
    ("enabled", .bool b.config.enabled),
    ("provider", .str (if b.config.provider = .s3 then "s3" else "none")),
    ("endpoint", .str b.config.endpoint),
    ("region", .str b.config.region),
    ("bucket", .str b.config.bucket),
    ("use_ssl", .bool b.config.useSsl),
    ("prefix", .str b.config.keyPrefix),
    ("backup_mode", cIntJson b.policy.mode),
    ("retention_days", cIntJson b.policy.retentionDays),
    ("upload_interval_sec", cIntJson b.policy.uploadIntervalSec)]

/-- The connection a body describes; the provider is not read. -/
def readCloudConfig (j : Json) : Option CloudConfig := do
  return {
    enabled := ← j.value Json.getBool "enabled" false
    endpoint := ← j.value Json.getStr "endpoint" ""
    region := ← j.value Json.getStr "region" "us-east-1"
    bucket := ← j.value Json.getStr "bucket" ""
    accessKey := ← j.value Json.getStr "access_key" ""
    secretKey := ← j.value Json.getStr "secret_key" ""
    useSsl := ← j.value Json.getBool "use_ssl" true
    keyPrefix := ← j.value Json.getStr "prefix" "loong-nvr/" }

/-- The policy of a body. -/
def readPolicy (j : Json) : Option BackupPolicy := do
  return {
    mode := ← j.value Json.getCInt "backup_mode" 0
    retentionDays := ← j.value Json.getCInt "retention_days" 30
    uploadIntervalSec := ← j.value Json.getCInt "upload_interval_sec" 300 }

/-- `HandleUpdateBackupConfig`; the server answers 500 for a throw, and a throw in the policy leaves
the new connection. -/
def handleUpdateBackupConfig (role : UserRole) (body : Option Json) (b : BackupSettings) :
    BackupSettings × ℕ :=
  if role ≠ .admin then (b, 403)
  else
    match body with
    | none => (b, 400)
    | some j =>
        match readCloudConfig j with
        | none => (b, 500)
        | some config =>
            match readPolicy j with
            | none => ({ b with config := config }, 500)
            | some policy => ({ config := config, policy := policy }, 200)

/-! ### The running configuration -/

/-- `j[key] = "***"` where the member is there. -/
def mask (key : String) (j : Json) : Json := j.changeMember key fun _ => .str "***"

/-- The block under `if (cfg.contains("notifications"))`. -/
def maskNotifications (notif : Json) : Json :=
  (notif.changeMember "smtp" (mask "password")).changeMember "webhook" (mask "secret")

/-- A section of the configuration replaced where it is there. -/
def changeSection (key : String) (f : Json → Json) (cfg : Document Json) : Document Json :=
  match cfg.member key with
  | none => cfg
  | some j => (cfg.set key (f j)).getD cfg

/-- `HandleGetConfig` -/
def getConfig (m : HotReloadManager Json) : Document Json :=
  changeSection "notifications" maskNotifications
    (changeSection "auth" (mask "jwt_secret") m.currentConfig)

/-- The sections that are not changed at run time. -/
def immutableSections : List String := ["auth", "tls", "network"]

/-- `HandleUpdateConfig` -/
def handleUpdateConfig (role : UserRole) (body : Option (Document Json))
    (m : HotReloadManager Json) : HotReloadManager Json × ℕ :=
  if role ≠ .admin then (m, 403)
  else
    match body with
    | none => (m, 400)
    | some patch =>
        if immutableSections.any patch.contains then (m, 400)
        else
          match HotReloadManager.applyPatch .null patch m with
          | none => (m, 500)
          | some m => (m, 200)

end LoongNvr.Network
