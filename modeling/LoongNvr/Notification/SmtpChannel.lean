import LoongNvr.Support.Decimal
import LoongNvr.Support.Base64

/-!
# Notification — SmtpChannel

What is sent through the notification channels, and how it is sent by e-mail.  A `std::string` is
the list of its characters; where its bytes matter, a character is the byte of its code.
-/

namespace LoongNvr.Notification

/-- How a `float` is written, and what is computed from it. -/
structure FloatFormat (F : Type*) where
  zero : F
  /-- `x > 0` -/
  positive : F → Bool
  /-- `static_cast<int>(x * 100)` -/
  percent : F → ℤ
  /-- `std::to_string(x)` -/
  toText : F → List Char
  /-- `stream << x` -/
  print : F → List Char

/-- The numbers that have no fraction and at most six digits. -/
def wholeNumbers : FloatFormat ℤ where
  zero := 0
  positive x := 0 < x
  percent x := x * 100
  toText x := Support.decimal x ++ ".000000".toList
  print := Support.decimal

/-- A notification message to be sent through channels. -/
structure NotificationMessage (F : Type*) where
  title : List Char
  body : List Char
  /-- "info", "warning", "critical" -/
  severity : List Char
  channelId : ℤ := -1
  eventType : List Char := []
  confidence : F
  timestamp : ℤ := 0
  screenshotPath : List Char := []

/-- What a channel's `Send` returns. -/
structure NotificationResult where
  success : Bool := false
  errorMessage : List Char := []
  deriving DecidableEq, Repr

end LoongNvr.Notification

/-! ### The channel

`SmtpChannel::Send`: the dialogue with the mail server, as the list of commands that are sent and
of the codes that are expected, and the e-mail that is sent as its data.

The server's responses are inputs, and so are the resolver, the socket and the TLS handshake.  What
is given to `SendCmd` reaches the server whole.
-/

namespace LoongNvr.Notification
open Support

/-- SMTP configuration for email notifications. -/
structure SmtpConfig where
  enabled : Bool := false
  host : List Char := "smtp.example.com".toList
  port : ℤ := 587
  useTls : Bool := true
  username : List Char := []
  password : List Char := []
  fromAddress : List Char := []
  fromName : List Char := "Loong AI NVR".toList
  toAddresses : List (List Char) := []

/-- What `localtime` and `strftime` make the date of. -/
structure LocalTime where
  wday : Fin 7
  mday : ℕ
  mon : Fin 12
  year : ℤ
  hour : ℕ
  min : ℕ
  sec : ℕ
  /-- The offset from UTC in minutes. -/
  offset : ℤ

/-- `%a, %d %b %Y %H:%M:%S %z` -/
def LocalTime.date (t : LocalTime) : List Char :=
  ["Sun", "Mon", "Tue", "Wed", "Thu", "Fri", "Sat"][t.wday].toList ++ ", ".toList ++
    padded 2 t.mday ++ " ".toList ++
    ["Jan", "Feb", "Mar", "Apr", "May", "Jun", "Jul", "Aug", "Sep", "Oct", "Nov",
      "Dec"][t.mon].toList ++
    " ".toList ++ decimal t.year ++ " ".toList ++
    padded 2 t.hour ++ ":".toList ++ padded 2 t.min ++ ":".toList ++ padded 2 t.sec ++ " ".toList ++
    (if t.offset < 0 then "-".toList else "+".toList) ++
    padded 2 (t.offset.natAbs / 60) ++ padded 2 (t.offset.natAbs % 60)

/-! ### Responses -/

def isSpace (c : Char) : Bool := c = ' ' ∨ ('\t' ≤ c ∧ c ≤ '\r')

/-- `std::stoi`, or -1 where it throws: blanks, a sign and digits. -/
def stoiOr (cs : List Char) : ℤ :=
  let cs := cs.dropWhile isSpace
  let negative := cs.head? = some '-'
  let digits := (if cs.head? = some '-' ∨ cs.head? = some '+' then cs.drop 1 else cs).takeWhile
    Char.isDigit
  if digits = [] then -1
  else if negative then -(Nat.ofDigitChars 10 digits 0 : ℤ) else Nat.ofDigitChars 10 digits 0

def getResponseCode (response : List Char) : ℤ :=
  if response.length < 3 then -1 else stoiOr (response.take 3)

/-! ### The dialogue -/

def base64Digit (n : ℕ) : Char :=
  "ABCDEFGHIJKLMNOPQRSTUVWXYZabcdefghijklmnopqrstuvwxyz0123456789+/".toList.getD n 'A'

def base64Encode (input : List Char) : List Char :=
  Base64.pad '=' (Base64.encode base64Digit (input.map fun c => UInt8.ofNat c.toNat))

/-- A step of the dialogue. -/
inductive SmtpStep
  /-- A command is sent, if there is one, and a response is read; it must have the code, if one is
  asked for, else the error is this text and the response. -/
  | exchange (command : Option (List Char)) (expected : Option ℤ) (failure : List Char)
  | handshake

/-- What comes of some steps. -/
structure Dialogue where
  sent : List (List Char) := []
  error : Option (List Char) := none
  /-- The responses that have not been read. -/
  replies : List (List Char)

/-- The steps one after the other, up to the first that fails.  A server that says nothing more
leaves an empty response. -/
def runSteps (tlsUp : Bool) : List SmtpStep → List (List Char) → Dialogue
  | [], replies => { replies := replies }
  | .exchange command expected failure :: steps, replies =>
      let reply := replies.headD []
      if expected.all (getResponseCode reply = ·) then
        let d := runSteps tlsUp steps replies.tail
        { d with sent := command.toList ++ d.sent }
      else
        { sent := command.toList, error := some (failure ++ reply), replies := replies.tail }
  | .handshake :: steps, replies =>
      if tlsUp then runSteps tlsUp steps replies
      else { error := some "TLS handshake failed".toList, replies := replies }

def crlf : List Char := "\r\n".toList

/-- A command with the code it is to be answered by. -/
def command (text : List Char) (expected : ℤ) (failure : String) : SmtpStep :=
  .exchange (some (text ++ crlf)) (some expected) failure.toList

/-- The dialogue up to `DATA`. -/
def setupSteps (config : SmtpConfig) : List SmtpStep :=
  [.exchange none (some 220) "SMTP greeting failed: ".toList,
    command "EHLO localhost".toList 250 "EHLO failed: "] ++
  (if config.useTls then
    [command "STARTTLS".toList 220 "STARTTLS failed: ", .handshake,
      .exchange (some ("EHLO localhost".toList ++ crlf)) none []]
  else []) ++
  (if config.username ≠ [] then
    [command "AUTH LOGIN".toList 334 "AUTH LOGIN failed: ",
      command (base64Encode config.username) 334 "AUTH username failed: ",
      command (base64Encode config.password) 235 "AUTH password failed: "]
  else []) ++
  [command ("MAIL FROM:<".toList ++ config.fromAddress ++ ">".toList) 250 "MAIL FROM failed: "] ++
  config.toAddresses.map (fun address =>
    .exchange (some ("RCPT TO:<".toList ++ address ++ ">".toList ++ crlf)) (some 250)
      ("RCPT TO failed for ".toList ++ address ++ ": ".toList)) ++
  [command "DATA".toList 354 "DATA failed: "]

/-- The texts of the header. -/
def headerTexts (config : SmtpConfig) (subject date : List Char) : List (List Char) :=
  ["From: ".toList ++ config.fromName ++ " <".toList ++ config.fromAddress ++ ">".toList,
    "To: ".toList ++ List.intercalate ", ".toList config.toAddresses,
    "Subject: ".toList ++ subject,
    "Date: ".toList ++ date,
    "MIME-Version: 1.0".toList,
    "Content-Type: text/html; charset=utf-8".toList]

/-- `email.str()` -/
def emailText (config : SmtpConfig) (subject date htmlBody : List Char) : List Char :=
  (headerTexts config subject date).flatMap (· ++ crlf) ++ crlf ++ htmlBody ++ crlf ++
    ".".toList ++ crlf

def dataSteps (email : List Char) : List SmtpStep :=
  [.exchange (some email) (some 250) "email delivery failed: ".toList,
    .exchange (some ("QUIT".toList ++ crlf)) none []]

/-- The network as `SendEmail` finds it. -/
structure SmtpNetwork where
  resolved : Bool := true
  socketMade : Bool := true
  connected : Bool := true
  tlsUp : Bool := true
  replies : List (List Char)
  localTime : LocalTime

/-- What `SendEmail` returns, and what it sends up to `DATA` and from there. -/
structure Transfer where
  result : NotificationResult
  setup : List (List Char) := []
  data : List (List Char) := []

def failed (text : List Char) : NotificationResult := { success := false, errorMessage := text }

def sendEmail (config : SmtpConfig) (net : SmtpNetwork) (subject htmlBody : List Char) : Transfer :=
  if !net.resolved then { result := failed ("DNS resolution failed for ".toList ++ config.host) }
  else if !net.socketMade then { result := failed "socket creation failed".toList }
  else if !net.connected then
    { result := failed ("connection to ".toList ++ config.host ++ ":".toList ++
        decimal config.port ++ " failed".toList) }
  else
    let setup := runSteps net.tlsUp (setupSteps config) net.replies
    match setup.error with
    | some text => { result := failed text, setup := setup.sent }
    | none =>
        let email := emailText config subject net.localTime.date htmlBody
        let data := runSteps net.tlsUp (dataSteps email) setup.replies
        { result := match data.error with
            | some text => failed text
            | none => { success := true }
          setup := setup.sent
          data := data.sent }

/-! ### The message -/

/-- A row of the table. -/
def row (label style value : List Char) : List Char :=
  "<tr><td style='padding:4px 12px;font-weight:bold;'>".toList ++ label ++
    "</td><td style='padding:4px 12px;".toList ++ style ++ "'>".toList ++ value ++
    "</td></tr>".toList

def severityColor (severity : List Char) : List Char :=
  if severity = "critical".toList then "#dc3545".toList
  else if severity = "warning".toList then "#ffc107".toList
  else "#17a2b8".toList

variable {F : Type*} (fmt : FloatFormat F)

def formatHtmlBody (msg : NotificationMessage F) : List Char :=
  "<html><body style='font-family:Arial,sans-serif;'>".toList ++
    "<h2 style='color:#333;'>".toList ++ msg.title ++ "</h2>".toList ++
    "<p>".toList ++ msg.body ++ "</p>".toList ++
    "<table style='border-collapse:collapse;margin:16px 0;'>".toList ++
    (if 0 ≤ msg.channelId then row "Channel".toList [] (decimal msg.channelId) else []) ++
    (if msg.eventType ≠ [] then row "Event".toList [] msg.eventType else []) ++
    (if fmt.positive msg.confidence then
      row "Confidence".toList [] (decimal (fmt.percent msg.confidence) ++ "%".toList)
    else []) ++
    row "Severity".toList ("color:".toList ++ severityColor msg.severity ++ ";".toList)
      msg.severity ++
    "</table>".toList ++ "<hr style='border:1px solid #eee;'>".toList ++
    "<p style='color:#999;font-size:12px;'>".toList ++ "Sent by Loong AI NVR</p>".toList ++
    "</body></html>".toList

def subjectOf (msg : NotificationMessage F) : List Char :=
  "[".toList ++ msg.severity ++ "] ".toList ++ msg.title

def SmtpConfig.isConfigured (config : SmtpConfig) : Bool :=
  config.enabled && !config.host.isEmpty && !config.fromAddress.isEmpty &&
    !config.toAddresses.isEmpty

def send (config : SmtpConfig) (net : SmtpNetwork) (msg : NotificationMessage F) : Transfer :=
  if !config.isConfigured then { result := failed "SMTP not configured".toList }
  else sendEmail config net (subjectOf msg) (formatHtmlBody fmt msg)

end LoongNvr.Notification
