import LoongNvr.Notification.SmtpChannel
import LoongNvr.Support.Mail

/-!
# Notification — EmailWhole

Whether an e-mail arrives whole, and as nothing but itself.  `SendEmail` puts the texts of a message
into lines as they are: it neither doubles a dot at the front of a line nor looks for line ends.

* `Whole`: what is sent from the data on is one message with the six header fields, the subject and
  the body, and `QUIT` behind it.
* `whole_iff`: it is so exactly when no text of the message or of the configuration can be read as
  anything else.
-/

namespace LoongNvr.Notification
open Support Mail

variable {F : Type*} {fmt : FloatFormat F} {config : SmtpConfig} {net : SmtpNetwork}
  {msg : NotificationMessage F}

/-- What is sent from the data on is one message, and `QUIT` if the server has taken it. -/
def Whole (fmt : FloatFormat F) (msg : NotificationMessage F) (transfer : Transfer) : Prop :=
  ∃ receipt ∈ receive transfer.data.flatten,
    receipt.message.fields.map (·.name) =
      ["From".toList, "To".toList, "Subject".toList, "Date".toList, "MIME-Version".toList,
        "Content-Type".toList] ∧
    { name := "Subject".toList, value := subjectOf msg } ∈ receipt.message.fields ∧
    receipt.message.body = formatHtmlBody fmt msg ∧
    receipt.commands = (if transfer.result.success then ["QUIT".toList] else []) ∧
    receipt.pending = []

/-- The server has asked for the data. -/
def Accepted (config : SmtpConfig) (net : SmtpNetwork) : Prop :=
  config.isConfigured = true ∧ net.resolved = true ∧ net.socketMade = true ∧
    net.connected = true ∧ (runSteps net.tlsUp (setupSteps config) net.replies).error = none

/-- The severity and the title are on one line, no line in the middle of the body or the event type
begins with a dot, and each line of the sender or of the recipients continues the one before. -/
structure Contained (config : SmtpConfig) (msg : NotificationMessage F) : Prop where
  severity : OneLine msg.severity
  title : OneLine msg.title
  body : NoDotLines msg.body
  eventType : NoDotLines msg.eventType
  sender : Folded (config.fromName ++ " <".toList ++ config.fromAddress ++ ">".toList)
  recipients : Folded (List.intercalate ", ".toList config.toAddresses)

/-! ### The fixed texts -/

/-- A fixed text is looked at character by character. -/
theorem not_mem_literal {c : Char} {cs : List Char} (h : c ∉ cs) :
    c ∉ (String.ofList cs).toList := by
  rwa [String.toList_ofList]

theorem safe_literal {cs : List Char} (h : Safe cs) : Safe (String.ofList cs).toList := by
  rwa [String.toList_ofList]

/-- What stands in front of the value of a field. -/
structure IsLabel (a : List Char) : Prop where
  cr : '\r' ∉ a
  colon : ':' ∈ a
  start : continues a = false
  dot : a.head? ≠ some '.'

/-- A fixed text is a label if it looks like one. -/
theorem isLabel_literal {cs : List Char}
    (h : '\r' ∉ cs ∧ ':' ∈ cs ∧ continues cs = false ∧ cs.head? ≠ some '.') :
    IsLabel (String.ofList cs).toList := by
  rw [String.toList_ofList]
  exact ⟨h.1, h.2.1, h.2.2.1, h.2.2.2⟩

theorem isLabel_from : IsLabel "From: ".toList := isLabel_literal (by decide)
theorem isLabel_to : IsLabel "To: ".toList := isLabel_literal (by decide)
theorem isLabel_subject : IsLabel "Subject: ".toList := isLabel_literal (by decide)
theorem isLabel_date : IsLabel "Date: ".toList := isLabel_literal (by decide)
theorem isLabel_mime : IsLabel "MIME-Version: ".toList := isLabel_literal (by decide)
theorem isLabel_type : IsLabel "Content-Type: ".toList := isLabel_literal (by decide)

/-- A label has its colon. -/
theorem IsLabel.ne_nil {a : List Char} (h : IsLabel a) : a ≠ [] := List.ne_nil_of_mem h.colon

/-- What a label stands in front of begins a field. -/
theorem IsLabel.begins {a : List Char} (h : IsLabel a) (b : List Char) :
    ∃ p ps, pieces (a ++ b) = p :: ps ∧ Begins p :=
  begins_of_append h.cr h.colon h.start h.dot b

/-- The text of the field that is read: of the value, lines that begin with a dot lose it. -/
theorem IsLabel.fieldText {a : List Char} (h : IsLabel a) (b : List Char) :
    fieldText (a ++ b) = a ++ ((pieces b).headD [] ++ ((pieces b).tail.map unstuff).flatten) :=
  fieldText_append h.cr h.ne_nil h.dot b

/-- The name that is read is in the label. -/
theorem IsLabel.name {a : List Char} (h : IsLabel a) (b : List Char) :
    (splitField (Mail.fieldText (a ++ b))).name = a.takeWhile (· ≠ ':') := by
  have hcolon : (a.takeWhile (· ≠ ':')).length ≠ a.length := by
    intro hlength
    have hall := List.takeWhile_eq_self_iff.mp
      ((List.takeWhile_prefix (· ≠ ':')).eq_of_length hlength)
    exact absurd (hall ':' h.colon) (by decide)
  rw [h.fieldText, splitField, List.takeWhile_append, if_neg hcolon]

/-! ### What is sent -/

/-- The e-mail as sent is header, empty line, body and the lone dot. -/
theorem emailText_append {subject date html : List Char} (commands : List (List Char)) :
    emailText config subject date html ++ commands.flatMap (· ++ crlf) =
      wire (headerTexts config subject date) html commands := by
  have hcrlf : crlf = Mail.crlf := rfl
  have hdot : ".".toList = ['.'] := rfl
  rw [emailText, wire, hcrlf, hdot]
  simp only [List.append_assoc]

/-- The e-mail is answered by 250, or it is the last that is sent. -/
theorem runSteps_dataSteps {tlsUp : Bool} {email : List Char} {replies : List (List Char)} :
    runSteps tlsUp (dataSteps email) replies =
      if getResponseCode (replies.headD []) = 250 then
        { sent := [email, "QUIT".toList ++ crlf], replies := replies.tail.tail }
      else
        { sent := [email]
          error := some ("email delivery failed: ".toList ++ replies.headD [])
          replies := replies.tail } := by
  simp only [dataSteps, runSteps, Option.all_some, decide_eq_true_eq, Option.all_none, if_true]
  rfl

/-- The e-mail, and `QUIT` behind it if the server takes it. -/
theorem data_sendEmail {subject html : List Char} (h : Accepted config net) :
    (sendEmail config net subject html).data.flatten =
      wire (headerTexts config subject net.localTime.date) html
        (if (sendEmail config net subject html).result.success then ["QUIT".toList] else []) := by
  obtain ⟨-, hresolved, hsocket, hconnected, hsetup⟩ := h
  set email := emailText config subject net.localTime.date html with hemail
  set replies := (runSteps net.tlsUp (setupSteps config) net.replies).replies with hreplies
  have hsend : ((sendEmail config net subject html).data,
      (sendEmail config net subject html).result.success) =
        ((runSteps net.tlsUp (dataSteps email) replies).sent,
          (runSteps net.tlsUp (dataSteps email) replies).error.isNone) := by
    simp only [sendEmail, hresolved, hsocket, hconnected, hsetup, Bool.not_true, Bool.false_eq_true,
      if_false, ← hemail, ← hreplies, Prod.mk.injEq, true_and]
    cases (runSteps net.tlsUp (dataSteps email) replies).error <;> rfl
  obtain ⟨hdata, hsuccess⟩ := Prod.mk.inj hsend
  rw [hdata, hsuccess, ← emailText_append, ← hemail]
  rw [runSteps_dataSteps]
  by_cases hcode : getResponseCode (replies.headD []) = 250
  · simp only [if_pos hcode, Option.isNone_none, if_true, List.flatten_cons, List.flatMap_cons]
    rfl
  · simp only [if_neg hcode, Option.isNone_some, Bool.false_eq_true, if_false]
    rfl

/-- A number has no line end in it. -/
theorem not_mem_decimal {n : ℤ} : '\r' ∉ decimal n := by
  intro h
  exact not_mem_padded rfl (by decide) (List.mem_append_right _ h : '\r' ∈ padded 0 n)

/-- The date has no line end in it. -/
theorem not_mem_date (t : LocalTime) : '\r' ∉ t.date := by
  have hday : ∀ s ∈ ["Sun", "Mon", "Tue", "Wed", "Thu", "Fri", "Sat"], '\r' ∉ s.toList := by
    simp only [List.forall_mem_cons, List.not_mem_nil, false_imp_iff, implies_true, and_true]
    and_intros <;> exact not_mem_literal (by decide)
  have hmonth : ∀ s ∈ ["Jan", "Feb", "Mar", "Apr", "May", "Jun", "Jul", "Aug", "Sep", "Oct", "Nov",
      "Dec"], '\r' ∉ s.toList := by
    simp only [List.forall_mem_cons, List.not_mem_nil, false_imp_iff, implies_true, and_true]
    and_intros <;> exact not_mem_literal (by decide)
  have hsign : '\r' ∉ (if t.offset < 0 then "-".toList else "+".toList) := by
    split <;> exact not_mem_literal (by decide)
  have hnumber {width : ℕ} {n : ℤ} : '\r' ∉ padded width n := not_mem_padded rfl (by decide)
  have hspace : '\r' ∉ " ".toList := not_mem_literal (by decide)
  have hcolon : '\r' ∉ ":".toList := not_mem_literal (by decide)
  have hdate : '\r' ∉ (["Sun", "Mon", "Tue", "Wed", "Thu", "Fri", "Sat"][t.wday].toList ++
      ", ".toList ++ padded 2 t.mday ++ " ".toList ++ ["Jan", "Feb", "Mar", "Apr", "May", "Jun",
      "Jul", "Aug", "Sep", "Oct", "Nov", "Dec"][t.mon].toList) := by
    refine List.not_mem_append ?_ (hmonth _ (List.getElem_mem _))
    refine List.not_mem_append ?_ hspace
    refine List.not_mem_append ?_ hnumber
    exact List.not_mem_append (hday _ (List.getElem_mem _)) (not_mem_literal (by decide))
  unfold LocalTime.date
  refine List.not_mem_append ?_ hnumber
  refine List.not_mem_append ?_ hnumber
  refine List.not_mem_append ?_ hsign
  refine List.not_mem_append ?_ hspace
  refine List.not_mem_append ?_ hnumber
  refine List.not_mem_append ?_ hcolon
  refine List.not_mem_append ?_ hnumber
  refine List.not_mem_append ?_ hcolon
  refine List.not_mem_append ?_ hnumber
  refine List.not_mem_append ?_ hspace
  refine List.not_mem_append ?_ not_mem_decimal
  exact List.not_mem_append hdate hspace

/-! ### The texts of the header and of the body -/

section Header

variable {subject date : List Char}

/-- The six lines of the header, each a label and a value. -/
theorem headerTexts_eq :
    headerTexts config subject date =
      ["From: ".toList ++
          (config.fromName ++ " <".toList ++ config.fromAddress ++ ">".toList),
        "To: ".toList ++ List.intercalate ", ".toList config.toAddresses,
        "Subject: ".toList ++ subject,
        "Date: ".toList ++ date,
        "MIME-Version: ".toList ++ "1.0".toList,
        "Content-Type: ".toList ++ "text/html; charset=utf-8".toList] := by
  have hmime : "MIME-Version: 1.0".toList = "MIME-Version: ".toList ++ "1.0".toList := rfl
  have htype : "Content-Type: text/html; charset=utf-8".toList =
      "Content-Type: ".toList ++ "text/html; charset=utf-8".toList := rfl
  rw [headerTexts, hmime, htype]
  simp only [List.append_assoc]

/-- Each of them begins a field. -/
theorem allBegin_headerTexts : AllBegin (headerTexts config subject date) := by
  rw [headerTexts_eq, AllBegin]
  simp only [List.forall_mem_cons, List.not_mem_nil, false_imp_iff, implies_true, and_true]
  exact ⟨isLabel_from.begins _, isLabel_to.begins _, isLabel_subject.begins _,
    isLabel_date.begins _, isLabel_mime.begins _, isLabel_type.begins _⟩

/-- Only the sender, the recipients and the subject may have more lines than one. -/
theorem allContinue_headerTexts_iff (hdate : '\r' ∉ date) :
    AllContinue (headerTexts config subject date) ↔
      Folded (config.fromName ++ " <".toList ++ config.fromAddress ++ ">".toList) ∧
        Folded (List.intercalate ", ".toList config.toAddresses) ∧ Folded subject := by
  have hall : AllContinue (headerTexts config subject date) ↔
      ∀ h ∈ headerTexts config subject date, Folded h := Iff.rfl
  have hrest : Folded ("Date: ".toList ++ date) ∧ Folded ("MIME-Version: ".toList ++ "1.0".toList) ∧
      Folded ("Content-Type: ".toList ++ "text/html; charset=utf-8".toList) :=
    ⟨(folded_append_iff isLabel_date.cr).mpr (.of_oneLine (oneLine_of_not_mem hdate)),
      (folded_append_iff isLabel_mime.cr).mpr
        (.of_oneLine (oneLine_of_not_mem (not_mem_literal (by decide)))),
      (folded_append_iff isLabel_type.cr).mpr
        (.of_oneLine (oneLine_of_not_mem (not_mem_literal (by decide))))⟩
  rw [hall, headerTexts_eq]
  simp only [List.forall_mem_cons, List.not_mem_nil, false_imp_iff, implies_true, and_true]
  refine and_congr (folded_append_iff isLabel_from.cr)
    (and_congr (folded_append_iff isLabel_to.cr) ?_)
  exact (and_iff_left hrest).trans (folded_append_iff isLabel_subject.cr)

/-- The fields that are read. -/
theorem names_headerTexts :
    ((headerTexts config subject date).map fun h => splitField (fieldText h)).map (·.name) =
      ["From".toList, "To".toList, "Subject".toList, "Date".toList, "MIME-Version".toList,
        "Content-Type".toList] := by
  rw [headerTexts_eq]
  simp only [List.map_cons, List.map_nil]
  rw [isLabel_from.name, isLabel_to.name, isLabel_subject.name, isLabel_date.name,
    isLabel_mime.name, isLabel_type.name]
  repeat rw [String.toList_ofList]
  rfl

/-- A field of another name. -/
theorem field_ne {cs text : List Char} (h : IsLabel (String.ofList cs).toList)
    (hother : cs.takeWhile (· ≠ ':') ≠ ['S', 'u', 'b', 'j', 'e', 'c', 't']) :
    { name := "Subject".toList, value := subject } ≠
      splitField (fieldText ((String.ofList cs).toList ++ text)) := by
  intro heq
  have hname := congrArg Field.name heq
  rw [h.name, String.toList_ofList, String.toList_ofList] at hname
  exact hother hname.symm

/-- The subject is read as it was given exactly when it is on one line. -/
theorem subject_mem_iff (hstart : subject.head? = some '[') :
    { name := "Subject".toList, value := subject } ∈
        (headerTexts config subject date).map (fun h => splitField (fieldText h)) ↔
      OneLine subject := by
  obtain ⟨p, ps, hp⟩ := List.exists_cons_of_ne_nil (pieces_ne_nil subject)
  set text := p ++ (ps.map unstuff).flatten with htext
  have hbracket : ∃ rest, text = '[' :: rest := by
    obtain ⟨cs, rfl⟩ : ∃ cs, subject = '[' :: cs := by
      cases subject with
      | nil => cases hstart
      | cons c cs => exact ⟨cs, by rw [Option.some.inj hstart]⟩
    obtain ⟨q, qs, hq⟩ := List.exists_cons_of_ne_nil (pieces_ne_nil cs)
    rw [pieces_cons fun _ hc => absurd hc (by decide), hq, List.modifyHead_cons] at hp
    exact ⟨q ++ (ps.map unstuff).flatten, by rw [htext, ← (List.cons.inj hp).1, List.cons_append]⟩
  have hfield : splitField (fieldText ("Subject: ".toList ++ subject)) =
      { name := "Subject".toList, value := text } := by
    rw [isLabel_subject.fieldText, hp, List.headD_cons, List.tail_cons, ← htext]
    obtain ⟨rest, hrest⟩ := hbracket
    rw [hrest, String.toList_ofList, String.toList_ofList]
    rfl
  have hmem : { name := "Subject".toList, value := subject } ∈
      (headerTexts config subject date).map (fun h => splitField (fieldText h)) ↔
        text = subject := by
    rw [headerTexts_eq]
    simp only [List.map_cons, List.map_nil, List.mem_cons, List.not_mem_nil, or_false, hfield]
    constructor
    · rintro (h | h | h | h | h | h)
      · exact absurd h (field_ne isLabel_from (by decide))
      · exact absurd h (field_ne isLabel_to (by decide))
      · exact (Field.mk.inj h).2.symm
      · exact absurd h (field_ne isLabel_date (by decide))
      · exact absurd h (field_ne isLabel_mime (by decide))
      · exact absurd h (field_ne isLabel_type (by decide))
    · rintro rfl
      exact .inr (.inr (.inl rfl))
  rw [hmem]
  constructor
  · intro heq
    have hwhole : fieldText ("Subject: ".toList ++ subject) = "Subject: ".toList ++ subject := by
      rw [isLabel_subject.fieldText, hp, List.headD_cons, List.tail_cons, ← htext, heq]
    exact (oneLine_append_iff isLabel_subject.cr).mp (pieces_of_fieldText hwhole)
  · intro hline
    rw [OneLine, hp] at hline
    obtain ⟨rfl, rfl⟩ := List.cons.inj hline
    rw [htext, List.map_nil, List.flatten_nil, List.append_nil]

end Header

/-! ### The body -/

section Body

variable {label style value rest : List Char} {c : Prop} [Decidable c]

/-- A row of the table does not begin with a dot. -/
theorem safe_row : Safe (row label style value) := by
  have hstart : Safe "<tr><td style='padding:4px 12px;font-weight:bold;'>".toList :=
    safe_literal (by decide)
  unfold row
  exact ((((hstart.append _).append _).append _).append _).append _ |>.append _

/-- A row has lines with a dot in front only where its value has. -/
theorem noDotLines_row (hlabel : '\r' ∉ label) (hstyle : '\r' ∉ style) :
    NoDotLines (row label style value) ↔ NoDotLines value := by
  have hstart : '\r' ∉ "<tr><td style='padding:4px 12px;font-weight:bold;'>".toList :=
    not_mem_literal (by decide)
  have hmiddle : '\r' ∉ "</td><td style='padding:4px 12px;".toList := not_mem_literal (by decide)
  have hclose : '\r' ∉ "'>".toList := not_mem_literal (by decide)
  have hend : Safe "</td></tr>".toList := safe_literal (by decide)
  have hclosed : NoDotLines "</td></tr>".toList :=
    .of_oneLine (oneLine_of_not_mem (not_mem_literal (by decide)))
  unfold row
  simp only [List.append_assoc]
  rw [noDotLines_append_iff hstart, noDotLines_append_iff hlabel, noDotLines_append_iff hmiddle,
    noDotLines_append_iff hstyle, noDotLines_append_iff hclose, noDotLines_append_safe_iff hend]
  exact and_iff_left hclosed

/-- A row that may be left out. -/
theorem safe_ite_row (hrest : Safe rest) :
    Safe ((if c then row label style value else []) ++ rest) := by
  split
  · exact safe_row.append rest
  · exact hrest

/-- The same of a row that may be left out. -/
theorem noDotLines_ite_row (hlabel : '\r' ∉ label) (hstyle : '\r' ∉ style) (hrest : Safe rest) :
    NoDotLines ((if c then row label style value else []) ++ rest) ↔
      (c → NoDotLines value) ∧ NoDotLines rest := by
  split
  · next hc => rw [noDotLines_append_safe_iff hrest, noDotLines_row hlabel hstyle, imp_iff_right hc]
  · next hc => simp [hc]

/-- The rows of the table. -/
theorem noDotLines_rows_iff (hrest : Safe rest) (hline : NoDotLines rest) :
    NoDotLines
        ((if 0 ≤ msg.channelId then row "Channel".toList [] (decimal msg.channelId) else []) ++
        ((if msg.eventType ≠ [] then row "Event".toList [] msg.eventType else []) ++
        ((if fmt.positive msg.confidence then
          row "Confidence".toList [] (decimal (fmt.percent msg.confidence) ++ "%".toList)
        else []) ++
        (row "Severity".toList ("color:".toList ++ severityColor msg.severity ++ ";".toList)
          msg.severity ++ rest)))) ↔
      NoDotLines msg.eventType ∧ NoDotLines msg.severity := by
  have hcolor : '\r' ∉ "color:".toList ++ severityColor msg.severity ++ ";".toList := by
    unfold severityColor
    split
    · exact List.not_mem_append (List.not_mem_append (not_mem_literal (by decide))
        (not_mem_literal (by decide))) (not_mem_literal (by decide))
    · split <;> exact List.not_mem_append (List.not_mem_append (not_mem_literal (by decide))
        (not_mem_literal (by decide))) (not_mem_literal (by decide))
  have hpercent : NoDotLines (decimal (fmt.percent msg.confidence) ++ "%".toList) :=
    .of_oneLine (oneLine_of_not_mem
      (List.not_mem_append not_mem_decimal (not_mem_literal (by decide))))
  have hchannel : NoDotLines (decimal msg.channelId) :=
    .of_oneLine (oneLine_of_not_mem not_mem_decimal)
  have hempty : (msg.eventType ≠ [] → NoDotLines msg.eventType) ↔ NoDotLines msg.eventType := by
    refine ⟨fun h => ?_, fun h _ => h⟩
    by_cases hnil : msg.eventType = []
    · rw [hnil]
      exact .of_oneLine rfl
    · exact h hnil
  have hnone : '\r' ∉ ([] : List Char) := List.not_mem_nil
  have hseverity : Safe (row "Severity".toList
      ("color:".toList ++ severityColor msg.severity ++ ";".toList) msg.severity ++ rest) :=
    safe_row.append rest
  have hconfidence : Safe ((if fmt.positive msg.confidence then
      row "Confidence".toList [] (decimal (fmt.percent msg.confidence) ++ "%".toList) else []) ++
        (row "Severity".toList ("color:".toList ++ severityColor msg.severity ++ ";".toList)
          msg.severity ++ rest)) := safe_ite_row hseverity
  rw [noDotLines_ite_row (not_mem_literal (by decide)) hnone (safe_ite_row hconfidence),
    noDotLines_ite_row (not_mem_literal (by decide)) hnone hconfidence,
    noDotLines_ite_row (not_mem_literal (by decide)) hnone hseverity,
    noDotLines_append_safe_iff hrest, noDotLines_row (not_mem_literal (by decide)) hcolor, hempty]
  constructor
  · rintro ⟨-, hevent, -, hsev, -⟩
    exact ⟨hevent, hsev⟩
  · rintro ⟨hevent, hsev⟩
    exact ⟨fun _ => hchannel, hevent, fun _ => hpercent, hsev, hline⟩

/-- The body has no line that begins with a dot exactly when the four texts of the message put none
there. -/
theorem noDots_formatHtmlBody_iff :
    NoDots (formatHtmlBody fmt msg) ↔ NoDotLines msg.title ∧ NoDotLines msg.body ∧
      NoDotLines msg.eventType ∧ NoDotLines msg.severity := by
  have hhtml : '\r' ∉ "<html><body style='font-family:Arial,sans-serif;'>".toList :=
    not_mem_literal (by decide)
  have hh2 : '\r' ∉ "<h2 style='color:#333;'>".toList := not_mem_literal (by decide)
  have hp : '\r' ∉ "<p>".toList := not_mem_literal (by decide)
  have htable : '\r' ∉ "<table style='border-collapse:collapse;margin:16px 0;'>".toList :=
    not_mem_literal (by decide)
  have hclosed : NoDotLines ("</table>".toList ++ ("<hr style='border:1px solid #eee;'>".toList ++
      ("<p style='color:#999;font-size:12px;'>".toList ++ ("Sent by Loong AI NVR</p>".toList ++
        "</body></html>".toList)))) := by
    refine .of_oneLine (oneLine_of_not_mem ?_)
    refine List.not_mem_append (not_mem_literal (by decide)) ?_
    refine List.not_mem_append (not_mem_literal (by decide)) ?_
    refine List.not_mem_append (not_mem_literal (by decide)) ?_
    exact List.not_mem_append (not_mem_literal (by decide)) (not_mem_literal (by decide))
  have hstart : Safe "<html><body style='font-family:Arial,sans-serif;'>".toList :=
    safe_literal (by decide)
  have hend : Safe "</table>".toList := safe_literal (by decide)
  have hsafe : Safe (formatHtmlBody fmt msg) := by
    unfold formatHtmlBody
    simp only [List.append_assoc]
    exact hstart.append _
  rw [noDots_iff hsafe]
  unfold formatHtmlBody
  simp only [List.append_assoc]
  rw [noDotLines_append_iff hhtml, noDotLines_append_iff hh2,
    noDotLines_closed_iff (safe_literal (by decide)) (not_mem_literal (by decide)),
    noDotLines_append_iff hp,
    noDotLines_closed_iff (safe_literal (by decide)) (not_mem_literal (by decide)),
    noDotLines_append_iff htable]
  have hrows := @noDotLines_rows_iff _ fmt msg _ (hend.append _) hclosed
  simp only [List.append_assoc] at hrows
  rw [hrows]

end Body

/-! ### Messages that arrive whole -/

/-- The subject is on one line exactly when the severity and the title are. -/
theorem oneLine_subjectOf_iff :
    OneLine (subjectOf msg) ↔ OneLine msg.severity ∧ OneLine msg.title := by
  have hsafe : Safe ("] ".toList ++ msg.title) := (safe_literal (by decide)).append _
  rw [subjectOf]
  simp only [List.append_assoc]
  rw [oneLine_append_iff (not_mem_literal (by decide)), oneLine_append_safe_iff hsafe,
    oneLine_append_iff (not_mem_literal (by decide))]

/-- A channel that is configured sends an e-mail of the subject and the body. -/
theorem send_eq (h : Accepted config net) :
    send fmt config net msg = sendEmail config net (subjectOf msg) (formatHtmlBody fmt msg) := by
  rw [send, h.1, Bool.not_true, if_neg Bool.false_ne_true]

/-- `QUIT` is one line. -/
theorem not_mem_quits {success : Bool} :
    ∀ c ∈ (if success then ["QUIT".toList] else []), '\r' ∉ c := by
  intro c hc
  split at hc
  · rw [List.mem_singleton.mp hc]
    exact not_mem_literal (by decide)
  · cases hc

/-- The subject begins with a bracket, and so with nothing that is skipped. -/
theorem head?_subjectOf : (subjectOf msg).head? = some '[' := rfl

/-- What arrives whole was contained: the number of fields tells the header, the receipt the rest. -/
theorem contained_of_whole (h : Accepted config net)
    (hwhole : Whole fmt msg (send fmt config net msg)) : Contained config msg := by
  rw [Whole, send_eq h, data_sendEmail h] at hwhole
  obtain ⟨receipt, hreceive, hnames, hmem, hbody, hrest, -⟩ := hwhole
  have hlength : receipt.message.fields.length =
      (headerTexts config (subjectOf msg) net.localTime.date).length := by
    have hcount := congrArg List.length hnames
    rwa [List.length_map, ← names_headerTexts, List.length_map, List.length_map] at hcount
  obtain ⟨hall, hdots⟩ := (receive_wire_iff not_mem_quits allBegin_headerTexts).mp
    ⟨receipt, hreceive, hlength, hbody, hrest⟩
  -- what is received is now known, and with it the subject
  rw [receive_wire not_mem_quits allBegin_headerTexts hall hdots] at hreceive
  obtain rfl := Option.some.inj hreceive
  have hsubject : OneLine (subjectOf msg) := (subject_mem_iff head?_subjectOf).mp hmem
  obtain ⟨hseverity, htitle⟩ := oneLine_subjectOf_iff.mp hsubject
  obtain ⟨hsender, hrecipients, -⟩ := (allContinue_headerTexts_iff (not_mem_date _)).mp hall
  obtain ⟨-, hbodyLines, hevent, -⟩ := noDots_formatHtmlBody_iff.mp hdots
  exact ⟨hseverity, htitle, hbodyLines, hevent, hsender, hrecipients⟩

/-- What is contained arrives whole. -/
theorem whole_of_contained (h : Accepted config net) (hcontained : Contained config msg) :
    Whole fmt msg (send fmt config net msg) := by
  obtain ⟨hseverity, htitle, hbodyLines, hevent, hsender, hrecipients⟩ := hcontained
  have hsubject : OneLine (subjectOf msg) := oneLine_subjectOf_iff.mpr ⟨hseverity, htitle⟩
  have hall : AllContinue (headerTexts config (subjectOf msg) net.localTime.date) :=
    (allContinue_headerTexts_iff (not_mem_date _)).mpr
      ⟨hsender, hrecipients, .of_oneLine hsubject⟩
  have hdots : NoDots (formatHtmlBody fmt msg) := noDots_formatHtmlBody_iff.mpr
    ⟨.of_oneLine htitle, hbodyLines, hevent, .of_oneLine hseverity⟩
  rw [Whole, send_eq h, data_sendEmail h]
  exact ⟨_, receive_wire not_mem_quits allBegin_headerTexts hall hdots, names_headerTexts,
    (subject_mem_iff head?_subjectOf).mpr hsubject, rfl, rfl, rfl⟩

/-- **An e-mail arrives as one message with its header, its subject and its body**, and as nothing
else, exactly when no text of the message or of the configuration can be read as anything else. -/
theorem whole_iff (fmt : FloatFormat F) (config : SmtpConfig) (net : SmtpNetwork)
    (msg : NotificationMessage F) (h : Accepted config net) :
    Whole fmt msg (send fmt config net msg) ↔ Contained config msg :=
  ⟨contained_of_whole h, whole_of_contained h⟩

/-! ### Two messages -/

/-- A channel that sends without TLS to one guard. -/
def mailConfig : SmtpConfig :=
  { enabled := true, useTls := false, fromAddress := "nvr@site".toList
    toAddresses := ["guard@site".toList] }

/-- A server that takes everything. -/
def mailNetwork : SmtpNetwork where
  replies := ["220 ready".toList, "250 hello".toList, "250 ok".toList, "250 ok".toList,
    "354 go on".toList, "250 taken".toList, "221 bye".toList]
  localTime :=
    { wday := 0, mday := 1, mon := 0, year := 2026, hour := 0, min := 0, sec := 0, offset := 0 }

/-- It asks for the data. -/
theorem accepted_mailNetwork : Accepted mailConfig mailNetwork :=
  ⟨by decide, rfl, rfl, rfl, by decide⟩

/-- A message about a person. -/
def gateMessage (body : List Char) : NotificationMessage ℤ where
  title := "Person".toList
  body := body
  severity := "warning".toList
  confidence := 1

/-- A body of one line arrives whole. -/
theorem whole_gate :
    Whole wholeNumbers (gateMessage "at the gate".toList)
      (send wholeNumbers mailConfig mailNetwork (gateMessage "at the gate".toList)) :=
  (whole_iff wholeNumbers mailConfig mailNetwork _ accepted_mailNetwork).mpr
    { severity := oneLine_of_not_mem (by decide)
      title := oneLine_of_not_mem (by decide)
      body := .of_oneLine (oneLine_of_not_mem (by decide))
      eventType := .of_oneLine (oneLine_of_not_mem (by decide))
      sender := .of_oneLine (oneLine_of_not_mem (by decide))
      recipients := .of_oneLine (oneLine_of_not_mem (by decide)) }

/-- A body that ends the data early, with a command of its own behind it. -/
theorem whole_refuted :
    Accepted mailConfig mailNetwork ∧
      ¬ Whole wholeNumbers (gateMessage "gate\r\n.\r\nMAIL FROM:<x>".toList)
        (send wholeNumbers mailConfig mailNetwork
          (gateMessage "gate\r\n.\r\nMAIL FROM:<x>".toList)) := by
  refine ⟨accepted_mailNetwork, fun hwhole => ?_⟩
  have hbody := (contained_of_whole accepted_mailNetwork hwhole).body
  exact hbody ".".toList (by decide) rfl

end LoongNvr.Notification
