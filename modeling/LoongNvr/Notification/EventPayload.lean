import LoongNvr.Notification.SmtpChannel
import LoongNvr.Support.JsonText

/-!
# Notification — EventPayload

`MqttChannel::FormatEventPayload` and `WebhookChannel::BuildJsonPayload`: a message as a JSON text,
put together by hand.  The texts of the message stand between quotation marks as they are.

* `Says`: a payload is an object that says what the message says.
* `tells_and_apart_iff`: for two messages, both payloads do, and tell the messages apart, exactly
  when the texts of both stand for themselves in quotation marks.
-/

namespace LoongNvr.Notification
open Support JsonText

variable {F : Type*} {fmt : FloatFormat F} {finite : F → Prop}

/-! ### The payloads -/

/-- `now` is the time in milliseconds. -/
def formatEventPayload (fmt : FloatFormat F) (now : ℤ) (msg : NotificationMessage F) : List Char :=
  "\x7b\"title\":\"".toList ++ msg.title ++ "\",".toList ++
    "\"body\":\"".toList ++ msg.body ++ "\",".toList ++
    "\"severity\":\"".toList ++ msg.severity ++ "\",".toList ++
    "\"channel_id\":".toList ++ decimal msg.channelId ++ ",".toList ++
    "\"event_type\":\"".toList ++ msg.eventType ++ "\",".toList ++
    "\"confidence\":".toList ++ fmt.toText msg.confidence ++ ",".toList ++
    "\"timestamp\":".toList ++ decimal now ++ "\x7d".toList

def buildJsonPayload (fmt : FloatFormat F) (msg : NotificationMessage F) : List Char :=
  "\x7b".toList ++ "\"event\":\"alarm\",".toList ++
    "\"title\":\"".toList ++ msg.title ++ "\",".toList ++
    "\"body\":\"".toList ++ msg.body ++ "\",".toList ++
    "\"severity\":\"".toList ++ msg.severity ++ "\",".toList ++
    "\"channel_id\":".toList ++ decimal msg.channelId ++ ",".toList ++
    "\"event_type\":\"".toList ++ msg.eventType ++ "\",".toList ++
    "\"confidence\":".toList ++ fmt.print msg.confidence ++ ",".toList ++
    "\"timestamp\":".toList ++ decimal msg.timestamp ++
    (if msg.screenshotPath ≠ [] then
      ",\"screenshot\":\"".toList ++ msg.screenshotPath ++ "\"".toList
    else []) ++ "\x7d".toList

/-! ### The members -/

/-- The members both payloads have. -/
def commonMembers (confidence : List Char) (timestamp : ℤ) (msg : NotificationMessage F) :
    Members :=
  [("title".toList, .text msg.title), ("body".toList, .text msg.body),
    ("severity".toList, .text msg.severity), ("channel_id".toList, .word (decimal msg.channelId)),
    ("event_type".toList, .text msg.eventType), ("confidence".toList, .word confidence),
    ("timestamp".toList, .word (decimal timestamp))]

def eventMembers (fmt : FloatFormat F) (now : ℤ) (msg : NotificationMessage F) : Members :=
  commonMembers (fmt.toText msg.confidence) now msg

def alarmMembers (fmt : FloatFormat F) (msg : NotificationMessage F) : Members :=
  ("event".toList, .text "alarm".toList) ::
    (commonMembers (fmt.print msg.confidence) msg.timestamp msg ++
      if msg.screenshotPath ≠ [] then [("screenshot".toList, .text msg.screenshotPath)] else [])

theorem formatEventPayload_eq (fmt : FloatFormat F) (now : ℤ) (msg : NotificationMessage F) :
    formatEventPayload fmt now msg = write (eventMembers fmt now msg) := by
  unfold formatEventPayload
  simp only [write, writeTail, entry, Field.write, eventMembers, commonMembers,
    List.flatMap_cons, List.flatMap_nil, List.append_assoc, List.cons_append, List.nil_append]
  repeat rw [String.toList_ofList]
  rfl

theorem buildJsonPayload_eq (fmt : FloatFormat F) (msg : NotificationMessage F) :
    buildJsonPayload fmt msg = write (alarmMembers fmt msg) := by
  unfold buildJsonPayload
  rw [alarmMembers]
  split
  · simp only [write, writeTail, entry, Field.write, commonMembers, List.flatMap_cons,
      List.flatMap_nil, List.append_assoc, List.cons_append, List.nil_append]
    repeat rw [String.toList_ofList]
    rfl
  · simp only [write, writeTail, entry, Field.write, commonMembers, List.flatMap_cons,
      List.flatMap_nil, List.append_assoc, List.cons_append, List.nil_append]
    repeat rw [String.toList_ofList]
    rfl

/-! ### What a payload says -/

/-- The payload is one object without a key twice, with these texts and this channel. -/
def Says (texts : List (List Char × List Char)) (channelId : ℤ) (payload : List Char) : Prop :=
  ∃ members, read payload = some (.object members) ∧ (members.map (·.1)).Nodup ∧
    (∀ t ∈ texts, lastOf t.1 members = some (.string t.2)) ∧
    (lastOf "channel_id".toList members).bind Value.int = some channelId

def commonTexts (msg : NotificationMessage F) : List (List Char × List Char) :=
  [("title".toList, msg.title), ("body".toList, msg.body), ("severity".toList, msg.severity),
    ("event_type".toList, msg.eventType)]

def alarmTexts (msg : NotificationMessage F) : List (List Char × List Char) :=
  ("event".toList, "alarm".toList) ::
    (commonTexts msg ++
      if msg.screenshotPath ≠ [] then [("screenshot".toList, msg.screenshotPath)] else [])

/-- Both payloads of a message say what it says. -/
def Tells (fmt : FloatFormat F) (now : ℤ) (msg : NotificationMessage F) : Prop :=
  Says (commonTexts msg) msg.channelId (formatEventPayload fmt now msg) ∧
    Says (alarmTexts msg) msg.channelId (buildJsonPayload fmt msg)

/-- The messages agree in their title, body, severity and event type. -/
def Agree (msg msg' : NotificationMessage F) : Prop :=
  msg.title = msg'.title ∧ msg.body = msg'.body ∧ msg.severity = msg'.severity ∧
    msg.eventType = msg'.eventType

/-- Two payloads are the same object. -/
def SameObject (payload payload' : List Char) : Prop :=
  ∃ v v', read payload = some v ∧ read payload' = some v' ∧ ∀ key, v.find key = v'.find key

/-- The texts of the message stand for themselves in quotation marks. -/
structure PlainTexts (msg : NotificationMessage F) : Prop where
  title : Plain msg.title
  body : Plain msg.body
  severity : Plain msg.severity
  eventType : Plain msg.eventType
  screenshotPath : Plain msg.screenshotPath

/-- A finite number is written as a number of JSON. -/
structure FloatFormat.Writes (fmt : FloatFormat F) (finite : F → Prop) : Prop where
  toText : ∀ x, finite x → isNumber (fmt.toText x) = true
  print : ∀ x, finite x → isNumber (fmt.print x) = true

variable {texts : List (List Char × List Char)} {channelId now : ℤ} {ms : Members}
  {msg msg' : NotificationMessage F} {confidence : List Char} {timestamp : ℤ}

/-- **An object that is put together by hand says what was put in** exactly when its texts stand for
themselves. -/
theorem says_write_iff (h : Writable ms) (hkeys : (ms.map (·.1)).Nodup) (hwords : Words ms)
    (hid : ("channel_id".toList, .word (decimal channelId)) ∈ ms) :
    Says (textsOf ms) channelId (write ms) ↔ ∀ t ∈ textsOf ms, Plain t.2 := by
  rw [← good_iff hwords]
  constructor
  · rintro ⟨members, hread, -, htexts, -⟩
    refine good_of_find h hkeys hread fun m hm => ?_
    cases hfield : m.2 with
    | text s => exact .inr (htexts _ (mem_textsOf hm hfield))
    | word w => exact .inl rfl
  · intro hgood
    refine ⟨_, read_write h hgood, ?_, fun t ht => ?_, ?_⟩
    · rw [values, List.map_map]
      exact hkeys
    · obtain ⟨m, hm, heq⟩ := List.mem_filterMap.mp ht
      split at heq
      · next s hs =>
          obtain rfl := Option.some.inj heq
          rw [lastOf_values hkeys hm, hs]
          rfl
      · cases heq
    · rw [lastOf_values hkeys hid, Option.bind_some]
      exact int_decimal channelId

/-! ### Both payloads -/

theorem isKey_literal {cs : List Char} (h : IsKey cs) : IsKey (String.ofList cs).toList := by
  rwa [String.toList_ofList]

theorem writable_commonMembers (h : isNumber confidence = true) :
    Writable (commonMembers confidence timestamp msg) := by
  simp only [Writable, commonMembers, List.forall_mem_cons, List.not_mem_nil, false_imp_iff,
    implies_true, and_true, Field.Bare]
  exact ⟨isKey_literal (by decide), isKey_literal (by decide), isKey_literal (by decide),
    ⟨isKey_literal (by decide), isBare_of_isNumber (isNumber_decimal _)⟩,
    isKey_literal (by decide), ⟨isKey_literal (by decide), isBare_of_isNumber h⟩,
    ⟨isKey_literal (by decide), isBare_of_isNumber (isNumber_decimal _)⟩⟩

theorem words_commonMembers (h : isNumber confidence = true) :
    Words (commonMembers confidence timestamp msg) := by
  simp only [Words, commonMembers, List.forall_mem_cons, List.not_mem_nil, false_imp_iff,
    implies_true, and_true, reduceCtorEq, Field.word.injEq, forall_eq', true_and]
  exact ⟨isWord_of_isNumber (isNumber_decimal _), isWord_of_isNumber h,
    isWord_of_isNumber (isNumber_decimal _)⟩

theorem channelId_mem_commonMembers :
    ("channel_id".toList, .word (decimal msg.channelId)) ∈
      commonMembers confidence timestamp msg :=
  List.mem_cons_of_mem _ (List.mem_cons_of_mem _ (List.mem_cons_of_mem _ List.mem_cons_self))

theorem says_formatEventPayload_iff (h : isNumber (fmt.toText msg.confidence) = true) :
    Says (commonTexts msg) msg.channelId (formatEventPayload fmt now msg) ↔
      Plain msg.title ∧ Plain msg.body ∧ Plain msg.severity ∧ Plain msg.eventType := by
  have hwritable : Writable (eventMembers fmt now msg) := writable_commonMembers h
  have hwords : Words (eventMembers fmt now msg) := words_commonMembers h
  have hkeys : ((eventMembers fmt now msg).map (·.1)).Nodup := by
    have hmap : (eventMembers fmt now msg).map (·.1) = ["title".toList, "body".toList,
      "severity".toList, "channel_id".toList, "event_type".toList, "confidence".toList,
      "timestamp".toList] := rfl
    rw [hmap]
    repeat rw [String.toList_ofList]
    decide
  have hid : ("channel_id".toList, .word (decimal msg.channelId)) ∈ eventMembers fmt now msg :=
    channelId_mem_commonMembers
  have htexts : commonTexts msg = textsOf (eventMembers fmt now msg) := rfl
  rw [formatEventPayload_eq, htexts, says_write_iff hwritable hkeys hwords hid, ← htexts]
  simp only [commonTexts, List.forall_mem_cons, List.not_mem_nil, false_imp_iff, implies_true,
    and_true]

/-- The screenshot's member, if there is one. -/
theorem writable_alarmMembers (h : isNumber (fmt.print msg.confidence) = true) :
    Writable (alarmMembers fmt msg) ∧ Words (alarmMembers fmt msg) := by
  have hwritable : Writable (commonMembers (fmt.print msg.confidence) msg.timestamp msg) :=
    writable_commonMembers h
  have hwords : Words (commonMembers (fmt.print msg.confidence) msg.timestamp msg) :=
    words_commonMembers h
  have hkey : IsKey "screenshot".toList := isKey_literal (by decide)
  have hscreenshot : ∀ m ∈ (if msg.screenshotPath ≠ [] then
      [("screenshot".toList, Field.text msg.screenshotPath)] else []),
        (IsKey m.1 ∧ m.2.Bare) ∧ ∀ w, m.2 = .word w → isWord w = true := by
    intro m hm
    split at hm
    · obtain rfl := List.mem_singleton.mp hm
      exact ⟨⟨hkey, trivial⟩, fun w hw => by cases hw⟩
    · cases hm
  constructor
  · refine List.forall_mem_cons.mpr ⟨⟨isKey_literal (by decide), trivial⟩, ?_⟩
    exact List.forall_mem_append.mpr ⟨hwritable, fun m hm => (hscreenshot m hm).1⟩
  · refine List.forall_mem_cons.mpr ⟨(fun w hw => by cases hw), ?_⟩
    exact List.forall_mem_append.mpr ⟨hwords, fun m hm => (hscreenshot m hm).2⟩

theorem keys_alarmMembers : ((alarmMembers fmt msg).map (·.1)).Nodup := by
  by_cases hscreenshot : msg.screenshotPath ≠ []
  · have hmap : (alarmMembers fmt msg).map (·.1) = ["event".toList, "title".toList, "body".toList,
        "severity".toList, "channel_id".toList, "event_type".toList, "confidence".toList,
        "timestamp".toList, "screenshot".toList] := by
      rw [alarmMembers, if_pos hscreenshot]
      rfl
    rw [hmap]
    repeat rw [String.toList_ofList]
    decide
  · have hmap : (alarmMembers fmt msg).map (·.1) = ["event".toList, "title".toList, "body".toList,
        "severity".toList, "channel_id".toList, "event_type".toList, "confidence".toList,
        "timestamp".toList] := by
      rw [alarmMembers, if_neg hscreenshot]
      rfl
    rw [hmap]
    repeat rw [String.toList_ofList]
    decide

theorem textsOf_alarmMembers : textsOf (alarmMembers fmt msg) = alarmTexts msg := by
  rw [alarmMembers, alarmTexts]
  split <;> rfl

theorem says_buildJsonPayload_iff (h : isNumber (fmt.print msg.confidence) = true) :
    Says (alarmTexts msg) msg.channelId (buildJsonPayload fmt msg) ↔
      (Plain msg.title ∧ Plain msg.body ∧ Plain msg.severity ∧ Plain msg.eventType) ∧
        Plain msg.screenshotPath := by
  obtain ⟨hwritable, hwords⟩ := writable_alarmMembers h
  have hid : ("channel_id".toList, .word (decimal msg.channelId)) ∈ alarmMembers fmt msg :=
    List.mem_cons_of_mem _ (List.mem_append_left _ channelId_mem_commonMembers)
  have hscreenshot : (∀ t ∈ (if msg.screenshotPath ≠ [] then
      [("screenshot".toList, msg.screenshotPath)] else []), Plain t.2) ↔
        Plain msg.screenshotPath := by
    split
    · exact List.forall_mem_singleton
    · next hnil =>
        rw [not_not.mp hnil]
        exact iff_of_true (List.forall_mem_nil _) (List.forall_mem_nil _)
  have hevent : Plain "alarm".toList := by decide
  rw [buildJsonPayload_eq, ← @textsOf_alarmMembers _ fmt, says_write_iff hwritable keys_alarmMembers
    hwords hid, textsOf_alarmMembers, alarmTexts, List.forall_mem_cons, List.forall_mem_append,
    hscreenshot, and_iff_right hevent]
  simp only [commonTexts, List.forall_mem_cons, List.not_mem_nil, false_imp_iff, implies_true,
    and_true]

theorem tells_iff (h : fmt.Writes finite) (hfinite : finite msg.confidence) :
    Tells fmt now msg ↔ PlainTexts msg := by
  rw [Tells, says_formatEventPayload_iff (h.toText _ hfinite),
    says_buildJsonPayload_iff (h.print _ hfinite)]
  constructor
  · rintro ⟨-, ⟨htitle, hbody, hseverity, hevent⟩, hscreenshot⟩
    exact ⟨htitle, hbody, hseverity, hevent, hscreenshot⟩
  · rintro ⟨htitle, hbody, hseverity, hevent, hscreenshot⟩
    exact ⟨⟨htitle, hbody, hseverity, hevent⟩, ⟨htitle, hbody, hseverity, hevent⟩, hscreenshot⟩

/-- Payloads that say what their messages say are different unless the messages agree. -/
theorem agree_of_sameObject {channelId' : ℤ} {texts' : List (List Char × List Char)}
    {payload payload' : List Char} (h : Says texts channelId payload)
    (h' : Says texts' channelId' payload') (hsub : commonTexts msg ⊆ texts)
    (hsub' : commonTexts msg' ⊆ texts') (hsame : SameObject payload payload') :
    Agree msg msg' := by
  obtain ⟨members, hread, -, htexts, -⟩ := h
  obtain ⟨members', hread', -, htexts', -⟩ := h'
  obtain ⟨v, v', hv, hv', hfind⟩ := hsame
  rw [hread, Option.some.injEq] at hv
  rw [hread', Option.some.injEq] at hv'
  subst hv hv'
  have hkey : ∀ key s s', (key, s) ∈ commonTexts msg → (key, s') ∈ commonTexts msg' → s = s' := by
    intro key s s' hs hs'
    have heq : lastOf key members = lastOf key members' := hfind key
    rw [htexts _ (hsub hs), htexts' _ (hsub' hs'), Option.some.injEq] at heq
    exact Value.string.inj heq
  refine ⟨hkey "title".toList _ _ ?_ ?_, hkey "body".toList _ _ ?_ ?_,
    hkey "severity".toList _ _ ?_ ?_, hkey "event_type".toList _ _ ?_ ?_⟩ <;>
    simp [commonTexts]

/-- Two messages that do not agree are never the same object. -/
def Apart (fmt : FloatFormat F) (now now' : ℤ) (msg msg' : NotificationMessage F) : Prop :=
  (SameObject (formatEventPayload fmt now msg) (formatEventPayload fmt now' msg') →
      Agree msg msg') ∧
    (SameObject (buildJsonPayload fmt msg) (buildJsonPayload fmt msg') → Agree msg msg')

theorem apart_of_tells {now' : ℤ} (h : Tells fmt now msg) (h' : Tells fmt now' msg') :
    Apart fmt now now' msg msg' := by
  have halarm : ∀ msg : NotificationMessage F, commonTexts msg ⊆ alarmTexts msg :=
    fun msg => List.subset_cons_of_subset _ (List.subset_append_left _ _)
  exact ⟨agree_of_sameObject h.1 h'.1 (List.Subset.refl _) (List.Subset.refl _),
    agree_of_sameObject h.2 h'.2 (halarm msg) (halarm msg')⟩

/-- **The payloads of two messages say what the messages say**, and are different objects unless the
messages agree, exactly when the texts of both stand for themselves in quotation marks. -/
theorem tells_and_apart_iff (fmt : FloatFormat F) (finite : F → Prop) (h : fmt.Writes finite)
    (now now' : ℤ) (msg msg' : NotificationMessage F) (hfinite : finite msg.confidence)
    (hfinite' : finite msg'.confidence) :
    Tells fmt now msg ∧ Tells fmt now' msg' ∧ Apart fmt now now' msg msg' ↔
      PlainTexts msg ∧ PlainTexts msg' := by
  constructor
  · rintro ⟨htells, htells', -⟩
    exact ⟨(tells_iff h hfinite).mp htells, (tells_iff h hfinite').mp htells'⟩
  · rintro ⟨hplain, hplain'⟩
    have htells : Tells fmt now msg := (tells_iff h hfinite).mpr hplain
    have htells' : Tells fmt now' msg' := (tells_iff h hfinite').mpr hplain'
    exact ⟨htells, htells', apart_of_tells htells htells'⟩

/-! ### Two messages -/

def alarmMessage (title : List Char) : NotificationMessage ℤ where
  title := title
  body := "at the gate".toList
  severity := "warning".toList
  channelId := 3
  eventType := "intrusion".toList
  confidence := 1
  timestamp := 1700000000000

theorem writes_wholeNumbers : wholeNumbers.Writes (· = 1) where
  toText := by
    rintro x rfl
    decide
  print := by
    rintro x rfl
    decide

theorem tells_and_apart_alarm :
    Tells wholeNumbers 0 (alarmMessage "Person".toList) ∧
      Tells wholeNumbers 0 (alarmMessage "Car".toList) ∧
      Apart wholeNumbers 0 0 (alarmMessage "Person".toList) (alarmMessage "Car".toList) :=
  (tells_and_apart_iff wholeNumbers (· = 1) writes_wholeNumbers 0 0 _ _ rfl rfl).mpr
    ⟨⟨by decide, by decide, by decide, by decide, by decide⟩,
      ⟨by decide, by decide, by decide, by decide, by decide⟩⟩

/-- A title with a quotation mark in it. -/
theorem tells_refuted : ¬ Tells wholeNumbers 0 (alarmMessage "Person \"A\"".toList) := by
  intro htells
  have htitle := ((tells_iff writes_wholeNumbers rfl).mp htells).title
  exact absurd htitle (by decide)

end LoongNvr.Notification
