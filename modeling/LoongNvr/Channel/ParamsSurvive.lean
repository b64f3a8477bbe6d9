import LoongNvr.Channel.ParamsText

/-!
# Channel — ParamsSurvive

Whether the settings of a channel survive the JSON texts they travel in.  The orchestrator puts
texts between quotation marks as they are, and writes doubles with six digits.

* `Survives`: each text has each setting under its key, and each stage reads the settings from it.
* `survives_iff`: so it is exactly when the texts of the configuration stand for themselves in
  quotation marks, and six digits are enough for its doubles.
-/

namespace LoongNvr.Channel
open LoongNvr.Core Support JsonText

variable {lib : JsonLibrary} {config : ChannelConfig} {active : ℕ} {ms : Members}

/-! ### The settings and their keys -/

/-- The input stage is told the URL and the channel. -/
def inputMembers (config : ChannelConfig) : Members :=
  [("rtsp_url".toList, .text config.rtspUrl.toList),
    ("channel_id".toList, .word (decimal config.id))]

/-- The decode stage is told codec and size. -/
def decodeMembers (config : ChannelConfig) : Members :=
  [("codec".toList, .text (codecText config.codec)), ("width".toList, .word (decimal config.width)),
    ("height".toList, .word (decimal config.height))]

/-- The analysis stage is told the model and its parameters. -/
def aiMembers (lib : JsonLibrary) (config : ChannelConfig) (aiBatchSize : ℤ) : Members :=
  [("model_name".toList, .text config.aiModelName.toList),
    ("backend".toList, .text config.aiBackend.toList),
    ("confidence_threshold".toList, .word (lib.print config.confidenceThreshold)),
    ("batch_size".toList, .word (decimal aiBatchSize)), ("skip_frames".toList, .word (decimal 0))]

/-- The rule stage is told the channel. -/
def ruleMembers (config : ChannelConfig) : Members :=
  [("channel_id".toList, .word (decimal config.id))]

/-- The overlay stage is told what is drawn and how; the format of the time only if there is one. -/
def overlayMembers (lib : JsonLibrary) (config : ChannelConfig) : Members :=
  [("enabled".toList, .word (boolText config.overlay.enabled)),
    ("line_thickness".toList, .word (decimal config.overlay.lineThickness)),
    ("font_scale".toList, .word (lib.print config.overlay.fontScale)),
    ("show_labels".toList, .word (boolText config.overlay.showLabels)),
    ("show_confidence".toList, .word (boolText config.overlay.showConfidence)),
    ("show_timestamp".toList, .word (boolText config.overlay.showTimestamp)),
    ("show_channel_name".toList, .word (boolText config.overlay.showChannelName)),
    ("show_trajectory".toList, .word (boolText config.overlay.showTrajectory)),
    ("trajectory_max_points".toList, .word (decimal config.overlay.trajectoryMaxPoints)),
    ("timestamp_position".toList, .word (decimal config.overlay.timestampPosition)),
    ("fill_opacity".toList, .word (lib.print config.overlay.fillOpacity)),
    ("channel_id".toList, .word (decimal config.id)),
    ("channel_name".toList, .text config.name.toList)] ++
  if config.overlay.timestampFormat.toList ≠ [] then
    [("timestamp_format".toList, .text config.overlay.timestampFormat.toList)]
  else []

/-- The output stage is told what to encode; a frame rate that is not known is 30. -/
def outputMembers (config : ChannelConfig) : Members :=
  [("codec".toList, .text (codecText config.codec)), ("width".toList, .word (decimal config.width)),
    ("height".toList, .word (decimal config.height)),
    ("bitrate_kbps".toList, .word (decimal config.bitrateKbps)),
    ("framerate".toList, .word (decimal (if config.framerate > 0 then config.framerate else 30))),
    ("preset".toList, .text "ultrafast".toList), ("channel_id".toList, .word (decimal config.id))]

/-! ### Settings carried by their texts -/

/-- The text is an object that has each setting under its key. -/
def Carries (ms : Members) (text : List Char) : Prop :=
  ∃ v, read text = some v ∧ JsonText.Holds ms v

/-- The settings of a channel survive on their way to its stages. -/
structure Survives (lib : JsonLibrary) (config : ChannelConfig) (active : ℕ) : Prop where
  inputText : Carries (inputMembers config) (makeInputStageParams config)
  decodeText : Carries (decodeMembers config) (makeDecodeStageParams config)
  aiText : Carries (aiMembers lib config (computeBatchSize active))
    (makeAiStageParams lib config (computeBatchSize active))
  ruleText : Carries (ruleMembers config) (makeRuleStageParams config)
  overlayText : Carries (overlayMembers lib config) (makeOverlayStageParams lib config)
  outputText : Carries (outputMembers config) (makeOutputStageParams config)
  input : (initializeInput lib (makeInputStageParams config)).2 =
    { url := config.rtspUrl, channelId := config.id }
  ai : initializeAi lib (makeAiStageParams lib config (computeBatchSize active)) =
    { confidenceThreshold := config.confidenceThreshold, batchSize := computeBatchSize active }
  rule : initializeRule lib (makeRuleStageParams config) = config.id
  overlay : initializeOverlay lib (makeOverlayStageParams lib config) =
    ({ config := config.overlay, channelName := config.name, channelId := config.id }, "")

/-- The texts stand for themselves in quotation marks, and six digits are enough for the doubles. -/
structure SafeSettings (lib : JsonLibrary) (config : ChannelConfig) : Prop where
  rtspUrl : Plain config.rtspUrl.toList
  name : Plain config.name.toList
  aiModelName : Plain config.aiModelName.toList
  aiBackend : Plain config.aiBackend.toList
  timestampFormat : Plain config.overlay.timestampFormat.toList
  confidenceThreshold :
    lib.toFloat (lib.number (lib.print config.confidenceThreshold)) = config.confidenceThreshold
  fontScale : lib.number (lib.print config.overlay.fontScale) = config.overlay.fontScale
  fillOpacity : lib.number (lib.print config.overlay.fillOpacity) = config.overlay.fillOpacity

/-- What is an int in the source is one. -/
structure IntFields (config : ChannelConfig) : Prop where
  id : IsInt config.id
  width : IsInt config.width
  height : IsInt config.height
  framerate : IsInt config.framerate
  bitrateKbps : IsInt config.bitrateKbps
  lineThickness : IsInt config.overlay.lineThickness
  trajectoryMaxPoints : IsInt config.overlay.trajectoryMaxPoints
  timestampPosition : IsInt config.overlay.timestampPosition

/-! ### The texts are what is written of the settings -/

/-- The orchestrator's text is what a writer makes of the members that leaves texts as they are. -/
theorem makeInputStageParams_eq :
    makeInputStageParams config = write (inputMembers config) := by
  unfold makeInputStageParams
  simp only [write, writeTail, entry, Field.write, inputMembers, List.flatMap_cons,
    List.flatMap_nil, List.append_assoc, List.cons_append, List.nil_append]
  repeat rw [String.toList_ofList]
  rfl

theorem makeDecodeStageParams_eq :
    makeDecodeStageParams config = write (decodeMembers config) := by
  unfold makeDecodeStageParams
  simp only [write, writeTail, entry, Field.write, decodeMembers, List.flatMap_cons,
    List.flatMap_nil, List.append_assoc, List.cons_append, List.nil_append]
  repeat rw [String.toList_ofList]
  rfl

theorem makeAiStageParams_eq {aiBatchSize : ℤ} :
    makeAiStageParams lib config aiBatchSize = write (aiMembers lib config aiBatchSize) := by
  unfold makeAiStageParams
  simp only [write, writeTail, entry, Field.write, aiMembers, List.flatMap_cons,
    List.flatMap_nil, List.append_assoc, List.cons_append, List.nil_append]
  repeat rw [String.toList_ofList]
  rfl

theorem makeRuleStageParams_eq : makeRuleStageParams config = write (ruleMembers config) := by
  unfold makeRuleStageParams
  simp only [write, writeTail, entry, Field.write, ruleMembers, List.flatMap_nil,
    List.append_assoc, List.cons_append, List.nil_append]
  repeat rw [String.toList_ofList]
  rfl

set_option maxRecDepth 1000 in
/-- The text for the overlay stage has one member less where there is no format. -/
theorem makeOverlayStageParams_eq :
    makeOverlayStageParams lib config = write (overlayMembers lib config) := by
  unfold makeOverlayStageParams overlayMembers
  by_cases hformat : config.overlay.timestampFormat.toList ≠ []
  · simp only [if_pos hformat, write, writeTail, entry, Field.write, List.flatMap_cons,
      List.flatMap_nil, List.append_assoc, List.cons_append, List.nil_append]
    repeat rw [String.toList_ofList]
    rfl
  · simp only [if_neg hformat, write, writeTail, entry, Field.write, List.flatMap_cons,
      List.flatMap_nil, List.append_assoc, List.cons_append, List.nil_append]
    repeat rw [String.toList_ofList]
    rfl

theorem makeOutputStageParams_eq :
    makeOutputStageParams config = write (outputMembers config) := by
  unfold makeOutputStageParams
  simp only [write, writeTail, entry, Field.write, outputMembers, List.flatMap_cons,
    List.flatMap_nil, List.append_assoc, List.cons_append, List.nil_append]
  repeat rw [String.toList_ofList]
  rfl

/-! ### Words that are written -/

/-- A word that is written stands for itself. -/
structure JsonLibrary.Word (lib : JsonLibrary) (w : List Char) : Prop where
  bare : IsBare w
  word : isWord w = true
  written : isNumber w = true → lib.Written w

/-- A text, or a word that is written. -/
def JsonLibrary.Sends (lib : JsonLibrary) : Field → Prop
  | .text _ => True
  | .word w => lib.Word w

/-- An `int` is written as a word of JSON. -/
theorem word_decimal {n : ℤ} (h : IsInt n) : lib.Word (decimal n) where
  bare := isBare_of_isNumber (isNumber_decimal n)
  word := isWord_of_isNumber (isNumber_decimal n)
  written _ := .inl ⟨n, h, rfl⟩

theorem word_print (h : lib.Lawful) (x : ℚ) : lib.Word (lib.print x) where
  bare := isBare_of_isNumber (h.isNumber_print x)
  word := isWord_of_isNumber (h.isNumber_print x)
  written _ := .inr ⟨x, rfl⟩

/-- `true` and `false` are no numbers. -/
theorem word_boolText (b : Bool) : lib.Word (boolText b) where
  bare := by cases b <;> decide
  word := by cases b <;> decide
  written hnumber := by cases b <;> exact absurd hnumber (by decide)

/-- Members under keys of their own, with words that are written. -/
structure Sendable (lib : JsonLibrary) (ms : Members) : Prop where
  key : ∀ key ∈ ms.map (·.1), IsKey key
  keys : (ms.map (·.1)).Nodup
  fields : ∀ m ∈ ms, lib.Sends m.2

namespace Sendable

variable (h : Sendable lib ms)
include h

/-- The members can be written: keys are keys, and words are words. -/
theorem writable : Writable ms := by
  intro m hm
  refine ⟨h.key _ (List.mem_map_of_mem hm), ?_⟩
  have hfield := h.fields m hm
  cases hm' : m.2 with
  | text s => exact trivial
  | word w =>
      rw [hm'] at hfield
      exact hfield.bare

/-- Every word of theirs is a word of JSON. -/
theorem words : Words ms := by
  intro m hm w hw
  have hfield := h.fields m hm
  rw [hw] at hfield
  exact hfield.word

/-- The settings are carried exactly when their texts stand for themselves. -/
theorem carries_iff : Carries ms (write ms) ↔ ∀ t ∈ textsOf ms, Plain t.2 :=
  (exists_holds_iff h.writable h.keys).trans (good_iff h.words)

/-- The library reads what is carried. -/
theorem parse (hlib : lib.Lawful) (hcarries : Carries ms (write ms)) :
    lib.parse (write ms) = some (.object (values ms)) ∧
      JsonText.Holds ms (.object (values ms)) := by
  have hgood := (exists_holds_iff h.writable h.keys).mp hcarries
  refine ⟨hlib.parse_of_read _ _ _ (lex_write_of_good h.writable hgood) ?_
    (read_write h.writable hgood), fun m hm => lastOf_values h.keys hm⟩
  intro w hw hnumber
  obtain ⟨m, hm, hword⟩ := mem_writeTokens hw
  have hfield := h.fields m hm
  rw [hword] at hfield
  exact hfield.written hnumber

end Sendable

/-- The batch size is one of four small numbers. -/
theorem isInt_computeBatchSize (active : ℕ) : IsInt (computeBatchSize active) := by
  unfold computeBatchSize IsInt
  split
  · omega
  · split
    · omega
    · split <;> omega

/-! ### The members of each stage -/

/-- Members are sendable by their list of keys, whatever the values are. -/
theorem Sendable.of_keys {keys : List (List Char)} (hmap : ms.map (·.1) = keys)
    (hkeys : (∀ key ∈ keys, IsKey key) ∧ keys.Nodup) (hfields : ∀ m ∈ ms, lib.Sends m.2) :
    Sendable lib ms where
  key := hmap ▸ hkeys.1
  keys := hmap ▸ hkeys.2
  fields := hfields

/-- The members are sendable where what is an `int` in the source is one. -/
theorem sendable_inputMembers (hint : IntFields config) :
    Sendable lib (inputMembers config) := by
  have hmap : (inputMembers config).map (·.1) = ["rtsp_url".toList, "channel_id".toList] := rfl
  refine .of_keys hmap ?_ ?_
  · repeat rw [String.toList_ofList]
    decide
  simp only [inputMembers, List.forall_mem_cons, List.not_mem_nil, false_imp_iff, implies_true,
    and_true]
  exact ⟨trivial, word_decimal hint.id⟩

theorem sendable_decodeMembers (hint : IntFields config) :
    Sendable lib (decodeMembers config) := by
  have hmap : (decodeMembers config).map (·.1) =
      ["codec".toList, "width".toList, "height".toList] := rfl
  refine .of_keys hmap ?_ ?_
  · repeat rw [String.toList_ofList]
    decide
  simp only [decodeMembers, List.forall_mem_cons, List.not_mem_nil, false_imp_iff, implies_true,
    and_true]
  exact ⟨trivial, word_decimal hint.width, word_decimal hint.height⟩

theorem sendable_aiMembers (hlib : lib.Lawful) :
    Sendable lib (aiMembers lib config (computeBatchSize active)) := by
  have hmap : (aiMembers lib config (computeBatchSize active)).map (·.1) =
      ["model_name".toList, "backend".toList, "confidence_threshold".toList, "batch_size".toList,
        "skip_frames".toList] := rfl
  refine .of_keys hmap ?_ ?_
  · repeat rw [String.toList_ofList]
    decide
  simp only [aiMembers, List.forall_mem_cons, List.not_mem_nil, false_imp_iff, implies_true,
    and_true]
  exact ⟨trivial, trivial, word_print hlib _, word_decimal (isInt_computeBatchSize active),
    word_decimal ⟨by decide, by decide⟩⟩

theorem sendable_ruleMembers (hint : IntFields config) : Sendable lib (ruleMembers config) := by
  have hmap : (ruleMembers config).map (·.1) = ["channel_id".toList] := rfl
  refine .of_keys hmap ?_ (List.forall_mem_singleton.mpr (word_decimal hint.id))
  repeat rw [String.toList_ofList]
  decide

theorem sendable_outputMembers (hint : IntFields config) :
    Sendable lib (outputMembers config) := by
  have hmap : (outputMembers config).map (·.1) =
      ["codec".toList, "width".toList, "height".toList, "bitrate_kbps".toList, "framerate".toList,
        "preset".toList, "channel_id".toList] := rfl
  have hframerate : IsInt (if config.framerate > 0 then config.framerate else 30) := by
    split
    · exact hint.framerate
    · exact ⟨by decide, by decide⟩
  refine .of_keys hmap ?_ ?_
  · repeat rw [String.toList_ofList]
    decide
  simp only [outputMembers, List.forall_mem_cons, List.not_mem_nil, false_imp_iff, implies_true,
    and_true]
  exact ⟨trivial, word_decimal hint.width, word_decimal hint.height,
    word_decimal hint.bitrateKbps, word_decimal hframerate, trivial, word_decimal hint.id⟩

/-- The keys of the overlay stage, but for the format. -/
def overlayKeys : List (List Char) :=
  ["enabled".toList, "line_thickness".toList, "font_scale".toList, "show_labels".toList,
    "show_confidence".toList, "show_timestamp".toList, "show_channel_name".toList,
    "show_trajectory".toList, "trajectory_max_points".toList, "timestamp_position".toList,
    "fill_opacity".toList, "channel_id".toList, "channel_name".toList]

/-- The format comes last. -/
theorem keys_overlayMembers :
    (overlayMembers lib config).map (·.1) = overlayKeys ++
      if config.overlay.timestampFormat.toList ≠ [] then ["timestamp_format".toList] else [] := by
  unfold overlayMembers
  split <;> rfl

theorem sendable_overlayMembers (hlib : lib.Lawful) (hint : IntFields config) :
    Sendable lib (overlayMembers lib config) := by
  have hkeys : (∀ key ∈ overlayKeys ++ ["timestamp_format".toList], IsKey key) ∧
      (overlayKeys ++ ["timestamp_format".toList]).Nodup := by
    rw [overlayKeys]
    repeat rw [String.toList_ofList]
    decide +kernel
  have hformat : ∀ m ∈ (if config.overlay.timestampFormat.toList ≠ [] then
      [("timestamp_format".toList, Field.text config.overlay.timestampFormat.toList)] else []),
        lib.Sends m.2 := by
    intro m hm
    split at hm
    · rw [List.mem_singleton.mp hm]
      trivial
    · cases hm
  refine .of_keys keys_overlayMembers ?_ (List.forall_mem_append.mpr ⟨?_, hformat⟩)
  · split
    · exact hkeys
    · rw [List.append_nil]
      exact ⟨fun key hkey => hkeys.1 key (List.mem_append_left _ hkey), hkeys.2.of_append_left⟩
  · simp only [List.forall_mem_cons, List.not_mem_nil, false_imp_iff, implies_true, and_true]
    exact ⟨word_boolText _, word_decimal hint.lineThickness, word_print hlib _, word_boolText _,
      word_boolText _, word_boolText _, word_boolText _, word_boolText _,
      word_decimal hint.trajectoryMaxPoints, word_decimal hint.timestampPosition,
      word_print hlib _, word_decimal hint.id, trivial⟩

/-! ### What is read of a value -/

section Reads

variable {α : Type} {get : Value → Option α} {key : String} {default : α} {v m : Value}

/-- A member that is there is read, and the default is not looked at. -/
theorem valueOf_of_find (h : v.find key.toList = some m) : valueOf get key default v = get m := by
  cases v with
  | object members =>
      have hlast : lastOf key.toList members = some m := h
      rw [valueOf, hlast]
  | _ => cases h

/-- A key that no member has is read as its default. -/
theorem valueOf_of_not_mem (h : key.toList ∉ ms.map (·.1)) :
    valueOf get key default (.object (values ms)) = some default := by
  have hlast : lastOf key.toList (values ms) = none := by
    refine lastOf_of_not_mem ?_
    rw [values, List.map_map]
    exact h
  rw [valueOf, hlast]

theorem getStr_text (s : String) : getStr (Field.text s.toList).value = some s :=
  congrArg some String.ofList_toList

theorem getBool_boolText (b : Bool) : getBool (Field.word (boolText b)).value = some b := by
  cases b <;> decide

/-- A number is neither `true` nor `false`. -/
theorem ne_of_isNumber {w : List Char} (h : isNumber w = true) : w ≠ trueWord ∧ w ≠ falseWord := by
  constructor
  · rintro rfl
    exact absurd h (by decide)
  · rintro rfl
    exact absurd h (by decide)

/-- An `int` is read as the number that was written. -/
theorem getInt_decimal {n : ℤ} (h : IsInt n) :
    getInt lib (Field.word (decimal n)).value = some n := by
  obtain ⟨htrue, hfalse⟩ := ne_of_isNumber (isNumber_decimal n)
  rw [Field.value, getInt, if_neg htrue, if_neg hfalse, if_pos (isInteger_decimal n), intOf_decimal,
    toInt32_of_isInt h]

/-- A double is read as what the library makes of its six digits. -/
theorem getDouble_print (hlib : lib.Lawful) (x : ℚ) :
    getDouble lib (Field.word (lib.print x)).value = some (lib.number (lib.print x)) := by
  rw [Field.value, getDouble, if_pos (hlib.isNumber_print x)]

/-- A `float` is that, once more rounded. -/
theorem getFloat_print (hlib : lib.Lawful) (x : ℚ) :
    getFloat lib (Field.word (lib.print x)).value =
      some (lib.toFloat (lib.number (lib.print x))) := by
  obtain ⟨htrue, hfalse⟩ := ne_of_isNumber (hlib.isNumber_print x)
  rw [Field.value, getFloat, if_neg htrue, if_neg hfalse, if_pos (hlib.isNumber_print x)]

variable {n : ℤ} {x : ℚ} {b : Bool} {s : String}

/-- A setting that the text holds is what the stage reads, by the kind of setting. -/
theorem valueOf_str (h : v.find key.toList = some (Field.text s.toList).value) (default : String) :
    valueOf getStr key default v = some s := by
  rw [valueOf_of_find h, getStr_text]

theorem valueOf_bool (h : v.find key.toList = some (Field.word (boolText b)).value)
    (default : Bool) : valueOf getBool key default v = some b := by
  rw [valueOf_of_find h, getBool_boolText]

theorem valueOf_int (hn : IsInt n) (h : v.find key.toList = some (Field.word (decimal n)).value)
    (default : ℤ) : valueOf (getInt lib) key default v = some n := by
  rw [valueOf_of_find h, getInt_decimal hn]

theorem valueOf_double (hlib : lib.Lawful)
    (h : v.find key.toList = some (Field.word (lib.print x)).value) (default : ℚ) :
    valueOf (getDouble lib) key default v = some (lib.number (lib.print x)) := by
  rw [valueOf_of_find h, getDouble_print hlib]

theorem valueOf_float (hlib : lib.Lawful)
    (h : v.find key.toList = some (Field.word (lib.print x)).value) (default : ℚ) :
    valueOf (getFloat lib) key default v = some (lib.toFloat (lib.number (lib.print x))) := by
  rw [valueOf_of_find h, getFloat_print hlib]

end Reads

/-! ### What each stage reads -/

/-- The input stage reads its settings from a text that carries them. -/
theorem initializeInput_of_carries (hlib : lib.Lawful) (hint : IntFields config)
    (h : Carries (inputMembers config) (makeInputStageParams config)) :
    (initializeInput lib (makeInputStageParams config)).2 =
      { url := config.rtspUrl, channelId := config.id } := by
  have hsend : Sendable lib (inputMembers config) := sendable_inputMembers hint
  rw [makeInputStageParams_eq] at h ⊢
  obtain ⟨hparse, hholds⟩ := hsend.parse hlib h
  set v := Value.object (values (inputMembers config)) with hv
  have hkeys : (inputMembers config).map (·.1) = ["rtsp_url".toList, "channel_id".toList] := rfl
  have habsent : ∀ {α : Type} {get : Value → Option α} {key : String} {default : α},
      key.toList ∉ ["rtsp_url".toList, "channel_id".toList] →
        valueOf get key default v = some default := fun hkey => valueOf_of_not_mem (hkeys ▸ hkey)
  simp only [JsonText.Holds, inputMembers, List.forall_mem_cons, List.not_mem_nil, false_imp_iff,
    implies_true, and_true] at hholds
  obtain ⟨hurl, hid⟩ := hholds
  have hreadUrl : valueOf getStr "rtsp_url" "" v = some config.rtspUrl := valueOf_str hurl _
  have hreadId : valueOf (getInt lib) "channel_id" (-1) v = some config.id :=
    valueOf_int hint.id hid _
  have htransport : valueOf getStr "rtsp_transport" "tcp" v = some "tcp" := habsent (by decide)
  have hreconnect : valueOf getBool "auto_reconnect" true v = some true := habsent (by decide)
  have htimeout : valueOf (getInt lib) "connect_timeout_ms" 5000 v = some 5000 :=
    habsent (by decide)
  have hdelay : valueOf (getInt lib) "reconnect_delay_ms" 3000 v = some 3000 :=
    habsent (by decide)
  have hattempts : valueOf (getInt lib) "max_reconnect_attempts" 0 v = some 0 :=
    habsent (by decide)
  simp only [initializeInput, tryParams, hparse, readInput, hreadUrl, hreadId, htransport,
    hreconnect, htimeout, hdelay, hattempts]
  rfl

/-- So does the analysis stage, its threshold with six digits. -/
theorem initializeAi_of_carries (hlib : lib.Lawful)
    (h : Carries (aiMembers lib config (computeBatchSize active))
      (makeAiStageParams lib config (computeBatchSize active))) :
    initializeAi lib (makeAiStageParams lib config (computeBatchSize active)) =
      { confidenceThreshold := lib.toFloat (lib.number (lib.print config.confidenceThreshold))
        batchSize := computeBatchSize active } := by
  have hsend : Sendable lib (aiMembers lib config (computeBatchSize active)) :=
    sendable_aiMembers hlib
  rw [makeAiStageParams_eq] at h ⊢
  obtain ⟨hparse, hholds⟩ := hsend.parse hlib h
  set v := Value.object (values (aiMembers lib config (computeBatchSize active))) with hv
  simp only [JsonText.Holds, aiMembers, List.forall_mem_cons, List.not_mem_nil, false_imp_iff,
    implies_true, and_true] at hholds
  obtain ⟨-, -, hthreshold, hbatch, hskip⟩ := hholds
  have hreadThreshold : valueOf (getFloat lib) "confidence_threshold" (1 / 2) v =
      some (lib.toFloat (lib.number (lib.print config.confidenceThreshold))) :=
    valueOf_float hlib hthreshold _
  have hreadBatch : valueOf (getInt lib) "batch_size" 1 v = some (computeBatchSize active) :=
    valueOf_int (isInt_computeBatchSize active) hbatch _
  have hreadSkip : valueOf (getInt lib) "skip_frames" 0 v = some 0 :=
    valueOf_int ⟨by decide, by decide⟩ hskip _
  have hpos : ¬ computeBatchSize active < 1 := by
    unfold computeBatchSize
    split
    · decide
    · split
      · decide
      · split <;> decide
  have hread : initializeAi lib (write (aiMembers lib config (computeBatchSize active))) =
      { confidenceThreshold := lib.toFloat (lib.number (lib.print config.confidenceThreshold))
        batchSize := if computeBatchSize active < 1 then 1 else computeBatchSize active } := by
    simp only [initializeAi, tryParams, hparse, readAi, hreadThreshold, hreadBatch, hreadSkip]
    rfl
  rw [hread, if_neg hpos]

/-- So does the rule stage. -/
theorem initializeRule_of_carries (hlib : lib.Lawful) (hint : IntFields config)
    (h : Carries (ruleMembers config) (makeRuleStageParams config)) :
    initializeRule lib (makeRuleStageParams config) = config.id := by
  have hsend : Sendable lib (ruleMembers config) := sendable_ruleMembers hint
  rw [makeRuleStageParams_eq] at h ⊢
  obtain ⟨hparse, hholds⟩ := hsend.parse hlib h
  set v := Value.object (values (ruleMembers config)) with hv
  have hreadId : valueOf (getInt lib) "channel_id" (-1) v = some config.id :=
    valueOf_int hint.id (hholds _ List.mem_cons_self) _
  have hne : (write (ruleMembers config)).isEmpty = false := rfl
  simp only [initializeRule, hne, tryParams, hparse, hreadId]
  rfl

/-- The format is read also where it was left out, as no format. -/
theorem valueOf_timestampFormat
    (hholds : JsonText.Holds (overlayMembers lib config)
      (.object (values (overlayMembers lib config)))) :
    valueOf getStr "timestamp_format" "" (.object (values (overlayMembers lib config))) =
      some config.overlay.timestampFormat := by
  by_cases hformat : config.overlay.timestampFormat.toList ≠ []
  · have hmem : ("timestamp_format".toList, Field.text config.overlay.timestampFormat.toList) ∈
        overlayMembers lib config := by
      refine List.mem_append_right _ ?_
      rw [if_pos hformat]
      exact List.mem_cons_self
    exact valueOf_str (hholds _ hmem) _
  · have hkey : "timestamp_format".toList ∉ (overlayMembers lib config).map (·.1) := by
      rw [keys_overlayMembers, if_neg hformat]
      decide
    have hempty : config.overlay.timestampFormat = "" :=
      String.toList_eq_nil_iff.mp (not_not.mp hformat)
    rw [valueOf_of_not_mem hkey, hempty]

/-- So does the overlay stage, its scale and its opacity with six digits. -/
theorem initializeOverlay_of_carries (hlib : lib.Lawful) (hint : IntFields config)
    (h : Carries (overlayMembers lib config) (makeOverlayStageParams lib config)) :
    initializeOverlay lib (makeOverlayStageParams lib config) =
      ({ config :=
           { config.overlay with
             fontScale := lib.number (lib.print config.overlay.fontScale)
             fillOpacity := lib.number (lib.print config.overlay.fillOpacity) }
         channelName := config.name
         channelId := config.id }, "") := by
  have hsend : Sendable lib (overlayMembers lib config) := sendable_overlayMembers hlib hint
  rw [makeOverlayStageParams_eq] at h ⊢
  obtain ⟨hparse, hholds⟩ := hsend.parse hlib h
  have hformat := valueOf_timestampFormat hholds
  have hfont : valueOf getStr "font_path" ""
      (.object (values (overlayMembers lib config))) = some "" := by
    refine valueOf_of_not_mem ?_
    have hkey : "font_path".toList ∉ overlayKeys ++ ["timestamp_format".toList] := by decide
    rw [keys_overlayMembers]
    split
    · exact hkey
    · rw [List.append_nil]
      exact fun hmem => hkey (List.mem_append_left _ hmem)
  set v := Value.object (values (overlayMembers lib config)) with hv
  have hfirst := (List.forall_mem_append.mp hholds).1
  simp only [List.forall_mem_cons, List.not_mem_nil, false_imp_iff, implies_true,
    and_true] at hfirst
  obtain ⟨henabled, hthickness, hscale, hlabels, hconfidence, htimestamp, hchannel, htrajectory,
    hpoints, hposition, hopacity, hid, hname⟩ := hfirst
  simp only [initializeOverlay, tryParams, hparse, readOverlayParams, hformat, hfont,
    valueOf_bool henabled, valueOf_int hint.lineThickness hthickness, valueOf_double hlib hscale,
    valueOf_bool hlabels, valueOf_bool hconfidence, valueOf_bool htimestamp, valueOf_bool hchannel,
    valueOf_bool htrajectory, valueOf_int hint.trajectoryMaxPoints hpoints,
    valueOf_int hint.timestampPosition hposition, valueOf_double hlib hopacity,
    valueOf_int hint.id hid, valueOf_str hname]
  rfl

/-! ### The settings that survive -/

/-- The text for the input stage carries its settings exactly when the URL stands for itself. -/
theorem carries_inputMembers_iff (lib : JsonLibrary) (hint : IntFields config) :
    Carries (inputMembers config) (makeInputStageParams config) ↔ Plain config.rtspUrl.toList := by
  have hsend : Sendable lib (inputMembers config) := sendable_inputMembers hint
  have htexts : textsOf (inputMembers config) = [("rtsp_url".toList, config.rtspUrl.toList)] := rfl
  rw [makeInputStageParams_eq, hsend.carries_iff, htexts, List.forall_mem_singleton]

/-- The text for the analysis stage carries its settings exactly when the names of the model and of
its backend stand for themselves. -/
theorem carries_aiMembers_iff (hlib : lib.Lawful) :
    Carries (aiMembers lib config (computeBatchSize active))
        (makeAiStageParams lib config (computeBatchSize active)) ↔
      Plain config.aiModelName.toList ∧ Plain config.aiBackend.toList := by
  have hsend : Sendable lib (aiMembers lib config (computeBatchSize active)) :=
    sendable_aiMembers hlib
  have htexts : textsOf (aiMembers lib config (computeBatchSize active)) =
      [("model_name".toList, config.aiModelName.toList),
        ("backend".toList, config.aiBackend.toList)] := rfl
  rw [makeAiStageParams_eq, hsend.carries_iff, htexts, List.forall_mem_cons,
    List.forall_mem_singleton]

/-- The text for the overlay stage carries its settings exactly when the name of the channel and the
format stand for themselves. -/
theorem carries_overlayMembers_iff (hlib : lib.Lawful) (hint : IntFields config) :
    Carries (overlayMembers lib config) (makeOverlayStageParams lib config) ↔
      Plain config.name.toList ∧ Plain config.overlay.timestampFormat.toList := by
  have hsend : Sendable lib (overlayMembers lib config) := sendable_overlayMembers hlib hint
  rw [makeOverlayStageParams_eq, hsend.carries_iff]
  by_cases hformat : config.overlay.timestampFormat.toList ≠ []
  · have htexts : textsOf (overlayMembers lib config) =
        [("channel_name".toList, config.name.toList),
          ("timestamp_format".toList, config.overlay.timestampFormat.toList)] := by
      rw [overlayMembers, if_pos hformat]
      rfl
    rw [htexts, List.forall_mem_cons, List.forall_mem_singleton]
  · have htexts : textsOf (overlayMembers lib config) =
        [("channel_name".toList, config.name.toList)] := by
      rw [overlayMembers, if_neg hformat]
      rfl
    rw [htexts, List.forall_mem_singleton, not_not.mp hformat]
    exact (and_iff_left (List.forall_mem_nil _)).symm

/-- The name of a codec stands for itself. -/
theorem plain_codecText (codec : CodecType) : Plain (codecText codec) := by
  cases codec <;> decide

/-- The other texts are always carried. -/
theorem carries_others (lib : JsonLibrary) (hint : IntFields config) :
    Carries (decodeMembers config) (makeDecodeStageParams config) ∧
      Carries (ruleMembers config) (makeRuleStageParams config) ∧
      Carries (outputMembers config) (makeOutputStageParams config) := by
  have hdecode : Sendable lib (decodeMembers config) := sendable_decodeMembers hint
  have hrule : Sendable lib (ruleMembers config) := sendable_ruleMembers hint
  have houtput : Sendable lib (outputMembers config) := sendable_outputMembers hint
  have hdecodeTexts : textsOf (decodeMembers config) =
      [("codec".toList, codecText config.codec)] := rfl
  have hruleTexts : textsOf (ruleMembers config) = [] := rfl
  have houtputTexts : textsOf (outputMembers config) =
      [("codec".toList, codecText config.codec), ("preset".toList, "ultrafast".toList)] := rfl
  rw [makeDecodeStageParams_eq, makeRuleStageParams_eq, makeOutputStageParams_eq,
    hdecode.carries_iff, hrule.carries_iff, houtput.carries_iff, hdecodeTexts, hruleTexts,
    houtputTexts]
  refine ⟨List.forall_mem_singleton.mpr (plain_codecText _), List.forall_mem_nil _, ?_⟩
  exact List.forall_mem_cons.mpr
    ⟨plain_codecText _, List.forall_mem_singleton.mpr (by decide : Plain "ultrafast".toList)⟩

/-- What survives was safe: the texts by what is carried, the doubles by what is read. -/
theorem safe_of_survives (hlib : lib.Lawful) (hint : IntFields config)
    (h : Survives lib config active) : SafeSettings lib config := by
  obtain ⟨hmodel, hbackend⟩ := (carries_aiMembers_iff hlib).mp h.aiText
  obtain ⟨hname, hformat⟩ := (carries_overlayMembers_iff hlib hint).mp h.overlayText
  have hai := (initializeAi_of_carries hlib h.aiText).symm.trans h.ai
  have hoverlay := (initializeOverlay_of_carries hlib hint h.overlayText).symm.trans h.overlay
  have hconfig := congrArg (·.1.config) hoverlay
  exact
    { rtspUrl := (carries_inputMembers_iff lib hint).mp h.inputText
      name := hname
      aiModelName := hmodel
      aiBackend := hbackend
      timestampFormat := hformat
      confidenceThreshold := congrArg AiParams.confidenceThreshold hai
      fontScale := congrArg OverlayConfig.fontScale hconfig
      fillOpacity := congrArg OverlayConfig.fillOpacity hconfig }

/-- Safe settings are carried, and read as they are. -/
theorem survives_of_safe (hlib : lib.Lawful) (hint : IntFields config)
    (h : SafeSettings lib config) : Survives lib config active := by
  obtain ⟨hdecode, hrule, houtput⟩ := carries_others lib hint
  have hinput := (carries_inputMembers_iff lib hint).mpr h.rtspUrl
  have hai : Carries (aiMembers lib config (computeBatchSize active))
      (makeAiStageParams lib config (computeBatchSize active)) :=
    (carries_aiMembers_iff hlib).mpr ⟨h.aiModelName, h.aiBackend⟩
  have hoverlay := (carries_overlayMembers_iff hlib hint).mpr ⟨h.name, h.timestampFormat⟩
  exact
    { inputText := hinput
      decodeText := hdecode
      aiText := hai
      ruleText := hrule
      overlayText := hoverlay
      outputText := houtput
      input := initializeInput_of_carries hlib hint hinput
      ai := by rw [initializeAi_of_carries hlib hai, h.confidenceThreshold]
      rule := initializeRule_of_carries hlib hint hrule
      overlay := by
        rw [initializeOverlay_of_carries hlib hint hoverlay, h.fontScale, h.fillOpacity] }

/-- **The settings of a channel survive on their way to its stages** exactly when its texts stand
for themselves in quotation marks and six digits are enough for its doubles. -/
theorem survives_iff (lib : JsonLibrary) (config : ChannelConfig) (active : ℕ) (hlib : lib.Lawful)
    (hint : IntFields config) : Survives lib config active ↔ SafeSettings lib config :=
  ⟨safe_of_survives hlib hint, survives_of_safe hlib hint⟩

/-! ### Two channels -/

/-- A library that knows two fractions. -/
def smallLibrary : JsonLibrary where
  parse := read
  number w :=
    if w = "0.5".toList then 1 / 2 else if w = "0.08".toList then 8 / 100 else intOf w
  toFloat := id
  print x := if x = 1 / 2 then "0.5".toList else if x = 8 / 100 then "0.08".toList else "0".toList

/-- It prints numbers, and parses what the reader reads. -/
theorem lawful_smallLibrary : smallLibrary.Lawful where
  isNumber_print x := by
    unfold smallLibrary
    dsimp only
    split
    · decide
    · split <;> decide
  parse_of_read _ _ _ _ _ hread := hread

/-- Its two fractions are read as they were printed. -/
theorem print_smallLibrary :
    smallLibrary.number (smallLibrary.print (1 / 2)) = 1 / 2 ∧
      smallLibrary.number (smallLibrary.print (8 / 100)) = 8 / 100 := by
  have hhalf : smallLibrary.print (1 / 2) = "0.5".toList := if_pos rfl
  have hother : (8 / 100 : ℚ) ≠ 1 / 2 := by norm_num
  have hopacity : smallLibrary.print (8 / 100) = "0.08".toList :=
    (if_neg hother).trans (if_pos rfl)
  have hne : "0.08".toList ≠ "0.5".toList := by decide
  have hnumber : ∀ w, smallLibrary.number w =
      if w = "0.5".toList then 1 / 2 else if w = "0.08".toList then 8 / 100 else (intOf w : ℚ) :=
    fun _ => rfl
  rw [hhalf, hopacity, hnumber, hnumber, if_pos rfl, if_neg hne, if_pos rfl]
  exact ⟨rfl, rfl⟩

/-- The settings of a gate camera. -/
def gateChannel (name : String) : ChannelConfig where
  id := 3
  rtspUrl := "rtsp://camera/1"
  name := name
  aiModelName := "yolov8n"
  aiBackend := "onnxruntime"

/-- The gate camera's settings fit an `int`. -/
theorem intFields_gateChannel (name : String) : IntFields (gateChannel name) where
  id := (by decide : IsInt 3)
  width := (by decide : IsInt 0)
  height := (by decide : IsInt 0)
  framerate := (by decide : IsInt 0)
  bitrateKbps := (by decide : IsInt 4000)
  lineThickness := (by decide : IsInt 2)
  trajectoryMaxPoints := (by decide : IsInt 30)
  timestampPosition := (by decide : IsInt 0)

/-- The gate camera's settings survive. -/
theorem survives_gate : Survives smallLibrary (gateChannel "Gate") 1 :=
  (survives_iff smallLibrary (gateChannel "Gate") 1 lawful_smallLibrary
    (intFields_gateChannel "Gate")).mpr
    { rtspUrl := by decide
      name := by decide
      aiModelName := by decide
      aiBackend := by decide
      timestampFormat := by decide
      confidenceThreshold := print_smallLibrary.1
      fontScale := print_smallLibrary.1
      fillOpacity := print_smallLibrary.2 }

/-- A name with quotation marks in it. -/
theorem survives_refuted :
    IntFields (gateChannel "Gate \"A\"") ∧
      ¬ Survives smallLibrary (gateChannel "Gate \"A\"") 1 := by
  refine ⟨intFields_gateChannel _, fun hsurvives => ?_⟩
  have hname := (safe_of_survives lawful_smallLibrary (intFields_gateChannel _) hsurvives).name
  exact absurd hname (by decide)

end LoongNvr.Channel
