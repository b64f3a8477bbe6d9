import LoongNvr.Channel.ChannelManager
import LoongNvr.Support.Json
import LoongNvr.Support.JsonText

/-!
# Channel — ParamsText

The parameters of the stages as the JSON texts they travel in: what `ChannelOrchestrator` puts
together for each stage of a channel, and what the stages read from it.

The JSON library and the way doubles are written and read are parameters (`JsonLibrary`); what is
relied on of them is `JsonLibrary.Lawful`.
-/

namespace LoongNvr.Channel
open LoongNvr.Core Support JsonText

/-! ### The library -/

/-- The JSON library, and how a stream writes a double. -/
structure JsonLibrary where
  /-- `nlohmann::json::parse`; `none` where it throws. -/
  parse : List Char → Option Value
  /-- The double of a number in a text. -/
  number : List Char → ℚ
  /-- `static_cast<float>` -/
  toFloat : ℚ → ℚ
  /-- `stream << x` -/
  print : ℚ → List Char

/-- A number that has been written from an int or a double. -/
def JsonLibrary.Written (lib : JsonLibrary) (w : List Char) : Prop :=
  (∃ n, IsInt n ∧ w = decimal n) ∨ ∃ x, w = lib.print x

/-- What is relied on: a double is written as a number, and a valid text with no other numbers than
have been written is read as what it means. -/
structure JsonLibrary.Lawful (lib : JsonLibrary) : Prop where
  isNumber_print : ∀ x, isNumber (lib.print x) = true
  parse_of_read : ∀ text ts v, lex text = some ts →
    (∀ w, .word w ∈ ts → isNumber w = true → lib.Written w) → read text = some v →
      lib.parse text = some v

/-! ### Reads -/

def trueWord : List Char := "true".toList

def falseWord : List Char := "false".toList

/-- `j.get<bool>()` -/
def getBool : Value → Option Bool
  | .word w => if w = trueWord then some true else if w = falseWord then some false else none
  | _ => none

/-- `j.get<std::string>()` -/
def getStr : Value → Option String
  | .string s => some (String.ofList s)
  | _ => none

/-- `j.get<double>()` -/
def getDouble (lib : JsonLibrary) : Value → Option ℚ
  | .word w => if isNumber w then some (lib.number w) else none
  | _ => none

/-- `j.get<float>()`: `true` and `false` are 1 and 0. -/
def getFloat (lib : JsonLibrary) : Value → Option ℚ
  | .word w =>
      if w = trueWord then some 1
      else if w = falseWord then some 0
      else if isNumber w then some (lib.toFloat (lib.number w)) else none
  | _ => none

/-- `j.get<int>()`: `true` and `false` are 1 and 0, and fractions are cut off. -/
def getInt (lib : JsonLibrary) : Value → Option ℤ
  | .word w =>
      if w = trueWord then some 1
      else if w = falseWord then some 0
      else if isInteger w then some (toInt32 (intOf w))
      else if isNumber w then some ((lib.number w).num.tdiv (lib.number w).den) else none
  | _ => none

/-- `params.value(key, default)`: throws unless `params` is an object and the member, if there,
converts. -/
def valueOf {α : Type} (get : Value → Option α) (key : String) (default : α) : Value → Option α
  | .object members =>
      match lastOf key.toList members with
      | some v => get v
      | none => some default
  | _ => none

/-! ### What the orchestrator writes -/

section Writing

variable (lib : JsonLibrary) (config : ChannelConfig)

/-- The params of `MakeInputStageConfig`. -/
def makeInputStageParams : List Char :=
  "\x7b\"rtsp_url\":\"".toList ++ config.rtspUrl.toList ++ "\",\"channel_id\":".toList ++
    decimal config.id ++ "\x7d".toList

def codecText : CodecType → List Char
  | .h265 => "h265".toList
  | .h264 => "h264".toList
  | .unknown => []

/-- The params of `MakeDecodeStageConfig`. -/
def makeDecodeStageParams : List Char :=
  "\x7b\"codec\":\"".toList ++ codecText config.codec ++ "\",\"width\":".toList ++
    decimal config.width ++ ",\"height\":".toList ++ decimal config.height ++ "\x7d".toList

/-- `ComputeBatchSize` -/
def computeBatchSize (activeChannels : ℕ) : ℤ :=
  if activeChannels ≤ 4 then 8
  else if activeChannels ≤ 16 then 4
  else if activeChannels ≤ 32 then 2
  else 1

/-- The params of `MakeAiStageConfig`. -/
def makeAiStageParams (aiBatchSize : ℤ) : List Char :=
  "\x7b\"model_name\":\"".toList ++ config.aiModelName.toList ++ "\",\"backend\":\"".toList ++
    config.aiBackend.toList ++ "\",\"confidence_threshold\":".toList ++
    lib.print config.confidenceThreshold ++ ",\"batch_size\":".toList ++ decimal aiBatchSize ++
    ",\"skip_frames\":0\x7d".toList

/-- The params of `MakeRuleStageConfig`. -/
def makeRuleStageParams : List Char :=
  "\x7b\"channel_id\":".toList ++ decimal config.id ++ "\x7d".toList

def boolText (b : Bool) : List Char := if b then trueWord else falseWord

/-- The params of `MakeOverlayStageConfig`. -/
def makeOverlayStageParams : List Char :=
  let ov := config.overlay
  "\x7b\"enabled\":".toList ++ boolText ov.enabled ++
    ",\"line_thickness\":".toList ++ decimal ov.lineThickness ++
    ",\"font_scale\":".toList ++ lib.print ov.fontScale ++
    ",\"show_labels\":".toList ++ boolText ov.showLabels ++
    ",\"show_confidence\":".toList ++ boolText ov.showConfidence ++
    ",\"show_timestamp\":".toList ++ boolText ov.showTimestamp ++
    ",\"show_channel_name\":".toList ++ boolText ov.showChannelName ++
    ",\"show_trajectory\":".toList ++ boolText ov.showTrajectory ++
    ",\"trajectory_max_points\":".toList ++ decimal ov.trajectoryMaxPoints ++
    ",\"timestamp_position\":".toList ++ decimal ov.timestampPosition ++
    ",\"fill_opacity\":".toList ++ lib.print ov.fillOpacity ++
    ",\"channel_id\":".toList ++ decimal config.id ++ ",\"channel_name\":\"".toList ++
    config.name.toList ++ "\"".toList ++
    (if ov.timestampFormat.toList ≠ [] then
      ",\"timestamp_format\":\"".toList ++ ov.timestampFormat.toList ++ "\"".toList
    else []) ++ "\x7d".toList

/-- The params of `MakeOutputStageConfig`. -/
def makeOutputStageParams : List Char :=
  "\x7b\"codec\":\"".toList ++ codecText config.codec ++ "\",\"width\":".toList ++
    decimal config.width ++ ",\"height\":".toList ++ decimal config.height ++
    ",\"bitrate_kbps\":".toList ++ decimal config.bitrateKbps ++ ",\"framerate\":".toList ++
    decimal (if config.framerate > 0 then config.framerate else 30) ++
    ",\"preset\":\"ultrafast\"".toList ++ ",\"channel_id\":".toList ++ decimal config.id ++
    "\x7d".toList

end Writing

/-! ### What the stages read -/

section Reading

variable (lib : JsonLibrary) (params : List Char)

/-- What `InputStage::Initialize` sets. -/
structure InputParams where
  url : String := ""
  channelId : ℤ := -1
  udp : Bool := false
  autoReconnect : Bool := true
  connectTimeoutMs : ℤ := 5000
  reconnectDelayMs : ℤ := 3000
  maxReconnectAttempts : ℤ := 0
  deriving DecidableEq

/-- The try block of `InputStage::Initialize`. -/
def readInput (v : Value) : Assignments InputParams Unit := do
  assign (valueOf getStr "rtsp_url" "" v) fun s p => { p with url := s }
  assign (valueOf (getInt lib) "channel_id" (-1) v) fun n p => { p with channelId := n }
  assign (valueOf getStr "rtsp_transport" "tcp" v) fun s p => { p with udp := s = "udp" }
  assign (valueOf getBool "auto_reconnect" true v) fun b p => { p with autoReconnect := b }
  assign (valueOf (getInt lib) "connect_timeout_ms" 5000 v)
    fun n p => { p with connectTimeoutMs := n }
  assign (valueOf (getInt lib) "reconnect_delay_ms" 3000 v)
    fun n p => { p with reconnectDelayMs := n }
  assign (valueOf (getInt lib) "max_reconnect_attempts" 0 v)
    fun n p => { p with maxReconnectAttempts := n }

/-- A try block behind the parsing of the parameters: whether nothing was thrown, and what is left
set. -/
def tryParams {σ : Type} (s : σ) (read : Value → Assignments σ Unit) : Bool × σ :=
  match lib.parse params with
  | none => (false, s)
  | some v =>
      let r := (read v).run s
      (r.1.isSome, r.2)

/-- `InputStage::Initialize` of a new stage. -/
def initializeInput : Bool × InputParams :=
  let r := tryParams lib params {} (readInput lib)
  (r.1 && !r.2.url.isEmpty, r.2)

/-- What `AiStage::Initialize` sets. -/
structure AiParams where
  confidenceThreshold : ℚ := 1 / 2
  batchSize : ℤ := 1
  skipFrames : ℤ := 0
  deriving DecidableEq

/-- The try block of `AiStage::Initialize`. -/
def readAi (v : Value) : Assignments AiParams Unit := do
  assign (valueOf (getFloat lib) "confidence_threshold" (1 / 2) v)
    fun x p => { p with confidenceThreshold := x }
  assign (valueOf (getInt lib) "batch_size" 1 v)
    fun n p => { p with batchSize := if n < 1 then 1 else n }
  assign (valueOf (getInt lib) "skip_frames" 0 v)
    fun n p => { p with skipFrames := if n < 0 then 0 else n }

/-- `AiStage::Initialize` of a new stage. -/
def initializeAi : AiParams := (tryParams lib params {} (readAi lib)).2

/-- `RuleStage::Initialize` of a new stage: its channel. -/
def initializeRule : ℤ :=
  if params.isEmpty then -1
  else
    (tryParams lib params (-1) fun v =>
      assign (valueOf (getInt lib) "channel_id" (-1) v) fun n _ => n).2

/-- What `OverlayStage::Initialize` gives its renderer. -/
structure OverlayParams where
  config : OverlayConfig := {}
  channelName : String := ""
  channelId : ℤ := -1

/-- The first try block of `OverlayStage::Initialize`. -/
def readOverlayParams (v : Value) : Assignments OverlayParams Unit := do
  let set (f : OverlayConfig → OverlayConfig) (p : OverlayParams) := { p with config := f p.config }
  assign (valueOf getBool "enabled" true v) fun b => set ({ · with enabled := b })
  assign (valueOf (getInt lib) "line_thickness" 2 v) fun n => set ({ · with lineThickness := n })
  assign (valueOf (getDouble lib) "font_scale" (1 / 2) v) fun x => set ({ · with fontScale := x })
  assign (valueOf getBool "show_labels" true v) fun b => set ({ · with showLabels := b })
  assign (valueOf getBool "show_confidence" true v) fun b => set ({ · with showConfidence := b })
  assign (valueOf (getDouble lib) "fill_opacity" (8 / 100) v)
    fun x => set ({ · with fillOpacity := x })
  assign (valueOf getBool "show_timestamp" true v) fun b => set ({ · with showTimestamp := b })
  assign (valueOf getBool "show_channel_name" true v) fun b => set ({ · with showChannelName := b })
  assign (valueOf (getInt lib) "timestamp_position" 0 v)
    fun n => set ({ · with timestampPosition := n })
  assign (valueOf getStr "timestamp_format" "" v) fun s => set ({ · with timestampFormat := s })
  assign (valueOf getBool "show_trajectory" false v) fun b => set ({ · with showTrajectory := b })
  assign (valueOf (getInt lib) "trajectory_max_points" 30 v)
    fun n => set ({ · with trajectoryMaxPoints := n })
  assign (valueOf getStr "channel_name" "" v) fun s p => { p with channelName := s }
  assign (valueOf (getInt lib) "channel_id" (-1) v) fun n p => { p with channelId := n }

/-- `OverlayStage::Initialize`: what the renderer gets, and the font that was asked for. -/
def initializeOverlay : OverlayParams × String :=
  ((tryParams lib params {} (readOverlayParams lib)).2,
    (tryParams lib params "" fun v => assign (valueOf getStr "font_path" "" v) fun s _ => s).2)

end Reading

end LoongNvr.Channel
