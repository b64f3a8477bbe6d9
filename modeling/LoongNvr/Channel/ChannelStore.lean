import LoongNvr.Channel.ChannelManager
import LoongNvr.Rules.RuleStore
import LoongNvr.Support.Json
import LoongNvr.Support.Keyed

/-!
# Channel — ChannelStore

The SQLite store of the channels' configurations, one row for each channel.  Statements succeed.
The overlay is kept as JSON; its column is modelled by the JSON value rather than its text.

* `encodeChannel`, `decodeChannel`: a row's columns from a configuration and back.
* `ChannelStore.save`, `delete`, `loadAll`: the statements, `channelStore` all of them.
* `Storable`: what a row can hold of a configuration is all of it.
* `decodeChannel_encodeChannel`: exactly then it comes back as it was.
-/

namespace LoongNvr.Channel
open LoongNvr.Core Support
open LoongNvr.Rules (cStr)

/-- A row of `channels`, its id apart. -/
structure ChannelRow where
  name : String
  rtspUrl : String
  codec : String
  width : ℤ
  height : ℤ
  framerate : ℤ
  bitrateKbps : ℤ
  aiModelName : String
  aiBackend : String
  confidence : ℚ
  analysisFps : ℤ
  overlayJson : Json
  recordEnabled : Bool
  recordPath : String
  latitude : ℚ
  longitude : ℚ
  enabled : Bool := true

/-! ### The overlay -/

/-- `ChannelStore::SerializeOverlay` -/
def serializeOverlay (o : OverlayConfig) : Json :=
  .obj [
    ("enabled", .bool o.enabled),
    ("line_thickness", .num o.lineThickness),
    ("font_scale", .num o.fontScale),
    ("show_labels", .bool o.showLabels),
    ("show_confidence", .bool o.showConfidence),
    ("show_timestamp", .bool o.showTimestamp),
    ("show_channel_name", .bool o.showChannelName),
    ("show_trajectory", .bool o.showTrajectory),
    ("trajectory_max_points", .num o.trajectoryMaxPoints),
    ("timestamp_position", .num o.timestampPosition),
    ("fill_opacity", .num o.fillOpacity),
    ("timestamp_format", .str o.timestampFormat)]

/-- The body of the try block of `ChannelStore::DeserializeOverlay`. -/
def readOverlay (j : Json) : Assignments OverlayConfig Unit := do
  assign (j.value Json.getBool "enabled" true) fun b o => { o with enabled := b }
  assign (j.value Json.getInt "line_thickness" 2) fun n o => { o with lineThickness := n }
  assign (j.value Json.getRat "font_scale" (1 / 2)) fun x o => { o with fontScale := x }
  assign (j.value Json.getBool "show_labels" true) fun b o => { o with showLabels := b }
  assign (j.value Json.getBool "show_confidence" true)
    fun b o => { o with showConfidence := b }
  assign (j.value Json.getBool "show_timestamp" true)
    fun b o => { o with showTimestamp := b }
  assign (j.value Json.getBool "show_channel_name" true)
    fun b o => { o with showChannelName := b }
  assign (j.value Json.getBool "show_trajectory" false)
    fun b o => { o with showTrajectory := b }
  assign (j.value Json.getInt "trajectory_max_points" 30)
    fun n o => { o with trajectoryMaxPoints := n }
  assign (j.value Json.getInt "timestamp_position" 0)
    fun n o => { o with timestampPosition := n }
  assign (j.value Json.getRat "fill_opacity" (8 / 100))
    fun x o => { o with fillOpacity := x }
  assign (j.value Json.getStr "timestamp_format" "")
    fun t o => { o with timestampFormat := t }

/-- `ChannelStore::DeserializeOverlay`, which swallows the exception. -/
def deserializeOverlay (j : Json) : OverlayConfig := ((readOverlay j).run {}).2

theorem deserializeOverlay_serializeOverlay (o : OverlayConfig) :
    deserializeOverlay (serializeOverlay o) = o := by
  have hthickness : (serializeOverlay o).value Json.getInt "line_thickness" 2 =
      some o.lineThickness := Json.getInt_intCast _
  have hpoints : (serializeOverlay o).value Json.getInt "trajectory_max_points" 30 =
      some o.trajectoryMaxPoints := Json.getInt_intCast _
  have hposition : (serializeOverlay o).value Json.getInt "timestamp_position" 0 =
      some o.timestampPosition := Json.getInt_intCast _
  simp only [deserializeOverlay, readOverlay, hthickness, hpoints, hposition]
  rfl

/-! ### Rows -/

/-- The values bound by `Save`. -/
def encodeChannel (config : ChannelConfig) : ChannelRow where
  name := cStr config.name
  rtspUrl := cStr config.rtspUrl
  codec := if config.codec = .h265 then "h265" else "h264"
  width := config.width
  height := config.height
  framerate := config.framerate
  bitrateKbps := config.bitrateKbps
  aiModelName := cStr config.aiModelName
  aiBackend := cStr config.aiBackend
  confidence := config.confidenceThreshold
  analysisFps := config.analysisFps
  overlayJson := serializeOverlay config.overlay
  recordEnabled := config.recordEnabled
  recordPath := cStr config.recordPath
  latitude := config.latitude
  longitude := config.longitude

/-- One turn of the loop of `LoadAll`. -/
def decodeChannel (id : ℤ) (row : ChannelRow) : ChannelConfig where
  id := id
  name := row.name
  rtspUrl := row.rtspUrl
  codec := if row.codec = "h265" ∨ row.codec = "hevc" then .h265 else .h264
  width := row.width
  height := row.height
  framerate := row.framerate
  bitrateKbps := row.bitrateKbps
  aiModelName := row.aiModelName
  aiBackend := row.aiBackend
  confidenceThreshold := row.confidence
  analysisFps := row.analysisFps
  overlay := deserializeOverlay row.overlayJson
  recordEnabled := row.recordEnabled
  recordPath := row.recordPath
  latitude := row.latitude
  longitude := row.longitude

/-- The database. -/
abbrev ChannelStore := Keyed ChannelRow

namespace ChannelStore

def save (config : ChannelConfig) (store : ChannelStore) : ChannelStore :=
  store.put config.id (encodeChannel config)

def delete (channelId : ℤ) (store : ChannelStore) : ChannelStore := store.remove channelId

/-- `WHERE enabled=1 ORDER BY id` -/
def loadAll (store : ChannelStore) : List ChannelConfig :=
  (store.rows.filter (·.2.enabled)).map fun row => decodeChannel row.1 row.2

end ChannelStore

/-- The statements the manager uses. -/
def channelStore : StoreCalls ChannelStore where
  save := ChannelStore.save
  delete := ChannelStore.delete
  loadAll := ChannelStore.loadAll

/-- What a row keeps of the configuration is all of it: the codec is known, and no text has a NUL
in it. -/
structure Storable (config : ChannelConfig) : Prop where
  codec : config.codec ≠ .unknown
  name : cStr config.name = config.name
  rtspUrl : cStr config.rtspUrl = config.rtspUrl
  aiModelName : cStr config.aiModelName = config.aiModelName
  aiBackend : cStr config.aiBackend = config.aiBackend
  recordPath : cStr config.recordPath = config.recordPath

theorem codec_stored {config : ChannelConfig} (h : config.codec ≠ .unknown) :
    (decodeChannel config.id (encodeChannel config)).codec = config.codec := by
  have hcodec : ∀ codec : CodecType, codec ≠ .unknown →
      (if (if codec = .h265 then "h265" else "h264") = "h265" ∨
        (if codec = .h265 then "h265" else "h264") = "hevc" then CodecType.h265 else .h264) =
        codec := by
    rintro (_ | _ | _) hcodec
    · rfl
    · rfl
    · exact absurd rfl hcodec
  exact hcodec config.codec h

/-- **A row comes back as the configuration it was made from** exactly if a row can hold it. -/
theorem decodeChannel_encodeChannel (config : ChannelConfig) :
    decodeChannel config.id (encodeChannel config) = config ↔ Storable config := by
  constructor
  · intro h
    refine ⟨fun hcodec => ?_, congrArg (·.name) h, congrArg (·.rtspUrl) h,
      congrArg (·.aiModelName) h, congrArg (·.aiBackend) h, congrArg (·.recordPath) h⟩
    have hstored := congrArg (·.codec) h
    simp only [decodeChannel, encodeChannel, hcodec] at hstored
    exact absurd hstored (by decide)
  · rintro ⟨hcodec, hname, hurl, hmodel, hbackend, hpath⟩
    have hstored : (decodeChannel config.id (encodeChannel config)).codec = config.codec :=
      codec_stored hcodec
    have hall : decodeChannel config.id (encodeChannel config) =
        { config with codec := (decodeChannel config.id (encodeChannel config)).codec } := by
      simp only [decodeChannel, encodeChannel, hname, hurl, hmodel, hbackend, hpath,
        deserializeOverlay_serializeOverlay]
    rw [hall, hstored]

end LoongNvr.Channel
