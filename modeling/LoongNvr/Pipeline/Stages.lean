import LoongNvr.Codec.FFmpegDecoder
import LoongNvr.Core.StageQueue
import LoongNvr.Pipeline.AiStage
import LoongNvr.Rules.RuleStage

/-!
# Pipeline — Stages

The stages of a channel's pipeline, and the pipeline as a line of stations: a worker a stage, a
`StageQueue` in front of it, the rule engine shared with everybody else.

What comes from outside a step (packets, decoded pictures, the clock, whether a codec opens) is its
input.  What a stage does to the outside is recorded as events.

Drawing and encoding are left out: the overlay stage records what it has drawn, the output stage
under which channel it streams.
-/

namespace LoongNvr.Pipeline
open LoongNvr.Core LoongNvr.VideoInput LoongNvr.Codec LoongNvr.Rules Support IouTracker

/-- The stages by name. -/
inductive StageName
  | input
  | decode
  | ai
  | rule
  | overlay
  | output
  deriving DecidableEq, Repr

/-- What a stage does to the outside. -/
inductive Event
  /-- `ProcessFrame` of a stage is called with the frame. -/
  | reached (stage : StageName) (frame : Frame)
  /-- `ai.detection` is published. -/
  | published (event : DetectionEvent)
  /-- The rule stage evaluates these rules on a frame, under a context. -/
  | evaluated (frame : Frame) (rules : List (ℤ × AnalysisRule)) (context : FrameContext)
  /-- The rule stage leaves an overlay on a frame. -/
  | overlaid (overlay : RuleOverlayData)
  /-- The overlay stage draws on a frame's picture. -/
  | rendered (detections : List Detection) (overlay : RuleOverlayData)
  /-- The output callback gets a packet for a channel. -/
  | streamed (channelId : ℤ) (packet : List UInt8)

/-- What the outside gives a step. -/
structure StageInput where
  /-- A packet read by the client, and what the bitstream filter makes of it. -/
  packet : Option AVPacket := none
  filtered : List AVPacket := []
  /-- Does a codec open? -/
  opens : Bool := true
  /-- The pictures libavcodec returns, and the packets it encodes. -/
  pictures : List Picture := []
  encoded : List (List UInt8) := []
  /-- The wall clock in milliseconds. -/
  now : ℤ := 0
  /-- What has been drawn into the picture the inference worker looks at. -/
  drawn : Option Image := none

/-! ### Input -/

/-- The state of an `InputStage`; its client is there while it pulls. -/
structure InputStage where
  channelId : ℤ
  client : Option RtspClient := none

namespace InputStage

/-- `OnPacket`: the frame passed on. -/
def onPacket (args : PacketArgs) (origin : ℤ) : Frame where
  channelId := args.channelId
  pts := args.pts
  dts := args.dts
  type := .encoded
  info := { isKeyframe := args.isKeyframe, codec := args.codec }
  packetData := args.data
  origin := origin

/-- `StartPulling`; `none` is a stream that cannot be opened. -/
def startPulling (channelId : ℤ) (stream : Option VideoStream) : InputStage where
  channelId := channelId
  client := stream.map fun stream => { channelId := channelId, stream := stream }

/-- The client's thread on a packet it reads: the frames passed on. -/
def receive (s : InputStage) (pkt : AVPacket) (filtered : List AVPacket) : List Frame :=
  match s.client with
  | none => []
  | some client =>
      (client.pull pkt filtered).map
        fun delivered => onPacket (client.deliver delivered) delivered.pts

end InputStage

/-! ### Decode -/

/-- The state of an initialized `DecodeStage`; its decoder is there once it is ready. -/
structure DecodeStage where
  hintCodec : CodecType
  hintWidth : ℤ
  hintHeight : ℤ
  decoder : Option FFmpegDecoder := none

namespace DecodeStage

/-- `InitDecoder`, where libavcodec opens the codec or not. -/
def initDecoder (codec : CodecType) (opens : Bool) : Option FFmpegDecoder :=
  if opens then some { codecType := codec } else none

/-- The decoder `ProcessFrame` uses; it is created for the first encoded frame. -/
def readyDecoder (d : DecodeStage) (codec : CodecType) (opens : Bool) : Option FFmpegDecoder :=
  match d.decoder with
  | some decoder => some decoder
  | none => initDecoder (if codec = .unknown then .h264 else codec) opens

/-- `ProcessFrame`: the stage and the frames passed on. -/
def processFrame (d : DecodeStage) (frame : Frame) (opens : Bool) (pictures : List Picture) :
    DecodeStage × List Frame :=
  match frame.type with
  | .raw => (d, [frame])
  | .encoded =>
      match d.readyDecoder frame.info.codec opens with
      | none => (d, [])
      | some decoder =>
          let decoded := decoder.decode frame.pts frame.dts frame.origin pictures
          ({ d with decoder := some decoded.decoder }, decoded.frames)

end DecodeStage

/-! ### Output -/

/-- The state of an `OutputStage`. -/
structure OutputStage where
  channelId : ℤ
  encoderReady : Bool := false

/-- `OutputStage::ProcessFrame`; the packets of the encoder are streamed under the stage's own
channel, an encoded frame under the frame's. -/
def OutputStage.processFrame (o : OutputStage) (frame : Frame) (opens : Bool)
    (encoded : List (List UInt8)) : OutputStage × List Event :=
  match frame.type with
  | .encoded => (o, [.streamed frame.channelId frame.packetData])
  | .raw =>
      if o.encoderReady || opens then
        ({ o with encoderReady := true }, encoded.map (.streamed o.channelId))
      else (o, [])

/-- The output stage only streams. -/
theorem OutputStage.processFrame_events {o : OutputStage} {frame : Frame} {opens : Bool}
    {encoded : List (List UInt8)} {e : Event} (h : e ∈ (o.processFrame frame opens encoded).2) :
    ∃ channelId packet, e = .streamed channelId packet := by
  unfold OutputStage.processFrame at h
  split at h
  · exact ⟨_, _, List.mem_singleton.mp h⟩
  · split at h
    · obtain ⟨packet, -, rfl⟩ := List.mem_map.mp h
      exact ⟨_, _, rfl⟩
    · cases h

/-! ### The pipeline -/

/-- A stage with its state. -/
inductive Stage
  | input (s : InputStage)
  | decode (d : DecodeStage)
  | ai (a : AiStage)
  | rule
  | overlay
  | output (o : OutputStage)

/-- What a stage leaves of a piece of work. -/
abbrev StageWork := Work Stage RuleEngine Frame Event

/-- The events of the rule stage for a frame. -/
def ruleEvents (engine : RuleEngine) (frame result : Frame) (now : ℤ) : List Event :=
  (if RuleStage.hasDetections frame then
    [.evaluated frame (engine.cachedRules frame.channelId) (RuleStage.frameContext frame now)]
  else []) ++ [.overlaid result.ruleOverlay]

/-- `ProcessFrame` of a stage. -/
def Stage.processFrame (srt : PairSorter) (input : StageInput) (engine : RuleEngine)
    (stage : Stage) (frame : Frame) : StageWork :=
  match stage with
  | .input s => { state := .input s, shared := engine, out := [frame] }
  | .decode d =>
      let (d, out) := d.processFrame frame input.opens input.pictures
      { state := .decode d, shared := engine, out := out, events := [.reached .decode frame] }
  | .ai a =>
      let (a, result, events) := a.processFrame frame
      { state := .ai a
        shared := engine
        out := [result]
        events := .reached .ai frame :: events.map .published }
  | .rule =>
      let (engine', result) := RuleStage.processFrame srt engine frame input.now
      { state := .rule
        shared := engine'
        out := [result]
        events := .reached .rule frame :: ruleEvents engine frame result input.now }
  | .overlay =>
      { state := .overlay
        shared := engine
        out := [frame]
        events := .reached .overlay frame ::
          if frame.type = .raw then [.rendered frame.analysis.detections frame.ruleOverlay]
          else [] }
  | .output o =>
      let (o, events) := o.processFrame frame input.opens input.encoded
      { state := .output o, shared := engine, events := .reached .output frame :: events }

/-- What a stage does by itself: the client delivers a packet, the inference worker turns. -/
def Stage.background (input : StageInput) (engine : RuleEngine) (stage : Stage) : StageWork :=
  match stage with
  | .input s =>
      { state := .input s
        shared := engine
        out := match input.packet with
          | none => []
          | some pkt => s.receive pkt input.filtered }
  | .ai a =>
      let (a, events) := a.inferWorker input.drawn
      { state := .ai a, shared := engine, events := events.map .published }
  | stage => { state := stage, shared := engine }

/-- By itself a stage only publishes. -/
theorem Stage.background_events {input : StageInput} {engine : RuleEngine} {stage : Stage}
    {e : Event} (h : e ∈ (stage.background input engine).events) :
    ∃ event, e = .published event := by
  cases stage with
  | ai a =>
      obtain ⟨event, -, rfl⟩ := List.mem_map.mp h
      exact ⟨event, rfl⟩
  | input s => cases h
  | decode d => cases h
  | rule => cases h
  | overlay => cases h
  | output o => cases h

/-- Only the rule stage evaluates, under the context of the frame it processes. -/
theorem Stage.processFrame_evaluated {srt : PairSorter} {input : StageInput} {engine : RuleEngine}
    {stage : Stage} {frame evaluatedFrame : Frame} {rules : List (ℤ × AnalysisRule)}
    {context : FrameContext}
    (h : .evaluated evaluatedFrame rules context ∈
      (stage.processFrame srt input engine frame).events) :
    evaluatedFrame = frame ∧ context = RuleStage.frameContext frame input.now := by
  cases stage with
  | input s => cases h
  | decode d => cases List.mem_singleton.mp h
  | ai a =>
      rcases List.mem_cons.mp h with h | h
      · cases h
      · obtain ⟨event, -, h⟩ := List.mem_map.mp h
        cases h
  | rule =>
      rcases List.mem_cons.mp h with h | h
      · cases h
      · rcases List.mem_append.mp h with h | h
        · split at h
          · cases List.mem_singleton.mp h
            exact ⟨rfl, rfl⟩
          · cases h
        · cases List.mem_singleton.mp h
  | overlay =>
      rcases List.mem_cons.mp h with h | h
      · cases h
      · split at h
        · cases List.mem_singleton.mp h
        · cases h
  | output o =>
      rcases List.mem_cons.mp h with h | h
      · cases h
      · obtain ⟨channelId, packet, h⟩ := OutputStage.processFrame_events h
        cases h

/-- The rule stage evaluates a frame that has detections. -/
theorem Stage.rule_evaluates {srt : PairSorter} {input : StageInput} {engine : RuleEngine}
    {frame : Frame} (h : RuleStage.hasDetections frame = true) :
    .evaluated frame (engine.cachedRules frame.channelId) (RuleStage.frameContext frame input.now) ∈
      (Stage.rule.processFrame srt input engine frame).events := by
  refine List.mem_cons_of_mem _ (List.mem_append_left _ ?_)
  rw [if_pos h]
  exact List.mem_singleton_self _

/-- **A channel's pipeline** as a line of stages. -/
def pipeline (srt : PairSorter) : Line Stage RuleEngine Frame StageQueue StageInput Event where
  toQueueOps := StageQueue.ops
  work input engine stage frame := stage.processFrame srt input engine frame
  tick input engine stage := stage.background input engine

/-- The state of a pipeline and the rule engine. -/
abbrev PipelineState := LineState Stage RuleEngine Frame StageQueue

/-- A step of a pipeline or of others that use the rule engine. -/
abbrev PipelineAction := LineAction RuleEngine StageInput

end LoongNvr.Pipeline
