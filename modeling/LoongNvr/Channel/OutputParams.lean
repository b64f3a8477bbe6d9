import LoongNvr.Channel.ParamsSurvive
import LoongNvr.Pipeline.OutputEncoder

/-!
# Channel — OutputParams

The output stage of a channel's pipeline: what it reads of the parameters it is built with, and the
encoder it makes of them.

* `initializeOutput_made`: the stage reads what the orchestrator has written of the configuration.
* `IsOutputStage.encodes`: whatever the stage is sent, its encoder has the codec and the frame rate
  of the configuration, or the defaults for what is unknown there.
-/

namespace LoongNvr.Channel
open LoongNvr.Core Support
open JsonText hiding Frame
open LoongNvr.Codec (EncoderConfig FFmpegEncoder Opening EncoderAnswer)
open LoongNvr.Pipeline (EncodingStage)

/-! ### What the stage reads -/

/-- What `OutputStage::Initialize` sets. -/
structure OutputParams where
  encConfig : EncoderConfig
  channelId : ℤ

section Reading

variable (lib : JsonLibrary)

/-- The try block of `OutputStage::Initialize`. -/
def readOutput (v : Value) : Assignments OutputParams Unit := do
  let set (f : EncoderConfig → EncoderConfig) (p : OutputParams) :=
    { p with encConfig := f p.encConfig }
  assign (valueOf getStr "codec" "h264" v)
    fun s => set ({ · with codec := if s = "h265" ∨ s = "hevc" then .h265 else .h264 })
  assign (valueOf (getInt lib) "width" 1920 v) fun n => set ({ · with width := n })
  assign (valueOf (getInt lib) "height" 1080 v) fun n => set ({ · with height := n })
  assign (valueOf (getInt lib) "framerate" 30 v) fun n => set ({ · with framerate := n })
  assign (valueOf (getInt lib) "bitrate_kbps" 4000 v) fun n => set ({ · with bitrateKbps := n })
  assign (valueOf (getInt lib) "gop_size" 50 v) fun n => set ({ · with gopSize := n })
  assign (valueOf getStr "preset" "ultrafast" v) fun s => set ({ · with preset := s })
  assign (valueOf (getInt lib) "channel_id" (-1) v) fun n p => { p with channelId := n }

/-- `OutputStage::Initialize` -/
def initializeOutput (params : List Char) (s : EncodingStage) : EncodingStage :=
  let r := (tryParams lib params { encConfig := s.encConfig, channelId := s.channelId }
    (readOutput lib)).2
  s.setUp r.encConfig r.channelId

end Reading

/-! ### What the encoder is made with -/

/-- The codec of an encoder for a channel: H.264 where it is not known to be H.265. -/
def encodedCodec : CodecType → CodecType
  | .h265 => .h265
  | .h264 | .unknown => .h264

/-- The frame rate of an encoder for a channel: 30 where it is not known. -/
def encodedFramerate (framerate : ℤ) : ℤ := if framerate > 0 then framerate else 30

variable {lib : JsonLibrary} {config : ChannelConfig} {s : EncodingStage}

theorem encodedCodec_eq (codec : CodecType) :
    (if String.ofList (codecText codec) = "h265" ∨ String.ofList (codecText codec) = "hevc" then
      CodecType.h265 else .h264) = encodedCodec codec := by
  cases codec <;> decide

theorem isInt_encodedFramerate (hint : IntFields config) :
    IsInt (encodedFramerate config.framerate) := by
  unfold encodedFramerate
  split
  · exact hint.framerate
  · exact ⟨by decide, by decide⟩

/-- **The stage reads** what has been written of the configuration. -/
theorem initializeOutput_made (hlib : lib.Lawful) (hint : IntFields config) (s : EncodingStage) :
    initializeOutput lib (makeOutputStageParams config) s =
      s.setUp
        { s.encConfig with
          codec := encodedCodec config.codec
          width := config.width
          height := config.height
          framerate := encodedFramerate config.framerate
          bitrateKbps := config.bitrateKbps
          gopSize := 50
          preset := "ultrafast" }
        config.id := by
  have hsend : Sendable lib (outputMembers config) := sendable_outputMembers hint
  have hcarries := (carries_others lib hint).2.2
  rw [makeOutputStageParams_eq] at hcarries ⊢
  obtain ⟨hparse, hholds⟩ := hsend.parse hlib hcarries
  have hkeys : (outputMembers config).map (·.1) =
      ["codec".toList, "width".toList, "height".toList, "bitrate_kbps".toList, "framerate".toList,
        "preset".toList, "channel_id".toList] := rfl
  have hgop : valueOf (getInt lib) "gop_size" 50 (.object (values (outputMembers config))) =
      some 50 := by
    refine valueOf_of_not_mem ?_
    rw [hkeys]
    decide
  set v := Value.object (values (outputMembers config)) with hv
  have hmembers := List.forall_mem_cons.mp hholds
  simp only [List.forall_mem_cons, List.not_mem_nil, false_imp_iff, implies_true,
    and_true] at hmembers
  obtain ⟨hcodec, hwidth, hheight, hbitrate, hframerate, hpreset, hid⟩ := hmembers
  have hcodec' : valueOf getStr "codec" "h264" v = some (String.ofList (codecText config.codec)) :=
    valueOf_of_find hcodec
  have hpreset' : valueOf getStr "preset" "ultrafast" v = some "ultrafast" :=
    valueOf_str hpreset _
  simp only [initializeOutput, tryParams, hparse, readOutput, hgop, hcodec', hpreset',
    valueOf_int hint.width hwidth, valueOf_int hint.height hheight,
    valueOf_int hint.bitrateKbps hbitrate, valueOf_int hint.id hid,
    valueOf_int (isInt_encodedFramerate hint) hframerate, ← encodedCodec_eq]
  rfl

/-! ### What becomes of the stage -/

/-- What the pipeline does with its output stage. -/
inductive OutputCall
  | setUp
  | frame (frame : Frame) (opening : Opening) (answer : EncoderAnswer)
  | shutdown

/-- The output stage of a pipeline built with the configuration. -/
def outputStep (lib : JsonLibrary) (config : ChannelConfig) (s : EncodingStage) :
    OutputCall → EncodingStage
  | .setUp => initializeOutput lib (makeOutputStageParams config) s
  | .frame frame opening answer => (s.processFrame frame opening answer).stage
  | .shutdown => s.shutdown

/-- A state of the output stage of a pipeline built with the configuration. -/
def IsOutputStage (lib : JsonLibrary) (config : ChannelConfig) (s : EncodingStage) : Prop :=
  ∃ calls : List OutputCall, s = calls.foldl (outputStep lib config) .new

/-- The encoder is for a channel with this configuration. -/
structure EncodesFor (config : ChannelConfig) (enc : EncoderConfig) : Prop where
  codec : enc.codec = encodedCodec config.codec
  framerate : enc.framerate = encodedFramerate config.framerate

/-- The encoder in use is for the channel, and so is the next one. -/
structure Encodes (config : ChannelConfig) (s : EncodingStage) : Prop where
  next : s.initialized = true → EncodesFor config s.encConfig
  encoder : ∀ e ∈ s.encoder, EncodesFor config e.config

theorem config_opened {e : FFmpegEncoder} {enc : EncoderConfig} {opening : Opening} :
    (e.opened enc opening).config = enc := by
  cases opening <;> rfl

theorem config_encode {e : FFmpegEncoder} {frame : Frame} {answer : EncoderAnswer} :
    (e.encode frame answer).encoder.config = e.config := by
  unfold FFmpegEncoder.encode
  split
  · rfl
  · split <;> rfl

theorem Encodes.ready (h : Encodes config s) (hinit : s.initialized = true) (frame : Frame)
    (opening : Opening) : Encodes config (s.ready frame opening) := by
  unfold EncodingStage.ready
  split
  · exact h
  · refine ⟨fun _ => ⟨(h.next hinit).codec, (h.next hinit).framerate⟩, ?_⟩
    rintro e ⟨⟩
    rw [config_opened]
    exact ⟨(h.next hinit).codec, (h.next hinit).framerate⟩

theorem Encodes.encodeFrame (h : Encodes config s) (frame : Frame) (answer : EncoderAnswer) :
    Encodes config (s.encodeFrame frame answer).stage := by
  unfold EncodingStage.encodeFrame
  split
  · exact h
  · next e he =>
      refine ⟨h.next, ?_⟩
      rintro e' ⟨⟩
      rw [config_encode]
      exact h.encoder e he

theorem Encodes.processFrame (h : Encodes config s) (frame : Frame) (opening : Opening)
    (answer : EncoderAnswer) : Encodes config (s.processFrame frame opening answer).stage := by
  unfold EncodingStage.processFrame
  cases hinit : s.initialized with
  | false => exact h
  | true =>
      have hready := h.ready hinit frame opening
      cases frame.type with
      | encoded => exact h
      | raw =>
          simp only [Bool.not_true, Bool.false_eq_true, if_false]
          split
          · exact hready.encodeFrame frame answer
          · exact hready

theorem Encodes.step (hlib : lib.Lawful) (hint : IntFields config) (h : Encodes config s)
    (call : OutputCall) : Encodes config (outputStep lib config s call) := by
  cases call with
  | setUp =>
      rw [outputStep, initializeOutput_made hlib hint]
      exact ⟨fun _ => ⟨rfl, rfl⟩, h.encoder⟩
  | frame frame opening answer => exact h.processFrame frame opening answer
  | shutdown =>
      refine ⟨fun hinit => Bool.noConfusion hinit, fun e he => ?_⟩
      obtain ⟨e', he', rfl⟩ := Option.mem_map.mp he
      exact h.encoder e' he'

/-- **The encoder** of a stage is one for the configuration its pipeline was built with. -/
theorem IsOutputStage.encodes (hlib : lib.Lawful) (hint : IntFields config)
    (h : IsOutputStage lib config s) : Encodes config s := by
  obtain ⟨calls, rfl⟩ := h
  refine foldl_of_step (P := Encodes config) (fun s call hs => hs.step hlib hint call) calls ?_
  exact ⟨fun hinit => Bool.noConfusion hinit, fun e he => nomatch he⟩

/-- The first raw frame has the stage make an encoder. -/
theorem exists_encoder (lib : JsonLibrary) (config : ChannelConfig) :
    ∃ s, IsOutputStage lib config s ∧ ∃ enc, enc ∈ s.encoder := by
  refine ⟨_, ⟨[.setUp, .frame { origin := 0 } .opened {}], rfl⟩, ?_⟩
  simp [outputStep, initializeOutput, EncodingStage.setUp, EncodingStage.processFrame,
    EncodingStage.ready, EncodingStage.initEncoder, EncodingStage.encodeFrame,
    FFmpegEncoder.opened]

end LoongNvr.Channel
