import LoongNvr.Codec.FFmpegEncoder
import LoongNvr.Codec.FFmpegDecoder
import LoongNvr.Pipeline.Stages

/-!
# Pipeline — OutputEncoder

The output stage with its encoder, which is made for the first raw frame, and the conversions of
the decoder at one end of the pipeline and of this encoder at the other.

* `processFrame_stage`, `processFrame_events`: the output stage of `Pipeline.Stages`, as long as
  the encoder takes its frames.
* `Sound`: the stage's encoder was made for it.
* `scalersMatch_iff`: every conversion, at both ends, goes through a context of its own picture's
  geometry exactly when no picture differs from the one the context was made for.
-/

namespace LoongNvr.Pipeline
open Support LoongNvr.Core LoongNvr.Codec

/-- The output stage and its encoder. -/
structure EncodingStage extends OutputStage where
  encConfig : EncoderConfig := {}
  encoder : Option FFmpegEncoder := none
  initialized : Bool := false

/-- What a call of `ProcessFrame` leaves. -/
structure StageResult where
  stage : EncodingStage
  scales : List SwsCall := []
  events : List Event := []

/-- A call of a member.  What `Initialize` reads of its parameters is an input, and so is how an
encoder opens and what it answers. -/
inductive StageCall
  | setUp (config : EncoderConfig) (channelId : ℤ)
  | frame (frame : Frame) (opening : Opening) (answer : EncoderAnswer)
  | shutdown

namespace EncodingStage

/-- The stage before `Initialize`. -/
def new : EncodingStage where
  channelId := -1

/-- `Initialize`; the encoder is left for the first frame to make. -/
def setUp (s : EncodingStage) (config : EncoderConfig) (channelId : ℤ) : EncodingStage :=
  { s with encConfig := config, channelId := channelId, initialized := true, encoderReady := false }

/-- `InitEncoder`: a new encoder, of the frame's size.  One that does not open stays in place. -/
def initEncoder (s : EncodingStage) (width height : ℤ) (opening : Opening) : EncodingStage :=
  let config := { s.encConfig with width := width, height := height }
  let encoder := FFmpegEncoder.opened {} config opening
  { s with encConfig := config, encoder := some encoder, encoderReady := encoder.initialized }

/-- The stage once there is an encoder, if there is none yet. -/
def ready (s : EncodingStage) (frame : Frame) (opening : Opening) : EncodingStage :=
  if s.encoderReady then s else s.initEncoder frame.info.width frame.info.height opening

/-- `encoder_->Encode` -/
def encodeFrame (s : EncodingStage) (frame : Frame) (answer : EncoderAnswer) : StageResult :=
  match s.encoder with
  | none => { stage := s }
  | some encoder =>
      let encoded := encoder.encode frame answer
      { stage := { s with encoder := some encoded.encoder }
        scales := encoded.scales
        events := encoded.packets.map (.streamed s.channelId) }

def processFrame (s : EncodingStage) (frame : Frame) (opening : Opening) (answer : EncoderAnswer) :
    StageResult :=
  if !s.initialized then { stage := s }
  else
    match frame.type with
    | .encoded => { stage := s, events := [.streamed frame.channelId frame.packetData] }
    | .raw =>
        let s := s.ready frame opening
        if s.encoderReady then s.encodeFrame frame answer else { stage := s }

def shutdown (s : EncodingStage) : EncodingStage :=
  { s with encoder := s.encoder.map (·.shutdown), initialized := false }

def step (s : EncodingStage) : StageCall → EncodingStage × List SwsCall
  | .setUp config channelId => (s.setUp config channelId, [])
  | .frame frame opening answer =>
      let result := s.processFrame frame opening answer
      (result.stage, result.scales)
  | .shutdown => (s.shutdown, [])

/-! ### The encoder of the stage -/

/-- The encoder's context converts into the encoder's picture; and an encoder that is used is there
and has been opened. -/
structure Sound (s : EncodingStage) : Prop where
  fitted : ∀ e ∈ s.encoder, e.Fitted
  ready : s.initialized = true → s.encoderReady = true → ∃ e, s.encoder = some e ∧ e.initialized

variable {s : EncodingStage} {frame : Frame} {opening : Opening} {answer : EncoderAnswer}

theorem encode_initialized {e : FFmpegEncoder} :
    (e.encode frame answer).encoder.initialized = e.initialized := by
  unfold FFmpegEncoder.encode
  split
  · rfl
  · split <;> rfl

theorem sound_new : new.Sound where
  fitted := by simp [new]
  ready := by simp [new]

theorem Sound.initEncoder (width height : ℤ) :
    (s.initEncoder width height opening).Sound where
  fitted := by
    rintro e ⟨⟩
    exact FFmpegEncoder.fitted_opened_new
  ready := fun _ hready => ⟨_, rfl, hready⟩

theorem Sound.of_ready (h : s.Sound) : (s.ready frame opening).Sound := by
  unfold EncodingStage.ready
  split
  · exact h
  · exact Sound.initEncoder _ _

theorem Sound.encodeFrame (h : s.Sound) : (s.encodeFrame frame answer).stage.Sound := by
  unfold EncodingStage.encodeFrame
  split
  · exact h
  · next e he =>
      refine ⟨?_, fun hinit hready => ?_⟩
      · rintro e' ⟨⟩
        exact FFmpegEncoder.fitted_encode (h.fitted e he)
      · obtain ⟨e', he', hopen⟩ := h.ready hinit hready
        obtain rfl : e = e' := Option.some.inj (he.symm.trans he')
        exact ⟨_, rfl, encode_initialized.trans hopen⟩

theorem Sound.processFrame (h : s.Sound) : (s.processFrame frame opening answer).stage.Sound := by
  unfold EncodingStage.processFrame
  split
  · exact h
  · split
    · exact h
    · simp only
      split
      · exact h.of_ready.encodeFrame
      · exact h.of_ready

theorem Sound.step (h : s.Sound) (call : StageCall) : (silent step s call).Sound := by
  cases call with
  | frame frame opening answer => exact h.processFrame
  | setUp config channelId => exact ⟨h.fitted, fun _ hready => by cases hready⟩
  | shutdown =>
      refine ⟨fun e he => ?_, fun hinit => by cases hinit⟩
      obtain ⟨e', -, rfl⟩ := Option.mem_map.mp he
      exact FFmpegEncoder.fitted_shutdown

/-! ### The stage of the pipeline -/

theorem ready_toOutputStage :
    (s.ready frame opening).toOutputStage =
      { s.toOutputStage with encoderReady := s.encoderReady || opening.succeeds } := by
  obtain ⟨⟨channelId, encoderReady⟩, encConfig, encoder, initialized⟩ := s
  cases encoderReady <;> cases opening <;> rfl

theorem ready_initialized : (s.ready frame opening).initialized = s.initialized := by
  unfold ready
  split <;> rfl

theorem encodeFrame_toOutputStage :
    (s.encodeFrame frame answer).stage.toOutputStage = s.toOutputStage := by
  unfold encodeFrame
  split <;> rfl

/-- A raw frame for which there is an encoder, or none can be opened. -/
theorem processFrame_raw (hinit : s.initialized = true) (hraw : frame.type = .raw) :
    s.processFrame frame opening answer =
      if s.encoderReady || opening.succeeds then (s.ready frame opening).encodeFrame frame answer
      else { stage := s.ready frame opening } := by
  simp [processFrame, hinit, hraw, ready_toOutputStage]

/-- The stage is the output stage of the pipeline. -/
theorem processFrame_stage (hinit : s.initialized = true) :
    (s.processFrame frame opening answer).stage.toOutputStage =
      (s.toOutputStage.processFrame frame opening.succeeds answer.encoded).1 := by
  cases hraw : frame.type with
  | encoded => simp [processFrame, OutputStage.processFrame, hinit, hraw]
  | raw =>
      rw [processFrame_raw hinit hraw]
      cases hready : s.encoderReady || opening.succeeds with
      | true =>
          simp [OutputStage.processFrame, hraw, hready, encodeFrame_toOutputStage,
            ready_toOutputStage]
      | false =>
          obtain ⟨hnot, -⟩ := Bool.or_eq_false_iff.mp hready
          simp only [OutputStage.processFrame, hraw, hready, Bool.false_eq_true, if_false,
            ready_toOutputStage]
          rw [← hnot]

/-- It streams what the output stage of the pipeline streams, as long as the encoder takes its
frames. -/
theorem processFrame_events (h : s.Sound) (hinit : s.initialized = true)
    (hwritable : answer.writable = true) (hmade : answer.contextMade = true) :
    (s.processFrame frame opening answer).events =
      (s.toOutputStage.processFrame frame opening.succeeds answer.encoded).2 := by
  cases hraw : frame.type with
  | encoded => simp [processFrame, OutputStage.processFrame, hinit, hraw]
  | raw =>
      rw [processFrame_raw hinit hraw]
      cases hready : s.encoderReady || opening.succeeds with
      | false => simp [OutputStage.processFrame, hraw, hready]
      | true =>
          have hsound : (s.ready frame opening).Sound := h.of_ready
          obtain ⟨e, he, hopen⟩ := hsound.ready (ready_initialized.trans hinit)
            (by rw [ready_toOutputStage]; exact hready)
          have hctx : (e.contextFor frame true).isSome := by
            unfold FFmpegEncoder.contextFor
            split <;> rfl
          obtain ⟨ctx, hctx⟩ := Option.isSome_iff_exists.mp hctx
          simp [encodeFrame, he, FFmpegEncoder.encode, hopen, hwritable, hmade, hctx,
            OutputStage.processFrame, hraw, hready, ready_toOutputStage]

/-! ### The conversions -/

/-- The encoder converts a frame through the context it has, if it has one, only if that was made
for a frame of the same size. -/
def SameSize (s : EncodingStage) : StageCall → Prop
  | .frame frame _ answer =>
      s.initialized = true → frame.type = .raw → s.encoderReady = true → answer.writable = true →
        ∀ e ∈ s.encoder, ∀ ctx ∈ e.swsCtx, ctx.src = rawGeometry frame
  | _ => True

theorem encodeFrame_matches_iff (h : s.Sound) (hinit : s.initialized = true)
    (hready : s.encoderReady = true) :
    (∀ call ∈ (s.encodeFrame frame answer).scales, call.Matches) ↔
      (answer.writable = true → ∀ e ∈ s.encoder, ∀ ctx ∈ e.swsCtx, ctx.src = rawGeometry frame) := by
  obtain ⟨e, he, hopen⟩ := h.ready hinit hready
  have hmatches : (∀ call ∈ (e.encode frame answer).scales, call.Matches) ↔
      (e.initialized = true → answer.writable = true →
        ∀ ctx ∈ e.swsCtx, ctx.src = rawGeometry frame) :=
    FFmpegEncoder.encode_matches_iff (h.fitted e he)
  simp only [hopen, true_imp_iff] at hmatches
  simpa [encodeFrame, he] using hmatches

/-- A new encoder has no context yet. -/
theorem swsCtx_ready_new {e : FFmpegEncoder} (hready : s.encoderReady = false)
    (he : e ∈ (s.ready frame opening).encoder) : e.swsCtx = none := by
  rw [ready, hready, if_neg Bool.false_ne_true] at he
  obtain rfl := Option.some.inj he
  cases opening <;> rfl

/-- One call. -/
theorem step_matches_iff (h : s.Sound) (call : StageCall) :
    (∀ scale ∈ (s.step call).2, scale.Matches) ↔ s.SameSize call := by
  cases call with
  | setUp config channelId => simp [step, SameSize]
  | shutdown => simp [step, SameSize]
  | frame frame opening answer =>
      cases hinit : s.initialized with
      | false => simp [step, processFrame, SameSize, hinit]
      | true =>
          cases hraw : frame.type with
          | encoded => simp [step, processFrame, SameSize, hinit, hraw]
          | raw =>
              simp only [step, processFrame_raw hinit hraw, SameSize, hinit, hraw, true_imp_iff]
              cases hready : s.encoderReady with
              | true =>
                  simp only [Bool.true_or, if_true, true_imp_iff, ready, hready]
                  exact encodeFrame_matches_iff h hinit hready
              | false =>
                  -- the encoder is new and has no context
                  simp only [Bool.false_or, Bool.false_eq_true, false_imp_iff, iff_true]
                  cases hopens : opening.succeeds with
                  | false => simp
                  | true =>
                      have hsound : (s.ready frame opening).Sound := h.of_ready
                      refine (encodeFrame_matches_iff hsound (ready_initialized.trans hinit)
                        (by simp [ready_toOutputStage, hopens])).mpr fun _ e he ctx hctx => ?_
                      rw [swsCtx_ready_new hready he] at hctx
                      cases hctx

end EncodingStage

/-- Every picture a call of the decoder delivers has the geometry of the picture that the context in
use was made for. -/
def SameGeometry (s : DecoderState) (call : DecoderCall) : Prop :=
  ∀ r ∈ s.deliverable (call.received s), s.contextFor (call.received s) = some r.frame.context

theorem step_scale_matches_iff {s : DecoderState} {call : DecoderCall} :
    (∀ d ∈ (s.step call).2, d.scale.Matches) ↔ SameGeometry s call := by
  constructor
  · intro h r hr
    obtain ⟨ctx, hctx⟩ := DecoderState.exists_context hr
    have hmatches := h _ (DecoderState.mem_step.mpr ⟨ctx, hctx, r, hr, rfl⟩)
    exact hctx.trans (congrArg some hmatches)
  · intro h d hd
    obtain ⟨ctx, hctx, r, hr, rfl⟩ := DecoderState.mem_step.mp hd
    exact Option.some.inj (hctx.symm.trans (h r hr))

/-- A conversion through a context of its own, which stays inside both buffers. -/
def Converts (scale : SwsCall) : Prop := scale.Matches ∧ scale.InBounds

theorem converts_iff {scale : SwsCall} : Converts scale ↔ scale.Matches :=
  and_iff_left_of_imp SwsCall.Matches.inBounds

/-- **The conversions** of any run of a decoder and of any run of an output stage match exactly when
no picture has another geometry than the one the context in use was made for. -/
theorem scalersMatch_iff (calls : List DecoderCall) (stageCalls : List StageCall) :
    (∀ d ∈ emitted DecoderState.step .new calls, Converts d.scale) ∧
        (∀ scale ∈ emitted EncodingStage.step .new stageCalls, Converts scale) ↔
      EveryStep (silent DecoderState.step) SameGeometry .new calls ∧
        EveryStep (silent EncodingStage.step) EncodingStage.SameSize .new stageCalls := by
  simp only [converts_iff]
  refine and_congr (forall_emitted_iff fun s call => step_scale_matches_iff) ?_
  exact forall_emitted_iff_of_invariant (fun s call h => h.step call)
    (fun s call h => EncodingStage.step_matches_iff h call) EncodingStage.sound_new

/-- The camera goes from four pixels to nine, and the encoder is sent the pictures. -/
theorem scalersMatch_refuted :
    ¬ ((∀ d ∈ emitted DecoderState.step .new
          [.setUp .h264 .opened, .setFrameCallback true,
            .decode (AVFrame.square 2 0).packet true [{ frame := .square 2 0 }],
            .decode (AVFrame.square 3 40000).packet true [{ frame := .square 3 40000 }]],
        Converts d.scale) ∧
      ∀ scale ∈ emitted EncodingStage.step .new
          [.setUp {} 1,
            .frame { info := { width := 2, height := 2, stride := 6 }, origin := 0 } .opened {},
            .frame { info := { width := 3, height := 3, stride := 9 }, origin := 40000 } .opened {}],
        Converts scale) := by
  rintro ⟨hdecoder, -⟩
  simp only [converts_iff] at hdecoder
  revert hdecoder
  decide

end LoongNvr.Pipeline
