import LoongNvr.Codec.FFmpegDecoder

/-!
# Codec — FFmpegEncoder

The encoder: a frame is converted into the encoder's own picture and sent to libavcodec.  The
conversion context is made for the first frame, and used until `Shutdown`.
-/

namespace LoongNvr.Codec
open LoongNvr.Core

/-- Encoder configuration. -/
structure EncoderConfig where
  codec : CodecType := .h264
  width : ℤ := 1920
  height : ℤ := 1080
  framerate : ℤ := 25
  bitrateKbps : ℤ := 4000
  gopSize : ℤ := 50
  maxBFrames : ℤ := 0
  preset : String := "medium"

/-- The picture the encoder converts into. -/
def EncoderConfig.buffer (config : EncoderConfig) : Geometry where
  width := config.width
  height := config.height
  format := avPixFmtYuv420p

/-- The encoder's state. -/
structure FFmpegEncoder where
  config : EncoderConfig := {}
  initialized : Bool := false
  swsCtx : Option SwsContext := none
  frameCount : ℤ := 0

/-- How libavutil, libswscale and libavcodec answer a call of `Encode`. -/
structure EncoderAnswer where
  writable : Bool := true
  contextMade : Bool := true
  /-- The packets libavcodec returns. -/
  encoded : List (List UInt8) := []

/-- What a call of `Encode` leaves. -/
structure Encoded where
  encoder : FFmpegEncoder
  scales : List SwsCall := []
  /-- The time of the picture sent to libavcodec. -/
  sentPts : Option ℤ := none
  packets : List (List UInt8) := []

/-- A raw frame as `Encode` hands it to `sws_scale`. -/
def rawGeometry (frame : Frame) : Geometry where
  width := frame.info.width
  height := frame.info.height
  format := avPixFmtBgr24

namespace FFmpegEncoder

def shutdown (e : FFmpegEncoder) : FFmpegEncoder :=
  { e with swsCtx := none, initialized := false, frameCount := 0 }

/-- `Initialize` -/
def opened (e : FFmpegEncoder) (config : EncoderConfig) : Opening → FFmpegEncoder
  | .failed => { e with config := config }
  | .noBuffers => { e with config := config }.shutdown
  | .opened => { e with config := config, initialized := true }

/-- The context `Encode` converts a frame through. -/
def contextFor (e : FFmpegEncoder) (frame : Frame) (made : Bool) : Option SwsContext :=
  match e.swsCtx with
  | some ctx => some ctx
  | none => if made then some { src := rawGeometry frame, dst := e.config.buffer } else none

/-- The time of the next picture, in microseconds. -/
def nextPts (e : FFmpegEncoder) : ℤ :=
  let fps := if e.config.framerate > 0 then e.config.framerate else 30
  (e.frameCount * 1000000).tdiv fps

def encode (e : FFmpegEncoder) (frame : Frame) (answer : EncoderAnswer) : Encoded :=
  if !e.initialized || !answer.writable then { encoder := e }
  else
    match e.contextFor frame answer.contextMade with
    | none => { encoder := e }
    | some ctx =>
        { encoder := { e with swsCtx := some ctx, frameCount := e.frameCount + 1 }
          scales := [{ ctx := ctx, src := rawGeometry frame, dst := e.config.buffer }]
          sentPts := some e.nextPts
          packets := answer.encoded }

/-! ### The context -/

/-- The context converts into the encoder's picture. -/
def Fitted (e : FFmpegEncoder) : Prop := ∀ ctx ∈ e.swsCtx, ctx.dst = e.config.buffer

variable {e : FFmpegEncoder} {frame : Frame} {answer : EncoderAnswer}

theorem fitted_opened_new {config : EncoderConfig} {opening : Opening} :
    (opened {} config opening).Fitted := by
  cases opening <;> simp [opened, shutdown, Fitted]

theorem fitted_shutdown : e.shutdown.Fitted := by simp [Fitted, shutdown]

/-- Once there is a context, it is the one. -/
theorem contextFor_eq {ctx : SwsContext} {made : Bool} (h : e.contextFor frame made = some ctx) :
    e.swsCtx = some ctx ∨
      e.swsCtx = none ∧ ctx = { src := rawGeometry frame, dst := e.config.buffer } := by
  unfold contextFor at h
  split at h
  · next kept hkept => exact .inl (hkept.trans h)
  · next hnone =>
      split at h
      · exact .inr ⟨hnone, (Option.some.inj h).symm⟩
      · cases h

theorem fitted_encode (h : e.Fitted) : (e.encode frame answer).encoder.Fitted := by
  unfold encode
  split
  · exact h
  · split
    · exact h
    · next ctx hctx =>
        intro ctx' hctx'
        obtain rfl : ctx = ctx' := Option.some.inj hctx'
        obtain hkept | ⟨-, rfl⟩ := contextFor_eq hctx
        · exact h ctx hkept
        · rfl

/-- **The conversion of a frame** matches exactly when the context there is, if there is one, was
made for a frame of its size. -/
theorem encode_matches_iff (h : e.Fitted) :
    (∀ call ∈ (e.encode frame answer).scales, call.Matches) ↔
      (e.initialized = true → answer.writable = true →
        ∀ ctx ∈ e.swsCtx, ctx.src = rawGeometry frame) := by
  unfold encode
  cases hinit : e.initialized with
  | false => simp
  | true =>
      cases answer.writable with
      | false => simp
      | true =>
          cases hctx : e.swsCtx with
          | none => cases hmade : answer.contextMade <;> simp [contextFor, hctx, SwsCall.Matches]
          | some ctx =>
              have hdst : ctx.dst = e.config.buffer := h ctx hctx
              cases ctx
              simp_all [contextFor, SwsCall.Matches]

end FFmpegEncoder

end LoongNvr.Codec
