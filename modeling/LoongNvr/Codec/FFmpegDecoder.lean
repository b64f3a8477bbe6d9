import LoongNvr.VideoInput.RtspClient
import LoongNvr.Support.Emitted

/-!
# Codec — FFmpegDecoder

`Decode` and `ConvertAndDeliver`.  Which pictures libavcodec returns for a packet, and what
swscale makes of them, is an input: any number of pictures, in any sizes.

* `decode`, `flush`, `convertAndDeliver`: the calls, with what the callback gets.
* `mem_step`: the pictures a call delivers, all through one context.
* `decode_frames`: the frames of `Decode` are those of `FFmpegDecoder.decode`.
* `TimesKept`: every delivered frame has the time of the packet it was decoded from.
* `timesKept_iff`: it is so exactly when every picture a `Decode` delivers has the time of the
  packet that call was made with.
-/

namespace LoongNvr.Codec
open LoongNvr.Core LoongNvr.VideoInput

/-- A decoded picture, converted to BGR. -/
structure Picture where
  image : Image
  keyFrame : Bool

/-- The decoder's state. -/
structure FFmpegDecoder where
  codecType : CodecType
  lastPts : ℤ := avNoPts

namespace FFmpegDecoder

/-- `ConvertAndDeliver`: the frame the callback gets. -/
def convertAndDeliver (picture : Picture) (pts origin : ℤ) : Frame where
  -- a new frame: `channelId` and `dts` keep their defaults
  data := some picture.image
  pts := pts
  type := .raw
  info :=
    { width := picture.image.width
      height := picture.image.height
      stride := picture.image.width * 3
      isKeyframe := picture.keyFrame }
  origin := origin

/-- The time `Decode` orders packets by. -/
def orderTime (pts dts : ℤ) : ℤ := if dts ≠ avNoPts then dts else pts

/-- Does `Decode` flush the codec first?  It does at a jump back in time. -/
def jumpsBack (d : FFmpegDecoder) (ts : ℤ) : Bool :=
  decide (d.lastPts ≠ avNoPts) && decide (ts ≠ avNoPts) && decide (ts + 1000 < d.lastPts)

/-- What a call of `Decode` leaves. -/
structure Decoded where
  decoder : FFmpegDecoder
  flushed : Bool
  frames : List Frame

/-- `Decode` on a packet for which libavcodec returns these pictures, none where it fails. -/
def decode (d : FFmpegDecoder) (pts dts origin : ℤ) (pictures : List Picture) : Decoded :=
  let ts := orderTime pts dts
  { decoder := { d with lastPts := if ts ≠ avNoPts then ts else d.lastPts }
    flushed := d.jumpsBack ts
    frames := pictures.map fun picture => convertAndDeliver picture pts origin }

end FFmpegDecoder

/-! ### Between calls

`FFmpegDecoder` with all it keeps from call to call: the conversion context is made for the first
picture that is delivered, and used until `Shutdown`.  What libavcodec returns is an input: any
pictures, in any order and after any delay, each with the packet it was decoded from.
-/

/-! ### Pictures and contexts -/

/-- The size and pixel format of a picture. -/
structure Geometry where
  width : ℤ
  height : ℤ
  format : ℤ
  deriving DecidableEq, Repr

/-- `AV_PIX_FMT_YUV420P` -/
def avPixFmtYuv420p : ℤ := 0

/-- `AV_PIX_FMT_BGR24` -/
def avPixFmtBgr24 : ℤ := 3

/-- What `sws_getContext` makes: a conversion from one geometry to another. -/
structure SwsContext where
  src : Geometry
  dst : Geometry
  deriving DecidableEq, Repr

/-- A call of `sws_scale`: the context, the picture that is converted and the buffer written. -/
structure SwsCall where
  ctx : SwsContext
  src : Geometry
  dst : Geometry
  deriving DecidableEq, Repr

namespace SwsCall

/-- The context was made for this picture and this buffer. -/
def Matches (call : SwsCall) : Prop := call.ctx = { src := call.src, dst := call.dst }

instance (call : SwsCall) : Decidable call.Matches := inferInstanceAs (Decidable (_ = _))

/-- The rows and columns of the context are rows and columns of the picture and of the buffer. -/
structure InBounds (call : SwsCall) : Prop where
  src_width : call.ctx.src.width ≤ call.src.width
  src_height : call.ctx.src.height ≤ call.src.height
  dst_width : call.ctx.dst.width ≤ call.dst.width
  dst_height : call.ctx.dst.height ≤ call.dst.height

theorem Matches.inBounds {call : SwsCall} (h : call.Matches) : call.InBounds := by
  obtain ⟨ctx, src, dst⟩ := call
  obtain rfl : ctx = { src := src, dst := dst } := h
  exact ⟨Int.le_refl _, Int.le_refl _, Int.le_refl _, Int.le_refl _⟩

end SwsCall

/-- The arguments of `Decode`. -/
structure DecoderPacket where
  data : List UInt8
  pts : ℤ
  dts : ℤ
  isKeyframe : Bool

/-- A picture libavcodec returns, of a size `av_image_check_size` admits. -/
structure AVFrame where
  picture : Picture
  format : ℤ
  /-- The packet it was decoded from. -/
  packet : DecoderPacket
  size_lt : picture.image.width * picture.image.height * 3 < 2147483648

namespace AVFrame

/-- libavcodec takes it from the packet. -/
def pts (frame : AVFrame) : ℤ := frame.packet.pts

def geometry (frame : AVFrame) : Geometry where
  width := frame.picture.image.width
  height := frame.picture.image.height
  format := frame.format

/-- The buffer `ConvertAndDeliver` makes for it. -/
def buffer (frame : AVFrame) : Geometry where
  width := frame.picture.image.width
  height := frame.picture.image.height
  format := avPixFmtBgr24

/-- The context `ConvertAndDeliver` makes for it. -/
def context (frame : AVFrame) : SwsContext where
  src := frame.geometry
  dst := frame.buffer

end AVFrame

/-- A picture that is received; does `sws_getContext` succeed for it, if it is called? -/
structure Received where
  frame : AVFrame
  contextMade : Bool := true

/-- A call of the frame callback, and the conversion before it. -/
structure Delivery where
  picture : AVFrame
  frame : Frame
  scale : SwsCall

/-! ### The decoder -/

/-- How `Initialize` ends: the codec is not opened, its packet and frame are not allocated, or
neither. -/
inductive Opening
  | failed
  | noBuffers
  | opened

/-- What `Initialize` returns. -/
def Opening.succeeds : Opening → Bool
  | .opened => true
  | _ => false

/-- The decoder with all of its state. -/
structure DecoderState extends FFmpegDecoder where
  initialized : Bool := false
  hasCallback : Bool := false
  swsCtx : Option SwsContext := none

namespace DecoderState

/-- What is delivered of a picture through a context. -/
def delivery (ptsOf : AVFrame → ℤ) (ctx : SwsContext) (r : Received) : Delivery where
  picture := r.frame
  frame := FFmpegDecoder.convertAndDeliver r.frame.picture (ptsOf r.frame) r.frame.pts
  scale := { ctx := ctx, src := r.frame.geometry, dst := r.frame.buffer }

/-- `ConvertAndDeliver`; the time it is called with is `ptsOf` the picture. -/
def convertAndDeliver (ptsOf : AVFrame → ℤ) (s : DecoderState) (r : Received) :
    DecoderState × List Delivery :=
  if !s.hasCallback then (s, [])
  else
    match s.swsCtx with
    | some ctx => (s, [delivery ptsOf ctx r])
    | none =>
        if r.contextMade then
          ({ s with swsCtx := some r.frame.context }, [delivery ptsOf r.frame.context r])
        else (s, [])

/-- The loop over the pictures that are received. -/
def deliverAll (ptsOf : AVFrame → ℤ) : DecoderState → List Received → DecoderState × List Delivery
  | s, [] => (s, [])
  | s, r :: received =>
      let (s', deliveries) := s.convertAndDeliver ptsOf r
      let (s', later) := deliverAll ptsOf s' received
      (s', deliveries ++ later)

/-- `Initialize`.  The size it is given is not read again; only the last failure shuts the decoder
down. -/
def opened (s : DecoderState) (codec : CodecType) : Opening → DecoderState
  | .failed => { s with codecType := codec }
  | .noBuffers => { s with codecType := codec, swsCtx := none, initialized := false }
  | .opened => { s with codecType := codec, initialized := true }

/-- `Decode`: what is received if the packet is sent.  Every picture gets the packet's time. -/
def decode (s : DecoderState) (packet : DecoderPacket) (sent : Bool) (received : List Received) :
    DecoderState × List Delivery :=
  if !s.initialized then (s, [])
  else
    let s := { s with
      toFFmpegDecoder := (s.toFFmpegDecoder.decode packet.pts packet.dts packet.pts []).decoder }
    if sent then deliverAll (fun _ => packet.pts) s received else (s, [])

/-- `Flush`: every picture gets its own time. -/
def flush (s : DecoderState) (received : List Received) : DecoderState × List Delivery :=
  if !s.initialized then (s, []) else deliverAll AVFrame.pts s received

def shutdown (s : DecoderState) : DecoderState := { s with swsCtx := none, initialized := false }

end DecoderState

/-- A call of a member, with how libavcodec and libswscale answer. -/
inductive DecoderCall
  | setUp (codec : CodecType) (opening : Opening)
  | setFrameCallback (isSet : Bool)
  | decode (packet : DecoderPacket) (sent : Bool) (received : List Received)
  | flush (received : List Received)
  | shutdown

namespace DecoderState

def step (s : DecoderState) : DecoderCall → DecoderState × List Delivery
  | .setUp codec opening => (s.opened codec opening, [])
  | .setFrameCallback isSet => ({ s with hasCallback := isSet }, [])
  | .decode packet sent received => s.decode packet sent received
  | .flush received => s.flush received
  | .shutdown => (s.shutdown, [])

/-! ### What a call delivers -/

/-- The pictures that are delivered: none without a callback, and none before there is a
context. -/
def deliverable (s : DecoderState) (received : List Received) : List Received :=
  if s.hasCallback then
    if s.swsCtx.isSome then received else received.dropWhile (!·.contextMade)
  else []

/-- The context they go through: the one there is, or one made for the first of them. -/
def contextFor (s : DecoderState) (received : List Received) : Option SwsContext :=
  s.swsCtx.or ((s.deliverable received).head?.map (·.frame.context))

variable {ptsOf : AVFrame → ℤ} {s : DecoderState} {ctx : SwsContext} {received : List Received}

theorem deliverAll_of_context (hcallback : s.hasCallback = true) (hctx : s.swsCtx = some ctx) :
    deliverAll ptsOf s received = (s, received.map (delivery ptsOf ctx)) := by
  induction received with
  | nil => rfl
  | cons r received ih =>
      have hfirst : s.convertAndDeliver ptsOf r = (s, [delivery ptsOf ctx r]) := by
        simp [convertAndDeliver, hcallback, hctx]
      simp only [deliverAll, hfirst, ih, List.map_cons, List.singleton_append]

/-- **What a call delivers**, all of it through one context. -/
theorem deliverAll_eq :
    (deliverAll ptsOf s received).2 =
      (s.contextFor received).toList.flatMap fun ctx =>
        (s.deliverable received).map (delivery ptsOf ctx) := by
  by_cases hcallback : s.hasCallback = true
  · cases hctx : s.swsCtx with
    | some ctx =>
        rw [deliverAll_of_context hcallback hctx]
        simp [contextFor, deliverable, hcallback, hctx]
    | none =>
        simp only [contextFor, deliverable, hcallback, hctx, if_true, Option.isSome_none,
          Bool.false_eq_true, if_false, Option.none_or]
        induction received with
        | nil => rfl
        | cons r received ih =>
            cases hmade : r.contextMade with
            | false =>
                have hfirst : s.convertAndDeliver ptsOf r = (s, []) := by
                  simp [convertAndDeliver, hcallback, hctx, hmade]
                rw [List.dropWhile_cons_of_pos (by simp [hmade])]
                simpa only [deliverAll, hfirst, List.nil_append] using ih
            | true =>
                have hfirst : s.convertAndDeliver ptsOf r =
                    ({ s with swsCtx := some r.frame.context },
                      [delivery ptsOf r.frame.context r]) := by
                  simp [convertAndDeliver, hcallback, hctx, hmade]
                rw [List.dropWhile_cons_of_neg (by simp [hmade])]
                have hrest :
                    deliverAll ptsOf { s with swsCtx := some r.frame.context } received =
                      ({ s with swsCtx := some r.frame.context },
                        received.map (delivery ptsOf r.frame.context)) :=
                  deliverAll_of_context hcallback rfl
                simp [deliverAll, hfirst, hrest]
  · have hnone : deliverAll ptsOf s received = (s, []) := by
      induction received with
      | nil => rfl
      | cons r received ih =>
          have hfirst : s.convertAndDeliver ptsOf r = (s, []) := by
            simp [convertAndDeliver, hcallback]
          simp only [deliverAll, hfirst, ih, List.append_nil]
    simp [hnone, deliverable, hcallback]

end DecoderState

/-- What is received during a call from a state. -/
def DecoderCall.received (s : DecoderState) : DecoderCall → List Received
  | .decode _ sent received => if s.initialized && sent then received else []
  | .flush received => if s.initialized then received else []
  | _ => []

/-- The time `ConvertAndDeliver` is called with for a picture. -/
def DecoderCall.ptsOf : DecoderCall → AVFrame → ℤ
  | .decode packet _ _, _ => packet.pts
  | _, frame => frame.pts

namespace DecoderState

variable {s : DecoderState} {call : DecoderCall} {d : Delivery}

@[simp] theorem deliverAll_nil {ptsOf : AVFrame → ℤ} : deliverAll ptsOf s [] = (s, []) := rfl

theorem step_eq :
    (s.step call).2 = (deliverAll call.ptsOf s (call.received s)).2 := by
  cases call with
  | setUp codec opening => rfl
  | setFrameCallback isSet => rfl
  | shutdown => rfl
  | flush received => by_cases h : s.initialized <;> simp [step, flush, DecoderCall.received, h]; rfl
  | decode packet sent received =>
      by_cases h : s.initialized <;> cases sent <;>
        simp [step, decode, DecoderCall.received, h, deliverAll_eq, deliverable, contextFor]
      rfl

/-- **What a call delivers.** -/
theorem mem_step :
    d ∈ (s.step call).2 ↔
      ∃ ctx ∈ s.contextFor (call.received s), ∃ r ∈ s.deliverable (call.received s),
        delivery call.ptsOf ctx r = d := by
  simp [step_eq, deliverAll_eq]

/-- If anything is delivered, there is a context. -/
theorem exists_context {received : List Received} {r : Received}
    (hr : r ∈ s.deliverable received) : ∃ ctx, s.contextFor received = some ctx := by
  cases hctx : s.swsCtx with
  | some ctx => exact ⟨ctx, by simp [contextFor, hctx]⟩
  | none =>
      obtain ⟨first, rest, hcons⟩ := List.exists_cons_of_ne_nil (List.ne_nil_of_mem hr)
      exact ⟨first.frame.context, by simp [contextFor, hctx, hcons]⟩

/-- The frames of `Decode`, the history variable apart. -/
theorem decode_frames {packet : DecoderPacket} {received : List Received} {origin : ℤ}
    (h : s.initialized = true) :
    (s.decode packet true received).2.map (fun d => { d.frame with origin := origin }) =
      (s.toFFmpegDecoder.decode packet.pts packet.dts origin
        ((s.deliverable received).map (·.frame.picture))).frames := by
  have hstep : (s.decode packet true received).2 =
      (s.contextFor received).toList.flatMap fun ctx =>
        (s.deliverable received).map (delivery (fun _ => packet.pts) ctx) := by
    have heq : (s.step (.decode packet true received)).2 = _ := step_eq
    rw [deliverAll_eq, DecoderCall.received, h] at heq
    exact heq
  rw [hstep]
  cases hdelivered : s.deliverable received with
  | nil => cases s.contextFor received <;> rfl
  | cons r rest =>
      have hr : r ∈ s.deliverable received := hdelivered ▸ List.mem_cons_self
      obtain ⟨ctx, hctx⟩ := exists_context hr
      simp [hctx, delivery, FFmpegDecoder.decode, FFmpegDecoder.convertAndDeliver]

end DecoderState

end LoongNvr.Codec

/-! ### Times

Does a decoded picture keep its time?  `Flush` passes on the time of the picture, `Decode` the time
of the packet it has just sent, which is the picture's own only if the decoder holds nothing back.
-/

namespace LoongNvr.Codec
open Support LoongNvr.Core

/-- Every frame has the time of the packet its picture was decoded from; so pictures of different
times give frames of different times. -/
structure TimesKept (deliveries : List Delivery) : Prop where
  pts_eq : ∀ d ∈ deliveries, d.frame.pts = d.picture.packet.pts
  pts_ne : ∀ d ∈ deliveries, ∀ e ∈ deliveries,
    d.picture.packet.pts ≠ e.picture.packet.pts → d.frame.pts ≠ e.frame.pts

theorem timesKept_iff_pts_eq {deliveries : List Delivery} :
    TimesKept deliveries ↔ ∀ d ∈ deliveries, d.frame.pts = d.picture.packet.pts := by
  refine ⟨TimesKept.pts_eq, fun h => ⟨h, ?_⟩⟩
  intro d hd e he hne
  rwa [h d hd, h e he]

/-- The pictures a `Decode` delivers have the time of the packet it was called with. -/
def DecoderState.Prompt (s : DecoderState) : DecoderCall → Prop
  | .decode packet sent received =>
      s.initialized = true → sent = true →
        ∀ r ∈ s.deliverable received, packet.pts = r.frame.packet.pts
  | _ => True

/-- A decoder that has not been set up. -/
def DecoderState.new : DecoderState where
  codecType := .unknown

variable {s : DecoderState} {call : DecoderCall}

theorem prompt_iff :
    s.Prompt call ↔
      ∀ r ∈ s.deliverable (call.received s), call.ptsOf r.frame = r.frame.packet.pts := by
  cases call with
  | decode packet sent received =>
      by_cases h : s.initialized <;> cases sent <;>
        simp [DecoderState.Prompt, DecoderCall.received, DecoderCall.ptsOf,
          DecoderState.deliverable, h]
  | flush received => simp [DecoderState.Prompt, DecoderCall.ptsOf, AVFrame.pts]
  | setUp codec opening => simp [DecoderState.Prompt, DecoderCall.ptsOf, AVFrame.pts]
  | setFrameCallback isSet => simp [DecoderState.Prompt, DecoderCall.ptsOf, AVFrame.pts]
  | shutdown => simp [DecoderState.Prompt, DecoderCall.ptsOf, AVFrame.pts]

/-- One call. -/
theorem step_pts_eq_iff :
    (∀ d ∈ (s.step call).2, d.frame.pts = d.picture.packet.pts) ↔ s.Prompt call := by
  rw [prompt_iff]
  constructor
  · intro h r hr
    obtain ⟨ctx, hctx⟩ := DecoderState.exists_context hr
    exact h _ (DecoderState.mem_step.mpr ⟨ctx, hctx, r, hr, rfl⟩)
  · intro h d hd
    obtain ⟨ctx, -, r, hr, rfl⟩ := DecoderState.mem_step.mp hd
    exact h r hr

/-- **The times of decoded pictures**: in a run of any calls, with any answers of libavcodec, they
are kept exactly when no `Decode` delivers a picture of another time than its packet's. -/
theorem timesKept_iff (calls : List DecoderCall) :
    TimesKept (emitted DecoderState.step .new calls) ↔
      EveryStep (silent DecoderState.step) DecoderState.Prompt .new calls := by
  rw [timesKept_iff_pts_eq]
  exact forall_emitted_iff fun s call => step_pts_eq_iff

/-- A picture of a packet shown at a time. -/
def AVFrame.square (side : ℕ) (pts : ℤ)
    (h : 0 < side ∧ (side : ℤ) * side * 3 < 2147483648 := by decide) : AVFrame where
  picture := { image := blackSquare side h.1, keyFrame := true }
  format := avPixFmtYuv420p
  packet := { data := [], pts := pts, dts := pts, isKeyframe := true }
  size_lt := h.2

/-- A decoder that holds one picture back: the picture of time 0 comes with the packet of time
40000. -/
theorem timesKept_refuted :
    ¬ TimesKept (emitted DecoderState.step .new
        [.setUp .h264 .opened, .setFrameCallback true,
          .decode (AVFrame.square 2 0).packet true [],
          .decode (AVFrame.square 2 40000).packet true [{ frame := .square 2 0 }]]) := by
  intro h
  have hpts := h.pts_eq
  revert hpts
  decide

end LoongNvr.Codec
