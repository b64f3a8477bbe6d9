import LoongNvr.Network.Fmp4Muxer
import LoongNvr.Network.ViewerQueue
import LoongNvr.Support.Gop

/-!
# Network — WsMediaService

One channel of `WsMediaService` from its registration on: the frames pushed into it, and the
viewers that join, take what waits for them and leave.  A `PushFrame` call holds the channel's
mutex, and each viewer's while it is at that viewer, so every call is one step.

* `step_viewer`: all that a step can do to a viewer.
* `pushFrame_some`, `channel_step`: and to the channel.
-/

namespace LoongNvr.Network
open Support Fmp4Muxer LoongNvr.Core

namespace WsMediaService

def kMaxPendingSegments : ℕ := 300

/-- What `PushFrame` is called with. -/
structure Frame where
  data : List UInt8
  pts : ℤ
  isKeyframe : Bool
  deriving DecidableEq, Repr

/-- The parameter sets a channel holds. -/
structure ParameterSets where
  h264Sps : List UInt8 := []
  h264Pps : List UInt8 := []
  h265Vps : List UInt8 := []
  h265Sps : List UInt8 := []
  h265Pps : List UInt8 := []
  deriving DecidableEq, Repr

/-- The segment in a WebSocket frame: an init segment, or the media segment of one of the
channel's frames, muxed when these parameter sets were in force. -/
inductive Origin
  | init (segment : List UInt8)
  | media (num : ℕ) (params : ParameterSets)
  deriving DecidableEq, Repr

/-- A WebSocket frame in a viewer's queue.  No step reads where it comes from. -/
structure PendingSegment where
  bytes : List UInt8
  origin : Origin
  deriving DecidableEq, Repr

/-- The frame a segment is of. -/
def PendingSegment.num (segment : PendingSegment) : Option ℕ :=
  match segment.origin with
  | .init _ => none
  | .media num _ => some num

/-- A viewer, and what has been taken from its queue so far. -/
structure MediaViewer where
  pendingSegments : List PendingSegment := []
  active : Bool := true
  gotInitSegment : Bool := false
  gotKeyframe : Bool := false
  taken : List PendingSegment := []
  deriving DecidableEq, Repr

structure ChannelStream where
  codec : CodecType
  width : UInt16
  height : UInt16
  params : ParameterSets := {}
  initSegment : List UInt8 := []
  basePts : ℤ := -1
  framerate : UInt32
  sequenceNumber : UInt32 := 1
  active : Bool := true
  deriving DecidableEq, Repr

/-- The service as one channel sees it: the entry of `channels_`, all viewers that ever joined it
(the source drops those that are not active from its list), and the keyframe flags of the frames
pushed so far. -/
structure Service where
  running : Bool := true
  channel : Option ChannelStream
  viewers : List MediaViewer := []
  pushed : List Bool := []
  deriving DecidableEq, Repr

/-- The running service when the channel has just been registered. -/
def registerChannel (codec : CodecType) (width height : UInt16) (framerate : ℤ) : Service :=
  { channel := some
      { codec := codec, width := width, height := height
        framerate := if framerate > 0 then UInt32.ofNat framerate.toNat else 30 } }

/-! ### Frames -/

/-- FIN and the binary opcode, the length in 7, 16 or 64 bits, and no mask. -/
def buildWsBinaryFrame (data : List UInt8) : List UInt8 :=
  let size := data.length
  let length :=
    if size < 126 then [UInt8.ofNat size]
    else if size ≤ 0xFFFF then 126 :: writeU16 (UInt16.ofNat size)
    else 127 :: writeU64 (UInt64.ofNat size)
  0x82 :: (length ++ data)

/-- New parameter sets of a keyframe, and the init segment made of them. -/
def ChannelStream.updateParams (frame : Frame) (stream : ChannelStream) : ChannelStream :=
  if frame.isKeyframe then
    match stream.codec with
    | .h264 =>
        match extractH264Params frame.data with
        | some (sps, pps) =>
            if sps ≠ stream.params.h264Sps ∨ pps ≠ stream.params.h264Pps then
              { stream with
                params := { stream.params with h264Sps := sps, h264Pps := pps }
                initSegment := makeH264InitSegment sps pps stream.width stream.height }
            else stream
        | none => stream
    | .h265 =>
        match extractH265Params frame.data with
        | some (vps, sps, pps) =>
            if vps ≠ stream.params.h265Vps ∨ sps ≠ stream.params.h265Sps ∨
                pps ≠ stream.params.h265Pps then
              { stream with
                params := { stream.params with h265Vps := vps, h265Sps := sps, h265Pps := pps }
                initSegment := makeH265InitSegment vps sps pps stream.width stream.height }
            else stream
        | none => stream
    | .unknown => stream
  else stream

def ChannelStream.setBasePts (pts : ℤ) (stream : ChannelStream) : ChannelStream :=
  if stream.basePts < 0 then { stream with basePts := pts } else stream

/-- Microseconds to 90 kHz ticks; never negative. -/
def ChannelStream.decodeTime (pts : ℤ) (stream : ChannelStream) : UInt64 :=
  let relativeUs := pts - stream.basePts
  let relativeUs := if relativeUs < 0 then 0 else relativeUs
  UInt64.ofNat (relativeUs * kTimescale.toNat / 1000000).toNat

def ChannelStream.mux (frame : Frame) (stream : ChannelStream) : List UInt8 :=
  makeMediaSegment frame.data (stream.decodeTime frame.pts) (kTimescale / stream.framerate)
    stream.sequenceNumber frame.isKeyframe stream.codec

/-- The init segment, to a viewer who has not received it. -/
def MediaViewer.offerInit (initSegment : List UInt8) (viewer : MediaViewer) : MediaViewer :=
  if !viewer.gotInitSegment && initSegment ≠ [] then
    { viewer with
      pendingSegments :=
        viewer.pendingSegments ++ [⟨buildWsBinaryFrame initSegment, .init initSegment⟩]
      gotInitSegment := true }
  else viewer

/-- What `PushFrame` does at one viewer. -/
def MediaViewer.offer (initSegment : List UInt8) (isKeyframe : Bool) (segment : PendingSegment)
    (viewer : MediaViewer) : MediaViewer :=
  if !viewer.active then viewer
  else if !viewer.gotKeyframe && !isKeyframe then viewer
  else
    let viewer := { viewer with gotKeyframe := true }
    let viewer := viewer.offerInit initSegment
    match makeRoom kMaxPendingSegments isKeyframe viewer.pendingSegments with
    | none => viewer
    | some queue =>
        { viewer with
          -- the init segment is to be sent again after segments have been dropped
          gotInitSegment :=
            viewer.gotInitSegment && viewer.pendingSegments.length < kMaxPendingSegments
          pendingSegments := queue ++ [segment] }

def pushFrame (frame : Frame) (service : Service) : Service :=
  match service.running, service.channel with
  | true, some stream =>
      if !stream.active then service
      else
        let num := service.pushed.length
        let service := { service with pushed := service.pushed ++ [frame.isKeyframe] }
        let stream := stream.updateParams frame
        if stream.initSegment = [] then { service with channel := some stream }
        else
          let stream := stream.setBasePts frame.pts
          let segment := stream.mux frame
          let stream := { stream with sequenceNumber := stream.sequenceNumber + 1 }
          let service := { service with channel := some stream }
          if segment = [] then service
          else
            let wsFrame : PendingSegment :=
              ⟨buildWsBinaryFrame segment, .media num stream.params⟩
            { service with
              viewers :=
                service.viewers.map (·.offer stream.initSegment frame.isKeyframe wsFrame) }
  | _, _ => service

/-! ### Viewers -/

/-- A client whose handshake `AcceptLoop` has taken. -/
def acceptViewer (service : Service) : Service :=
  match service.channel with
  | some _ => { service with viewers := service.viewers ++ [{}] }
  | none => service

/-- One round of `HandleClient`: the socket takes the first `accepted` segments, and if there are
more, the next `send` fails. -/
def MediaViewer.sendPending (accepted : ℕ) (viewer : MediaViewer) : MediaViewer :=
  if !viewer.active then viewer
  else { viewer with
    taken := viewer.taken ++ viewer.pendingSegments.take accepted
    pendingSegments := viewer.pendingSegments.drop accepted
    active := viewer.pendingSegments.length ≤ accepted }

def sendPending (i accepted : ℕ) (service : Service) : Service :=
  { service with viewers := service.viewers.modify i (·.sendPending accepted) }

def MediaViewer.deactivate (viewer : MediaViewer) : MediaViewer := { viewer with active := false }

/-- The client closes, or its socket fails. -/
def removeViewer (i : ℕ) (service : Service) : Service :=
  { service with viewers := service.viewers.modify i (·.deactivate) }

def unregisterChannel (service : Service) : Service :=
  match service.channel with
  | some _ => { service with channel := none, viewers := service.viewers.map (·.deactivate) }
  | none => service

def stop (service : Service) : Service :=
  if !service.running then service
  else { service with
    running := false
    channel := service.channel.map ({ · with active := false })
    viewers := service.viewers.map (·.deactivate) }

inductive Action
  | pushFrame (frame : Frame)
  | acceptViewer
  | sendPending (i accepted : ℕ)
  | removeViewer (i : ℕ)
  | unregisterChannel
  | stop
  deriving DecidableEq, Repr

def step (service : Service) : Action → Service
  | .pushFrame frame => pushFrame frame service
  | .acceptViewer => acceptViewer service
  | .sendPending i accepted => sendPending i accepted service
  | .removeViewer i => removeViewer i service
  | .unregisterChannel => unregisterChannel service
  | .stop => stop service

/-! ### What a step does -/

/-- The viewer when its turn comes in the broadcast: it has been offered the init segment. -/
def MediaViewer.started (initSegment : List UInt8) (viewer : MediaViewer) : MediaViewer :=
  { viewer with gotKeyframe := true }.offerInit initSegment

/-- The channel when it muxes a frame. -/
def ChannelStream.prepared (frame : Frame) (stream : ChannelStream) : ChannelStream :=
  (stream.updateParams frame).setBasePts frame.pts

/-- A frame makes a media segment: there is an init segment, and more than parameter sets in the
frame. -/
def ChannelStream.Muxes (frame : Frame) (stream : ChannelStream) : Prop :=
  (stream.updateParams frame).initSegment ≠ [] ∧ (stream.prepared frame).mux frame ≠ []

instance (frame : Frame) (stream : ChannelStream) : Decidable (stream.Muxes frame) :=
  inferInstanceAs (Decidable (_ ≠ [] ∧ _ ≠ []))

/-- The WebSocket frame `PushFrame` makes of a frame. -/
def wsFrameOf (frame : Frame) (stream : ChannelStream) (num : ℕ) : PendingSegment :=
  ⟨buildWsBinaryFrame ((stream.prepared frame).mux frame),
    .media num (stream.updateParams frame).params⟩

@[simp] theorem setBasePts_initSegment (pts : ℤ) (stream : ChannelStream) :
    (stream.setBasePts pts).initSegment = stream.initSegment := by
  rw [ChannelStream.setBasePts]; split <;> rfl

@[simp] theorem setBasePts_params (pts : ℤ) (stream : ChannelStream) :
    (stream.setBasePts pts).params = stream.params := by
  rw [ChannelStream.setBasePts]; split <;> rfl

/-- All that a step can do to the viewer `i`: from `v` to `v'`. -/
inductive ViewerStep (service : Service) (i : ℕ) : Action → MediaViewer → MediaViewer → Prop
  | kept {a : Action} {v v' : MediaViewer} (taken : v'.taken = v.taken)
      (pending : v'.pendingSegments = v.pendingSegments)
      (gotInit : v'.gotInitSegment = v.gotInitSegment)
      (active : v'.active = true → v.active = true) : ViewerStep service i a v v'
  | skipped {frame : Frame} {stream : ChannelStream} {v : MediaViewer}
      (running : service.running = true) (channel : service.channel = some stream)
      (live : stream.active = true) (muxed : stream.Muxes frame) (active : v.active = true) :
      ViewerStep service i (.pushFrame frame) v
        (v.started (stream.updateParams frame).initSegment)
  | put {frame : Frame} {stream : ChannelStream} {v v' : MediaViewer}
      {queue : List PendingSegment} (running : service.running = true)
      (channel : service.channel = some stream) (live : stream.active = true)
      (muxed : stream.Muxes frame) (active : v.active = true)
      (began : v.gotKeyframe = true ∨ frame.isKeyframe = true)
      (offered : v' = v.started (stream.updateParams frame).initSegment)
      (room : makeRoom kMaxPendingSegments frame.isKeyframe v'.pendingSegments = some queue) :
      ViewerStep service i (.pushFrame frame) v
        { v' with
          gotInitSegment := v'.gotInitSegment && v'.pendingSegments.length < kMaxPendingSegments
          pendingSegments := queue ++ [wsFrameOf frame stream service.pushed.length] }
  | drained {accepted : ℕ} {v : MediaViewer} (active : v.active = true) :
      ViewerStep service i (.sendPending i accepted) v
        { v with
          taken := v.taken ++ v.pendingSegments.take accepted
          pendingSegments := v.pendingSegments.drop accepted
          active := v.pendingSegments.length ≤ accepted }

theorem ViewerStep.refl {service : Service} {i : ℕ} {a : Action} (v : MediaViewer) :
    ViewerStep service i a v v := .kept rfl rfl rfl fun h => h

theorem ViewerStep.deactivate {service : Service} {i : ℕ} {a : Action} (v : MediaViewer) :
    ViewerStep service i a v v.deactivate := .kept rfl rfl rfl fun h => nomatch h

theorem viewerStep_offer {service : Service} {i : ℕ} {frame : Frame} {stream : ChannelStream}
    (hrunning : service.running = true) (hchannel : service.channel = some stream)
    (hlive : stream.active = true) (hmuxed : stream.Muxes frame) (v : MediaViewer) :
    ViewerStep service i (.pushFrame frame) v
      (v.offer (stream.updateParams frame).initSegment frame.isKeyframe
        (wsFrameOf frame stream service.pushed.length)) := by
  rw [MediaViewer.offer]
  by_cases hactive : v.active = true
  · rw [if_neg (by simp [hactive])]
    by_cases hwait : (!v.gotKeyframe && !frame.isKeyframe) = true
    · rw [if_pos hwait]
      exact .refl v
    · have hbegan : v.gotKeyframe = true ∨ frame.isKeyframe = true := by
        simpa [imp_iff_not_or] using hwait
      rw [if_neg hwait]
      dsimp only
      split
      case h_1 => exact .skipped hrunning hchannel hlive hmuxed hactive
      case h_2 queue hroom =>
        exact .put hrunning hchannel hlive hmuxed hactive hbegan rfl hroom
  · rw [if_pos (by simpa using hactive)]
    exact .refl v

theorem viewerStep_send {service : Service} {i : ℕ} (accepted : ℕ) (v : MediaViewer) :
    ViewerStep service i (.sendPending i accepted) v (v.sendPending accepted) := by
  rw [MediaViewer.sendPending]
  by_cases hactive : v.active = true
  · rw [if_neg (by simp [hactive])]
    exact .drained hactive
  · rw [if_pos (by simpa using hactive)]
    exact .refl v

/-- The viewers after a frame. -/
theorem pushFrame_viewers (service : Service) (frame : Frame) :
    (pushFrame frame service).viewers = service.viewers ∨
      ∃ stream, service.running = true ∧ service.channel = some stream ∧ stream.active = true ∧
        stream.Muxes frame ∧
        (pushFrame frame service).viewers =
          service.viewers.map (·.offer (stream.updateParams frame).initSegment frame.isKeyframe
            (wsFrameOf frame stream service.pushed.length)) := by
  simp only [pushFrame]
  split
  case h_1 stream hrunning hchannel =>
    by_cases hlive : stream.active = true
    · rw [if_neg (by simp [hlive])]
      by_cases hinit : (stream.updateParams frame).initSegment = []
      · rw [if_pos hinit]
        exact .inl rfl
      · rw [if_neg hinit]
        by_cases hsegment :
            ((stream.updateParams frame).setBasePts frame.pts).mux frame = []
        · exact .inl (by rw [if_pos hsegment])
        · refine .inr ⟨stream, hrunning, hchannel, hlive, ⟨hinit, hsegment⟩, ?_⟩
          rw [if_neg hsegment]
          simp only [setBasePts_initSegment, setBasePts_params, wsFrameOf, ChannelStream.prepared]
    · rw [if_pos (by simpa using hlive)]
      exact .inl rfl
  case h_2 => exact .inl rfl

/-- **The viewers after a step.**  Each was there before and took a step, or has just joined. -/
theorem step_viewer {service : Service} {a : Action} {i : ℕ} {v' : MediaViewer}
    (h : (step service a).viewers[i]? = some v') :
    (∃ v, service.viewers[i]? = some v ∧ ViewerStep service i a v v') ∨
      service.viewers[i]? = none ∧ v' = {} := by
  have hsame : service.viewers[i]? = some v' →
      ∃ v, service.viewers[i]? = some v ∧ ViewerStep service i a v v' :=
    fun h => ⟨v', h, .refl v'⟩
  cases a with
  | pushFrame frame =>
      rcases pushFrame_viewers service frame with
        hkept | ⟨stream, hrunning, hchannel, hlive, hmuxed, hoffered⟩
      · exact .inl (hsame (hkept ▸ h))
      · refine .inl (getElem?_map_rel (viewerStep_offer hrunning hchannel hlive hmuxed) ?_)
        rw [← hoffered]
        exact h
  | acceptViewer =>
      simp only [step, acceptViewer] at h
      split at h
      · rcases getElem?_concat h with hold | hnew
        · exact .inl (hsame hold)
        · exact .inr hnew
      · exact .inl (hsame h)
  | sendPending j accepted =>
      refine .inl (getElem?_modify_rel .refl (fun e v => ?_) h)
      subst e
      exact viewerStep_send accepted v
  | removeViewer j => exact .inl (getElem?_modify_rel .refl (fun _ => .deactivate) h)
  | unregisterChannel =>
      simp only [step, unregisterChannel] at h
      split at h
      · exact .inl (getElem?_map_rel .deactivate h)
      · exact .inl (hsame h)
  | stop =>
      simp only [step, stop] at h
      split at h
      · exact .inl (hsame h)
      · exact .inl (getElem?_map_rel .deactivate h)

/-- What the two hold of the video is the same. -/
structure ChannelStream.SameVideo (stream stream' : ChannelStream) : Prop where
  codec : stream'.codec = stream.codec
  width : stream'.width = stream.width
  height : stream'.height = stream.height
  params : stream'.params = stream.params
  initSegment : stream'.initSegment = stream.initSegment

theorem sameVideo_refl (stream : ChannelStream) : stream.SameVideo stream :=
  ⟨rfl, rfl, rfl, rfl, rfl⟩

theorem sameVideo_setBasePts (pts : ℤ) (stream : ChannelStream) :
    stream.SameVideo (stream.setBasePts pts) := by
  rw [ChannelStream.setBasePts]
  split <;> exact ⟨rfl, rfl, rfl, rfl, rfl⟩

/-- The channel and the frames pushed, after a frame. -/
theorem pushFrame_some {service : Service} {stream : ChannelStream} (frame : Frame)
    (hrunning : service.running = true) (hchannel : service.channel = some stream)
    (hlive : stream.active = true) :
    (∃ stream', (pushFrame frame service).channel = some stream' ∧
      (stream.updateParams frame).SameVideo stream') ∧
      (pushFrame frame service).pushed = service.pushed ++ [frame.isKeyframe] := by
  obtain ⟨hcodec, hwidth, hheight, hparams, hinit⟩ :=
    sameVideo_setBasePts frame.pts (stream.updateParams frame)
  simp only [pushFrame, hrunning, hchannel, hlive, Bool.not_true, Bool.false_eq_true, if_false]
  split
  · exact ⟨⟨_, rfl, sameVideo_refl _⟩, rfl⟩
  · split <;> exact ⟨⟨_, rfl, ⟨hcodec, hwidth, hheight, hparams, hinit⟩⟩, rfl⟩

theorem pushFrame_idle {service : Service} (frame : Frame)
    (h : ∀ stream, service.running = true → service.channel = some stream →
      stream.active = false) : pushFrame frame service = service := by
  simp only [pushFrame]
  split
  case h_1 stream hrunning hchannel => simp [h stream hrunning hchannel]
  case h_2 => rfl

/-- Only frames change what the channel holds of the video. -/
theorem channel_step {service : Service} {a : Action} {stream' : ChannelStream}
    (h : (step service a).channel = some stream') :
    ∃ stream, service.channel = some stream ∧ (stream.SameVideo stream' ∨
      ∃ frame, a = .pushFrame frame ∧ (stream.updateParams frame).SameVideo stream') := by
  have hsame : service.channel = some stream' → ∃ stream, service.channel = some stream ∧
      (stream.SameVideo stream' ∨
        ∃ frame, a = .pushFrame frame ∧ (stream.updateParams frame).SameVideo stream') :=
    fun h => ⟨stream', h, .inl (sameVideo_refl stream')⟩
  cases a with
  | pushFrame frame =>
      by_cases hlive : ∃ stream, service.running = true ∧ service.channel = some stream ∧
          stream.active = true
      · obtain ⟨stream, hrunning, hchannel, hactive⟩ := hlive
        obtain ⟨⟨next, hnext, hvideo⟩, -⟩ := pushFrame_some frame hrunning hchannel hactive
        obtain rfl : next = stream' := Option.some.inj (hnext.symm.trans h)
        exact ⟨stream, hchannel, .inr ⟨frame, rfl, hvideo⟩⟩
      · refine hsame ?_
        rwa [step, pushFrame_idle frame fun stream hrunning hchannel =>
          Bool.eq_false_iff.mpr fun hactive => hlive ⟨stream, hrunning, hchannel, hactive⟩] at h
  | acceptViewer =>
      simp only [step, acceptViewer] at h
      split at h <;> exact hsame h
  | sendPending i accepted => exact hsame h
  | removeViewer i => exact hsame h
  | unregisterChannel =>
      simp only [step, unregisterChannel] at h
      split at h
      · cases h
      · exact hsame h
  | stop =>
      simp only [step, stop] at h
      split at h
      · exact hsame h
      · obtain ⟨stream, hchannel, rfl⟩ := Option.map_eq_some_iff.mp h
        exact ⟨stream, hchannel, .inl ⟨rfl, rfl, rfl, rfl, rfl⟩⟩

/-- The frames pushed so far grow by the frame of the step, if any. -/
theorem pushed_step (service : Service) (a : Action) :
    (step service a).pushed = service.pushed ∨
      ∃ key, (step service a).pushed = service.pushed ++ [key] := by
  cases a with
  | pushFrame frame =>
      by_cases hlive : ∃ stream, service.running = true ∧ service.channel = some stream ∧
          stream.active = true
      · obtain ⟨stream, hrunning, hchannel, hactive⟩ := hlive
        exact .inr ⟨_, (pushFrame_some frame hrunning hchannel hactive).2⟩
      · refine .inl ?_
        rw [step, pushFrame_idle frame fun stream hrunning hchannel =>
          Bool.eq_false_iff.mpr fun hactive => hlive ⟨stream, hrunning, hchannel, hactive⟩]
  | acceptViewer =>
      simp only [step, acceptViewer]
      split <;> exact .inl rfl
  | sendPending i accepted => exact .inl rfl
  | removeViewer i => exact .inl rfl
  | unregisterChannel =>
      simp only [step, unregisterChannel]
      split <;> exact .inl rfl
  | stop =>
      simp only [step, stop]
      split <;> exact .inl rfl

end WsMediaService

end LoongNvr.Network
