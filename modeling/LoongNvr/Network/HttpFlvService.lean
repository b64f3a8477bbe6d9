import LoongNvr.Network.FlvMuxer
import LoongNvr.Network.ViewerQueue
import LoongNvr.Support.Gop

/-!
# Network — HttpFlvService

One channel of `HttpFlvService` from its registration on: the frames pushed into it, and the
viewers that join, stream and leave.  A `PushFrame` call holds the channel's mutex, and each
viewer's while it is at that viewer, so every call is one step.

* `step_viewer`: all that a step can do to a viewer.
* `pushFrame_some`, `channel_step`: and to the channel.
-/

namespace LoongNvr.Network
open FlvMuxer

namespace HttpFlvService

def kMaxPendingTags : ℕ := 600

/-- What `PushFrame` is called with. -/
structure Frame where
  data : List UInt8
  pts : ℤ
  isKeyframe : Bool
  deriving DecidableEq, Repr

/-- A tag in a viewer's queue.  No step reads where it comes from: which of the channel's frames
it is, and the parameter sets in force when it was muxed. -/
structure VideoTag where
  bytes : List UInt8
  num : ℕ
  sps : List UInt8
  pps : List UInt8
  deriving DecidableEq, Repr

/-- What one `sink.write` is given. -/
inductive Chunk
  | flvHeader (bytes : List UInt8)
  | sequenceHeader (bytes : List UInt8)
  | video (tag : VideoTag)
  deriving DecidableEq, Repr

/-- The frame a chunk is of. -/
def Chunk.num : Chunk → Option ℕ
  | .video tag => some tag.num
  | _ => none

/-- A viewer, and what its sink has been given so far. -/
structure FlvViewer where
  pendingTags : List VideoTag := []
  active : Bool := true
  gotHeader : Bool := false
  gotKeyframe : Bool := false
  written : List Chunk := []
  deriving DecidableEq, Repr

structure ChannelStream where
  sps : List UInt8 := []
  pps : List UInt8 := []
  sequenceHeaderTag : List UInt8 := []
  basePts : ℤ := -1
  deriving DecidableEq, Repr

/-- The service as one channel sees it: the entry of `channels_`, all viewers ever made for it
(the source drops those that are not active from its list), and the keyframe flags of the frames
pushed so far. -/
structure Service where
  running : Bool := true
  channel : Option ChannelStream := some {}
  viewers : List FlvViewer := []
  pushed : List Bool := []
  deriving DecidableEq, Repr

/-- The service when the channel has just been registered. -/
def registerChannel : Service := {}

/-! ### Frames -/

def ChannelStream.setBasePts (pts : ℤ) (stream : ChannelStream) : ChannelStream :=
  if stream.basePts < 0 then { stream with basePts := pts } else stream

/-- Microseconds to milliseconds; never negative. -/
def ChannelStream.timestampMs (pts : ℤ) (stream : ChannelStream) : ℤ :=
  let timestampMs := (pts - stream.basePts).tdiv 1000
  if timestampMs < 0 then 0 else timestampMs

/-- New parameter sets of a keyframe, and the sequence header made of them. -/
def ChannelStream.updateParams (frame : Frame) (stream : ChannelStream) : ChannelStream :=
  if frame.isKeyframe then
    match extractSpsPps frame.data with
    | some (sps, pps) =>
        if sps ≠ stream.sps ∨ pps ≠ stream.pps then
          { stream with sps := sps, pps := pps, sequenceHeaderTag := makeSequenceHeaderTag sps pps }
        else stream
    | none => stream
  else stream

/-- What `PushFrame` does at one viewer. -/
def FlvViewer.offer (isKeyframe : Bool) (tag : VideoTag) (viewer : FlvViewer) : FlvViewer :=
  if !viewer.active then viewer
  else if !viewer.gotKeyframe && !isKeyframe then viewer
  else
    let viewer := { viewer with gotKeyframe := true }
    match makeRoom kMaxPendingTags isKeyframe viewer.pendingTags with
    | none => viewer
    | some queue => { viewer with pendingTags := queue ++ [tag] }

def pushFrame (frame : Frame) (service : Service) : Service :=
  match service.running, service.channel with
  | true, some stream =>
      let stream := stream.setBasePts frame.pts
      let timestampMs := stream.timestampMs frame.pts
      let stream := stream.updateParams frame
      let tag : VideoTag :=
        ⟨makeVideoTag frame.data timestampMs frame.isKeyframe, service.pushed.length, stream.sps,
          stream.pps⟩
      { service with
        channel := some stream
        pushed := service.pushed ++ [frame.isKeyframe]
        viewers :=
          if tag.bytes = [] then service.viewers
          else service.viewers.map (·.offer frame.isKeyframe tag) }
  | _, _ => service

/-! ### Viewers -/

def createViewer (service : Service) : Service :=
  match service.channel with
  | some _ => { service with viewers := service.viewers ++ [{}] }
  | none => service

/-- The first `StreamToViewer` call. -/
def FlvViewer.writeHeader (channel : Option ChannelStream) (viewer : FlvViewer) : FlvViewer :=
  let sequenceHeader := match channel with
    | some stream =>
        if stream.sequenceHeaderTag ≠ [] then [.sequenceHeader stream.sequenceHeaderTag] else []
    | none => []
  { viewer with
    written := viewer.written ++ (.flvHeader makeFlvHeader :: sequenceHeader), gotHeader := true }

/-- The later calls; the sink stops being writable after `writable` tags. -/
def FlvViewer.drain (writable : ℕ) (viewer : FlvViewer) : FlvViewer :=
  if !viewer.active then viewer
  else { viewer with
    written := viewer.written ++ (viewer.pendingTags.take writable).map .video
    pendingTags := viewer.pendingTags.drop writable }

def streamToViewer (i writable : ℕ) (service : Service) : Service :=
  if !service.running then service
  else { service with
    viewers := service.viewers.modify i fun viewer =>
      if !viewer.gotHeader then viewer.writeHeader service.channel else viewer.drain writable }

def FlvViewer.deactivate (viewer : FlvViewer) : FlvViewer := { viewer with active := false }

def removeViewer (i : ℕ) (service : Service) : Service :=
  { service with viewers := service.viewers.modify i (·.deactivate) }

def unregisterChannel (service : Service) : Service :=
  match service.channel with
  | some _ => { service with channel := none, viewers := service.viewers.map (·.deactivate) }
  | none => service

def stopAll (service : Service) : Service :=
  { service with running := false, viewers := service.viewers.map (·.deactivate) }

inductive Action
  | pushFrame (frame : Frame)
  | createViewer
  | streamToViewer (i writable : ℕ)
  | removeViewer (i : ℕ)
  | unregisterChannel
  | stopAll
  deriving DecidableEq, Repr

def step (service : Service) : Action → Service
  | .pushFrame frame => pushFrame frame service
  | .createViewer => createViewer service
  | .streamToViewer i writable => streamToViewer i writable service
  | .removeViewer i => removeViewer i service
  | .unregisterChannel => unregisterChannel service
  | .stopAll => stopAll service

/-! ### What a step does -/

/-- The tag `PushFrame` makes of a frame, from the channel as it then is. -/
def tagOf (frame : Frame) (stream : ChannelStream) (num : ℕ) : VideoTag :=
  let stream := stream.setBasePts frame.pts
  let params := stream.updateParams frame
  ⟨makeVideoTag frame.data (stream.timestampMs frame.pts) frame.isKeyframe, num, params.sps,
    params.pps⟩

/-- All that a step can do to the viewer `i`: from `v` to `v'`. -/
inductive ViewerStep (service : Service) (i : ℕ) : Action → FlvViewer → FlvViewer → Prop
  | kept {a : Action} {v v' : FlvViewer} (written : v'.written = v.written)
      (pending : v'.pendingTags = v.pendingTags) (header : v'.gotHeader = v.gotHeader)
      (active : v'.active = true → v.active = true) : ViewerStep service i a v v'
  | put {frame : Frame} {stream : ChannelStream} {v : FlvViewer} {queue : List VideoTag}
      (running : service.running = true) (channel : service.channel = some stream)
      (muxed : (tagOf frame stream service.pushed.length).bytes ≠ [])
      (active : v.active = true) (started : v.gotKeyframe = true ∨ frame.isKeyframe = true)
      (room : makeRoom kMaxPendingTags frame.isKeyframe v.pendingTags = some queue) :
      ViewerStep service i (.pushFrame frame) v
        { v with
          gotKeyframe := true
          pendingTags := queue ++ [tagOf frame stream service.pushed.length] }
  | header {writable : ℕ} {v : FlvViewer} (running : service.running = true)
      (first : v.gotHeader = false) :
      ViewerStep service i (.streamToViewer i writable) v (v.writeHeader service.channel)
  | drained {writable : ℕ} {v : FlvViewer} (later : v.gotHeader = true)
      (active : v.active = true) :
      ViewerStep service i (.streamToViewer i writable) v
        { v with
          written := v.written ++ (v.pendingTags.take writable).map .video
          pendingTags := v.pendingTags.drop writable }

theorem ViewerStep.refl {service : Service} {i : ℕ} {a : Action} (v : FlvViewer) :
    ViewerStep service i a v v := .kept rfl rfl rfl fun h => h

theorem ViewerStep.deactivate {service : Service} {i : ℕ} {a : Action} (v : FlvViewer) :
    ViewerStep service i a v v.deactivate := .kept rfl rfl rfl fun h => nomatch h

theorem viewerStep_offer {service : Service} {i : ℕ} {frame : Frame} {stream : ChannelStream}
    (hrunning : service.running = true) (hchannel : service.channel = some stream)
    (hmuxed : (tagOf frame stream service.pushed.length).bytes ≠ []) (v : FlvViewer) :
    ViewerStep service i (.pushFrame frame) v
      (v.offer frame.isKeyframe (tagOf frame stream service.pushed.length)) := by
  rw [FlvViewer.offer]
  by_cases hactive : v.active = true
  · rw [if_neg (by simp [hactive])]
    by_cases hwait : (!v.gotKeyframe && !frame.isKeyframe) = true
    · rw [if_pos hwait]
      exact .refl v
    · have hstarted : v.gotKeyframe = true ∨ frame.isKeyframe = true := by
        simpa [imp_iff_not_or] using hwait
      rw [if_neg hwait]
      dsimp only
      split
      case h_1 => exact .kept rfl rfl rfl fun h => h
      case h_2 queue hroom => exact .put hrunning hchannel hmuxed hactive hstarted hroom
  · rw [if_pos (by simpa using hactive)]
    exact .refl v

theorem viewerStep_stream {service : Service} {i : ℕ} (hrunning : service.running = true)
    (writable : ℕ) (v : FlvViewer) :
    ViewerStep service i (.streamToViewer i writable) v
      (if !v.gotHeader then v.writeHeader service.channel else v.drain writable) := by
  by_cases hheader : v.gotHeader = true
  · rw [if_neg (by simp [hheader]), FlvViewer.drain]
    by_cases hactive : v.active = true
    · rw [if_neg (by simp [hactive])]
      exact .drained hheader hactive
    · rw [if_pos (by simpa using hactive)]
      exact .refl v
  · rw [if_pos (by simpa using hheader)]
    exact .header hrunning (by simpa using hheader)

/-- **The viewers after a step.**  Each was there before and took a step, or has just joined. -/
theorem step_viewer {service : Service} {a : Action} {i : ℕ} {v' : FlvViewer}
    (h : (step service a).viewers[i]? = some v') :
    (∃ v, service.viewers[i]? = some v ∧ ViewerStep service i a v v') ∨
      service.viewers[i]? = none ∧ v' = {} := by
  have hsame : service.viewers[i]? = some v' →
      ∃ v, service.viewers[i]? = some v ∧ ViewerStep service i a v v' :=
    fun h => ⟨v', h, .refl v'⟩
  cases a with
  | pushFrame frame =>
      simp only [step, pushFrame] at h
      split at h
      case h_1 stream hrunning hchannel =>
        let tag := tagOf frame stream service.pushed.length
        change (if tag.bytes = [] then service.viewers
          else service.viewers.map (·.offer frame.isKeyframe tag))[i]? = some v' at h
        -- an empty tag is offered to nobody
        by_cases hmuxed : tag.bytes = []
        · rw [if_pos hmuxed] at h
          exact .inl (hsame h)
        · rw [if_neg hmuxed] at h
          exact .inl (getElem?_map_rel (viewerStep_offer hrunning hchannel hmuxed) h)
      case h_2 => exact .inl (hsame h)
  | createViewer =>
      simp only [step, createViewer] at h
      split at h
      · rcases getElem?_concat h with hold | hnew
        · exact .inl (hsame hold)
        · exact .inr hnew
      · exact .inl (hsame h)
  | streamToViewer j writable =>
      simp only [step, streamToViewer] at h
      split at h
      · exact .inl (hsame h)
      · refine .inl (getElem?_modify_rel .refl (fun e v => ?_) h)
        subst e
        exact viewerStep_stream (by simp_all) writable v
  | removeViewer j => exact .inl (getElem?_modify_rel .refl (fun _ => .deactivate) h)
  | unregisterChannel =>
      simp only [step, unregisterChannel] at h
      split at h
      · exact .inl (getElem?_map_rel .deactivate h)
      · exact .inl (hsame h)
  | stopAll => exact .inl (getElem?_map_rel .deactivate h)

/-- The channel and the frames pushed, after a frame. -/
theorem pushFrame_some {service : Service} {stream : ChannelStream} (frame : Frame)
    (hrunning : service.running = true) (hchannel : service.channel = some stream) :
    (pushFrame frame service).channel =
        some ((stream.setBasePts frame.pts).updateParams frame) ∧
      (pushFrame frame service).pushed = service.pushed ++ [frame.isKeyframe] := by
  simp only [pushFrame, hrunning, hchannel, and_self]

theorem pushFrame_idle {service : Service} (frame : Frame)
    (h : service.running = false ∨ service.channel = none) : pushFrame frame service = service := by
  rcases h with h | h <;> simp [pushFrame, h]

/-- Only frames change the channel while it is registered. -/
theorem channel_step {service : Service} {a : Action} {stream : ChannelStream}
    (h : (step service a).channel = some stream) :
    service.channel = some stream ∨ ∃ frame old, a = .pushFrame frame ∧ service.running = true ∧
      service.channel = some old ∧ stream = (old.setBasePts frame.pts).updateParams frame := by
  cases a with
  | pushFrame frame =>
      cases hrunning : service.running with
      | false => exact .inl (by rwa [step, pushFrame_idle frame (.inl hrunning)] at h)
      | true =>
          cases hchannel : service.channel with
          | none => exact .inl (by rwa [step, pushFrame_idle frame (.inr hchannel), hchannel] at h)
          | some old =>
              rw [step, (pushFrame_some frame hrunning hchannel).1] at h
              exact .inr ⟨frame, old, rfl, rfl, rfl, (Option.some.inj h).symm⟩
  | createViewer =>
      simp only [step, createViewer] at h
      split at h <;> exact .inl h
  | streamToViewer i writable =>
      simp only [step, streamToViewer] at h
      split at h <;> exact .inl h
  | removeViewer i => exact .inl h
  | unregisterChannel =>
      simp only [step, unregisterChannel] at h
      split at h
      · cases h
      · exact .inl h
  | stopAll => exact .inl h

/-- The frames pushed so far grow by the frame of the step, if any. -/
theorem pushed_step (service : Service) (a : Action) :
    (step service a).pushed = service.pushed ∨
      ∃ key, (step service a).pushed = service.pushed ++ [key] := by
  cases a with
  | pushFrame frame =>
      simp only [step, pushFrame]
      split
      · exact .inr ⟨_, rfl⟩
      · exact .inl rfl
  | createViewer =>
      simp only [step, createViewer]
      split <;> exact .inl rfl
  | streamToViewer i writable =>
      simp only [step, streamToViewer]
      split <;> exact .inl rfl
  | removeViewer i => exact .inl rfl
  | unregisterChannel =>
      simp only [step, unregisterChannel]
      split <;> exact .inl rfl
  | stopAll => exact .inl rfl

end HttpFlvService

end LoongNvr.Network
