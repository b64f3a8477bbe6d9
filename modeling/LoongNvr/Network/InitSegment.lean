import LoongNvr.Network.WsMediaService
import LoongNvr.Support.Headed
import LoongNvr.Support.Runs

/-!
# Network — InitSegment

Whether the init segment a viewer has taken from its queue is the one its media segments were
muxed under.

* `initFirst_of_steps`: it is as long as no frame brings new parameter sets to a viewer that has
  an init segment, and a full queue is cut before an init segment, or where the viewer has taken
  the one in effect.
* `not_initFirst`: a viewer is not sent the init segment of new parameter sets.
-/

namespace LoongNvr.Network
open Support Fmp4Muxer LoongNvr.Core

namespace WsMediaService

/-- The init segment of a video with these parameter sets. -/
def initSegmentOf (codec : CodecType) (width height : UInt16) (params : ParameterSets) :
    List UInt8 :=
  match codec with
  | .h264 => makeH264InitSegment params.h264Sps params.h264Pps width height
  | .h265 => makeH265InitSegment params.h265Vps params.h265Sps params.h265Pps width height
  | .unknown => []

/-- A media segment is to be read under the init segment of its own parameter sets. -/
def initSegments (codec : CodecType) (width height : UInt16) :
    Headers PendingSegment (List UInt8) where
  carries segment :=
    match segment.origin with
    | .init bytes => some bytes
    | .media _ _ => none
  needs segment :=
    match segment.origin with
    | .init _ => none
    | .media _ params => some (initSegmentOf codec width height params)

/-- What was taken from the queue of the viewer `i`: every media segment comes after an init
segment, and the last one before it is of the parameter sets the media segment was muxed under. -/
def InitFirst (codec : CodecType) (width height : UInt16) (i : ℕ) (service : Service) : Prop :=
  ∀ v ∈ service.viewers[i]?, (initSegments codec width height).Current v.taken

/-- The frame brings parameter sets that the channel does not hold. -/
def ChannelStream.newParams (frame : Frame) (stream : ChannelStream) : Bool :=
  frame.isKeyframe &&
    match stream.codec with
    | .h264 => (extractH264Params frame.data).any fun params =>
        params.1 != stream.params.h264Sps || params.2 != stream.params.h264Pps
    | .h265 => (extractH265Params frame.data).any fun params =>
        params.1 != stream.params.h265Vps || params.2.1 != stream.params.h265Sps ||
          params.2.2 != stream.params.h265Pps
    | .unknown => false

/-- A full queue is cut before an init segment, or where the viewer has the init segment that is in
effect. -/
def MediaViewer.KeepsInit (H : Headers PendingSegment (List UInt8)) (viewer : MediaViewer) : Prop :=
  kMaxPendingSegments ≤ viewer.pendingSegments.length →
    H.Dispensable viewer.taken (popped (kMaxPendingSegments / 2) viewer.pendingSegments)
      (popToRoom (kMaxPendingSegments / 2) viewer.pendingSegments)

/-- A frame brings no new parameter sets to the viewer `i` once it has an init segment, and a
keyframe that makes a segment cuts its queue as `KeepsInit` demands. -/
def InitKept (codec : CodecType) (width height : UInt16) (i : ℕ) (service : Service) :
    Action → Prop
  | .pushFrame frame =>
      ∀ stream ∈ service.channel, ∀ v ∈ service.viewers[i]?, v.active = true →
        (v.gotInitSegment = true → stream.newParams frame = false) ∧
          (frame.isKeyframe = true → stream.Muxes frame →
            (v.started (stream.updateParams frame).initSegment).KeepsInit
              (initSegments codec width height))
  | _ => True

instance (H : Headers PendingSegment (List UInt8)) (viewer : MediaViewer) :
    Decidable (viewer.KeepsInit H) :=
  inferInstanceAs (Decidable (_ ≤ _ → _ = _ ∨ ∃ x ∈ List.head? _, _ ≠ _ ∧ _ = _))

instance (codec : CodecType) (width height : UInt16) (i : ℕ) (service : Service) :
    DecidablePred (InitKept codec width height i service)
  | .pushFrame frame => inferInstanceAs (Decidable (∀ stream ∈ service.channel,
      ∀ v ∈ service.viewers[i]?, v.active = true →
        (v.gotInitSegment = true → stream.newParams frame = false) ∧
          (frame.isKeyframe = true → stream.Muxes frame →
            (v.started (stream.updateParams frame).initSegment).KeepsInit
              (initSegments codec width height))))
  | .acceptViewer | .sendPending _ _ | .removeViewer _ | .unregisterChannel | .stop =>
      inferInstanceAs (Decidable True)

variable {codec : CodecType} {width height : UInt16}

/-! ### The channel -/

/-- The channel was registered for this video, and its init segment is of the parameter sets it
holds. -/
structure ChannelStream.Built (codec : CodecType) (width height : UInt16)
    (stream : ChannelStream) : Prop where
  codec_eq : stream.codec = codec
  width_eq : stream.width = width
  height_eq : stream.height = height
  initSegment_eq : stream.initSegment = initSegmentOf codec width height stream.params

theorem ChannelStream.Built.sameVideo {stream stream' : ChannelStream}
    (h : stream.Built codec width height) (hsame : stream.SameVideo stream') :
    stream'.Built codec width height :=
  ⟨hsame.codec.trans h.codec_eq, hsame.width.trans h.width_eq, hsame.height.trans h.height_eq, by
    rw [hsame.initSegment, hsame.params, h.initSegment_eq]⟩

theorem ChannelStream.Built.updateParams {stream : ChannelStream} (frame : Frame)
    (h : stream.Built codec width height) :
    (stream.updateParams frame).Built codec width height := by
  obtain ⟨rfl, rfl, rfl, hinit⟩ := h
  rw [ChannelStream.updateParams]
  split
  · split
    case h_1 hcodec =>
      split
      · split
        · exact ⟨rfl, rfl, rfl, by simp only [hcodec, initSegmentOf]⟩
        · exact ⟨rfl, rfl, rfl, hinit⟩
      · exact ⟨rfl, rfl, rfl, hinit⟩
    case h_2 hcodec =>
      split
      · split
        · exact ⟨rfl, rfl, rfl, by simp only [hcodec, initSegmentOf]⟩
        · exact ⟨rfl, rfl, rfl, hinit⟩
      · exact ⟨rfl, rfl, rfl, hinit⟩
    case h_3 => exact ⟨rfl, rfl, rfl, hinit⟩
  · exact ⟨rfl, rfl, rfl, hinit⟩

theorem updateParams_of_same {frame : Frame} {stream : ChannelStream}
    (h : stream.newParams frame = false) : stream.updateParams frame = stream := by
  rw [ChannelStream.updateParams]
  cases hkey : frame.isKeyframe with
  | false => rfl
  | true =>
      rw [if_pos rfl]
      cases hcodec : stream.codec with
      | h264 =>
          cases hparams : extractH264Params frame.data with
          | none => rfl
          | some params =>
              refine if_neg ?_
              simpa [ChannelStream.newParams, hkey, hcodec, hparams] using h
      | h265 =>
          cases hparams : extractH265Params frame.data with
          | none => rfl
          | some params =>
              refine if_neg ?_
              simpa [ChannelStream.newParams, hkey, hcodec, hparams, and_assoc] using h
      | unknown => rfl

theorem built_step {service : Service} {a : Action}
    (h : ∀ stream ∈ service.channel, stream.Built codec width height) :
    ∀ stream ∈ (step service a).channel, stream.Built codec width height := by
  intro stream' hstream'
  obtain ⟨stream, hstream, hsame | ⟨frame, -, hsame⟩⟩ := channel_step hstream'
  · exact (h stream hstream).sameVideo hsame
  · exact ((h stream hstream).updateParams frame).sameVideo hsame

/-- With no new parameter sets the channel keeps its init segment. -/
theorem initSegment_step {service : Service} {a : Action} {stream' : ChannelStream}
    (hsame : ∀ frame, a = .pushFrame frame → ∀ stream ∈ service.channel,
      stream.newParams frame = false)
    (hstream' : (step service a).channel = some stream') :
    ∃ stream, service.channel = some stream ∧ stream'.initSegment = stream.initSegment := by
  obtain ⟨stream, hstream, hvideo | ⟨frame, ha, hvideo⟩⟩ := channel_step hstream'
  · exact ⟨stream, hstream, hvideo.initSegment⟩
  · rw [updateParams_of_same (hsame frame ha stream hstream)] at hvideo
    exact ⟨stream, hstream, hvideo.initSegment⟩

/-! ### The viewer -/

/-- What the viewer has taken is in order, and what waits for it goes on with it; once it has an
init segment, the last one in the queue is the channel's. -/
structure MediaViewer.InOrder (H : Headers PendingSegment (List UInt8))
    (channel : Option ChannelStream) (v : MediaViewer) : Prop where
  read : H.Current v.taken
  queued : v.active = true → H.Current (v.taken ++ v.pendingSegments)
  latest : v.active = true → v.gotInitSegment = true → ∀ stream ∈ channel,
    H.latest (v.taken ++ v.pendingSegments) = some stream.initSegment

theorem inOrder_new (H : Headers PendingSegment (List UInt8)) (channel : Option ChannelStream) :
    MediaViewer.InOrder H channel {} :=
  ⟨Headers.current_nil, fun _ => Headers.current_nil, fun _ h => nomatch h⟩

/-- When its turn comes in the broadcast, the viewer's queue ends under the init segment that the
frame is muxed under. -/
structure MediaViewer.Ready (H : Headers PendingSegment (List UInt8)) (initSegment : List UInt8)
    (v : MediaViewer) : Prop where
  read : H.Current v.taken
  queued : H.Current (v.taken ++ v.pendingSegments)
  latest : H.latest (v.taken ++ v.pendingSegments) = some initSegment

theorem MediaViewer.Ready.inOrder {H : Headers PendingSegment (List UInt8)}
    {initSegment : List UInt8} {channel : Option ChannelStream} {v : MediaViewer}
    (h : v.Ready H initSegment) (hchannel : ∀ stream ∈ channel, stream.initSegment = initSegment) :
    v.InOrder H channel :=
  ⟨h.read, fun _ => h.queued, fun _ _ stream hstream => hchannel stream hstream ▸ h.latest⟩

theorem ready_started {stream : ChannelStream} {frame : Frame} {v : MediaViewer}
    (hactive : v.active = true) (hmuxed : stream.Muxes frame)
    (hsame : v.gotInitSegment = true → stream.newParams frame = false)
    (h : v.InOrder (initSegments codec width height) (some stream)) :
    (v.started (stream.updateParams frame).initSegment).Ready (initSegments codec width height)
      (stream.updateParams frame).initSegment := by
  have hinit : (stream.updateParams frame).initSegment ≠ [] := hmuxed.1
  rw [MediaViewer.started, MediaViewer.offerInit]
  cases hgot : v.gotInitSegment with
  | true =>
      simp only [Bool.not_true, Bool.false_and, Bool.false_eq_true, if_false]
      refine ⟨h.read, h.queued hactive, ?_⟩
      rw [updateParams_of_same (hsame hgot)]
      exact h.latest hactive hgot stream rfl
  | false =>
      simp only [Bool.not_false, Bool.true_and, hinit, ne_eq, not_false_eq_true, decide_true,
        if_true]
      refine ⟨h.read, ?_, ?_⟩
      · rw [← List.append_assoc, Headers.current_concat]
        exact ⟨h.queued hactive, nofun⟩
      · rw [← List.append_assoc]
        exact Headers.latest_concat_header rfl

/-- The cut of a full queue leaves it in order exactly when it is as `KeepsInit` demands. -/
theorem keepsInit_iff {v : MediaViewer} (hfull : kMaxPendingSegments ≤ v.pendingSegments.length)
    (hqueued : (initSegments codec width height).Current (v.taken ++ v.pendingSegments)) :
    v.KeepsInit (initSegments codec width height) ↔
      (initSegments codec width height).Current
        (v.taken ++ popToRoom (kMaxPendingSegments / 2) v.pendingSegments) := by
  rw [← popped_append (kMaxPendingSegments / 2) v.pendingSegments] at hqueued
  rw [MediaViewer.KeepsInit, imp_iff_right hfull]
  cases hkept : popToRoom (kMaxPendingSegments / 2) v.pendingSegments with
  | nil =>
      have hlen := congrArg List.length hkept
      rw [popToRoom_eq, List.length_drop, List.length_nil] at hlen
      have hhalf : kMaxPendingSegments / 2 = 150 := rfl
      have hmax : kMaxPendingSegments = 300 := rfl
      omega
  | cons segment queue =>
      rw [hkept] at hqueued
      refine Headers.dispensable_iff hqueued fun hneeds => ?_
      cases horigin : segment.origin with
      | init bytes => simp [initSegments, horigin]
      | media num params => simp [initSegments, horigin] at hneeds

theorem ready_put {stream : ChannelStream} {frame : Frame} {v : MediaViewer}
    {queue : List PendingSegment} {num : ℕ} {got : Bool}
    (hbuilt : (stream.updateParams frame).Built codec width height)
    (hroom : makeRoom kMaxPendingSegments frame.isKeyframe v.pendingSegments = some queue)
    (hkeeps : frame.isKeyframe = true → v.KeepsInit (initSegments codec width height))
    (h : v.Ready (initSegments codec width height) (stream.updateParams frame).initSegment) :
    MediaViewer.Ready (initSegments codec width height) (stream.updateParams frame).initSegment
      { v with
        gotInitSegment := got
        pendingSegments := queue ++ [wsFrameOf frame stream num] } := by
  have hqueue : (initSegments codec width height).Current (v.taken ++ queue) ∧
      (initSegments codec width height).latest (v.taken ++ queue) =
        some (stream.updateParams frame).initSegment := by
    rcases makeRoom_eq_some hroom with ⟨-, rfl⟩ | ⟨hfull, hkey, rfl⟩
    · exact ⟨h.queued, h.latest⟩
    · have hcut := (hkeeps hkey hfull).latest_eq
      rw [popped_append] at hcut
      exact ⟨(keepsInit_iff hfull h.queued).mp (hkeeps hkey), hcut.trans h.latest⟩
  refine ⟨h.read, ?_, ?_⟩
  · rw [← List.append_assoc, Headers.current_concat]
    refine ⟨hqueue.1, fun n hn => ?_⟩
    rw [hqueue.2, hbuilt.initSegment_eq]
    exact hn
  · rw [← List.append_assoc, Headers.latest_append_of_none (by simp [initSegments, wsFrameOf])]
    exact hqueue.2

theorem inOrder_drained {H : Headers PendingSegment (List UInt8)}
    {channel : Option ChannelStream} {v : MediaViewer} (accepted : ℕ) (active : Bool)
    (hactive : v.active = true) (h : v.InOrder H channel) :
    MediaViewer.InOrder H channel
      { v with
        taken := v.taken ++ v.pendingSegments.take accepted
        pendingSegments := v.pendingSegments.drop accepted
        active := active } := by
  have hall : v.taken ++ v.pendingSegments.take accepted ++ v.pendingSegments.drop accepted =
      v.taken ++ v.pendingSegments := by
    rw [List.append_assoc, List.take_append_drop]
  have hcurrent : H.Current (v.taken ++ v.pendingSegments) := h.queued hactive
  rw [← hall] at hcurrent
  refine ⟨hcurrent.left, fun _ => hcurrent, fun _ hgot stream hstream => ?_⟩
  rw [hall]
  exact h.latest hactive hgot stream hstream

/-- What holds of the channel and of the viewer `i` in every state of a run that keeps to
`InitKept`. -/
structure InitInv (codec : CodecType) (width height : UInt16) (i : ℕ) (service : Service) :
    Prop where
  built : ∀ stream ∈ service.channel, stream.Built codec width height
  viewer : ∀ v ∈ service.viewers[i]?, v.InOrder (initSegments codec width height) service.channel

theorem inOrder_viewerStep {i : ℕ} {service : Service} {a : Action} {v v' : MediaViewer}
    (h : InitInv codec width height i service) (hkept : InitKept codec width height i service a)
    (hv : service.viewers[i]? = some v) (hstep : ViewerStep service i a v v') :
    v'.InOrder (initSegments codec width height) (step service a).channel := by
  have hin := h.viewer v hv
  cases hstep with
  | kept taken pending gotInit active =>
      refine ⟨taken ▸ hin.read, fun ha => ?_, fun ha hgot stream' hstream' => ?_⟩
      · rw [taken, pending]
        exact hin.queued (active ha)
      · have hsame : ∀ frame, a = .pushFrame frame → ∀ stream ∈ service.channel,
            stream.newParams frame = false := by
          rintro frame rfl stream hstream
          exact (hkept stream hstream v hv (active ha)).1 (gotInit ▸ hgot)
        obtain ⟨stream, hstream, hinit⟩ := initSegment_step hsame hstream'
        rw [taken, pending, hinit]
        exact hin.latest (active ha) (gotInit ▸ hgot) stream hstream
  | @skipped frame stream _ running channel live muxed active =>
      obtain ⟨⟨next, hnext, hvideo⟩, -⟩ := pushFrame_some frame running channel live
      have hready := ready_started active muxed (hkept stream channel v hv active).1 (channel ▸ hin)
      refine hready.inOrder fun stream' hstream' => ?_
      obtain rfl : next = stream' := Option.some.inj (hnext.symm.trans hstream')
      exact hvideo.initSegment
  | @put frame stream _ v' queue running channel live muxed active began offered room =>
      subst offered
      obtain ⟨⟨next, hnext, hvideo⟩, -⟩ := pushFrame_some frame running channel live
      obtain ⟨hsame, hkeeps⟩ := hkept stream channel v hv active
      have hready := ready_started active muxed hsame (channel ▸ hin)
      refine (ready_put ((h.built stream channel).updateParams frame) room
        (fun hkey => hkeeps hkey muxed) hready).inOrder
        fun stream' hstream' => ?_
      obtain rfl : next = stream' := Option.some.inj (hnext.symm.trans hstream')
      exact hvideo.initSegment
  | drained active => exact inOrder_drained _ _ active hin

/-- One step that keeps to `InitKept`. -/
theorem initInv_step {i : ℕ} {service : Service} {a : Action}
    (h : InitInv codec width height i service) (hkept : InitKept codec width height i service a) :
    InitInv codec width height i (step service a) := by
  refine ⟨built_step h.built, fun v' hv' => ?_⟩
  rcases step_viewer hv' with ⟨v, hv, hstep⟩ | ⟨-, rfl⟩
  · exact inOrder_viewerStep h hkept hv hstep
  · exact inOrder_new _ _

theorem initInv_registerChannel (codec : CodecType) (width height : UInt16) (framerate : ℤ)
    (i : ℕ) : InitInv codec width height i (registerChannel codec width height framerate) := by
  refine ⟨fun stream hstream => ?_, fun v hv => ?_⟩
  · obtain rfl := Option.some.inj hstream
    refine ⟨rfl, rfl, rfl, ?_⟩
    cases codec <;> rfl
  · simp [registerChannel] at hv

/-- **Init segment first and current.**  In every run in which no frame brings new parameter sets
to a viewer that has an init segment, and a full queue is cut before an init segment or where the
viewer has taken the one in effect, every media segment taken from the queue comes after the init
segment of its own parameter sets. -/
theorem initFirst_of_steps (codec : CodecType) (width height : UInt16) (framerate : ℤ) (i : ℕ)
    (as : List Action)
    (h : EveryStep step (InitKept codec width height i)
      (registerChannel codec width height framerate) as) :
    Along step (InitFirst codec width height i) (registerChannel codec width height framerate)
      as := by
  have hinv : Along step (InitInv codec width height i)
      (registerChannel codec width height framerate) as :=
    along_of_everyStep (fun _ _ => initInv_step)
      (initInv_registerChannel codec width height framerate i) h
  exact hinv.mono fun service hs v hv => (hs.viewer v hv).read

/-- A keyframe with its parameter sets; `level` is a byte of the SPS. -/
def keyframe (level : UInt8) : Frame :=
  ⟨[0, 0, 0, 1, 0x67, 0x64, 0, level, 0xAC, 0, 0, 0, 1, 0x68, 0xEE, 0, 0, 0, 1, 0x65, 0x88], 0,
    true⟩

/-- A viewer that takes two keyframes of the same parameter sets. -/
def sameParams : List Action :=
  [.acceptViewer, .pushFrame (keyframe 31), .sendPending 0 2, .pushFrame (keyframe 31),
    .sendPending 0 1]

theorem initFirst_same_params :
    EveryStep step (InitKept .h264 640 360 0) (registerChannel .h264 640 360 25) sameParams ∧
      Along step (InitFirst .h264 640 360 0) (registerChannel .h264 640 360 25) sameParams := by
  have h : EveryStep step (InitKept .h264 640 360 0) (registerChannel .h264 640 360 25)
      sameParams := by
    decide +kernel
  exact ⟨h, initFirst_of_steps .h264 640 360 25 0 _ h⟩

/-- A viewer that takes two keyframes, the second with a new SPS. -/
def changedParams : List Action :=
  [.acceptViewer, .pushFrame (keyframe 31), .pushFrame (keyframe 40), .sendPending 0 3]

/-- It takes the second under the init segment of the first. -/
theorem not_initFirst :
    ¬ Along step (InitFirst .h264 640 360 0) (registerChannel .h264 640 360 25) changedParams := by
  intro h
  obtain ⟨v, hv, segment, hsegment, m, hm, hlatest⟩ :
      ∃ v ∈ (changedParams.foldl step (registerChannel .h264 640 360 25)).viewers[0]?,
        ∃ segment ∈ v.taken[2]?, ∃ m ∈ (initSegments .h264 640 360).needs segment,
          (initSegments .h264 640 360).latest (v.taken.take 2) ≠ some m := by
    decide +kernel
  exact hlatest ((h.last v hv).latest_take hsegment hm)

end WsMediaService

end LoongNvr.Network
