import LoongNvr.Network.HttpFlvService
import LoongNvr.Support.Headed
import LoongNvr.Support.Runs

/-!
# Network — SequenceHeader

Whether the sequence header a player has read is the one its video tags were muxed under.

`StreamToViewer` writes the sequence header once, in its first call for a viewer, if the channel
has one by then.

* `headerFirst_of_steps`: each tag is read under its own sequence header as long as that call
  finds a sequence header, and the one of the tags that wait, and no later frame changes the
  parameter sets.
* `not_headerFirst`: a viewer that joins before the first keyframe never gets a sequence header.
-/

namespace LoongNvr.Network
open Support FlvMuxer

namespace HttpFlvService

/-- A video tag is to be read under the sequence header of its own parameter sets. -/
def sequenceHeaders : Headers Chunk (List UInt8) where
  carries
    | .sequenceHeader bytes => some bytes
    | _ => none
  needs
    | .video tag => some (makeSequenceHeaderTag tag.sps tag.pps)
    | _ => none

/-- What the sink of the viewer `i` has been given: every video tag comes after a sequence header,
and the last one before it is of the parameter sets the tag was muxed under. -/
def HeaderFirst (i : ℕ) (service : Service) : Prop :=
  ∀ v ∈ service.viewers[i]?, sequenceHeaders.Current v.written

/-- The frame brings parameter sets that the channel does not hold. -/
def ChannelStream.newParams (frame : Frame) (stream : ChannelStream) : Bool :=
  frame.isKeyframe &&
    (extractSpsPps frame.data).any fun params => params.1 != stream.sps || params.2 != stream.pps

/-- The first call for the viewer `i` finds a sequence header, and the one of the tags that wait;
after it no frame brings new parameter sets. -/
def HeaderKept (i : ℕ) (service : Service) : Action → Prop
  | .streamToViewer j _ =>
      j = i → service.running = true → ∀ v ∈ service.viewers[i]?, v.active = true →
        v.gotHeader = false → ∃ stream ∈ service.channel, stream.sequenceHeaderTag ≠ [] ∧
          ∀ tag ∈ v.pendingTags, tag.sps = stream.sps ∧ tag.pps = stream.pps
  | .pushFrame frame =>
      ∀ v ∈ service.viewers[i]?, v.active = true → v.gotHeader = true →
        ∀ stream ∈ service.channel, stream.newParams frame = false
  | _ => True

instance (i : ℕ) (service : Service) : DecidablePred (HeaderKept i service)
  | .streamToViewer j _ => inferInstanceAs (Decidable (j = i → service.running = true →
      ∀ v ∈ service.viewers[i]?, v.active = true → v.gotHeader = false →
        ∃ stream ∈ service.channel, stream.sequenceHeaderTag ≠ [] ∧
          ∀ tag ∈ v.pendingTags, tag.sps = stream.sps ∧ tag.pps = stream.pps))
  | .pushFrame frame => inferInstanceAs (Decidable (∀ v ∈ service.viewers[i]?, v.active = true →
      v.gotHeader = true → ∀ stream ∈ service.channel, stream.newParams frame = false))
  | .createViewer | .removeViewer _ | .unregisterChannel | .stopAll =>
      inferInstanceAs (Decidable True)

/-! ### The channel -/

/-- The sequence header is of the parameter sets the channel holds. -/
def ChannelStream.Built (stream : ChannelStream) : Prop :=
  stream.sequenceHeaderTag = makeSequenceHeaderTag stream.sps stream.pps

theorem setBasePts_params (pts : ℤ) (stream : ChannelStream) :
    (stream.setBasePts pts).sps = stream.sps ∧ (stream.setBasePts pts).pps = stream.pps ∧
      (stream.setBasePts pts).sequenceHeaderTag = stream.sequenceHeaderTag := by
  rw [ChannelStream.setBasePts]
  split <;> exact ⟨rfl, rfl, rfl⟩

theorem built_setBasePts {pts : ℤ} {stream : ChannelStream} (h : stream.Built) :
    (stream.setBasePts pts).Built := by
  obtain ⟨hsps, hpps, htag⟩ := setBasePts_params pts stream
  rw [ChannelStream.Built, htag, hsps, hpps]
  exact h

theorem built_updateParams {frame : Frame} {stream : ChannelStream} (h : stream.Built) :
    (stream.updateParams frame).Built := by
  rw [ChannelStream.updateParams]
  split
  · split
    · split
      · rfl
      · exact h
    · exact h
  · exact h

theorem newParams_setBasePts (frame : Frame) (pts : ℤ) (stream : ChannelStream) :
    (stream.setBasePts pts).newParams frame = stream.newParams frame := by
  obtain ⟨hsps, hpps, -⟩ := setBasePts_params pts stream
  rw [ChannelStream.newParams, ChannelStream.newParams, hsps, hpps]

theorem updateParams_of_same {frame : Frame} {stream : ChannelStream}
    (h : stream.newParams frame = false) : stream.updateParams frame = stream := by
  rw [ChannelStream.updateParams]
  cases hkey : frame.isKeyframe with
  | false => rfl
  | true =>
      rw [if_pos rfl]
      cases hparams : extractSpsPps frame.data with
      | none => rfl
      | some params =>
          refine if_neg ?_
          simpa [ChannelStream.newParams, hkey, hparams] using h

theorem built_step {service : Service} {a : Action}
    (h : ∀ stream ∈ service.channel, stream.Built) :
    ∀ stream ∈ (step service a).channel, stream.Built := by
  intro stream hstream
  rcases channel_step hstream with hold | ⟨frame, old, -, -, hold, rfl⟩
  · exact h stream hold
  · exact built_updateParams (built_setBasePts (h old hold))

/-- With no new parameter sets the channel keeps its sequence header. -/
theorem sequenceHeader_step {service : Service} {a : Action} {stream' : ChannelStream}
    (hsame : ∀ frame, a = .pushFrame frame → ∀ stream ∈ service.channel,
      stream.newParams frame = false)
    (hstream : (step service a).channel = some stream') :
    ∃ stream, service.channel = some stream ∧
      stream.sequenceHeaderTag = stream'.sequenceHeaderTag := by
  rcases channel_step hstream with hold | ⟨frame, old, ha, -, hold, rfl⟩
  · exact ⟨stream', hold, rfl⟩
  · have hnew : (old.setBasePts frame.pts).newParams frame = false := by
      rw [newParams_setBasePts]
      exact hsame frame ha old hold
    rw [updateParams_of_same hnew, (setBasePts_params frame.pts old).2.2]
    exact ⟨old, hold, rfl⟩

/-! ### The viewer -/

/-- What the viewer's sink has been given is in order; once the first call is made, the tags that
wait go on with it, and the sequence header last written is the channel's. -/
structure FlvViewer.InOrder (channel : Option ChannelStream) (v : FlvViewer) : Prop where
  blank : v.gotHeader = false → v.written = []
  read : sequenceHeaders.Current v.written
  queued : v.active = true → v.gotHeader = true →
    sequenceHeaders.Current (v.written ++ v.pendingTags.map .video)
  latest : v.active = true → v.gotHeader = true →
    ∀ stream ∈ channel, sequenceHeaders.latest v.written = some stream.sequenceHeaderTag

theorem inOrder_new (channel : Option ChannelStream) : FlvViewer.InOrder channel {} :=
  ⟨fun _ => rfl, Headers.current_nil, fun _ h => (nomatch h), fun _ h => (nomatch h)⟩

theorem carries_video (tags : List VideoTag) :
    ∀ x ∈ tags.map Chunk.video, sequenceHeaders.carries x = none := by
  intro x hx
  obtain ⟨tag, -, rfl⟩ := List.mem_map.mp hx
  rfl

/-- Tags muxed under the header in effect can be read after it. -/
theorem current_videos {written : List Chunk} {tags : List VideoTag}
    (h : sequenceHeaders.Current written)
    (htags : ∀ tag ∈ tags, sequenceHeaders.latest written =
      some (makeSequenceHeaderTag tag.sps tag.pps)) :
    sequenceHeaders.Current (written ++ tags.map .video) := by
  induction tags using List.reverseRecOn with
  | nil => simpa using h
  | append_singleton tags tag ih =>
      rw [List.map_append, List.map_singleton, ← List.append_assoc, Headers.current_concat]
      refine ⟨ih fun t ht => htags t (List.mem_append_left _ ht), fun h hneeds => ?_⟩
      rw [Headers.latest_append_of_none (carries_video tags), htags tag (by simp)]
      exact hneeds

/-- Nothing but headers is written in the first call. -/
theorem writeHeader_needs_none (channel : Option ChannelStream) {v : FlvViewer}
    (hwritten : v.written = []) :
    ∀ x ∈ (v.writeHeader channel).written, sequenceHeaders.needs x = none := by
  intro x hx
  simp only [FlvViewer.writeHeader, hwritten, List.nil_append, List.mem_cons] at hx
  rcases hx with rfl | hx
  · rfl
  · split at hx
    · split at hx
      · rw [List.mem_singleton.mp hx]
        rfl
      · exact absurd hx List.not_mem_nil
    · exact absurd hx List.not_mem_nil

theorem latest_writeHeader {stream : ChannelStream} {v : FlvViewer} (hwritten : v.written = [])
    (htag : stream.sequenceHeaderTag ≠ []) :
    sequenceHeaders.latest (v.writeHeader (some stream)).written =
      some stream.sequenceHeaderTag := by
  simp [FlvViewer.writeHeader, hwritten, htag, Headers.latest, sequenceHeaders]

theorem inOrder_header {i writable : ℕ} {service : Service} {v : FlvViewer}
    (hbuilt : ∀ stream ∈ service.channel, stream.Built)
    (hv : service.viewers[i]? = some v) (hrunning : service.running = true)
    (hfirst : v.gotHeader = false) (h : v.InOrder service.channel)
    (hkept : HeaderKept i service (.streamToViewer i writable)) :
    (v.writeHeader service.channel).InOrder service.channel := by
  have hwritten : v.written = [] := h.blank hfirst
  have hread : sequenceHeaders.Current (v.writeHeader service.channel).written :=
    Headers.current_of_needs_none (writeHeader_needs_none _ hwritten)
  have hlatest : v.active = true → ∃ stream, service.channel = some stream ∧
      sequenceHeaders.latest (v.writeHeader service.channel).written =
        some stream.sequenceHeaderTag ∧
      ∀ tag ∈ v.pendingTags, tag.sps = stream.sps ∧ tag.pps = stream.pps := by
    intro hactive
    obtain ⟨stream, hstream, htag, hpending⟩ := hkept rfl hrunning v hv hactive hfirst
    refine ⟨stream, hstream, ?_, hpending⟩
    rw [hstream]
    exact latest_writeHeader hwritten htag
  refine ⟨fun h => (nomatch h), hread, fun hactive _ => ?_, fun hactive _ stream hstream => ?_⟩
  · obtain ⟨stream, hstream, hin, hpending⟩ := hlatest hactive
    refine current_videos hread fun tag htag => ?_
    obtain ⟨hsps, hpps⟩ := hpending tag htag
    rw [hin, hbuilt stream hstream, hsps, hpps]
  · obtain ⟨found, hfound, hin, -⟩ := hlatest hactive
    obtain rfl : found = stream := Option.some.inj (hfound.symm.trans hstream)
    exact hin

theorem inOrder_put {stream : ChannelStream} {v : FlvViewer} {frame : Frame}
    {queue : List VideoTag} {num : ℕ} (hbuilt : stream.Built)
    (hroom : makeRoom kMaxPendingTags frame.isKeyframe v.pendingTags = some queue)
    (hsame : v.active = true → v.gotHeader = true → stream.newParams frame = false)
    (h : v.InOrder (some stream)) :
    FlvViewer.InOrder (some stream)
      { v with gotKeyframe := true, pendingTags := queue ++ [tagOf frame stream num] } := by
  refine ⟨h.blank, h.read, fun hactive hheader => ?_, h.latest⟩
  have hlatest := h.latest hactive hheader stream rfl
  have hqueue : sequenceHeaders.Current (v.written ++ queue.map .video) := by
    have hold := h.queued hactive hheader
    rcases makeRoom_eq_some hroom with ⟨-, rfl⟩ | ⟨-, -, rfl⟩
    · exact hold
    · rw [← popped_append (kMaxPendingTags / 2) v.pendingTags, List.map_append] at hold
      exact hold.remove (Headers.dispensable_of_none (carries_video _) _)
  -- the tag is muxed under the parameter sets of the sequence header that was written
  have htag : makeSequenceHeaderTag (tagOf frame stream num).sps (tagOf frame stream num).pps =
      stream.sequenceHeaderTag := by
    have hnew : (stream.setBasePts frame.pts).newParams frame = false := by
      rw [newParams_setBasePts]
      exact hsame hactive hheader
    obtain ⟨hsps, hpps, -⟩ := setBasePts_params frame.pts stream
    rw [tagOf, updateParams_of_same hnew, hsps, hpps, hbuilt]
  rw [List.map_append, List.map_singleton, ← List.append_assoc, Headers.current_concat]
  refine ⟨hqueue, fun n hn => ?_⟩
  rw [Headers.latest_append_of_none (carries_video queue), hlatest, ← htag]
  exact hn

theorem inOrder_drained {channel : Option ChannelStream} {v : FlvViewer} (writable : ℕ)
    (hactive : v.active = true) (hheader : v.gotHeader = true) (h : v.InOrder channel) :
    FlvViewer.InOrder channel
      { v with
        written := v.written ++ (v.pendingTags.take writable).map .video
        pendingTags := v.pendingTags.drop writable } := by
  have hall := h.queued hactive hheader
  rw [← List.take_append_drop writable v.pendingTags, List.map_append, ← List.append_assoc] at hall
  refine ⟨fun h => absurd hheader (by simpa using h), hall.left, fun _ _ => hall,
    fun _ _ stream hstream => ?_⟩
  rw [Headers.latest_append_of_none (carries_video _)]
  exact h.latest hactive hheader stream hstream

/-- What holds of the channel and of the viewer `i` in every state of a run that keeps to
`HeaderKept`. -/
structure HeaderInv (i : ℕ) (service : Service) : Prop where
  built : ∀ stream ∈ service.channel, stream.Built
  viewer : ∀ v ∈ service.viewers[i]?, v.InOrder service.channel

theorem viewerStep_push {i : ℕ} {service : Service} {frame : Frame} {v v' : FlvViewer}
    (h : ViewerStep service i (.pushFrame frame) v v') :
    (v'.active = true → v.active = true) ∧ v'.gotHeader = v.gotHeader := by
  cases h with
  | kept written pending header active => exact ⟨active, header⟩
  | put running channel muxed active => exact ⟨fun _ => active, rfl⟩

theorem inOrder_viewerStep {i : ℕ} {service : Service} {a : Action} {v v' : FlvViewer}
    (h : HeaderInv i service) (hkept : HeaderKept i service a)
    (hv : service.viewers[i]? = some v) (hstep : ViewerStep service i a v v') :
    v'.InOrder service.channel := by
  have hin : v.InOrder service.channel := h.viewer v hv
  cases hstep with
  | kept written pending header active =>
      refine ⟨fun hno => ?_, ?_, fun ha hyes => ?_, fun ha hyes => ?_⟩
      · rw [written]
        exact hin.blank (header ▸ hno)
      · rw [written]
        exact hin.read
      · rw [written, pending]
        exact hin.queued (active ha) (header ▸ hyes)
      · rw [written]
        exact hin.latest (active ha) (header ▸ hyes)
  | put running channel muxed active started room =>
      rw [channel] at hin ⊢
      exact inOrder_put (h.built _ channel) room
        (fun ha hyes => hkept v hv ha hyes _ channel) hin
  | header running first => exact inOrder_header h.built hv running first hin hkept
  | drained later active => exact inOrder_drained _ active later hin

/-- One step that keeps to `HeaderKept`. -/
theorem headerInv_step {i : ℕ} {service : Service} {a : Action} (h : HeaderInv i service)
    (hkept : HeaderKept i service a) : HeaderInv i (step service a) := by
  refine ⟨built_step h.built, fun v' hv' => ?_⟩
  rcases step_viewer hv' with ⟨v, hv, hstep⟩ | ⟨-, rfl⟩
  · have hin : v'.InOrder service.channel := inOrder_viewerStep h hkept hv hstep
    refine ⟨hin.blank, hin.read, hin.queued, fun hactive hheader stream' hstream' => ?_⟩
    have hsame : ∀ frame, a = .pushFrame frame → ∀ stream ∈ service.channel,
        stream.newParams frame = false := by
      rintro frame rfl
      obtain ⟨hback, hgot⟩ := viewerStep_push hstep
      exact hkept v hv (hback hactive) (hgot ▸ hheader)
    obtain ⟨stream, hstream, htag⟩ := sequenceHeader_step hsame hstream'
    rw [← htag]
    exact hin.latest hactive hheader stream hstream
  · exact inOrder_new _

theorem headerInv_registerChannel (i : ℕ) : HeaderInv i registerChannel := by
  refine ⟨fun stream hstream => ?_, fun v hv => ?_⟩
  · obtain rfl : {} = stream := Option.some.inj hstream
    rfl
  · simp [registerChannel] at hv

/-- **Sequence header before video.**  In every run in which the first call for a viewer finds
the sequence header of the tags that wait, and no frame after it brings new parameter sets, every
video tag the viewer's sink is given comes after the sequence header of its own parameter sets. -/
theorem headerFirst_of_steps (i : ℕ) (as : List Action)
    (h : EveryStep step (HeaderKept i) registerChannel as) :
    Along step (HeaderFirst i) registerChannel as := by
  have hinv : Along step (HeaderInv i) registerChannel as :=
    along_of_everyStep (fun _ _ => headerInv_step) (headerInv_registerChannel i) h
  exact hinv.mono fun service hs v hv => (hs.viewer v hv).read

/-- A keyframe with its parameter sets. -/
def firstKeyframe : Frame :=
  ⟨[0, 0, 0, 1, 0x67, 0x64, 0, 0x1F, 0xAC, 0, 0, 0, 1, 0x68, 0xEE, 0, 0, 0, 1, 0x65, 0x88], 0, true⟩

/-- A viewer that starts to stream after the first keyframe. -/
def joinsAfterKeyframe : List Action :=
  [.pushFrame firstKeyframe, .createViewer, .streamToViewer 0 0, .pushFrame firstKeyframe,
    .streamToViewer 0 1]

theorem headerFirst_after_keyframe :
    EveryStep step (HeaderKept 0) registerChannel joinsAfterKeyframe ∧
      Along step (HeaderFirst 0) registerChannel joinsAfterKeyframe := by
  have h : EveryStep step (HeaderKept 0) registerChannel joinsAfterKeyframe := by
    decide +kernel
  exact ⟨h, headerFirst_of_steps 0 _ h⟩

/-- A viewer that starts to stream before the first keyframe. -/
def joinsBeforeKeyframe : List Action :=
  [.createViewer, .streamToViewer 0 0, .pushFrame firstKeyframe, .streamToViewer 0 1]

/-- It is given the tag of the keyframe, and no sequence header before it. -/
theorem not_headerFirst : ¬ Along step (HeaderFirst 0) registerChannel joinsBeforeKeyframe := by
  intro h
  obtain ⟨v, hv, chunk, hchunk, m, hm, hlatest⟩ :
      ∃ v ∈ (joinsBeforeKeyframe.foldl step registerChannel).viewers[0]?,
        ∃ chunk ∈ v.written[1]?, ∃ m ∈ sequenceHeaders.needs chunk,
          sequenceHeaders.latest (v.written.take 1) ≠ some m := by
    decide +kernel
  exact hlatest ((h.last v hv).latest_take hchunk hm)

end HttpFlvService

end LoongNvr.Network
