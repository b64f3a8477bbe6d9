import LoongNvr.Network.HttpFlvService
import LoongNvr.Network.WsMediaService
import LoongNvr.Support.Runs

/-!
# Network — GopDelivery

Whether a viewer who reads a frame has read all frames back to its keyframe, under the
back-pressure of `HttpFlvService` and `WsMediaService`.

* `linked_makeRoom`: one frame, put in a queue of either service.
* `gopsComplete_of_steps`: no viewer reads a frame without its group as long as no frame finds
  room after one that was left out, and a full queue is cut before a keyframe.
* `not_gopsComplete`: a viewer that reads again after its queue was full.
-/

namespace LoongNvr.Network
open Support

/-! ### Queues of frames -/

section Queue

variable {α : Type*} {limit : ℕ} {num : α → Option ℕ} {flags : List Bool} {read : List ℕ}

/-- What keeps groups complete when a frame comes to a queue: a frame that is no keyframe finds
room only after the frame before it was put in the queue, and a keyframe that finds the queue full
leaves it with a keyframe in front. -/
def Feeds (limit : ℕ) (num : α → Option ℕ) (flags : List Bool) (read : List ℕ) (queue : List α)
    (isKeyframe : Bool) : Prop :=
  if isKeyframe then
    limit ≤ queue.length →
      ∀ n ∈ ((popToRoom (limit / 2) queue).filterMap num).head?, flags[n]? = some true
  else queue.length < limit → flags.length - 1 ∈ read ++ queue.filterMap num

instance (queue : List α) (isKeyframe : Bool) :
    Decidable (Feeds limit num flags read queue isKeyframe) := by
  unfold Feeds; infer_instance

/-- The frame is put in the queue. -/
theorem linked_makeRoom {queue room : List α} {isKeyframe : Bool} {item : α}
    (h : Linked flags (read ++ queue.filterMap num))
    (hfeeds : Feeds limit num flags read queue isKeyframe)
    (hroom : makeRoom limit isKeyframe queue = some room) (hitem : num item = some flags.length) :
    Linked (flags ++ [isKeyframe]) (read ++ (room ++ [item]).filterMap num) := by
  rw [List.filterMap_append, List.filterMap_cons_some hitem, List.filterMap_nil,
    ← List.append_assoc]
  cases isKeyframe with
  | true =>
      refine Linked.put ?_ (.inl rfl)
      rcases makeRoom_eq_some hroom with ⟨-, rfl⟩ | ⟨hfull, -, rfl⟩
      · exact h
      · rw [← popped_append (limit / 2) queue, List.filterMap_append] at h
        exact h.remove (hfeeds hfull)
  | false =>
      rcases makeRoom_eq_some hroom with ⟨hlt, rfl⟩ | ⟨-, hkey, -⟩
      · exact h.put (.inr (hfeeds hlt))
      · cases hkey

end Queue

/-! ### HttpFlvService -/

namespace HttpFlvService
open FlvMuxer

/-- The frames the sink of the viewer `i` has been given come in order, each with its group. -/
def ReadComplete (i : ℕ) (service : Service) : Prop :=
  ∀ v ∈ service.viewers[i]?, GopsComplete service.pushed (v.written.filterMap Chunk.num)

/-- The frame of a tag that waits. -/
def VideoTag.frame (tag : VideoTag) : Option ℕ := some tag.num

/-- A frame of which there is a tag comes to the queue of the viewer `i` as `Feeds` demands. -/
def GopKept (i : ℕ) (service : Service) : Action → Prop
  | .pushFrame frame => annexBToAvcc frame.data ≠ [] → ∀ v ∈ service.viewers[i]?,
      v.active = true → (v.gotKeyframe = true ∨ frame.isKeyframe = true) →
        Feeds kMaxPendingTags VideoTag.frame service.pushed (v.written.filterMap Chunk.num)
          v.pendingTags frame.isKeyframe
  | _ => True

instance (i : ℕ) (service : Service) : DecidablePred (GopKept i service)
  | .pushFrame frame => inferInstanceAs (Decidable (annexBToAvcc frame.data ≠ [] →
      ∀ v ∈ service.viewers[i]?, v.active = true →
        (v.gotKeyframe = true ∨ frame.isKeyframe = true) → Feeds _ _ _ _ _ _))
  | .createViewer | .streamToViewer _ _ | .removeViewer _ | .unregisterChannel | .stopAll =>
      inferInstanceAs (Decidable True)

theorem annexBToAvcc_ne_nil {frame : Frame} {stream : ChannelStream} {num : ℕ}
    (h : (tagOf frame stream num).bytes ≠ []) : annexBToAvcc frame.data ≠ [] := by
  intro hnil
  exact h (if_pos hnil)

/-- What the sink has been given and what waits, together. -/
def GopInv (i : ℕ) (service : Service) : Prop :=
  ∀ v ∈ service.viewers[i]?,
    Linked service.pushed (v.written.filterMap Chunk.num ++ v.pendingTags.filterMap VideoTag.frame)

theorem writeHeader_nums (channel : Option ChannelStream) (v : FlvViewer) :
    (v.writeHeader channel).written.filterMap Chunk.num = v.written.filterMap Chunk.num := by
  simp only [FlvViewer.writeHeader, List.filterMap_append]
  split
  · split <;> simp [Chunk.num]
  · simp [Chunk.num]

theorem filterMap_videos (tags : List VideoTag) :
    (tags.map Chunk.video).filterMap Chunk.num = tags.filterMap VideoTag.frame := by
  rw [List.filterMap_map]
  rfl

theorem gopInv_step {i : ℕ} {service : Service} {a : Action} (h : GopInv i service)
    (hkept : GopKept i service a) : GopInv i (step service a) := by
  intro v' hv'
  rcases step_viewer hv' with ⟨v, hv, hstep⟩ | ⟨-, rfl⟩
  · have hlinked := h v hv
    cases hstep with
    | kept written pending header active =>
        rw [written, pending]
        exact hlinked.skip_at_most (pushed_step service _)
    | put running channel muxed active started room =>
        rw [step, (pushFrame_some _ running channel).2]
        exact linked_makeRoom hlinked (hkept (annexBToAvcc_ne_nil muxed) v hv active started) room
          rfl
    | header running first =>
        rw [writeHeader_nums]
        exact hlinked.skip_at_most (pushed_step service _)
    | @drained writable v later active =>
        rw [List.filterMap_append, filterMap_videos, List.append_assoc, ← List.filterMap_append,
          List.take_append_drop]
        exact hlinked.skip_at_most (pushed_step service _)
  · exact Linked.nil

theorem readComplete_of_steps (i : ℕ) (as : List Action)
    (h : EveryStep step (GopKept i) registerChannel as) :
    Along step (ReadComplete i) registerChannel as := by
  have hinv : Along step (GopInv i) registerChannel as :=
    along_of_everyStep (fun _ _ => gopInv_step) (fun v hv => by simp [registerChannel] at hv) h
  exact hinv.mono fun service hs v hv => (hs v hv).left.complete

end HttpFlvService

/-! ### WsMediaService -/

namespace WsMediaService
open Fmp4Muxer LoongNvr.Core

/-- The frames taken from the queue of the viewer `i` come in order, each with its group. -/
def ReadComplete (i : ℕ) (service : Service) : Prop :=
  ∀ v ∈ service.viewers[i]?, GopsComplete service.pushed (v.taken.filterMap PendingSegment.num)

/-- A frame of which there is a segment comes to the queue of the viewer `i`, when it has been
offered the init segment, as `Feeds` demands. -/
def GopKept (i : ℕ) (service : Service) : Action → Prop
  | .pushFrame frame => ∀ stream ∈ service.channel, stream.Muxes frame →
      ∀ v ∈ service.viewers[i]?, v.active = true →
        (v.gotKeyframe = true ∨ frame.isKeyframe = true) →
          Feeds kMaxPendingSegments PendingSegment.num service.pushed
            (v.taken.filterMap PendingSegment.num)
            (v.started (stream.updateParams frame).initSegment).pendingSegments frame.isKeyframe
  | _ => True

instance (i : ℕ) (service : Service) : DecidablePred (GopKept i service)
  | .pushFrame frame => inferInstanceAs (Decidable (∀ stream ∈ service.channel,
      stream.Muxes frame → ∀ v ∈ service.viewers[i]?, v.active = true →
        (v.gotKeyframe = true ∨ frame.isKeyframe = true) → Feeds _ _ _ _ _ _))
  | .acceptViewer | .sendPending _ _ | .removeViewer _ | .unregisterChannel | .stop =>
      inferInstanceAs (Decidable True)

/-- The init segment is no frame. -/
theorem started_nums (initSegment : List UInt8) (v : MediaViewer) :
    (v.started initSegment).taken = v.taken ∧
      (v.started initSegment).pendingSegments.filterMap PendingSegment.num =
        v.pendingSegments.filterMap PendingSegment.num := by
  rw [MediaViewer.started, MediaViewer.offerInit]
  split
  · exact ⟨rfl, by simp [List.filterMap_append, PendingSegment.num]⟩
  · exact ⟨rfl, rfl⟩

/-- What has been taken and what waits, together. -/
def GopInv (i : ℕ) (service : Service) : Prop :=
  ∀ v ∈ service.viewers[i]?, Linked service.pushed
    (v.taken.filterMap PendingSegment.num ++ v.pendingSegments.filterMap PendingSegment.num)

theorem gopInv_step {i : ℕ} {service : Service} {a : Action} (h : GopInv i service)
    (hkept : GopKept i service a) : GopInv i (step service a) := by
  intro v' hv'
  rcases step_viewer hv' with ⟨v, hv, hstep⟩ | ⟨-, rfl⟩
  · have hlinked := h v hv
    cases hstep with
    | kept taken pending gotInit active =>
        rw [taken, pending]
        exact hlinked.skip_at_most (pushed_step service _)
    | skipped running channel live muxed active =>
        obtain ⟨htaken, hpending⟩ := started_nums _ v
        rw [htaken, hpending]
        exact hlinked.skip_at_most (pushed_step service _)
    | @put frame stream _ v' queue running channel live muxed active began offered room =>
        subst offered
        obtain ⟨htaken, hpending⟩ := started_nums (stream.updateParams frame).initSegment v
        rw [← hpending] at hlinked
        rw [step, (pushFrame_some _ running channel live).2, htaken]
        exact linked_makeRoom hlinked (hkept stream channel muxed v hv active began) room rfl
    | @drained accepted _ active =>
        rw [List.filterMap_append, List.append_assoc, ← List.filterMap_append,
          List.take_append_drop]
        exact hlinked.skip_at_most (pushed_step service _)
  · exact Linked.nil

theorem readComplete_of_steps (codec : CodecType) (width height : UInt16) (framerate : ℤ) (i : ℕ)
    (as : List Action)
    (h : EveryStep step (GopKept i) (registerChannel codec width height framerate) as) :
    Along step (ReadComplete i) (registerChannel codec width height framerate) as := by
  have hinv : Along step (GopInv i) (registerChannel codec width height framerate) as :=
    along_of_everyStep (fun _ _ => gopInv_step) (fun v hv => by simp [registerChannel] at hv) h
  exact hinv.mono fun service hs v hv => (hs v hv).left.complete

end WsMediaService

/-- **No gap inside a group.**  In both services, in every run in which no frame finds room in a
viewer's queue after one that was left out, and a full queue is cut before a keyframe, the viewer
reads frames in order, each with all those back to its keyframe. -/
theorem gopsComplete_of_steps (codec : Core.CodecType) (width height : UInt16) (framerate : ℤ)
    (i : ℕ) :
    (∀ as : List HttpFlvService.Action,
      EveryStep HttpFlvService.step (HttpFlvService.GopKept i) HttpFlvService.registerChannel as →
        Along HttpFlvService.step (HttpFlvService.ReadComplete i) HttpFlvService.registerChannel
          as) ∧
      ∀ as : List WsMediaService.Action,
        EveryStep WsMediaService.step (WsMediaService.GopKept i)
            (WsMediaService.registerChannel codec width height framerate) as →
          Along WsMediaService.step (WsMediaService.ReadComplete i)
            (WsMediaService.registerChannel codec width height framerate) as :=
  ⟨HttpFlvService.readComplete_of_steps i,
    WsMediaService.readComplete_of_steps codec width height framerate i⟩

/-- An SPS, a PPS and a slice. -/
def keyframeData : List UInt8 :=
  [0, 0, 0, 1, 0x67, 0x64, 0, 0x1F, 0xAC, 0, 0, 0, 1, 0x68, 0xEE, 0, 0, 0, 1, 0x65, 0x88]

def interframeData : List UInt8 := [0, 0, 0, 1, 0x41, 0x9A]

/-! ### A viewer that falls behind -/

namespace HttpFlvService
open FlvMuxer

def keyframe : Frame := ⟨keyframeData, 0, true⟩

def interframe : Frame := ⟨interframeData, 0, false⟩

/-- The service runs for one viewer. -/
structure Serving (service : Service) (v : FlvViewer) : Prop where
  running : service.running = true
  channel : service.channel ≠ none
  viewers : service.viewers = [v]

theorem makeVideoTag_ne_nil {data : List UInt8} (h : annexBToAvcc data ≠ []) (timestampMs : ℤ)
    (isKeyframe : Bool) : makeVideoTag data timestampMs isKeyframe ≠ [] := by
  rw [makeVideoTag, if_neg h, buildFlvTag]
  simp

/-- The viewer is offered the tag of an interframe. -/
theorem Serving.push {service : Service} {v : FlvViewer} (h : Serving service v) :
    ∃ tag : VideoTag, tag.num = service.pushed.length ∧
      Serving (step service (.pushFrame interframe)) (v.offer false tag) ∧
      (step service (.pushFrame interframe)).pushed = service.pushed ++ [false] := by
  obtain ⟨stream, hstream⟩ := Option.ne_none_iff_exists'.mp h.channel
  have hunits : annexBToAvcc interframe.data ≠ [] := by decide +kernel
  obtain ⟨hchannel, hpushed⟩ := pushFrame_some interframe h.running hstream
  refine ⟨tagOf interframe stream service.pushed.length, rfl, ⟨?_, ?_, ?_⟩, hpushed⟩
  · simp only [step, pushFrame, h.running, hstream]
  · rw [step, hchannel]
    exact Option.some_ne_none _
  · simp only [step, pushFrame, h.running, hstream, makeVideoTag_ne_nil hunits, if_false,
      h.viewers, List.map_cons, List.map_nil, tagOf]
    rfl

/-- Its first call, and the later ones. -/
theorem Serving.first {service : Service} {v : FlvViewer} (h : Serving service v) (writable : ℕ)
    (hfirst : v.gotHeader = false) :
    Serving (step service (.streamToViewer 0 writable)) (v.writeHeader service.channel) ∧
      (step service (.streamToViewer 0 writable)).pushed = service.pushed := by
  simp only [step, streamToViewer, h.running, Bool.not_true, Bool.false_eq_true, if_false,
    h.viewers, List.modify_zero_cons, hfirst, Bool.not_false, if_true, and_true]
  exact ⟨rfl, h.channel, rfl⟩

theorem Serving.later {service : Service} {v : FlvViewer} (h : Serving service v) (writable : ℕ)
    (hlater : v.gotHeader = true) :
    Serving (step service (.streamToViewer 0 writable)) (v.drain writable) ∧
      (step service (.streamToViewer 0 writable)).pushed = service.pushed := by
  simp only [step, streamToViewer, h.running, Bool.not_true, Bool.false_eq_true, if_false,
    h.viewers, List.modify_zero_cons, hlater, and_true]
  exact ⟨rfl, h.channel, rfl⟩

theorem offer_of_room {v : FlvViewer} (tag : VideoTag) (hactive : v.active = true)
    (hkeyframe : v.gotKeyframe = true) (hroom : v.pendingTags.length < kMaxPendingTags) :
    v.offer false tag = { v with gotKeyframe := true, pendingTags := v.pendingTags ++ [tag] } := by
  simp only [FlvViewer.offer, hactive, hkeyframe, Bool.not_true, Bool.false_eq_true,
    Bool.false_and, if_false, makeRoom_of_lt hroom]

theorem offer_of_full {v : FlvViewer} (tag : VideoTag) (hactive : v.active = true)
    (hkeyframe : v.gotKeyframe = true) (hfull : kMaxPendingTags ≤ v.pendingTags.length) :
    v.offer false tag = { v with gotKeyframe := true } := by
  simp only [FlvViewer.offer, hactive, hkeyframe, Bool.not_true, Bool.false_eq_true,
    Bool.false_and, if_false, makeRoom_of_full hfull]

/-- The viewer has read nothing, and the first `n` frames wait for it. -/
structure Waiting (n : ℕ) (service : Service) (v : FlvViewer) : Prop extends
    Serving service v where
  pushed : service.pushed.length = n
  active : v.active = true
  gotKeyframe : v.gotKeyframe = true
  gotHeader : v.gotHeader = false
  written : v.written = []
  pending : v.pendingTags.map VideoTag.num = List.range n

theorem Waiting.length {n : ℕ} {service : Service} {v : FlvViewer} (h : Waiting n service v) :
    v.pendingTags.length = n := by
  rw [← List.length_map VideoTag.num, h.pending, List.length_range]

theorem Waiting.more {n : ℕ} {service : Service} {v : FlvViewer} (h : Waiting n service v)
    (hn : n < kMaxPendingTags) :
    ∃ v', Waiting (n + 1) (step service (.pushFrame interframe)) v' := by
  obtain ⟨tag, hnum, hserving, hpushed⟩ := h.toServing.push
  rw [offer_of_room tag h.active h.gotKeyframe (by rwa [h.length])] at hserving
  refine ⟨_, hserving, ?_, h.active, rfl, h.gotHeader, h.written, ?_⟩
  · rw [hpushed, List.length_append, h.pushed, List.length_singleton]
  · rw [List.map_append, h.pending, List.map_singleton, hnum, h.pushed, List.range_succ]

/-- A viewer has joined and the first keyframe has come. -/
def started : Service := [.createViewer, .pushFrame keyframe].foldl step registerChannel

theorem waiting_started : ∃ v, Waiting 1 started v := by
  have hone : started.viewers.length = 1 := by decide +kernel
  obtain ⟨v, hv⟩ := List.length_eq_one_iff.mp hone
  have hfacts : ∀ v ∈ started.viewers, v.active = true ∧ v.gotKeyframe = true ∧
      v.gotHeader = false ∧ v.written = [] ∧ v.pendingTags.map VideoTag.num = List.range 1 := by
    decide +kernel
  obtain ⟨hactive, hkeyframe, hheader, hwritten, hpending⟩ := hfacts v (by simp [hv])
  exact ⟨v, ⟨rfl, by decide +kernel, hv⟩, by decide +kernel, hactive, hkeyframe, hheader, hwritten,
    hpending⟩

/-- One keyframe and 599 interframes fill the queue. -/
def filled : Service :=
  (List.replicate (kMaxPendingTags - 1) (.pushFrame interframe)).foldl step started

theorem waiting_filling (n : ℕ) (hn : n < kMaxPendingTags) :
    ∃ v, Waiting (n + 1) ((List.replicate n (.pushFrame interframe)).foldl step started) v := by
  induction n with
  | zero => exact waiting_started
  | succ n ih =>
      obtain ⟨v, hv⟩ := ih (Nat.lt_of_succ_lt hn)
      rw [List.replicate_succ', List.foldl_append]
      exact hv.more hn

theorem waiting_filled : ∃ v, Waiting kMaxPendingTags filled v :=
  waiting_filling (kMaxPendingTags - 1) (by decide)

/-- The last frame waits too, as the next one comes. -/
theorem Waiting.gopKept {n : ℕ} {service : Service} {v : FlvViewer} (h : Waiting n service v)
    (hn : 0 < n) : GopKept 0 service (.pushFrame interframe) := by
  intro _ w hw _ _
  obtain rfl : v = w := by simpa [h.viewers] using hw
  have hframes : v.pendingTags.filterMap VideoTag.frame = List.range n :=
    (congrFun List.filterMap_eq_map _).trans h.pending
  rw [Feeds, if_neg (by decide), hframes, h.pushed]
  intro _
  exact List.mem_append_right _ (List.mem_range.mpr (Nat.sub_lt hn Nat.one_pos))

theorem gopKept_filling (n : ℕ) (hn : n < kMaxPendingTags) :
    EveryStep step (GopKept 0) started (List.replicate n (.pushFrame interframe)) := by
  induction n with
  | zero => trivial
  | succ n ih =>
      obtain ⟨v, hv⟩ := waiting_filling n (Nat.lt_of_succ_lt hn)
      rw [List.replicate_succ', everyStep_concat]
      exact ⟨ih (Nat.lt_of_succ_lt hn), hv.gopKept n.succ_pos⟩

theorem drain_of_active {v : FlvViewer} (writable : ℕ) (hactive : v.active = true) :
    v.drain writable = { v with
      written := v.written ++ (v.pendingTags.take writable).map .video
      pendingTags := v.pendingTags.drop writable } := if_neg (by simp [hactive])

theorem drain_nums {v : FlvViewer} (writable : ℕ) (hactive : v.active = true) :
    (v.drain writable).written.filterMap Chunk.num =
      v.written.filterMap Chunk.num ++ (v.pendingTags.take writable).map VideoTag.num := by
  rw [drain_of_active writable hactive, List.filterMap_append, filterMap_videos]
  exact congrArg _ (congrFun List.filterMap_eq_map _)

/-- A viewer that has read the first `n` frames, and all there was. -/
structure CaughtUp (n : ℕ) (v : FlvViewer) : Prop where
  active : v.active = true
  gotKeyframe : v.gotKeyframe = true
  gotHeader : v.gotHeader = true
  pending : v.pendingTags = []
  nums : v.written.filterMap Chunk.num = List.range n

theorem Waiting.readAll {n : ℕ} {service : Service} {v : FlvViewer} (h : Waiting n service v)
    (channel : Option ChannelStream) :
    CaughtUp n (({ v with gotKeyframe := true }.writeHeader channel).drain n) := by
  have hactive : (FlvViewer.writeHeader channel { v with gotKeyframe := true }).active = true :=
    h.active
  have hnums := drain_nums n hactive
  rw [drain_of_active n hactive] at hnums ⊢
  refine ⟨hactive, rfl, rfl, List.drop_eq_nil_of_le h.length.le, ?_⟩
  have hall : v.pendingTags.take n = v.pendingTags := List.take_of_length_le h.length.le
  rw [hnums, writeHeader_nums, h.written, ← h.pending]
  exact congrArg (List.map VideoTag.num) hall

theorem CaughtUp.offer {n : ℕ} {v : FlvViewer} (h : CaughtUp n v) (tag : VideoTag) :
    v.offer false tag = { v with gotKeyframe := true, pendingTags := [tag] } := by
  have hroom : v.pendingTags.length < kMaxPendingTags := by rw [h.pending]; decide
  rw [offer_of_room tag h.active h.gotKeyframe hroom, h.pending, List.nil_append]

theorem CaughtUp.next {n : ℕ} {v : FlvViewer} (h : CaughtUp n v) (tag : VideoTag) :
    (FlvViewer.drain 1 { v with gotKeyframe := true, pendingTags := [tag] }).written.filterMap
      Chunk.num = List.range n ++ [tag.num] := by
  have hnums := drain_nums (v := { v with gotKeyframe := true, pendingTags := [tag] }) 1 h.active
  rw [hnums, h.nums]
  rfl

/-- One interframe finds the queue full; the viewer reads on, and the next frame is a keyframe. -/
def readsToKeyframe : List Action :=
  [.pushFrame interframe, .streamToViewer 0 0, .streamToViewer 0 kMaxPendingTags,
    .pushFrame keyframe, .streamToViewer 0 1]

theorem gopKept_readsToKeyframe {service : Service} {v : FlvViewer}
    (h : Waiting kMaxPendingTags service v) :
    EveryStep step (GopKept 0) service readsToKeyframe := by
  refine ⟨h.gopKept (by decide), trivial, trivial, ?_, trivial, trivial⟩
  obtain ⟨skipped, -, hs₁, -⟩ := h.toServing.push
  rw [offer_of_full skipped h.active h.gotKeyframe h.length.ge] at hs₁
  obtain ⟨hs₂, -⟩ := hs₁.first 0 h.gotHeader
  obtain ⟨hs₃, -⟩ := hs₂.later kMaxPendingTags rfl
  have hread := h.readAll (step service (.pushFrame interframe)).channel
  -- the queue is empty as the keyframe comes
  intro _ w hw _ _ hfull
  rw [hs₃.viewers] at hw
  obtain rfl := Option.some.inj hw
  rw [hread.pending] at hfull
  exact absurd hfull (by decide)

/-- The viewer reads again after one interframe has found its queue full, and gets the next. -/
def readsAgain : List Action :=
  [.pushFrame interframe, .streamToViewer 0 0, .streamToViewer 0 kMaxPendingTags,
    .pushFrame interframe, .streamToViewer 0 1]

theorem gap_of_waiting {service : Service} {v : FlvViewer}
    (h : Waiting kMaxPendingTags service v) :
    ∃ v', (readsAgain.foldl step service).viewers[0]? = some v' ∧
      v'.written.filterMap Chunk.num = List.range kMaxPendingTags ++ [kMaxPendingTags + 1] ∧
      (readsAgain.foldl step service).pushed[kMaxPendingTags + 1]? = some false := by
  obtain ⟨skipped, -, hs₁, hp₁⟩ := h.toServing.push
  rw [offer_of_full skipped h.active h.gotKeyframe h.length.ge] at hs₁
  obtain ⟨hs₂, hp₂⟩ := hs₁.first 0 h.gotHeader
  obtain ⟨hs₃, hp₃⟩ := hs₂.later kMaxPendingTags rfl
  have hread := h.readAll (step service (.pushFrame interframe)).channel
  obtain ⟨tag, hnum, hs₄, hp₄⟩ := hs₃.push
  rw [hread.offer tag] at hs₄
  obtain ⟨hs₅, hp₅⟩ := hs₄.later 1 hread.gotHeader
  have hnext : tag.num = kMaxPendingTags + 1 := by
    rw [hnum, hp₃, hp₂, hp₁, List.length_append, h.pushed, List.length_singleton]
  have hpushed : (readsAgain.foldl step service).pushed = service.pushed ++ [false] ++ [false] := by
    simp only [readsAgain, List.foldl_cons, List.foldl_nil, hp₅, hp₄, hp₃, hp₂, hp₁]
  refine ⟨_, congrArg (·[0]?) hs₅.viewers, ?_, ?_⟩
  · rw [← hnext]
    exact hread.next tag
  · rw [hpushed, List.getElem?_append_right (by simp [h.pushed])]
    simp [h.pushed]

/-- A viewer whose queue fills, and which misses a frame that is the last of its group; and one that
reads two frames. -/
theorem gopsComplete_filled :
    Along step (ReadComplete 0) registerChannel
        ([.createViewer, .pushFrame keyframe] ++
          List.replicate (kMaxPendingTags - 1) (.pushFrame interframe) ++ readsToKeyframe) ∧
      Along WsMediaService.step (WsMediaService.ReadComplete 0)
        (WsMediaService.registerChannel .h264 640 360 25)
        [.acceptViewer, .pushFrame ⟨keyframeData, 0, true⟩, .sendPending 0 2,
          .pushFrame ⟨interframeData, 40000, false⟩, .sendPending 0 1] := by
  have hkept : EveryStep step (GopKept 0) registerChannel
      ([.createViewer, .pushFrame keyframe] ++
        List.replicate (kMaxPendingTags - 1) (.pushFrame interframe) ++ readsToKeyframe) := by
    obtain ⟨v, hv⟩ := waiting_filled
    rw [everyStep_append, everyStep_append, List.foldl_append]
    exact ⟨⟨by decide +kernel, gopKept_filling _ (by decide)⟩, gopKept_readsToKeyframe hv⟩
  exact ⟨(gopsComplete_of_steps .h264 640 360 25 0).1 _ hkept,
    (gopsComplete_of_steps .h264 640 360 25 0).2 _ (by decide +kernel)⟩

/-- The viewer has read the frame after the one that was left out. -/
theorem not_gopsComplete : ¬ Along step (ReadComplete 0) registerChannel
    ([.createViewer, .pushFrame keyframe] ++
      List.replicate (kMaxPendingTags - 1) (.pushFrame interframe) ++ readsAgain) := by
  intro h
  obtain ⟨w, hw⟩ := waiting_filled
  obtain ⟨v, hv, hread, hinter⟩ := gap_of_waiting hw
  have hlast := h.last
  rw [List.foldl_append, List.foldl_append] at hlast
  obtain ⟨k, hk, hkey, -, hall⟩ := (hlast v hv).2 (kMaxPendingTags + 1) (by simp [hread])
  have hlt : k < kMaxPendingTags + 1 := by
    refine Nat.lt_of_le_of_ne hk ?_
    rintro rfl
    cases hkey.symm.trans hinter
  have hmem := hall kMaxPendingTags (Nat.le_of_lt_succ hlt) (Nat.le_succ _)
  simp [hread] at hmem

end HttpFlvService

end LoongNvr.Network
