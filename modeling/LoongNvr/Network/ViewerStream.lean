import LoongNvr.Network.WebSocketStream
import LoongNvr.Support.Runs

/-!
# Network — ViewerStream

The thread of one viewer of `WsMediaService`, one `send` at a time: it answers what the client sends
and drains the viewer's queue, and looks at the result of a `send` only for whether it failed.

* `step`: the thread, and the threads that fill the queue and end the viewer.
* `Framed`: no frame is begun before the one before it was accepted whole.
* `framed_iff`: this holds all along a run exactly if a short write is the last that takes anything,
  and no pong is long.
-/

namespace LoongNvr.Network
open Support WebSocketServer

namespace ViewerStream

/-! ### The thread -/

/-- Where the thread is in `HandleClient`: at the top of its loop, at the frames it has received, in
`wait_for`, at the queue (and holds the viewer's mutex), or out of the loop. -/
inductive Phase
  | polling
  | answering
  | waiting
  | sending
  | left
  deriving DecidableEq, Repr

/-- A viewer and its thread.  `begun` has the frames of which the socket has accepted bytes, and how
many; `queued` all that was ever put in the queue. -/
structure Viewer where
  pendingSegments : List Buffer := []
  active : Bool := true
  phase : Phase := .polling
  recvBuffer : Buffer := emptyBuffer
  begun : List (BuiltFrame × ℕ) := []
  queued : List Buffer := []

inductive Action
  /-- `poll` and `recv`: nothing to read, an end or an error (`[]`), or bytes. -/
  | poll (received : Option (List UInt8))
  /-- The next frame of the buffer, and what `send` returns if it is answered. -/
  | answer (result : Option ℕ)
  /-- `wait_for` returns. -/
  | wake
  /-- The next segment of the queue, and what `send` returns. -/
  | sendSegment (result : Option ℕ)
  /-- `PushFrame` comes to the viewer, and the init segment is due or not. -/
  | pushFrame (initSegment : Option Buffer) (isKeyframe : Bool) (segment : Buffer)
  /-- `Stop` or `UnregisterChannel` comes to it. -/
  | deactivate

/-- `send`: an error takes nothing, any other result from one byte to the frame. -/
def Viewer.send (frame : BuiltFrame) (result : Option ℕ) (viewer : Viewer) : Viewer :=
  match result with
  | none => viewer
  | some n =>
      { viewer with begun := viewer.begun ++ [(frame, max 1 (min n frame.bytes.length))] }

/-- Out of the loop, and closed. -/
def Viewer.leave (viewer : Viewer) : Viewer := { viewer with phase := .left, active := false }

def poll (received : Option (List UInt8)) (viewer : Viewer) : Viewer :=
  if !viewer.active then viewer.leave
  else
    match received with
    | none => { viewer with phase := .waiting }
    | some [] => viewer.leave
    | some chunk =>
        match insert viewer.recvBuffer chunk with
        | .error _ => viewer.leave
        | .ok buffer => { viewer with recvBuffer := buffer, phase := .answering }

/-- What a frame from the client is answered with. -/
def reply (frame : WsFrame) : Option BuiltFrame :=
  match frame.opcode with
  | .ping => some (.pong frame.payload)
  | .close => some (.close 1000)
  | _ => none

/-- The first frame of the buffer, if it is complete, and the buffer without it. -/
def nextFrame (buffer : Buffer) : Checked (Option (WsFrame × Buffer)) :=
  if buffer.bytes = [] then .ok none
  else
    (parseFrame buffer {}).map fun (consumed, frame) =>
      if consumed = 0 then none else some (frame, erase buffer consumed)

def answer (result : Option ℕ) (viewer : Viewer) : Viewer :=
  match nextFrame viewer.recvBuffer with
  -- nothing catches what `ParseFrame` throws
  | .error _ => viewer.leave
  | .ok none => { viewer with phase := .waiting }
  | .ok (some (frame, buffer)) =>
      let viewer := { viewer with recvBuffer := buffer }
      match reply frame with
      | none => viewer
      | some built =>
          { viewer.send built result with
            active := viewer.active && frame.opcode ≠ .close }

def wake (viewer : Viewer) : Viewer :=
  if !viewer.active then viewer.leave else { viewer with phase := .sending }

/-- A segment of which the socket took anything leaves the queue. -/
def sendSegment (result : Option ℕ) (viewer : Viewer) : Viewer :=
  match viewer.pendingSegments, result with
  | [], _ => { viewer with phase := .polling }
  | _ :: _, none => { viewer with active := false, phase := .polling }
  | segment :: segments, some n =>
      { viewer.send (.binary segment.bytes) (some n) with pendingSegments := segments }

def pushFrame (initSegment : Option Buffer) (isKeyframe : Bool) (segment : Buffer)
    (viewer : Viewer) : Viewer :=
  if !viewer.active then viewer
  else
    let viewer := { viewer with
      pendingSegments := viewer.pendingSegments ++ initSegment.toList
      queued := viewer.queued ++ initSegment.toList }
    match makeRoom WsMediaService.kMaxPendingSegments isKeyframe viewer.pendingSegments with
    | none => viewer
    | some queue =>
        { viewer with
          pendingSegments := queue ++ [segment]
          queued := viewer.queued ++ [segment] }

/-- One step, where the action is possible: a thread is in one place, and `PushFrame` waits for the
mutex while the queue is drained. -/
def step (viewer : Viewer) : Action → Viewer
  | .poll received => if viewer.phase = .polling then poll received viewer else viewer
  | .answer result => if viewer.phase = .answering then answer result viewer else viewer
  | .wake => if viewer.phase = .waiting then wake viewer else viewer
  | .sendSegment result =>
      if viewer.phase = .sending then sendSegment result viewer else viewer
  | .pushFrame initSegment isKeyframe segment =>
      if viewer.phase = .sending then viewer
      else pushFrame initSegment isKeyframe segment viewer
  | .deactivate => { viewer with active := false }

/-! ### Frames on the stream -/

/-- The bytes the socket has accepted. -/
def Viewer.stream (viewer : Viewer) : List UInt8 :=
  viewer.begun.flatMap fun b => b.1.bytes.take b.2

/-- One whole frame: it ends where its header says. -/
def WholeFrame (bytes : List UInt8) : Prop :=
  2 ≤ bytes.length ∧
    headerLength (bytes.getD 1 0) + declaredLength bytes (bytes.getD 1 0) = bytes.length

/-- The segment in a frame, if it is a media frame. -/
def segmentOf : BuiltFrame → Option (List UInt8)
  | .binary payload => some payload
  | _ => none

/-- **Framing is kept**: the bytes accepted are those of whole frames in a row, each begun when the
one before it was accepted, the media frames as they were queued. -/
structure Framed (viewer : Viewer) : Prop where
  whole : ∀ b ∈ viewer.begun, WholeFrame b.1.bytes
  accepted : ∀ b ∈ viewer.begun.dropLast, b.2 = b.1.bytes.length
  stream : viewer.stream <+: viewer.begun.flatMap fun b => b.1.bytes
  queued : (viewer.begun.filterMap fun b => segmentOf b.1).Sublist (viewer.queued.map (·.bytes))

/-- A `send` has accepted only part of its frame. -/
def Short (viewer : Viewer) : Prop := ∃ b ∈ viewer.begun, b.2 < b.1.bytes.length

/-- The frame of which the socket accepts bytes in a step. -/
def offered (viewer : Viewer) : Action → Option BuiltFrame
  | .answer (some _) =>
      if viewer.phase = .answering then
        match nextFrame viewer.recvBuffer with
        | .ok (some (frame, _)) => reply frame
        | _ => none
      else none
  | .sendSegment (some _) =>
      if viewer.phase = .sending then
        viewer.pendingSegments.head?.map fun segment => .binary segment.bytes
      else none
  | _ => none

/-- Nothing is accepted after a short write, and no long pong is. -/
def Careful (viewer : Viewer) (a : Action) : Prop :=
  ∀ frame ∈ offered viewer a,
    ¬ Short viewer ∧ ∀ payload, frame = .pong payload → payload.length ≤ 65535

/-! ### Whole frames -/

theorem wholeFrame_iff (frame : BuiltFrame) (hlen : frame.payload.length < 2 ^ 63) :
    WholeFrame frame.bytes ↔ ∀ payload, frame = .pong payload → payload.length ≤ 65535 := by
  obtain ⟨b0, b1, ext, hbytes, -, hdeclares, hunmasked⟩ := frame.bytes_eq hlen
  have hheader : headerLength b1 = ext.length + 2 := by
    rw [headerLength, hdeclares.lengthEnd, hunmasked]
    rfl
  rw [← frame.declared_eq_iff, WholeFrame, hbytes]
  show 2 ≤ (b0 :: b1 :: (ext ++ frame.payload)).length ∧
    headerLength b1 + declaredLength (b0 :: b1 :: (ext ++ frame.payload)) b1 = _ ↔ _
  rw [hdeclares.declared, hheader]
  simp only [List.length_cons, List.length_append]
  omega

theorem BuiltFrame.bytes_ne_nil (frame : BuiltFrame) : 0 < frame.bytes.length := by
  cases frame with
  | _ => exact Nat.succ_pos _

/-- The payload a parsed frame has was in the buffer. -/
theorem payload_length_le {data : Buffer} {frame : WsFrame} {consumed : UInt64}
    (hparse : parseFrame data {} = .ok (consumed, frame)) (hconsumed : consumed ≠ 0) :
    frame.payload.length ≤ data.bytes.length := by
  by_cases h : HeaderComplete data
  · by_cases hwrap : 2 ^ 64 ≤ declaredEnd data
    · rw [parseFrame_wraps data {} h hwrap] at hparse
      exact absurd hparse (by simp)
    · by_cases hle : declaredEnd data ≤ data.bytes.length
      · obtain ⟨n, heq, -⟩ := parseFrame_complete data {} h hle
        obtain ⟨-, rfl⟩ := Prod.mk.inj (Except.ok.inj (heq.symm.trans hparse))
        rw [wholeFrame, framePayload_length, List.length_take, List.length_drop]
        exact (Nat.min_le_right _ _).trans (Nat.sub_le _ _)
      · obtain ⟨frame', heq⟩ := parseFrame_short data {} h (Nat.not_le.mp hwrap) (Nat.not_le.mp hle)
        exact absurd (congrArg Prod.fst (Except.ok.inj (heq.symm.trans hparse))).symm hconsumed
  · obtain ⟨frame', heq⟩ := parseFrame_incomplete data {} h
    exact absurd (congrArg Prod.fst (Except.ok.inj (heq.symm.trans hparse))).symm hconsumed

theorem nextFrame_payload {buffer rest : Buffer} {frame : WsFrame}
    (h : nextFrame buffer = .ok (some (frame, rest))) : frame.payload.length < 2 ^ 63 := by
  rw [nextFrame] at h
  split at h
  · exact absurd h (by simp)
  · obtain ⟨⟨consumed, parsed⟩, hparse, hsome⟩ := map_eq_ok_iff.mp h
    dsimp only at hsome
    split at hsome
    · exact absurd hsome (by simp)
    · rename_i hconsumed
      obtain ⟨rfl, -⟩ := Prod.mk.inj (Option.some.inj hsome)
      have hsize := buffer.size_le
      rw [ptrdiffMax] at hsize
      have hle := payload_length_le hparse hconsumed
      omega

/-- A frame that is offered has the payload of a vector. -/
theorem offered_payload {viewer : Viewer} {a : Action} {frame : BuiltFrame}
    (h : offered viewer a = some frame) : frame.payload.length < 2 ^ 63 := by
  unfold offered at h
  split at h
  · split at h
    · split at h
      · rename_i received _ hnext
        have hlen := nextFrame_payload hnext
        rw [reply] at h
        split at h
        · obtain rfl := Option.some.inj h
          exact hlen
        · obtain rfl := Option.some.inj h
          decide
        · exact absurd h (by simp)
      · exact absurd h (by simp)
    · exact absurd h (by simp)
  · split at h
    · obtain ⟨segment, -, rfl⟩ := Option.map_eq_some_iff.mp h
      exact Nat.lt_of_le_of_lt segment.size_le (by decide)
    · exact absurd h (by simp)
  · exact absurd h (by simp)

/-! ### What a step does -/

/-- All that a step can do to what is accepted and to the queue; `offer` is the frame of which the
socket accepts bytes. -/
inductive Effect (v v' : Viewer) : (offer : Option BuiltFrame) → Prop
  | put (segments : List Buffer) (begun : v'.begun = v.begun)
      (pending : v'.pendingSegments.Sublist (v.pendingSegments ++ segments))
      (queued : v'.queued = v.queued ++ segments) : Effect v v' none
  | replied {frame : BuiltFrame} (n : ℕ) (lower : 1 ≤ n) (upper : n ≤ frame.bytes.length)
      (control : segmentOf frame = none) (begun : v'.begun = v.begun ++ [(frame, n)])
      (pending : v'.pendingSegments = v.pendingSegments) (queued : v'.queued = v.queued) :
      Effect v v' (some frame)
  | sent {segment : Buffer} (n : ℕ) (lower : 1 ≤ n)
      (upper : n ≤ (BuiltFrame.binary segment.bytes).bytes.length)
      (begun : v'.begun = v.begun ++ [(.binary segment.bytes, n)])
      (pending : v.pendingSegments = segment :: v'.pendingSegments)
      (queued : v'.queued = v.queued) : Effect v v' (some (.binary segment.bytes))

theorem Effect.of_kept {v v' : Viewer} (begun : v'.begun = v.begun)
    (pending : v'.pendingSegments = v.pendingSegments) (queued : v'.queued = v.queued) :
    Effect v v' none :=
  .put [] begun (by rw [pending, List.append_nil]) (by rw [queued, List.append_nil])

theorem taken_le (frame : BuiltFrame) (n : ℕ) :
    max 1 (min n frame.bytes.length) ≤ frame.bytes.length :=
  Nat.max_le.mpr ⟨BuiltFrame.bytes_ne_nil frame, Nat.min_le_right _ _⟩

theorem effect_poll (v : Viewer) (received : Option (List UInt8)) :
    Effect v (poll received v) none := by
  unfold poll
  split
  · exact .of_kept rfl rfl rfl
  · split
    · exact .of_kept rfl rfl rfl
    · exact .of_kept rfl rfl rfl
    · split
      · exact .of_kept rfl rfl rfl
      · exact .of_kept rfl rfl rfl

theorem segmentOf_reply {frame : WsFrame} {built : BuiltFrame} (h : reply frame = some built) :
    segmentOf built = none := by
  rw [reply] at h
  split at h
  · obtain rfl := Option.some.inj h
    rfl
  · obtain rfl := Option.some.inj h
    rfl
  · exact absurd h (by simp)

theorem effect_answer {v : Viewer} (hphase : v.phase = .answering) (result : Option ℕ) :
    Effect v (answer result v) (offered v (.answer result)) := by
  have hoffered : offered v (.answer result) = result.bind fun _ =>
      match nextFrame v.recvBuffer with
      | .ok (some (frame, _)) => reply frame
      | _ => none := by
    cases result with
    | none => rfl
    | some n => exact if_pos hphase
  rw [hoffered, answer]
  cases nextFrame v.recvBuffer with
  | error fault => cases result <;> exact .of_kept rfl rfl rfl
  | ok next =>
      cases next with
      | none => cases result <;> exact .of_kept rfl rfl rfl
      | some next =>
          obtain ⟨frame, buffer⟩ := next
          dsimp only
          cases hreply : reply frame with
          | none => cases result <;> exact .of_kept rfl rfl rfl
          | some built =>
              cases result with
              | none => exact .of_kept rfl rfl rfl
              | some n =>
                  exact .replied _ (Nat.le_max_left _ _) (taken_le built n)
                    (segmentOf_reply hreply) rfl rfl rfl

theorem effect_sendSegment {v : Viewer} (hphase : v.phase = .sending) (result : Option ℕ) :
    Effect v (sendSegment result v) (offered v (.sendSegment result)) := by
  have hoffered : offered v (.sendSegment result) = result.bind fun _ =>
      v.pendingSegments.head?.map fun segment => .binary segment.bytes := by
    cases result with
    | none => rfl
    | some n => exact if_pos hphase
  rw [hoffered]
  unfold sendSegment
  split
  case h_1 hpending =>
    simp only [hpending, List.head?_nil, Option.map_none, Option.bind_fun_none]
    exact .of_kept rfl hpending.symm rfl
  case h_2 => exact .of_kept rfl rfl rfl
  case h_3 segment segments n hpending =>
    rw [hpending]
    exact .sent _ (Nat.le_max_left _ _) (taken_le _ n) rfl hpending rfl

/-- Room is made by taking segments from the front. -/
theorem makeRoom_sublist {α : Type*} {limit : ℕ} {isKeyframe : Bool} {queue room : List α}
    (h : makeRoom limit isKeyframe queue = some room) : room.Sublist queue := by
  rcases makeRoom_eq_some h with ⟨-, rfl⟩ | ⟨-, -, rfl⟩
  · exact List.Sublist.refl _
  · rw [popToRoom_eq]
    exact List.drop_sublist _ _

theorem effect_pushFrame (v : Viewer) (initSegment : Option Buffer) (isKeyframe : Bool)
    (segment : Buffer) : Effect v (pushFrame initSegment isKeyframe segment v) none := by
  rw [pushFrame]
  split
  · exact .of_kept rfl rfl rfl
  · dsimp only
    split
    · exact .put initSegment.toList rfl (List.Sublist.refl _) rfl
    · rename_i queue hroom
      refine .put (initSegment.toList ++ [segment]) rfl ?_ (List.append_assoc _ _ _)
      rw [← List.append_assoc]
      exact (makeRoom_sublist hroom).append (List.Sublist.refl _)

theorem step_effect (v : Viewer) (a : Action) : Effect v (step v a) (offered v a) := by
  cases a with
  | poll received =>
      show Effect v (if v.phase = .polling then poll received v else v) none
      split
      · exact effect_poll v received
      · exact .of_kept rfl rfl rfl
  | answer result =>
      show Effect v (if v.phase = .answering then answer result v else v) _
      split
      · exact effect_answer ‹_› result
      · rename_i hphase
        have hnone : offered v (.answer result) = none := by
          cases result with
          | none => rfl
          | some n => exact if_neg hphase
        rw [hnone]
        exact .of_kept rfl rfl rfl
  | wake =>
      show Effect v (if v.phase = .waiting then wake v else v) none
      rw [wake]
      split
      · split
        · exact .of_kept rfl rfl rfl
        · exact .of_kept rfl rfl rfl
      · exact .of_kept rfl rfl rfl
  | sendSegment result =>
      show Effect v (if v.phase = .sending then sendSegment result v else v) _
      split
      · exact effect_sendSegment ‹_› result
      · rename_i hphase
        have hnone : offered v (.sendSegment result) = none := by
          cases result with
          | none => rfl
          | some n => exact if_neg hphase
        rw [hnone]
        exact .of_kept rfl rfl rfl
  | pushFrame initSegment isKeyframe segment =>
      show Effect v (if v.phase = .sending then v else _) none
      split
      · exact .of_kept rfl rfl rfl
      · exact effect_pushFrame v initSegment isKeyframe segment
  | deactivate => exact .of_kept rfl rfl rfl

/-! ### The stream -/

/-- What was sent and what waits are, in this order, among what was queued. -/
def Ordered (viewer : Viewer) : Prop :=
  ((viewer.begun.filterMap fun b => segmentOf b.1) ++
    viewer.pendingSegments.map (·.bytes)).Sublist (viewer.queued.map (·.bytes))

theorem ordered_step {v : Viewer} (h : Ordered v) (a : Action) : Ordered (step v a) := by
  rw [Ordered] at h ⊢
  have heffect := step_effect v a
  generalize offered v a = offer at heffect
  cases heffect with
  | put segments begun pending queued =>
      rw [begun, queued, List.map_append]
      refine .trans ?_ (h.append (List.Sublist.refl _))
      rw [List.append_assoc, ← List.map_append]
      exact (List.Sublist.refl _).append (pending.map _)
  | replied n lower upper control begun pending queued =>
      rw [begun, pending, queued, List.filterMap_append]
      simpa [control] using h
  | sent n lower upper begun pending queued =>
      rw [pending] at h
      rw [begun, queued, List.filterMap_append]
      simpa [segmentOf] using h

/-- Frames accepted whole, but for the last, are the start of all their bytes. -/
theorem prefix_of_accepted {begun : List (BuiltFrame × ℕ)}
    (h : ∀ b ∈ begun.dropLast, b.2 = b.1.bytes.length) :
    (begun.flatMap fun b => b.1.bytes.take b.2) <+: begun.flatMap fun b => b.1.bytes := by
  induction begun with
  | nil => exact List.prefix_refl _
  | cons b begun ih =>
      cases begun with
      | nil => simpa using List.take_prefix _ _
      | cons c begun =>
          rw [List.dropLast_cons_of_ne_nil (by simp), List.forall_mem_cons] at h
          show b.1.bytes.take b.2 ++ (c :: begun).flatMap _ <+:
            b.1.bytes ++ (c :: begun).flatMap _
          rw [h.1, List.take_length, List.prefix_append_right_inj]
          exact ih h.2

theorem Framed.of_accepted {v : Viewer} (hordered : Ordered v)
    (hwhole : ∀ b ∈ v.begun, WholeFrame b.1.bytes)
    (haccepted : ∀ b ∈ v.begun.dropLast, b.2 = b.1.bytes.length) : Framed v :=
  ⟨hwhole, haccepted, prefix_of_accepted haccepted, (List.sublist_append_left _ _).trans hordered⟩

/-- In a framed stream, only the last frame can have been accepted in part. -/
theorem not_short_iff {v : Viewer} :
    ¬ Short v ↔ ∀ b ∈ v.begun, b.1.bytes.length ≤ b.2 := by
  simp only [Short, not_exists, not_and, Nat.not_lt]

theorem framed_concat_iff {v v' : Viewer} (hframed : Framed v) (hordered : Ordered v')
    {frame : BuiltFrame} {n : ℕ} (hlen : frame.payload.length < 2 ^ 63)
    (hupper : ∀ b ∈ v.begun, b.2 ≤ b.1.bytes.length) (hbegun : v'.begun = v.begun ++ [(frame, n)]) :
    Framed v' ↔ ¬ Short v ∧ ∀ payload, frame = .pong payload → payload.length ≤ 65535 := by
  rw [not_short_iff, ← wholeFrame_iff frame hlen]
  constructor
  · intro h
    refine ⟨fun b hb => ?_, ?_⟩
    · have haccepted := h.accepted b
      rw [hbegun, List.dropLast_concat] at haccepted
      exact (haccepted hb).ge
    · exact h.whole (frame, n) (by simp [hbegun])
  · rintro ⟨hfull, hwhole⟩
    refine .of_accepted hordered (fun b hb => ?_) fun b hb => ?_
    · rw [hbegun, List.mem_append, List.mem_singleton] at hb
      obtain hb | rfl := hb
      · exact hframed.whole b hb
      · exact hwhole
    · rw [hbegun, List.dropLast_concat] at hb
      exact Nat.le_antisymm (hupper b hb) (hfull b hb)

/-- What every viewer satisfies, whatever is accepted. -/
structure Sound (viewer : Viewer) : Prop where
  ordered : Ordered viewer
  upper : ∀ b ∈ viewer.begun, b.2 ≤ b.1.bytes.length

theorem sound_step {v : Viewer} (h : Sound v) (a : Action) : Sound (step v a) := by
  refine ⟨ordered_step h.ordered a, fun b hb => ?_⟩
  have heffect := step_effect v a
  generalize offered v a = offer at heffect
  cases heffect with
  | put segments begun => exact h.upper b (begun ▸ hb)
  | replied n lower upper control begun =>
      rw [begun, List.mem_append, List.mem_singleton] at hb
      obtain hb | rfl := hb
      · exact h.upper b hb
      · exact upper
  | sent n lower upper begun =>
      rw [begun, List.mem_append, List.mem_singleton] at hb
      obtain hb | rfl := hb
      · exact h.upper b hb
      · exact upper

theorem framed_step_iff {v : Viewer} (hsound : Sound v) (hframed : Framed v) (a : Action) :
    Framed (step v a) ↔ Careful v a := by
  have heffect := step_effect v a
  have hordered := ordered_step hsound.ordered a
  have hlen : ∀ frame, offered v a = some frame → frame.payload.length < 2 ^ 63 := fun _ =>
    offered_payload
  rw [Careful]
  generalize offered v a = offer at heffect hlen
  cases heffect with
  | put segments begun =>
      refine iff_of_true ?_ fun _ h => absurd h (by simp)
      refine .of_accepted hordered ?_ ?_
      · rw [begun]
        exact hframed.whole
      · rw [begun]
        exact hframed.accepted
  | replied n lower upper control begun =>
      rw [framed_concat_iff hframed hordered (hlen _ rfl) hsound.upper begun]
      simp
  | sent n lower upper begun =>
      rw [framed_concat_iff hframed hordered (hlen _ rfl) hsound.upper begun]
      simp

/-! ### Runs -/

/-- **A viewer's stream keeps its framing** along a run exactly if a short write is the last that
takes anything, and no long pong is sent. -/
theorem framed_iff (actions : List Action) :
    Along step Framed {} actions ↔ EveryStep step Careful {} actions := by
  have hsound : Sound {} := ⟨List.Sublist.refl _, fun _ h => absurd h List.not_mem_nil⟩
  have hframed : Framed {} := .of_accepted hsound.ordered (fun _ h => absurd h List.not_mem_nil)
    fun _ h => absurd h List.not_mem_nil
  refine along_iff_of_invariant (I := fun v => Framed v ∧ Sound v) ?_ ?_ ?_ ⟨hframed, hsound⟩
  · rintro v ⟨hframed, -⟩
    exact hframed
  · rintro v a ⟨hframed, hsound⟩ hcareful
    exact ⟨(framed_step_iff hsound hframed a).mpr hcareful, sound_step hsound a⟩
  · rintro v a ⟨hframed, hsound⟩ hframed'
    exact (framed_step_iff hsound hframed a).mp hframed'

/-- Two segments of one byte, the first of which the socket takes only one byte. -/
def shortWrite : List Action :=
  [.pushFrame none true ⟨[1], by decide⟩, .pushFrame none false ⟨[2], by decide⟩,
    .poll none, .wake, .sendSegment (some 1), .sendSegment (some 3)]

/-- The second segment goes out behind the first byte of the first. -/
theorem framed_refuted : ¬ ∀ actions : List Action, Along step Framed {} actions := by
  intro h
  have haccepted := (h shortWrite).last.accepted (.binary [1], 1)
  exact absurd (haccepted (by decide)) (by decide)

end ViewerStream

end LoongNvr.Network
