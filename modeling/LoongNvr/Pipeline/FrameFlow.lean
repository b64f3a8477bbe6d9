import LoongNvr.Pipeline.Orchestrator

/-!
# Pipeline — FrameFlow

What the frames at each place of a channel's pipeline are, in every state it reaches.

Up to the decode stage a frame is encoded and names the channel; the decoder builds a new frame,
without a channel, and no later stage gives it one.  All along, a frame's `pts` is the presentation
time of its packet, in whatever unit the stream counts.

* `Flow.step`, `flow_launch`: the invariant.
-/

namespace LoongNvr.Pipeline
open LoongNvr.Core LoongNvr.VideoInput LoongNvr.Codec LoongNvr.Rules Support IouTracker

/-- The stages of channel `c`, by their places. -/
def Suits (c : ℤ) : ℕ → Stage → Prop
  | 0, stage => ∃ s, stage = .input s ∧ ∀ client ∈ s.client, client.channelId = c
  | 1, stage => ∃ d, stage = .decode d
  | 2, stage => ∃ a, stage = .ai a ∧ ∀ pending ∈ a.pendingFrame, pending.channelId = -1
  | _ + 3, stage => stage = .rule ∨ stage = .overlay ∨ ∃ o, stage = .output o

/-- The frames of channel `c` that wait in front of a place: none at the source, encoded ones at
the decode stage, and behind it frames without a channel. -/
def Waits (c : ℤ) : ℕ → Frame → Prop
  | 0, _ => False
  | 1, frame => frame.type = .encoded ∧ frame.channelId = c ∧ frame.pts = frame.origin
  | _ + 2, frame => frame.channelId = -1 ∧ frame.pts = frame.origin

theorem Waits.pts_eq {c : ℤ} {i : ℕ} {frame : Frame} (h : Waits c i frame) :
    frame.pts = frame.origin := by
  match i with
  | 0 => exact h.elim
  | 1 => exact h.2.2
  | _ + 2 => exact h.2

/-- The invariant of a channel's pipeline. -/
abbrev Flow (srt : PairSorter) (c : ℤ) (s : PipelineState) : Prop :=
  LineInv (pipeline srt) (Waits c) (Suits c) s

/-! ### Stage by stage -/

variable {srt : PairSorter} {c : ℤ}

/-- **Decoded frames** have no channel, and the time of their packet. -/
theorem decode_frames {d : DecodeStage} {frame : Frame} (htype : frame.type = .encoded)
    (hpts : frame.pts = frame.origin) (opens : Bool) (pictures : List Picture) :
    ∀ decoded ∈ (d.processFrame frame opens pictures).2,
      decoded.channelId = -1 ∧ decoded.pts = decoded.origin := by
  intro decoded hdecoded
  simp only [DecodeStage.processFrame, htype] at hdecoded
  split at hdecoded
  · cases hdecoded
  · obtain ⟨picture, -, rfl⟩ := List.mem_map.mp hdecoded
    exact ⟨rfl, hpts⟩

theorem processFrame_keeps {input : StageInput} {engine : RuleEngine} {i : ℕ} {stage : Stage}
    {frame : Frame} (hstage : Suits c i stage) (hframe : Waits c i frame) :
    LineInv.Keeps (Waits c) (Suits c) i (stage.processFrame srt input engine frame) := by
  match i with
  | 0 => exact hframe.elim
  | 1 =>
      obtain ⟨d, rfl⟩ := hstage
      exact ⟨⟨_, rfl⟩, decode_frames hframe.1 hframe.2.2 input.opens input.pictures⟩
  | 2 =>
      obtain ⟨a, rfl, hpending⟩ := hstage
      refine ⟨⟨_, rfl, fun pending hmem => ?_⟩, fun out hout => ?_⟩
      · -- a pending frame was so before, or is this one
        rcases AiStage.processFrame_pendingFrame a frame hmem with hold | ⟨analysis, rfl⟩
        · exact hpending pending hold
        · exact hframe.1
      · obtain ⟨analysis, hresult⟩ := AiStage.processFrame_frame a frame
        have hout' : out = (a.processFrame frame).2.1 := List.mem_singleton.mp hout
        rw [hout', hresult]
        exact hframe
  | i + 3 =>
      rcases hstage with rfl | rfl | ⟨o, rfl⟩
      · refine ⟨.inl rfl, fun out hout => ?_⟩
        obtain ⟨overlay, hresult⟩ := RuleStage.processFrame_frame srt engine frame input.now
        have hout' : out = (RuleStage.processFrame srt engine frame input.now).2 :=
          List.mem_singleton.mp hout
        rw [hout', hresult]
        exact hframe
      · refine ⟨.inr (.inl rfl), fun out hout => ?_⟩
        rw [List.mem_singleton.mp hout]
        exact hframe
      · exact ⟨.inr (.inr ⟨_, rfl⟩), fun out hout => by cases hout⟩

theorem receive_frames {s : InputStage} (hclient : ∀ client ∈ s.client, client.channelId = c)
    (pkt : AVPacket) (filtered : List AVPacket) :
    ∀ frame ∈ s.receive pkt filtered, Waits c 1 frame := by
  intro frame hframe
  unfold InputStage.receive at hframe
  split at hframe
  · cases hframe
  · next client hsome =>
      obtain ⟨delivered, -, rfl⟩ := List.mem_map.mp hframe
      exact ⟨rfl, hclient client hsome, rfl⟩

theorem background_keeps {input : StageInput} {engine : RuleEngine} {i : ℕ} {stage : Stage}
    (hstage : Suits c i stage) :
    LineInv.Keeps (Waits c) (Suits c) i (stage.background input engine) := by
  match i with
  | 0 =>
      obtain ⟨s, rfl, hclient⟩ := hstage
      refine ⟨⟨s, rfl, hclient⟩, fun frame hframe => ?_⟩
      dsimp only [Stage.background] at hframe
      split at hframe
      · cases hframe
      · exact receive_frames hclient _ _ frame hframe
  | 1 =>
      obtain ⟨d, rfl⟩ := hstage
      exact ⟨⟨d, rfl⟩, fun frame hframe => by cases hframe⟩
  | 2 =>
      obtain ⟨a, rfl, hpending⟩ := hstage
      refine ⟨⟨_, rfl, fun pending hmem => ?_⟩, fun frame hframe => by cases hframe⟩
      exact hpending pending (AiStage.inferWorker_pendingFrame a input.drawn hmem)
  | i + 3 =>
      rcases hstage with rfl | rfl | ⟨o, rfl⟩
      · exact ⟨.inl rfl, fun frame hframe => by cases hframe⟩
      · exact ⟨.inr (.inl rfl), fun frame hframe => by cases hframe⟩
      · exact ⟨.inr (.inr ⟨o, rfl⟩), fun frame hframe => by cases hframe⟩

/-! ### The invariant -/

/-- **Every step** keeps the invariant. -/
theorem Flow.step {s : PipelineState} (h : Flow srt c s) (a : PipelineAction) :
    Flow srt c ((pipeline srt).step s a) :=
  LineInv.step h (fun _ _ _ hstage => background_keeps hstage)
    fun _ _ _ _ _ hframe hstage => processFrame_keeps hstage hframe

/-- The stages of a launched pipeline. -/
theorem suits_launch {orc : ChannelOrchestrator} {config : ChannelConfig} {res : ChannelResources}
    {aiStage : AiStage} (hpending : aiStage.pendingFrame = none) {opens : Bool}
    {stream : Option VideoStream} {i : ℕ} {entry : StageEntry}
    (hentry : (orc.stages config res aiStage)[i]? = some entry)
    {t : Station Stage Frame StageQueue} (ht : entry.launch opens stream = some t) :
    Suits config.id i t.state := by
  obtain ⟨stage, hstage, rfl⟩ := Option.map_eq_some_iff.mp ht
  match i with
  | 0 =>
      cases hentry
      dsimp only [Stage.initializeStage] at hstage
      split at hstage
      · cases hstage
      · cases hstage
        refine ⟨_, rfl, fun client hclient => ?_⟩
        obtain ⟨found, -, rfl⟩ := Option.map_eq_some_iff.mp hclient
        rfl
  | 1 =>
      cases hentry
      dsimp only [Stage.initializeStage] at hstage
      split at hstage
      · obtain ⟨decoder, -, rfl⟩ := Option.map_eq_some_iff.mp hstage
        exact ⟨_, rfl⟩
      · cases hstage
        exact ⟨_, rfl⟩
  | 2 =>
      cases hentry
      cases hstage
      refine ⟨_, rfl, fun pending hmem => ?_⟩
      rw [hpending] at hmem
      cases hmem
  | i + 3 =>
      -- from the third stage on the order is the configuration's
      have hmem : entry ∈ orc.laterStages config res := List.mem_of_getElem? (i := i) hentry
      rcases ChannelOrchestrator.mem_laterStages hmem with hkind | hkind | ⟨o, hkind⟩
      · rw [hkind] at hstage
        cases hstage
        exact .inl rfl
      · rw [hkind] at hstage
        cases hstage
        exact .inr (.inl rfl)
      · rw [hkind] at hstage
        cases hstage
        exact .inr (.inr ⟨_, rfl⟩)

/-- A running pipeline starts with what holds of each stage when it is launched. -/
theorem lineInv_launch {entries : List StageEntry} {opens : Bool} {stream : Option VideoStream}
    {engine : RuleEngine} {s : PipelineState}
    (hlaunch : launch entries opens stream engine = some s)
    {waits : ℕ → Frame → Prop} {suits : ℕ → Stage → Prop}
    (h : ∀ i entry (t : Station Stage Frame StageQueue), entries[i]? = some entry →
      entry.launch opens stream = some t → suits i t.state) :
    LineInv (pipeline srt) waits suits s := by
  refine LineInv.of_idle (fun i t ht => ?_) fun i t ht => ?_
  · obtain ⟨-, -, -, hqueue, hout⟩ := launch_station hlaunch ht
    exact ⟨hqueue, hout⟩
  · obtain ⟨entry, hentry, hstation, -⟩ := launch_station hlaunch ht
    exact h i entry t hentry hstation

/-- **A running pipeline** starts with the invariant. -/
theorem flow_launch {lib : EngineLibraries} {orc : ChannelOrchestrator} {config : ChannelConfig}
    {entries : List StageEntry} (hbuild : (orc.buildPipeline lib config).2 = some entries)
    {opens : Bool} {stream : Option VideoStream} {engine : RuleEngine} {s : PipelineState}
    (hlaunch : launch entries opens stream engine = some s) : Flow srt config.id s := by
  obtain ⟨res, aiStage, rfl, hpending⟩ := ChannelOrchestrator.buildPipeline_some hbuild
  exact lineInv_launch hlaunch fun _ _ _ hentry hstation => suits_launch hpending hentry hstation

end LoongNvr.Pipeline
